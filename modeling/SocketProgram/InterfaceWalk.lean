/-
This file models the second loop of `get_ifi_info`, which goes through the list of interfaces that
the first loop got. It does not go from one `struct ifreq` to the next: the cursor advances by the
size of a name and of the address that the family in front of it stands for. The two agree where a
`struct ifreq` is as long as that, and on Linux with 64-bit pointers it is 40 bytes long, for a map
of the device in the same union, where a name and a `struct sockaddr` take 32.

The loop is modelled on the bytes the kernel wrote. A load of bytes behind `ifc_len` ends it.
-/

import SocketProgram.InterfaceSizing
import SocketProgram.Stdio

namespace SocketProgram.GetIfiInfo

/-! ### The source -/

/-- `IFNAMSIZ`. -/
def ifnamsiz : Nat := 16

/-- `IFI_NAME` of `unpifi.h`. -/
def ifiName : Nat := 16

/-- `sizeof(struct sockaddr)` and `sizeof(struct sockaddr_in)`. -/
def sizeofSockaddr : Nat := 16

/-- `sizeof(struct sockaddr_in6)`. -/
def sizeofSockaddrIn6 : Nat := 28

/-- `AF_INET`. -/
def afInet : Nat := 2

/-- `AF_INET6`. -/
def afInet6 : Nat := 10

/-- `':'`. -/
def colon : Byte := 58

/-- `IFF_UP`. -/
def iffUp : BitVec 16 := 0x1

/-- `IFF_BROADCAST`. -/
def iffBroadcast : BitVec 16 := 0x2

/-- `IFF_POINTOPOINT`. -/
def iffPointopoint : BitVec 16 := 0x10

/-- `IFI_ALIAS` of `unpifi.h`. -/
def ifiAlias : Nat := 1

/-- What the program is compiled for: the size of a `struct ifreq`, and whether `IPV6` is defined.
Linux has neither a length in its addresses nor a `struct sockaddr_dl`. -/
structure Build where
  sizeofIfreq : Nat
  ipv6 : Bool

/-- The arguments of `get_ifi_info`. -/
structure Asked where
  family : Int
  doaliases : Int

/-- What the kernel answers to the calls of `ioctl` about the interface of this name. -/
structure Answers where
  flags : List Byte → BitVec 16
  broadaddr : List Byte → List Byte
  dstaddr : List Byte → List Byte

/-- What the function stores in a `struct ifi_info`. There is no hardware address to store, and
a pointer that is not set is `none`. -/
structure IfiInfo where
  name : List Byte
  index : Nat
  mtu : Nat
  hlen : Nat
  flags : BitVec 16
  myflags : Nat
  addr : Option (List Byte)
  brdaddr : Option (List Byte)
  dstaddr : Option (List Byte)
  deriving DecidableEq, Repr

/-- The variables of the loop: what is in `buf`, where `ptr` is in it, and the list so far. -/
structure Walk where
  buf : List Byte
  ptr : Nat
  lastname : List Byte
  entries : List IfiInfo

/-- So many bytes from there on, if all of them stand before `ifc_len`. -/
def load (buf : List Byte) (ptr count : Nat) : Option (List Byte) :=
  if ptr + count ≤ buf.length then some ((buf.drop ptr).take count) else none

/-- `ifr->ifr_addr.sa_family`, the low byte first. -/
def loadFamily (buf : List Byte) (ptr : Nat) : Option Nat :=
  (load buf (ptr + ifnamsiz) 2).map fun bytes =>
    bytes.foldr (fun byte family => byte.toNat + 256 * family) 0

/-- The `len` that the first `switch` sets. -/
def Build.addressLength (build : Build) (family : Nat) : Nat :=
  if build.ipv6 ∧ family = afInet6 then sizeofSockaddrIn6 else sizeofSockaddr

/-- A string with a null byte for its first colon, or as it is when it has none; there is no result
when it has no end either. -/
def cut : List Byte → Option (List Byte)
  | [] => none
  | byte :: bytes =>
    if byte = colon then some (0 :: bytes)
    else if byte = 0 then some (byte :: bytes)
    else (cut bytes).map (byte :: ·)

/-- `if((cptr = strchr(ifr->ifr_name,':'))!=NULL) *cptr=0`. -/
def cutAt (buf : List Byte) (ptr : Nat) : Option (List Byte) :=
  (cut (buf.drop ptr)).map (buf.take ptr ++ ·)

/-- How many bytes of an address the second `switch` copies. -/
def addressSize (family : Nat) : Option Nat :=
  if family = afInet then some sizeofSockaddr
  else if family = afInet6 then some sizeofSockaddrIn6
  else none

/-- The copy of the address in the second `switch`. -/
def copyAddress (buf : List Byte) (ptr : Nat) : Option (Option (List Byte)) := do
  let family ← loadFamily buf ptr
  match addressSize family with
  | none => return none
  | some count => return some (← load buf (ptr + ifnamsiz) count)

/-- What `get_ifi_info` fills in, where `name` is what stands in `ifr_name` by then. -/
def newEntry (answers : Answers) (name : List Byte) (family myflags : Nat)
    (addr : Option (List Byte)) : IfiInfo where
  name := cstring (name.take (ifiName - 1))
  index := 0
  mtu := 0
  hlen := 0
  flags := answers.flags (cstring name)
  myflags := myflags
  addr := addr
  brdaddr :=
    if family = afInet ∧ answers.flags (cstring name) &&& iffBroadcast ≠ 0 then
      some (answers.broadaddr (cstring name))
    else none
  dstaddr :=
    if (family = afInet ∨ family = afInet6) ∧
        answers.flags (cstring name) &&& iffPointopoint ≠ 0 then
      some (answers.dstaddr (cstring name))
    else none

/-- The body of the second `for`; there is no result when it loads a byte behind `ifc_len`. -/
def visit (build : Build) (asked : Asked) (answers : Answers) (walk : Walk) : Option Walk := do
  let family ← loadFamily walk.buf walk.ptr
  let ptr := walk.ptr + ifnamsiz + build.addressLength family
  if (family : Int) ≠ asked.family then
    return { walk with ptr := ptr }
  let buf ← cutAt walk.buf walk.ptr
  let name ← load buf walk.ptr ifnamsiz
  let same := cstring (walk.lastname.take ifnamsiz) = cstring name
  if same ∧ asked.doaliases = 0 then
    return { walk with buf := buf, ptr := ptr }
  let myflags := if same then ifiAlias else 0
  let _ifrcopy ← load buf walk.ptr build.sizeofIfreq
  if answers.flags (cstring name) &&& iffUp = 0 then
    return { walk with buf := buf, ptr := ptr, lastname := name }
  let addr ← copyAddress buf walk.ptr
  return {
    buf := buf
    ptr := ptr
    lastname := name
    entries := walk.entries ++ [newEntry answers name family myflags addr] }

/-- How the loop stands: it has ended, it has loaded a byte behind `ifc_len`, or there is more of
it. -/
inductive Standing
  | ends (walk : Walk)
  | overruns
  | more

/-- So many rounds of the second `for` at most: where the cursor was, and how the loop stands. -/
def walkThrough (build : Build) (asked : Asked) (answers : Answers) :
    Nat → Walk → List Nat × Standing
  | 0, _ => ([], .more)
  | fuel + 1, walk =>
    if walk.ptr < walk.buf.length then
      match visit build asked answers walk with
      | none => ([walk.ptr], .overruns)
      | some next =>
        (walk.ptr :: (walkThrough build asked answers fuel next).1,
          (walkThrough build asked answers fuel next).2)
    else ([], .ends walk)

/-- The variables before the loop. Only the first byte of `lastname` is set. -/
def Walk.initial (buf unset : List Byte) : Walk where
  buf := buf
  ptr := 0
  lastname := 0 :: unset
  entries := []

/-! ### The records -/

/-- The name in front of the first colon. -/
def baseName (name : List Byte) : List Byte :=
  name.takeWhile fun byte => byte ≠ colon ∧ byte ≠ 0

/-- A `struct ifreq` as the kernel writes it: a name that ends in its array, of an interface that
has a name, the family, and what the rest of the union holds. -/
structure Ifreq (size : Nat) where
  name : List Byte
  family : Nat
  data : List Byte
  length_name : name.length = ifnamsiz
  terminated : 0 ∈ name
  named : baseName name ≠ []
  family_lt : family < 65536
  length_data : ifnamsiz + 2 + data.length = size

/-- What stands at `ifr_addr`. -/
def Ifreq.address {size : Nat} (record : Ifreq size) : List Byte :=
  UInt8.ofNat record.family :: UInt8.ofNat (record.family / 256) :: record.data

/-- The bytes of a record. -/
def Ifreq.bytes {size : Nat} (record : Ifreq size) : List Byte := record.name ++ record.address

/-- The interface the record is of. -/
def Ifreq.base {size : Nat} (record : Ifreq size) : List Byte := baseName record.name

/-- What the loop remembers from one record to the next. -/
structure Memo where
  lastname : List Byte
  entries : List IfiInfo

/-- What the first loop leaves in `buf`. -/
def written {size : Nat} (records : List (Ifreq size)) : List Byte := records.flatMap Ifreq.bytes

/-- Where so many records of this size start. -/
def starts (size count : Nat) : List Nat := (List.range count).map (· * size)

/-- The loop ends without a load behind `ifc_len`, and the cursor has been at the start of every
record, once and in order. -/
def VisitsEach (build : Build) (asked : Asked) (answers : Answers) (unset : List Byte)
    (records : List (Ifreq build.sizeofIfreq)) : Prop :=
  ∃ (fuel : Nat) (walk : Walk),
    walkThrough build asked answers fuel (.initial (written records) unset) =
      (starts build.sizeofIfreq records.length, .ends walk)

/-! ### Loads -/

theorem load_append (front rest : List Byte) (ptr count : Nat) :
    load (front ++ rest) (front.length + ptr) count = load rest ptr count := by
  rw [load, load, List.length_append, List.drop_length_add_append, Nat.add_assoc]
  simp only [Nat.add_le_add_iff_left]

theorem load_zero {bytes : List Byte} {count : Nat} (inside : count ≤ bytes.length) :
    load bytes 0 count = some (bytes.take count) := by
  rw [load, if_pos (by omega), List.drop_zero]

/-- The bytes between two others are loaded from behind the first. -/
theorem load_between (front middle back : List Byte) :
    load (front ++ (middle ++ back)) front.length middle.length = some middle := by
  have whole : middle.length ≤ (middle ++ back).length := by
    rw [List.length_append]
    exact Nat.le_add_right _ _
  rw [show front.length = front.length + 0 from rfl, load_append, load_zero whole,
    List.take_left]

theorem loadFamily_append (front rest : List Byte) (ptr : Nat) :
    loadFamily (front ++ rest) (front.length + ptr) = loadFamily rest ptr := by
  rw [loadFamily, loadFamily, Nat.add_assoc, load_append]

/-! ### Names -/

theorem cut_append {bytes cutBytes : List Byte} (isCut : cut bytes = some cutBytes)
    (rest : List Byte) : cut (bytes ++ rest) = some (cutBytes ++ rest) := by
  induction bytes generalizing cutBytes with
  | nil => exact absurd isCut (Option.some_ne_none _).symm
  | cons byte bytes inductionHypothesis =>
    rw [cut] at isCut
    rw [List.cons_append, cut]
    split_ifs at isCut ⊢
    · cases isCut
      rfl
    · cases isCut
      rfl
    · obtain ⟨others, isCutThere, rfl⟩ := Option.map_eq_some_iff.mp isCut
      rw [inductionHypothesis isCutThere]
      rfl

theorem length_cut {bytes cutBytes : List Byte} (isCut : cut bytes = some cutBytes) :
    cutBytes.length = bytes.length := by
  induction bytes generalizing cutBytes with
  | nil => exact absurd isCut (Option.some_ne_none _).symm
  | cons byte bytes inductionHypothesis =>
    rw [cut] at isCut
    split_ifs at isCut
    · cases isCut
      rfl
    · cases isCut
      rfl
    · obtain ⟨others, isCutThere, rfl⟩ := Option.map_eq_some_iff.mp isCut
      rw [List.length_cons, List.length_cons, inductionHypothesis isCutThere]

/-- What is left of a name is what stood in front of its first colon. -/
theorem cstring_cut {bytes cutBytes : List Byte} (isCut : cut bytes = some cutBytes) :
    cstring cutBytes = baseName bytes := by
  induction bytes generalizing cutBytes with
  | nil => exact absurd isCut (Option.some_ne_none _).symm
  | cons byte bytes inductionHypothesis =>
    rw [cut] at isCut
    rw [baseName, List.takeWhile_cons]
    split_ifs at isCut with isColon isNul
    · cases isCut
      rw [isColon]
      rfl
    · cases isCut
      rw [isNul]
      rfl
    · obtain ⟨others, isCutThere, rfl⟩ := Option.map_eq_some_iff.mp isCut
      rw [if_pos (by simp [isColon, isNul]), cstring, List.takeWhile_cons,
        if_pos (bne_iff_ne.mpr isNul)]
      exact congrArg (byte :: ·) (inductionHypothesis isCutThere)

/-- A string that ends can be cut, and still ends. -/
theorem exists_cut {bytes : List Byte} (terminated : 0 ∈ bytes) :
    ∃ cutBytes, cut bytes = some cutBytes ∧ 0 ∈ cutBytes := by
  induction bytes with
  | nil => exact absurd terminated List.not_mem_nil
  | cons byte bytes inductionHypothesis =>
    rw [cut]
    split_ifs with isColon isNul
    · exact ⟨_, rfl, List.mem_cons_self⟩
    · exact ⟨_, rfl, isNul ▸ List.mem_cons_self⟩
    · have later := (List.mem_cons.mp terminated).resolve_left (Ne.symm isNul)
      obtain ⟨others, isCut, ends⟩ := inductionHypothesis later
      exact ⟨byte :: others, by rw [isCut]; rfl, List.mem_cons_of_mem _ ends⟩

/-- The last byte of an array does not matter to a string that ends in it. -/
theorem cstring_take {bytes : List Byte} (terminated : 0 ∈ bytes) :
    cstring (bytes.take (bytes.length - 1)) = cstring bytes := by
  have isPrefix : cstring bytes <+: bytes := List.takeWhile_prefix _
  have shorter : (cstring bytes).length ≠ bytes.length := by
    intro same
    rw [← isPrefix.eq_of_length same] at terminated
    have kept := List.mem_takeWhile_imp (p := fun c => c != 0) terminated
    exact absurd rfl (bne_iff_ne.mp kept)
  have short : (cstring bytes).length ≤ bytes.length - 1 := by
    have atMost := isPrefix.length_le
    omega
  rw [cstring, ← List.take_takeWhile]
  exact List.take_of_length_le short

/-! ### Records in the buffer -/

section Records

variable {size : Nat} (record : Ifreq size)

namespace Ifreq

theorem length_address : ifnamsiz + record.address.length = size := by
  have whole := record.length_data
  rw [address, List.length_cons, List.length_cons]
  omega

theorem length_bytes : record.bytes.length = size := by
  rw [bytes, List.length_append, record.length_name, record.length_address]

/-- What `strchr` and the null byte leave of the name. -/
def cutName : List Byte := (cut record.name).getD []

theorem cut_name : cut record.name = some record.cutName ∧ 0 ∈ record.cutName := by
  obtain ⟨cutBytes, isCut, ends⟩ := exists_cut record.terminated
  rw [cutName, isCut]
  exact ⟨rfl, ends⟩

theorem length_cutName : record.cutName.length = ifnamsiz :=
  (length_cut record.cut_name.1).trans record.length_name

theorem cstring_cutName : cstring record.cutName = record.base := cstring_cut record.cut_name.1

/-- A record whose name has been cut. -/
def cutBytes : List Byte := record.cutName ++ record.address

theorem length_cutBytes : record.cutBytes.length = size := by
  rw [cutBytes, List.length_append, record.length_cutName, record.length_address]

end Ifreq

theorem loadFamily_address (front : List Byte) {name : List Byte} (back : List Byte)
    (length : name.length = ifnamsiz) :
    loadFamily (front ++ (name ++ record.address ++ back)) front.length = some record.family := by
  have two : 2 ≤ (record.address ++ back).length := by
    rw [Ifreq.address]
    exact Nat.le_add_left 2 _
  have small := record.family_lt
  rw [show front.length = front.length + 0 from rfl, loadFamily_append, loadFamily, Nat.zero_add,
    ← length, List.append_assoc, show name.length = name.length + 0 from rfl, load_append,
    load_zero two, Ifreq.address]
  simp only [List.cons_append, List.take_succ_cons, List.take_zero, Option.map_some,
    List.foldr_cons, List.foldr_nil, UInt8.toNat_ofNat']
  congr 1
  omega

theorem cutAt_record (front back : List Byte) :
    cutAt (front ++ (record.bytes ++ back)) front.length =
      some (front ++ (record.cutBytes ++ back)) := by
  rw [cutAt, List.drop_left, List.take_left, Ifreq.bytes, List.append_assoc,
    cut_append record.cut_name.1, Ifreq.cutBytes, List.append_assoc]
  rfl

theorem load_cutName (front back : List Byte) :
    load (front ++ (record.cutBytes ++ back)) front.length ifnamsiz = some record.cutName := by
  rw [Ifreq.cutBytes, List.append_assoc, ← record.length_cutName]
  exact load_between front record.cutName (record.address ++ back)

theorem load_cutBytes (front back : List Byte) :
    load (front ++ (record.cutBytes ++ back)) front.length size = some record.cutBytes := by
  have between := load_between front record.cutBytes back
  rwa [record.length_cutBytes] at between

end Records

/-! ### One round -/

/-- The body of the loop as far as it is about one record that is a value of its own. -/
def examine {size : Nat} (asked : Asked) (answers : Answers) (memo : Memo)
    (record : Ifreq size) : Memo :=
  if (record.family : Int) ≠ asked.family then memo
  else if cstring (memo.lastname.take ifnamsiz) = record.base ∧ asked.doaliases = 0 then memo
  else if answers.flags record.base &&& iffUp = 0 then { memo with lastname := record.cutName }
  else {
    lastname := record.cutName
    entries := memo.entries ++ [newEntry answers record.cutName record.family
      (if cstring (memo.lastname.take ifnamsiz) = record.base then ifiAlias else 0)
      ((addressSize record.family).map record.address.take)] }

section Visit

variable (build : Build) (asked : Asked) (answers : Answers)
  (record : Ifreq build.sizeofIfreq)

/-- The address is copied from the record alone if the record is long enough for it. -/
theorem copyAddress_record (front back : List Byte)
    (inside : ∀ count ∈ addressSize record.family, ifnamsiz + count ≤ build.sizeofIfreq) :
    copyAddress (front ++ (record.cutBytes ++ back)) front.length =
      some ((addressSize record.family).map record.address.take) := by
  have family := loadFamily_address record front back record.length_cutName
  rw [← Ifreq.cutBytes] at family
  rw [copyAddress, family]
  cases size : addressSize record.family with
  | none => simp only [Option.bind_eq_bind, Option.bind_some, size]; rfl
  | some count =>
    have length := record.length_address
    have enough := inside count size
    have whole : count ≤ (record.address ++ back).length := by
      rw [List.length_append]
      omega
    have loaded : load (front ++ (record.cutBytes ++ back)) (front.length + ifnamsiz) count =
        some (record.address.take count) := by
      rw [load_append, Ifreq.cutBytes, List.append_assoc, ← record.length_cutName,
        show record.cutName.length = record.cutName.length + 0 from rfl, load_append,
        load_zero whole, List.take_append_of_le_length (by omega)]
    simp only [Option.bind_eq_bind, Option.bind_some, size, loaded]
    rfl

/-- What the body of the loop does with a record, where the address it copies is in the record. -/
theorem visit_record (front back : List Byte) (memo : Memo)
    (inside : (record.family : Int) = asked.family → answers.flags record.base &&& iffUp ≠ 0 →
      ∀ count ∈ addressSize record.family, ifnamsiz + count ≤ build.sizeofIfreq) :
    ∃ bytes : List Byte, bytes.length = build.sizeofIfreq ∧
      visit build asked answers
          ⟨front ++ (record.bytes ++ back), front.length, memo.lastname, memo.entries⟩ =
        some ⟨front ++ (bytes ++ back),
          front.length + ifnamsiz + build.addressLength record.family,
          (examine asked answers memo record).lastname,
          (examine asked answers memo record).entries⟩ := by
  have family : loadFamily (front ++ (record.bytes ++ back)) front.length = some record.family :=
    loadFamily_address record front back record.length_name
  by_cases other : (record.family : Int) = asked.family
  · refine ⟨record.cutBytes, record.length_cutBytes, ?_⟩
    by_cases up : answers.flags record.base &&& iffUp = 0
    · simp only [visit, examine, family, cutAt_record, load_cutName, load_cutBytes,
        Ifreq.cstring_cutName, Option.bind_eq_bind, Option.bind_some, other, up, ne_eq,
        not_true_eq_false, if_false, if_true]
      split_ifs
      · rfl
      · rfl
    · simp only [visit, examine, family, cutAt_record, load_cutName, load_cutBytes,
        Ifreq.cstring_cutName, Option.bind_eq_bind, Option.bind_some, other, up, ne_eq,
        not_true_eq_false, if_false,
        copyAddress_record build record front back (inside other up)]
      split_ifs
      · rfl
      · rfl
      · rfl
  · refine ⟨record.bytes, record.length_bytes, ?_⟩
    simp only [visit, examine, family, Option.bind_eq_bind, Option.bind_some, other, ne_eq,
      not_false_eq_true, if_true]
    rfl

/-- The body only goes on to where the family in front of the cursor sends it, and the buffer keeps
its length. -/
theorem visit_next {build : Build} {asked : Asked} {answers : Answers} {walk next : Walk}
    (visited : visit build asked answers walk = some next) :
    ∃ family, loadFamily walk.buf walk.ptr = some family ∧
      next.ptr = walk.ptr + ifnamsiz + build.addressLength family ∧
      next.buf.length = walk.buf.length := by
  have kept {buf : List Byte} (isCut : cutAt walk.buf walk.ptr = some buf) :
      buf.length = walk.buf.length := by
    obtain ⟨back, isCutThere, rfl⟩ := Option.map_eq_some_iff.mp isCut
    rw [List.length_append, length_cut isCutThere, ← List.length_append,
      List.take_append_drop]
  rw [visit] at visited
  obtain ⟨family, loaded, visited⟩ := Option.bind_eq_some_iff.mp visited
  refine ⟨family, loaded, ?_⟩
  dsimp only at visited
  split at visited
  · cases visited
    exact ⟨rfl, rfl⟩
  obtain ⟨buf, isCut, visited⟩ := Option.bind_eq_some_iff.mp visited
  obtain ⟨name, -, visited⟩ := Option.bind_eq_some_iff.mp visited
  split at visited
  · cases visited
    exact ⟨rfl, kept isCut⟩
  obtain ⟨_, -, visited⟩ := Option.bind_eq_some_iff.mp visited
  split at visited
  · cases visited
    exact ⟨rfl, kept isCut⟩
  obtain ⟨addr, -, visited⟩ := Option.bind_eq_some_iff.mp visited
  cases visited
  exact ⟨rfl, kept isCut⟩

/-- The copy of an address that is longer than the last record runs over its end. -/
theorem visit_overruns (front lastname : List Byte) (entries : List IfiInfo) {count : Nat}
    (desired : (record.family : Int) = asked.family)
    (first : cstring (lastname.take ifnamsiz) ≠ record.base)
    (up : answers.flags record.base &&& iffUp ≠ 0)
    (size : addressSize record.family = some count)
    (long : build.sizeofIfreq < ifnamsiz + count) :
    visit build asked answers
      ⟨front ++ (record.bytes ++ []), front.length, lastname, entries⟩ = none := by
  have family : loadFamily (front ++ (record.bytes ++ [])) front.length = some record.family :=
    loadFamily_address record front [] record.length_name
  have again : loadFamily (front ++ (record.cutBytes ++ [])) front.length = some record.family :=
    loadFamily_address record front [] record.length_cutName
  have outside :
      load (front ++ (record.cutBytes ++ [])) (front.length + ifnamsiz) count = none := by
    have length := record.length_cutBytes
    rw [load_append, load, if_neg]
    rw [List.append_nil]
    omega
  simp only [visit, family, cutAt_record, load_cutName, load_cutBytes, Ifreq.cstring_cutName,
    Option.bind_eq_bind, Option.bind_some, copyAddress, again, size, outside, desired, first, up,
    ne_eq, not_true_eq_false, false_and, if_false, Option.bind_none]

end Visit

/-! ### The loop -/

theorem walkThrough_succ (build : Build) (asked : Asked) (answers : Answers) (fuel : Nat)
    {walk next : Walk} (before : walk.ptr < walk.buf.length)
    (visited : visit build asked answers walk = some next) :
    walkThrough build asked answers (fuel + 1) walk =
      (walk.ptr :: (walkThrough build asked answers fuel next).1,
        (walkThrough build asked answers fuel next).2) := by
  rw [walkThrough, if_pos before, visited]

theorem walkThrough_ends (build : Build) (asked : Asked) (answers : Answers) (fuel : Nat)
    {walk : Walk} (behind : ¬ walk.ptr < walk.buf.length) :
    walkThrough build asked answers (fuel + 1) walk = ([], .ends walk) := by
  rw [walkThrough, if_neg behind]

/-- A walk that ends has been where the cursor is now, unless that is the end. -/
theorem walkThrough_cons {build : Build} {asked : Asked} {answers : Answers} {fuel : Nat}
    {walk last : Walk} {visits : List Nat} (before : walk.ptr < walk.buf.length)
    (ended : walkThrough build asked answers fuel walk = (visits, .ends last)) :
    ∃ (earlier : Nat) (next : Walk) (rest : List Nat), fuel = earlier + 1 ∧
      visits = walk.ptr :: rest ∧ visit build asked answers walk = some next ∧
      walkThrough build asked answers earlier next = (rest, .ends last) := by
  cases fuel with
  | zero => cases ended
  | succ fuel =>
    rw [walkThrough, if_pos before] at ended
    cases visited : visit build asked answers walk with
    | none =>
      rw [visited] at ended
      cases ended
    | some next =>
      rw [visited] at ended
      obtain ⟨rfl, same⟩ := Prod.mk.inj ended
      exact ⟨fuel, next, _, rfl, rfl, rfl, Prod.ext rfl same⟩

/-- Every round takes the cursor further, so the loop does not go on for ever, whatever stands in
the buffer. -/
theorem walkThrough_ne_more {build : Build} {asked : Asked} {answers : Answers} {fuel : Nat}
    {walk : Walk} (enough : walk.buf.length ≤ walk.ptr + fuel) :
    (walkThrough build asked answers (fuel + 1) walk).2 ≠ .more := by
  induction fuel generalizing walk with
  | zero =>
    rw [walkThrough_ends build asked answers 0 (Nat.not_lt.mpr enough)]
    exact Standing.noConfusion
  | succ fuel inductionHypothesis =>
    by_cases before : walk.ptr < walk.buf.length
    · cases visited : visit build asked answers walk with
      | none =>
        rw [walkThrough, if_pos before, visited]
        exact Standing.noConfusion
      | some next =>
        obtain ⟨family, -, further, length⟩ := visit_next visited
        rw [walkThrough_succ build asked answers (fuel + 1) before visited]
        refine inductionHypothesis ?_
        rw [length, further, ifnamsiz]
        omega
    · rw [walkThrough_ends build asked answers (fuel + 1) before]
      exact Standing.noConfusion

theorem walkThrough_ne_more_anything :
    (walkThrough ⟨40, false⟩ ⟨afInet, 0⟩ ⟨fun _ => 0, fun _ => [], fun _ => []⟩ 41
      (.initial (List.replicate 40 7) [])).2 ≠ .more :=
  walkThrough_ne_more (by decide)

theorem written_cons {size : Nat} (record : Ifreq size) (records : List (Ifreq size)) :
    written (record :: records) = record.bytes ++ written records := List.flatMap_cons

section Aligned

variable {build : Build} {asked : Asked} {answers : Answers}

variable (asked answers) in
/-- A record that is as long as the step of the cursor over it, with the address that the loop
copies from it. -/
structure Aligned (record : Ifreq build.sizeofIfreq) : Prop where
  step : ifnamsiz + build.addressLength record.family = build.sizeofIfreq
  inside : (record.family : Int) = asked.family → answers.flags record.base &&& iffUp ≠ 0 →
    ∀ count ∈ addressSize record.family, ifnamsiz + count ≤ build.sizeofIfreq

/-- Records as long as the steps of the cursor are visited one by one, and what the loop makes of
them is what it makes of each as a value of its own. -/
theorem walkThrough_aligned (records : List (Ifreq build.sizeofIfreq)) (front : List Byte)
    (memo : Memo) (aligned : ∀ record ∈ records, Aligned asked answers record) :
    ∃ walk : Walk,
      walkThrough build asked answers (records.length + 1)
          ⟨front ++ written records, front.length, memo.lastname, memo.entries⟩ =
        ((List.range records.length).map (front.length + · * build.sizeofIfreq), .ends walk) ∧
      walk.entries = (records.foldl (examine asked answers) memo).entries := by
  induction records generalizing front memo with
  | nil =>
    refine ⟨_, walkThrough_ends build asked answers 0 ?_, rfl⟩
    rw [written, List.flatMap_nil, List.append_nil]
    exact Nat.lt_irrefl _
  | cons record records inductionHypothesis =>
    obtain ⟨here, later⟩ := List.forall_mem_cons.mp aligned
    obtain ⟨bytes, length, visited⟩ :=
      visit_record build asked answers record front (written records) memo here.inside
    have further : front.length + ifnamsiz + build.addressLength record.family =
        (front ++ bytes).length := by
      rw [List.length_append, length, Nat.add_assoc, here.step]
    have positive : 0 < build.sizeofIfreq := by
      rw [← here.step, ifnamsiz]
      omega
    have before : front.length < (front ++ (record.bytes ++ written records)).length := by
      rw [List.length_append, List.length_append, record.length_bytes]
      omega
    rw [further, ← List.append_assoc front bytes] at visited
    obtain ⟨walk, walked, entries⟩ := inductionHypothesis (front ++ bytes)
      (examine asked answers memo record) later
    refine ⟨walk, ?_, entries⟩
    rw [written_cons, List.length_cons, walkThrough_succ build asked answers _ before visited,
      walked]
    refine Prod.ext ?_ rfl
    rw [List.range_succ_eq_map, List.map_cons, List.map_map, List.length_append, length]
    refine congrArg₂ List.cons (by simp) (List.map_congr_left fun index _ => ?_)
    simp only [Function.comp_apply, Nat.succ_mul]
    omega

/-- The loop as a whole, on records as long as the steps of the cursor. -/
theorem walkThrough_records (unset : List Byte) (records : List (Ifreq build.sizeofIfreq))
    (aligned : ∀ record ∈ records, Aligned asked answers record) :
    ∃ walk : Walk,
      walkThrough build asked answers (records.length + 1) (.initial (written records) unset) =
        (starts build.sizeofIfreq records.length, .ends walk) ∧
      walk.entries = (records.foldl (examine asked answers) ⟨0 :: unset, []⟩).entries := by
  obtain ⟨walk, walked, entries⟩ :=
    walkThrough_aligned records [] ⟨0 :: unset, []⟩ aligned
  refine ⟨walk, walked.trans (Prod.ext (List.map_congr_left fun index _ => ?_) rfl), entries⟩
  exact Nat.zero_add _

end Aligned

/-! ### 64-bit pointers -/

/-- Linux with 64-bit pointers. -/
def lp64 (ipv6 : Bool) : Build := ⟨GetIfiInfo.sizeofIfreq, ipv6⟩

theorem length_written {size : Nat} (records : List (Ifreq size)) :
    (written records).length = records.length * size := by
  induction records with
  | nil => exact (Nat.zero_mul size).symm
  | cons record records inductionHypothesis =>
    rw [written_cons, List.length_append, record.length_bytes, List.length_cons, Nat.succ_mul,
      inductionHypothesis, Nat.add_comm]

theorem starts_succ (size count : Nat) :
    starts size (count + 1) = 0 :: (List.range count).map fun index => (index + 1) * size := by
  rw [starts, List.range_succ_eq_map, List.map_cons, List.map_map, Nat.zero_mul]
  rfl

/-- The step over a record is never as long as the record. -/
theorem addressLength_cases (ipv6 : Bool) (family : Nat) :
    (lp64 ipv6).addressLength family = 16 ∨
      (lp64 ipv6).addressLength family = 28 ∧ ipv6 = true ∧ family = afInet6 := by
  rw [Build.addressLength]
  split_ifs with both
  · exact Or.inr ⟨rfl, both⟩
  · exact Or.inl rfl

/-- The first round of a walk that visits each record. -/
theorem VisitsEach.first {build : Build} {asked : Asked} {answers : Answers} {unset : List Byte}
    {record : Ifreq build.sizeofIfreq} {records : List (Ifreq build.sizeofIfreq)}
    (each : VisitsEach build asked answers unset (record :: records)) :
    ∃ (next last : Walk) (fuel : Nat),
      visit build asked answers (.initial (record.bytes ++ written records) unset) = some next ∧
      next.ptr = ifnamsiz + build.addressLength record.family ∧
      next.buf.length = (records.length + 1) * build.sizeofIfreq ∧
      walkThrough build asked answers fuel next =
        ((List.range records.length).map fun index => (index + 1) * build.sizeofIfreq,
          .ends last) := by
  obtain ⟨fuel, last, ended⟩ := each
  have length := length_written (record :: records)
  rw [List.length_cons] at length
  have positive : 0 < (written (record :: records)).length := by
    have room := record.length_data
    rw [length]
    exact Nat.mul_pos (Nat.succ_pos _) (by omega)
  rw [List.length_cons, starts_succ] at ended
  obtain ⟨fuel, next, rest, -, visits, visited, ended⟩ := walkThrough_cons positive ended
  obtain ⟨-, rfl⟩ := List.cons.inj visits
  obtain ⟨family, loaded, further, kept⟩ := visit_next visited
  have own : family = record.family := by
    have first := loadFamily_address record [] (written records) record.length_name
    exact Option.some.inj (loaded.symm.trans first)
  refine ⟨next, last, fuel, visited, ?_, kept.trans length, ended⟩
  rw [further, own, Walk.initial, Nat.zero_add]

/-- The walk is what it should be when there is no record, or when there is one alone for which
the step is too long and the loop does not copy the address, which is too long as well. -/
theorem visitsEach_iff (ipv6 : Bool) (asked : Asked) (answers : Answers) (unset : List Byte)
    (records : List (Ifreq (lp64 ipv6).sizeofIfreq)) :
    VisitsEach (lp64 ipv6) asked answers unset records ↔
      records = [] ∨ ∃ record, records = [record] ∧ ipv6 = true ∧ record.family = afInet6 ∧
        ((record.family : Int) = asked.family → answers.flags record.base &&& iffUp = 0) := by
  constructor
  · intro each
    cases records with
    | nil => exact Or.inl rfl
    | cons record records =>
      obtain ⟨next, last, fuel, visited, step, bound, ended⟩ := each.first
      rw [ifnamsiz] at step
      change next.buf.length = (records.length + 1) * 40 at bound
      have short : next.ptr = 32 ∨ next.ptr = 44 ∧ ipv6 = true ∧ record.family = afInet6 := by
        obtain length | ⟨length, inet6⟩ := addressLength_cases ipv6 record.family
        · exact Or.inl (by omega)
        · exact Or.inr ⟨by omega, inet6⟩
      cases records with
      | cons second records =>
        -- the second record starts at 40, and the cursor never gets there
        rw [List.length_cons] at bound
        have before : next.ptr < next.buf.length := by omega
        obtain ⟨_, _, _, -, visits, -⟩ := walkThrough_cons before ended
        rw [List.length_cons, List.range_succ_eq_map, List.map_cons] at visits
        have second : 40 = next.ptr := (List.cons.inj visits).1
        omega
      | nil =>
        rw [List.length_nil] at bound
        obtain before | ⟨-, defined, inet6⟩ := short
        · obtain ⟨_, _, _, -, visits, -⟩ := walkThrough_cons (by omega) ended
          cases visits
        · refine Or.inr ⟨record, rfl, defined, inet6, fun desired => ?_⟩
          by_contra up
          have outside := visit_overruns (lp64 ipv6) asked answers record [] (0 :: unset) []
            desired (Ne.symm record.named) up (by rw [inet6]; rfl)
            (show 40 < ifnamsiz + sizeofSockaddrIn6 by decide)
          exact Option.some_ne_none next (visited.symm.trans outside)
  · rintro (rfl | ⟨record, rfl, defined, family, down⟩)
    · exact ⟨1, _, walkThrough_ends (lp64 ipv6) asked answers 0 (Nat.lt_irrefl 0)⟩
    · obtain ⟨bytes, length, visited⟩ := visit_record (lp64 ipv6) asked answers record [] []
        ⟨0 :: unset, []⟩ (fun desired up => absurd (down desired) up)
      change bytes.length = 40 at length
      have whole : record.bytes.length = 40 := record.length_bytes
      have before : 0 < (record.bytes ++ []).length := by
        rw [List.append_nil, whole]
        decide
      have step : (lp64 ipv6).addressLength record.family = 28 := if_pos ⟨defined, family⟩
      have behind : ¬ 0 + ifnamsiz + (lp64 ipv6).addressLength record.family <
          ([] ++ (bytes ++ [])).length := by
        rw [step, List.append_nil, List.nil_append, length]
        decide
      have ended := walkThrough_succ (lp64 ipv6) asked answers 1 before visited
      rw [walkThrough_ends (lp64 ipv6) asked answers 0 behind] at ended
      exact ⟨2, _, ended⟩

/-- A record of an IPv4 address, with zeros behind it. -/
def Ifreq.inet {size : Nat} (name : List Byte) (address : BitVec 32) (large : ifnamsiz + 8 ≤ size)
    (short : name.length < ifnamsiz)
    (named : baseName (name ++ List.replicate (ifnamsiz - name.length) 0) ≠ []) : Ifreq size where
  name := name ++ List.replicate (ifnamsiz - name.length) 0
  family := afInet
  data := [0, 0, UInt8.ofNat (address >>> 24).toNat, UInt8.ofNat (address >>> 16).toNat,
    UInt8.ofNat (address >>> 8).toNat, UInt8.ofNat address.toNat] ++
      List.replicate (size - (ifnamsiz + 8)) 0
  length_name := by
    rw [List.length_append, List.length_replicate]
    omega
  terminated :=
    List.mem_append_right _ (List.mem_replicate.mpr ⟨Nat.sub_ne_zero_of_lt short, rfl⟩)
  named := named
  family_lt := by decide
  length_data := by
    rw [List.length_append, List.length_replicate]
    simp only [List.length_cons, List.length_nil]
    omega

/-- The record of `lo`. -/
def loopback : Ifreq GetIfiInfo.sizeofIfreq :=
  .inet [108, 111] 0x7f000001#32 (by decide) (by decide) (by decide)

/-- A kernel for which every interface is up, and has no other address. -/
def allUp : Answers where
  flags _ := iffUp
  broadaddr _ := []
  dstaddr _ := []

/-- The cursor comes to the last eight bytes of the only record. -/
theorem not_visitsEach_loopback :
    ¬ VisitsEach (lp64 false) ⟨afInet, 0⟩ allUp (List.replicate 15 0) [loopback] := by
  intro each
  obtain ⟨next, last, fuel, -, step, bound, ended⟩ := each.first
  have behind : next.ptr = 32 := step
  have whole : next.buf.length = 40 := bound
  have before : next.ptr < next.buf.length := by
    rw [behind, whole]
    decide
  obtain ⟨_, _, _, -, visits, -⟩ := walkThrough_cons before ended
  cases visits

end SocketProgram.GetIfiInfo
