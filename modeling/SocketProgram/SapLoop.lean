/-
This file models `loop` of `mysdr/loop.c`, which prints the session announcements it receives.
Every datagram is received into the same buffer, and a NUL is stored behind it; what was in
the buffer from there on stays. The misspelt `ntohl(buf,sap_header)` and `SAP_AUTHLEN_SHIT`
are read as `ntohl(buf.sap_header)` and `SAP_AUTHLEN_SHIFT`. The masks and shifts are those
of `mysdr.h`, which is not there: what is assumed of them is that the authentication length
is a field of 8 bits and that the hash has one of the lowest 8 bits of the header.

The NUL is what keeps earlier datagrams from being printed, and nothing checks that it comes
after what is read. The header is read beyond it when the datagram has less than three bytes,
the payload when the datagram ends before it, and again when the datagram ends with the very
name `application/sdp`, behind which the loop steps over a NUL.
-/

import SocketProgram.Library.Runs
import SocketProgram.Library.Words
import SocketProgram.Stdio

namespace SocketProgram.SapLoop

open Memory Runs Words

/-! ### The buffer -/

/-- `BUFFSIZE` of `unp.h`. -/
def buffsize : Nat := 8192

/-- `sizeof(buf)`: the two words of the header and `sap_data`. -/
def sizeofBuf : Nat := 8 + buffsize

/-- `buf` as it stands in memory. -/
structure Buf where
  bytes : List Byte
  length : bytes.length = sizeofBuf

/-- A datagram that `recvfrom(sockfd,&buf,sizeof(buf)-1,0,sa,&len)` returns, with its sender. -/
structure Datagram (Address : Type*) where
  source : Address
  data : List Byte
  fits : data.length < sizeofBuf

variable {Address : Type*}

/-- The datagram is stored, and `((char *)&buf)[n]=0`. -/
def Buf.receive (buf : Buf) (datagram : Datagram Address) : Buf where
  bytes := overwrite (overwrite buf.bytes 0 datagram.data) datagram.data.length [0]
  length := by
    have fits := datagram.fits
    have stored : (overwrite buf.bytes 0 datagram.data).length = sizeofBuf := by
      rw [length_overwrite _ _ _ (by rw [buf.length]; omega), buf.length]
    rw [length_overwrite _ _ _ (by rw [stored]; exact fits), stored]

/-- `buf.sap_header` in network order. -/
def Buf.header (buf : Buf) (endian : Endian) : Nat := endian.ntohl (endian.load (buf.bytes.take 4))

/-- `buf.sap_header=ntohl(buf.sap_header)`. -/
def Buf.swapped (buf : Buf) (endian : Endian) : Buf where
  bytes := overwrite buf.bytes 0 (endian.store 4 (buf.header endian))
  length := by
    have room : 0 + (endian.store 4 (buf.header endian)).length ≤ buf.bytes.length := by
      rw [Endian.length_store, buf.length, sizeofBuf]
      omega
    rw [length_overwrite _ _ _ room, buf.length]

/-- The string at this offset. `none` when it has no end inside of the buffer, so that reading it is
undefined behaviour. -/
def Buf.string? (buf : Buf) (offset : Nat) : Option (List Byte) :=
  if 0 ∈ buf.bytes.drop offset then some (cstring (buf.bytes.drop offset)) else none

/-! ### One datagram -/

/-- The macros of `mysdr.h`. -/
structure Mysdr where
  hashMask : Nat
  versionMask : Nat
  versionShift : Nat
  ipv6 : Nat
  delete : Nat
  encrypted : Nat
  compressed : Nat
  authlenMask : Nat
  authlenShift : Nat
  authlen : ∀ header, (header &&& authlenMask) >>> authlenShift < 256
  hash : hashMask % 256 ≠ 0

/-- What is printed. -/
inductive Output (Address : Type*)
  | hash (sender : Address) (hash : Nat)
  | version (header : Nat)
  | ipv6
  | cannotParse (header : Nat)
  | text (text : List Byte)
  deriving DecidableEq, Repr

/-- `application/sdp`. -/
def applicationSdp : List Byte := "application/sdp".toList.map fun c => UInt8.ofNat c.toNat

section Loop

variable (mysdr : Mysdr) (endian : Endian)

/-- The tests of the version, of the address and of the packet type. -/
def reject? (header : Nat) : Option (Output Address) :=
  if (header &&& mysdr.versionMask) >>> mysdr.versionShift > 1 then some (.version header)
  else if header &&& mysdr.ipv6 ≠ 0 then some .ipv6
  else if header &&& (mysdr.delete ||| mysdr.encrypted ||| mysdr.compressed) ≠ 0 then
    some (.cannotParse header)
  else none

/-- `p` before the test of the payload type, as an offset into `buf`. -/
def payload (header : Nat) : Nat := 8 + (header &&& mysdr.authlenMask) >>> mysdr.authlenShift

/-- The test of the payload type, and what is printed after it. `none` for undefined behaviour. -/
def parse? (buf : Buf) (header : Nat) : Option (Output Address) :=
  match buf.string? (payload mysdr header) with
  | none => none
  | some name =>
    let p := if name = applicationSdp then payload mysdr header + 16 else payload mysdr header
    (buf.string? p).map .text

/-- What is printed once the header has been read. -/
def print? (sender : Address) (buf : Buf) (header : Nat) : Option (List (Output Address)) :=
  match reject? mysdr header with
  | some rejection => some [.hash sender (header &&& mysdr.hashMask), rejection]
  | none =>
    (parse? mysdr buf header).map fun text => [.hash sender (header &&& mysdr.hashMask), text]

/-- The body of `for(;;)`: what it prints, and the buffer it leaves. -/
def iterate (buf : Buf) (datagram : Datagram Address) :
    Option (List (Output Address)) × Buf :=
  let buf := buf.receive datagram
  (print? mysdr datagram.source (buf.swapped endian) (buf.header endian), buf.swapped endian)

/-- `loop` with whatever its buffer holds at first. -/
def loop (Address : Type*) (initial : Buf) :
    System Buf (Datagram Address × List (Output Address)) where
  start history buf := history = [] ∧ buf = initial
  step buf events next := ∃ datagram outputs,
    iterate mysdr endian buf datagram = (some outputs, next) ∧ events = [(datagram, outputs)]

end Loop

/-! ### What an iteration reads -/

theorem bytes_receive (buf : Buf) (datagram : Datagram Address) :
    (buf.receive datagram).bytes =
      datagram.data ++ 0 :: buf.bytes.drop (datagram.data.length + 1) := by
  show overwrite (overwrite buf.bytes 0 datagram.data) (datagram.data.length + 0) [0] = _
  rw [overwrite_zero, overwrite_append, overwrite_zero, List.drop_drop]
  rfl

/-- The header is overwritten with its own bytes in another order. -/
theorem drop_swapped (buf : Buf) (endian : Endian) {offset : Nat} (behind : 4 ≤ offset) :
    (buf.swapped endian).bytes.drop offset = buf.bytes.drop offset := by
  obtain ⟨more, rfl⟩ := Nat.exists_eq_add_of_le behind
  have four := Endian.length_store endian 4 (buf.header endian)
  show (overwrite buf.bytes 0 (endian.store 4 (buf.header endian))).drop (4 + more) = _
  rw [overwrite_zero, four, ← List.drop_drop, List.drop_left' four, List.drop_drop]

theorem header_eq (buf : Buf) (endian : Endian) :
    buf.header endian = Endian.big.load (buf.bytes.take 4) := by
  refine Endian.ntohl_load endian ?_
  rw [List.length_take, buf.length]
  rfl

theorem string?_congr {first second : Buf} {offset : Nat}
    (same : first.bytes.drop offset = second.bytes.drop offset) :
    first.string? offset = second.string? offset := by
  rw [Buf.string?, Buf.string?, same]

/-- Up to the NUL behind the datagram, a string is one of the datagram. -/
theorem string?_inside (buf : Buf) (endian : Endian) {datagram : Datagram Address} {offset : Nat}
    (behind : 4 ≤ offset) (inside : offset ≤ datagram.data.length) :
    ((buf.receive datagram).swapped endian).string? offset =
      some (cstring (datagram.data.drop offset)) := by
  rw [Buf.string?, drop_swapped _ _ behind, bytes_receive, List.drop_append_of_le_length inside,
    if_pos (List.mem_append_right _ List.mem_cons_self), cstring_append_nul]

/-- Behind the NUL, a string is one that was there before. -/
theorem string?_outside (buf : Buf) (endian : Endian) {datagram : Datagram Address} {offset : Nat}
    (behind : 4 ≤ offset) (outside : datagram.data.length < offset) :
    ((buf.receive datagram).swapped endian).string? offset = buf.string? offset := by
  obtain ⟨more, rfl⟩ := Nat.exists_eq_add_of_le (Nat.succ_le_of_lt outside)
  have stored : (datagram.data ++ [0]).length = datagram.data.length + 1 := by
    rw [List.length_append, List.length_singleton]
  refine string?_congr ?_
  rw [drop_swapped _ _ behind, bytes_receive, ← List.singleton_append, ← List.append_assoc,
    ← List.drop_drop, List.drop_left' stored, List.drop_drop]

/-- The header that a datagram of at least three bytes has. -/
def headerOf (data : List Byte) : Nat := Endian.big.load ((data ++ [0]).take 4)

theorem header_receive (buf : Buf) (endian : Endian) {datagram : Datagram Address}
    (three : 3 ≤ datagram.data.length) :
    (buf.receive datagram).header endian = headerOf datagram.data := by
  have room : 4 ≤ (datagram.data ++ [0]).length := by
    rw [List.length_append, List.length_singleton]
    omega
  rw [header_eq, bytes_receive, ← List.singleton_append, ← List.append_assoc,
    List.take_append_of_le_length room, headerOf]

/-! ### What an iteration prints -/

/-- The hash comes first. -/
theorem head?_print? {mysdr : Mysdr} {sender : Address} {buf : Buf} {header : Nat}
    {outputs : List (Output Address)} (prints : print? mysdr sender buf header = some outputs) :
    outputs.head? = some (.hash sender (header &&& mysdr.hashMask)) := by
  unfold print? at prints
  split at prints
  · cases prints
    rfl
  · obtain ⟨text, -, rfl⟩ := Option.map_eq_some_iff.mp prints
    rfl

theorem parse?_other {mysdr : Mysdr} {buf : Buf} {header : Nat} {name : List Byte}
    (named : buf.string? (payload mysdr header) = some name) (other : name ≠ applicationSdp) :
    parse? mysdr buf header = some (.text name : Output Address) := by
  rw [parse?, named]
  show (buf.string? (if name = applicationSdp then _ else _)).map Output.text = _
  rw [if_neg other, named]
  rfl

theorem parse?_applicationSdp {mysdr : Mysdr} {buf : Buf} {header : Nat}
    (named : buf.string? (payload mysdr header) = some applicationSdp) :
    parse? mysdr buf header =
      (buf.string? (payload mysdr header + 16)).map (Output.text : _ → Output Address) := by
  rw [parse?, named]
  rfl

theorem four_le_payload (mysdr : Mysdr) (header : Nat) : 4 ≤ payload mysdr header :=
  Nat.le_add_right_of_le (by decide)

/-! ### What is printed for a datagram alone -/

/-- Nothing of what is read for this datagram comes after the NUL behind it. -/
def Determined (mysdr : Mysdr) (datagram : Datagram Address) : Prop :=
  3 ≤ datagram.data.length ∧
    ((reject? mysdr (headerOf datagram.data) : Option (Output Address)).isSome ∨
      payload mysdr (headerOf datagram.data) ≤ datagram.data.length ∧
        datagram.data.drop (payload mysdr (headerOf datagram.data)) ≠ applicationSdp)

instance (mysdr : Mysdr) (datagram : Datagram Address) : Decidable (Determined mysdr datagram) :=
  inferInstanceAs (Decidable (_ ∧ _))

/-- A name with more behind it than its own end is followed by sixteen bytes. -/
theorem length_lt_of_cstring {bytes name : List Byte} (named : cstring bytes = name)
    (more : bytes ≠ name) : name.length < bytes.length := by
  have begins : name <+: bytes := named ▸ List.takeWhile_prefix _
  refine lt_of_le_of_ne begins.length_le fun same => more ?_
  exact (begins.eq_of_length same).symm

theorem parse?_of_inside {mysdr : Mysdr} (buf : Buf) (endian : Endian) {datagram : Datagram Address}
    {header : Nat} (inside : payload mysdr header ≤ datagram.data.length)
    (more : datagram.data.drop (payload mysdr header) ≠ applicationSdp) :
    parse? mysdr ((buf.receive datagram).swapped endian) header =
      some (.text (cstring (datagram.data.drop
        (if cstring (datagram.data.drop (payload mysdr header)) = applicationSdp then
          payload mysdr header + 16 else payload mysdr header))) : Output Address) := by
  have behind := four_le_payload mysdr header
  have named := string?_inside buf endian behind inside
  by_cases application : cstring (datagram.data.drop (payload mysdr header)) = applicationSdp
  · have room : payload mysdr header + 16 ≤ datagram.data.length := by
      have longer := length_lt_of_cstring application more
      have fifteen : applicationSdp.length = 15 := by decide
      rw [List.length_drop, fifteen] at longer
      omega
    rw [application] at named
    rw [if_pos application, parse?_applicationSdp named,
      string?_inside buf endian (Nat.le_add_right_of_le behind) room]
    rfl
  · rw [if_neg application]
    exact parse?_other named application

/-- What is printed for such a datagram does not depend on the buffer. -/
theorem iterate_of_determined {mysdr : Mysdr} (endian : Endian) {datagram : Datagram Address}
    (determined : Determined mysdr datagram) (first second : Buf) :
    (iterate mysdr endian first datagram).1 = (iterate mysdr endian second datagram).1 := by
  obtain ⟨three, reads⟩ := determined
  show print? _ _ _ ((first.receive datagram).header endian) =
    print? _ _ _ ((second.receive datagram).header endian)
  rw [header_receive first endian three, header_receive second endian three]
  unfold print?
  cases rejects : (reject? mysdr (headerOf datagram.data) : Option (Output Address)) with
  | some rejection => rfl
  | none =>
    rw [rejects] at reads
    obtain ⟨inside, more⟩ := reads.resolve_left Bool.false_ne_true
    simp only [parse?_of_inside _ endian inside more]

/-! ### Two earlier datagrams -/

/-- A datagram of one byte throughout, as long as the buffer. -/
def filler (source : Address) (c : Byte) : Datagram Address where
  source := source
  data := List.replicate (sizeofBuf - 1) c
  fits := by
    rw [List.length_replicate]
    decide

/-- The buffer afterwards. -/
def filled (initial : Buf) (endian : Endian) (source : Address) (c : Byte) : Buf :=
  (initial.receive (filler source c)).swapped endian

theorem bytes_filled (initial : Buf) (endian : Endian) (source : Address) (c : Byte) :
    (filled initial endian source c).bytes = List.replicate (sizeofBuf - 1) c ++ [0] := by
  have split : List.replicate (sizeofBuf - 1) c =
      List.replicate 4 c ++ List.replicate (sizeofBuf - 5) c := by
    rw [← List.replicate_add]
    exact congrArg (List.replicate · c) (by decide : sizeofBuf - 1 = 4 + (sizeofBuf - 5))
  have nothing : initial.bytes.drop ((filler source c).data.length + 1) = [] :=
    List.drop_eq_nil_of_le (by rw [initial.length, filler, List.length_replicate]; decide)
  have received : (initial.receive (filler source c)).bytes =
      List.replicate 4 c ++ (List.replicate (sizeofBuf - 5) c ++ [0]) := by
    rw [bytes_receive, nothing, ← List.append_assoc, ← split]
    rfl
  have header : (initial.receive (filler source c)).header endian =
      Endian.big.load (List.replicate 4 c) := by
    rw [header_eq, received, List.take_left' List.length_replicate]
  show overwrite _ 0 (endian.store 4 ((initial.receive (filler source c)).header endian)) = _
  rw [header, Endian.store_load_replicate, received, overwrite_zero, List.drop_left, split,
    List.append_assoc]

theorem string?_filled (initial : Buf) (endian : Endian) (source : Address) (c : Byte)
    {offset : Nat} (inside : offset ≤ sizeofBuf - 1) :
    (filled initial endian source c).string? offset =
      some (cstring (List.replicate (sizeofBuf - 1 - offset) c)) := by
  rw [Buf.string?, bytes_filled, List.drop_append_of_le_length (by rwa [List.length_replicate]),
    if_pos (List.mem_append_right _ List.mem_cons_self), cstring_append_nul, List.drop_replicate]

theorem payload_le (mysdr : Mysdr) (header : Nat) : payload mysdr header ≤ 263 := by
  have authlen := mysdr.authlen header
  rw [payload]
  omega

/-- An iteration is defined where the strings that it may read have an end. -/
theorem exists_print? (mysdr : Mysdr) (sender : Address) {buf : Buf} (header : Nat)
    (strings : ∀ offset, 4 ≤ offset → offset ≤ sizeofBuf - 1 →
      ∃ text, buf.string? offset = some text) :
    ∃ outputs, print? mysdr sender buf header = some outputs := by
  have least := four_le_payload mysdr header
  have most := payload_le mysdr header
  obtain ⟨name, named⟩ := strings (payload mysdr header) least (most.trans (by decide))
  obtain ⟨text, next⟩ := strings (payload mysdr header + 16) (Nat.le_add_right_of_le least)
    ((Nat.add_le_add_right most 16).trans (by decide))
  unfold print?
  split
  · exact ⟨_, rfl⟩
  · by_cases application : name = applicationSdp
    · rw [parse?_applicationSdp (application ▸ named), next]
      exact ⟨_, rfl⟩
    · rw [parse?_other named application]
      exact ⟨_, rfl⟩

/-- Such a datagram is received and printed. -/
theorem run_filled (mysdr : Mysdr) (endian : Endian) (initial : Buf) (source : Address) (c : Byte) :
    ∃ history,
      Run (loop mysdr endian Address initial) history (filled initial endian source c) := by
  have strings : ∀ offset, 4 ≤ offset → offset ≤ sizeofBuf - 1 →
      ∃ text, (filled initial endian source c).string? offset = some text := fun offset _ inside =>
    ⟨_, string?_filled initial endian source c inside⟩
  obtain ⟨outputs, prints⟩ := exists_print? mysdr source
    ((initial.receive (filler source c)).header endian) strings
  exact ⟨_, .step (.start ⟨rfl, rfl⟩) ⟨filler source c, outputs, Prod.ext prints rfl, rfl⟩⟩

/-- After it, every string that may be read has an end. -/
theorem exists_string?_after (initial : Buf) (endian : Endian) (source : Address) (c : Byte)
    (datagram : Datagram Address) {offset : Nat} (behind : 4 ≤ offset)
    (inside : offset ≤ sizeofBuf - 1) :
    ∃ text, (((filled initial endian source c).receive datagram).swapped endian).string? offset =
      some text := by
  rcases Nat.lt_or_ge datagram.data.length offset with outside | within
  · exact ⟨_, (string?_outside _ endian behind outside).trans
      (string?_filled initial endian source c inside)⟩
  · exact ⟨_, string?_inside _ endian behind within⟩

/-- The last byte of a header that is not there is one of the datagram before. -/
theorem header_after (initial : Buf) (endian : Endian) (source : Address) (c : Byte)
    {datagram : Datagram Address} (short : datagram.data.length < 3) :
    ((filled initial endian source c).receive datagram).header endian % 256 = c.toNat := by
  have split : List.replicate (sizeofBuf - 1 - (datagram.data.length + 1)) c =
      List.replicate (2 - datagram.data.length) c ++
        ([c] ++ List.replicate (sizeofBuf - 5) c) := by
    have count : sizeofBuf - 1 - (datagram.data.length + 1) =
        2 - datagram.data.length + (1 + (sizeofBuf - 5)) := by
      rw [sizeofBuf, buffsize]
      omega
    rw [count, List.replicate_add, List.replicate_add]
    rfl
  have three : (datagram.data ++ 0 :: List.replicate (2 - datagram.data.length) c ++ [c]).length
      = 4 := by
    simp only [List.length_append, List.length_cons, List.length_replicate, List.length_nil]
    omega
  have bytes : ((filled initial endian source c).receive datagram).bytes =
      (datagram.data ++ 0 :: List.replicate (2 - datagram.data.length) c ++ [c]) ++
        (List.replicate (sizeofBuf - 5) c ++ [0]) := by
    have room : datagram.data.length + 1 ≤ (List.replicate (sizeofBuf - 1) c).length := by
      rw [List.length_replicate, sizeofBuf, buffsize]
      omega
    rw [bytes_receive, bytes_filled, List.drop_append_of_le_length room, List.drop_replicate, split]
    simp only [List.append_assoc, List.cons_append]
  rw [header_eq, bytes, List.take_left' three, Endian.load_big_concat, Nat.add_mul_mod_self_left]
  exact Nat.mod_eq_of_lt c.toNat_lt

/-- The payload behind the NUL is the one of the datagram before. -/
theorem parse?_after (mysdr : Mysdr) (endian : Endian) (initial : Buf) {datagram : Datagram Address}
    {header : Nat} (outside : payload mysdr header ≤ datagram.data.length →
      datagram.data.drop (payload mysdr header) = applicationSdp) :
    ∃ offset < sizeofBuf - 1, ∀ c, c ≠ 97 →
      parse? mysdr (((filled initial endian datagram.source c).receive datagram).swapped endian)
        header = some (.text (cstring (List.replicate (sizeofBuf - 1 - offset) c)) : Output Address)
      := by
  have least := four_le_payload mysdr header
  have most := payload_le mysdr header
  have room : payload mysdr header + 16 < sizeofBuf - 1 :=
    (Nat.add_le_add_right most 16).trans_lt (by decide)
  rcases Nat.lt_or_ge datagram.data.length (payload mysdr header) with beyond | within
  · refine ⟨payload mysdr header, Nat.lt_of_add_right_lt room, fun c notA => ?_⟩
    have named := (string?_outside _ endian least beyond).trans
      (string?_filled initial endian datagram.source c (Nat.le_of_lt (Nat.lt_of_add_right_lt room)))
    refine parse?_other named fun same => notA ?_
    have first : (97 : Byte) ∈ applicationSdp := by decide
    exact (List.eq_of_mem_replicate ((List.takeWhile_subset _) (same ▸ first))).symm
  · refine ⟨payload mysdr header + 16, room, fun c _ => ?_⟩
    have ends : datagram.data.length < payload mysdr header + 16 := by
      have length := congrArg List.length (outside within)
      have fifteen : applicationSdp.length = 15 := by decide
      rw [List.length_drop, fifteen] at length
      omega
    have name : cstring applicationSdp = applicationSdp := by decide
    have named := string?_inside (filled initial endian datagram.source c) endian least within
    rw [outside within, name] at named
    rw [parse?_applicationSdp named, string?_outside _ endian (Nat.le_add_right_of_le least) ends,
      string?_filled initial endian datagram.source c (Nat.le_of_lt room)]
    rfl

/-- The low bits of the hash are those of the last byte of the header. -/
theorem hash_after (mysdr : Mysdr) (endian : Endian) (initial : Buf) (source : Address) (c : Byte)
    {datagram : Datagram Address} (short : datagram.data.length < 3) :
    (((filled initial endian source c).receive datagram).header endian &&& mysdr.hashMask) % 2 ^ 8 =
      c.toNat &&& mysdr.hashMask % 256 := by
  rw [Nat.and_mod_two_pow]
  exact congrArg (· &&& mysdr.hashMask % 256) (header_after initial endian source c short)

/-- A short datagram is printed with a hash that tells two earlier datagrams apart. -/
theorem iterate_ne_of_short (mysdr : Mysdr) (endian : Endian) (initial : Buf)
    {datagram : Datagram Address} (short : datagram.data.length < 3) :
    (iterate mysdr endian (filled initial endian datagram.source 255) datagram).1 ≠
      (iterate mysdr endian (filled initial endian datagram.source 0) datagram).1 := by
  intro same
  obtain ⟨outputs, prints⟩ : ∃ outputs,
      (iterate mysdr endian (filled initial endian datagram.source 255) datagram).1 =
        some outputs :=
    exists_print? mysdr datagram.source _ fun _ =>
      exists_string?_after initial endian datagram.source 255 datagram
  have hash : (Output.hash datagram.source _ : Output Address) = .hash datagram.source _ :=
    Option.some.inj ((head?_print? prints).symm.trans (head?_print? (same.symm.trans prints)))
  have low := congrArg (· % 2 ^ 8) (Output.hash.inj hash).2
  simp only [hash_after _ _ _ _ _ short] at low
  have none : (0 : Byte).toNat &&& mysdr.hashMask % 256 = 0 := Nat.zero_and _
  have all : (255 : Byte).toNat &&& mysdr.hashMask % 256 = mysdr.hashMask % 256 := by
    rw [Nat.and_comm]
    exact (Nat.and_two_pow_sub_one_eq_mod _ 8).trans (Nat.mod_mod _ _)
  rw [none, all] at low
  exact mysdr.hash low

/-- A datagram that ends too early is printed with a text that tells two earlier datagrams
apart. -/
theorem iterate_ne_of_outside {mysdr : Mysdr} (endian : Endian) (initial : Buf)
    {datagram : Datagram Address} (three : 3 ≤ datagram.data.length)
    (accepted : (reject? mysdr (headerOf datagram.data) : Option (Output Address)) = none)
    (outside : payload mysdr (headerOf datagram.data) ≤ datagram.data.length →
      datagram.data.drop (payload mysdr (headerOf datagram.data)) = applicationSdp) :
    (iterate mysdr endian (filled initial endian datagram.source 255) datagram).1 ≠
      (iterate mysdr endian (filled initial endian datagram.source 0) datagram).1 := by
  intro same
  obtain ⟨offset, room, text⟩ := @parse?_after Address mysdr endian initial _ _ outside
  replace same : print? _ _ _ (((filled _ _ _ 255).receive datagram).header endian) =
    print? _ _ _ (((filled _ _ _ 0).receive datagram).header endian) := same
  rw [header_receive _ endian three, header_receive _ endian three, print?, print?, accepted,
    text 255 (by decide), text 0 (by decide)] at same
  have texts : cstring (List.replicate (sizeofBuf - 1 - offset) 255) =
      cstring (List.replicate (sizeofBuf - 1 - offset) 0) :=
    Output.text.inj (List.head_eq_of_cons_eq (List.tail_eq_of_cons_eq (Option.some.inj same)))
  rw [cstring, cstring, List.takeWhile_replicate, List.takeWhile_replicate, if_pos (by decide),
    if_neg (by decide), List.replicate_eq_nil_iff] at texts
  omega

/-! ### Every two histories -/

/-- What `loop` prints for a datagram is the same after all histories exactly if nothing that it
reads comes after the NUL. -/
theorem prints_same_iff (mysdr : Mysdr) (endian : Endian) (initial : Buf)
    (datagram : Datagram Address) :
    (∀ firstHistory first secondHistory second,
        Run (loop mysdr endian Address initial) firstHistory first →
        Run (loop mysdr endian Address initial) secondHistory second →
        (iterate mysdr endian first datagram).1 = (iterate mysdr endian second datagram).1) ↔
      Determined mysdr datagram := by
  constructor
  · intro alike
    by_contra undetermined
    obtain ⟨_, ones⟩ := run_filled mysdr endian initial datagram.source 255
    obtain ⟨_, zeros⟩ := run_filled mysdr endian initial datagram.source 0
    have same := alike _ _ _ _ ones zeros
    rcases Nat.lt_or_ge datagram.data.length 3 with short | three
    · exact iterate_ne_of_short mysdr endian initial short same
    · obtain ⟨accepted, outside⟩ := not_or.mp fun reads => undetermined ⟨three, reads⟩
      refine iterate_ne_of_outside endian initial three (Option.not_isSome_iff_eq_none.mp accepted)
        (fun within => ?_) same
      exact not_not.mp fun more => outside ⟨within, more⟩
  · intro determined _ first _ second _ _
    exact iterate_of_determined endian determined first second

/-- The header of the protocol: a version of 3 bits, an authentication length of 8 and a hash of
16. -/
def sap : Mysdr where
  hashMask := 0x0000ffff
  versionMask := 0xe0000000
  versionShift := 29
  ipv6 := 0x10000000
  delete := 0x04000000
  encrypted := 0x02000000
  compressed := 0x01000000
  authlenMask := 0x00ff0000
  authlenShift := 16
  authlen header := by
    have most : header &&& 0x00ff0000 ≤ 0x00ff0000 := Nat.and_le_right
    rw [Nat.shiftRight_eq_div_pow]
    omega
  hash := by decide

/-- A header and nothing behind it. -/
def bareHeader : Datagram Unit where
  source := ()
  data := [0x20, 0x00, 0x12, 0x34]
  fits := by decide

/-- What is printed behind a bare header is the payload of the datagram before. -/
theorem not_prints_same :
    ¬ ∀ (mysdr : Mysdr) (endian : Endian) (initial : Buf) (datagram : Datagram Unit)
      (firstHistory : List (Datagram Unit × List (Output Unit))) (first : Buf)
      (secondHistory : List (Datagram Unit × List (Output Unit))) (second : Buf),
      Run (loop mysdr endian Unit initial) firstHistory first →
      Run (loop mysdr endian Unit initial) secondHistory second →
      (iterate mysdr endian first datagram).1 = (iterate mysdr endian second datagram).1 := by
  intro alike
  have initial : Buf := ⟨List.replicate sizeofBuf 0, List.length_replicate⟩
  obtain ⟨_, ones⟩ := run_filled sap .little initial bareHeader.source 255
  obtain ⟨_, zeros⟩ := run_filled sap .little initial bareHeader.source 0
  have accepted : (reject? sap (headerOf bareHeader.data) : Option (Output Unit)) = none := by
    decide
  have beyond : ¬ payload sap (headerOf bareHeader.data) ≤ bareHeader.data.length := by decide
  exact iterate_ne_of_outside .little initial (by decide) accepted
    (fun within => absurd within beyond) (alike _ _ _ _ _ _ _ _ ones zeros)

end SocketProgram.SapLoop
