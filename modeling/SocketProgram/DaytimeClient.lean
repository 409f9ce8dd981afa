/-
This file is about `names/daytimetcpcli1.c`, which tries the addresses of a host one after the
other, and about `sock_ntop`, which it prints each of them with.

What `sock_ntop` returns fits in its arrays, and the address and the port can be read back from
it. So the lines printed tell which addresses have been tried: all of them up to the first that
accepts the connection, each once and in order. A socket is closed again when its connection is
refused, and the one that is left is the one that is read from.
-/

import SocketProgram.Library.Descriptors
import SocketProgram.MyOpen
import SocketProgram.Stdio

namespace SocketProgram.DaytimeClient

open Descriptors Memory

/-! ### `sock_ntop` -/

/-- A `struct in_addr`: the address in network order. -/
abbrev InAddr := Byte × Byte × Byte × Byte

/-- A `struct sockaddr_in`: the port and the address, both in network order. -/
structure SockaddrIn where
  sinPort : Byte × Byte
  sinAddr : InAddr
  deriving DecidableEq, Repr

/-- `ntohs(sin->sin_port)`. -/
def ntohs (sinPort : Byte × Byte) : Nat := 256 * sinPort.1.toNat + sinPort.2.toNat

/-- `sizeof(str)`. -/
def sizeofStr : Nat := 128

/-- `sizeof(portstr)`. -/
def sizeofPortstr : Nat := 8

/-- The four numbers of an address. -/
def dotted (sinAddr : InAddr) : List Char :=
  ['.'].intercalate ([sinAddr.1, sinAddr.2.1, sinAddr.2.2.1, sinAddr.2.2.2].map fun byte =>
    Nat.toDigits 10 byte.toNat)

/-- `inet_ntop(AF_INET,src,dst,size)`, which fails when there is not room enough. -/
def inetNtop (sinAddr : InAddr) (size : Nat) : Option (List Char) :=
  if (dotted sinAddr).length < size then some (dotted sinAddr) else none

/-- `snprintf(portstr,sizeof(portstr),":%d",ntohs(sin->sin_port))`. -/
def portstr (sinPort : Byte × Byte) : List Char :=
  (':' :: Printf.decimal (ntohs sinPort)).take (sizeofPortstr - 1)

/-- `sock_ntop` on a `struct sockaddr_in`. There is no result for `NULL`. -/
def sockNtop (sin : SockaddrIn) : Option (List Char) := do
  let str ← inetNtop sin.sinAddr sizeofStr
  if ntohs sin.sinPort ≠ 0 then return str ++ portstr sin.sinPort
  return str

/-! ### Reading an address back -/

/-- A byte from its digits. -/
def readByte (text : List Char) : Byte := UInt8.ofNat (MyOpen.digits text)

/-- The address of four numbers. -/
def readDotted (text : List Char) : Option InAddr :=
  match text.splitOn '.' with
  | [first, second, third, fourth] =>
    some (readByte first, readByte second, readByte third, readByte fourth)
  | _ => none

/-- The two bytes of a port. -/
def readPort (text : List Char) : Byte × Byte :=
  (UInt8.ofNat (MyOpen.digits text / 256), UInt8.ofNat (MyOpen.digits text))

/-- What `sock_ntop` has been called for. -/
def readAddress (text : List Char) : Option SockaddrIn :=
  match text.splitOn ':' with
  | [address] => (readDotted address).map fun sinAddr => ⟨(0, 0), sinAddr⟩
  | [address, port] => (readDotted address).map fun sinAddr => ⟨readPort port, sinAddr⟩
  | _ => none

section Text

variable {sinAddr : InAddr} {sinPort : Byte × Byte}

theorem not_mem_toDigits {c : Char} (other : c.isDigit = false) (n : Nat) :
    c ∉ Nat.toDigits 10 n := by
  intro member
  rw [Printf.isDigit_of_mem member] at other
  cases other

theorem length_toDigits_byte (byte : Byte) : (Nat.toDigits 10 byte.toNat).length ≤ 3 :=
  (Nat.length_toDigits_le_iff (by decide) (by decide)).mpr (byte.toNat_lt.trans (by decide))

theorem readByte_toDigits (byte : Byte) : readByte (Nat.toDigits 10 byte.toNat) = byte := by
  rw [readByte, MyOpen.digits_toDigits, UInt8.ofNat_toNat]

theorem dotted_eq : dotted sinAddr =
    Nat.toDigits 10 sinAddr.1.toNat ++ '.' :: (Nat.toDigits 10 sinAddr.2.1.toNat ++
      '.' :: (Nat.toDigits 10 sinAddr.2.2.1.toNat ++
        '.' :: Nat.toDigits 10 sinAddr.2.2.2.toNat)) := by
  simp [dotted, List.intercalate]

theorem length_dotted : (dotted sinAddr).length ≤ 15 := by
  have first := length_toDigits_byte sinAddr.1
  have second := length_toDigits_byte sinAddr.2.1
  have third := length_toDigits_byte sinAddr.2.2.1
  have fourth := length_toDigits_byte sinAddr.2.2.2
  rw [dotted_eq]
  simp only [List.length_append, List.length_cons]
  omega

theorem colon_not_mem_dotted : ':' ∉ dotted sinAddr := by
  rw [dotted_eq]
  simp only [List.mem_append, List.mem_cons, not_or]
  exact ⟨not_mem_toDigits rfl _, by decide, not_mem_toDigits rfl _, by decide,
    not_mem_toDigits rfl _, by decide, not_mem_toDigits rfl _⟩

theorem readDotted_dotted : readDotted (dotted sinAddr) = some sinAddr := by
  have split : (dotted sinAddr).splitOn '.' =
      [sinAddr.1, sinAddr.2.1, sinAddr.2.2.1, sinAddr.2.2.2].map fun byte =>
        Nat.toDigits 10 byte.toNat := by
    refine List.splitOn_intercalate '.' (fun text member => ?_) (List.cons_ne_nil _ _)
    obtain ⟨byte, -, rfl⟩ := List.mem_map.mp member
    exact not_mem_toDigits rfl _
  rw [readDotted, split]
  simp only [List.map_cons, List.map_nil, readByte_toDigits]

theorem ntohs_lt : ntohs sinPort < 65536 := by
  have high := sinPort.1.toNat_lt
  have low := sinPort.2.toNat_lt
  rw [ntohs]
  omega

theorem length_toDigits_ntohs : (Nat.toDigits 10 (ntohs sinPort)).length ≤ 5 :=
  (Nat.length_toDigits_le_iff (by decide) (by decide)).mpr (ntohs_lt.trans (by decide))

/-- Nothing of the port is cut off. -/
theorem portstr_eq : portstr sinPort = ':' :: Nat.toDigits 10 (ntohs sinPort) := by
  have short : (Nat.toDigits 10 (ntohs sinPort)).length ≤ 5 := length_toDigits_ntohs
  refine List.take_of_length_le ?_
  show (':' :: Nat.toDigits 10 (ntohs sinPort)).length ≤ 7
  rw [List.length_cons]
  omega

theorem readPort_toDigits : readPort (Nat.toDigits 10 (ntohs sinPort)) = sinPort := by
  have high := sinPort.1.toNat_lt
  have low := sinPort.2.toNat_lt
  rw [readPort, MyOpen.digits_toDigits]
  refine Prod.ext (UInt8.toNat_inj.mp ?_) (UInt8.toNat_inj.mp ?_)
  · rw [UInt8.toNat_ofNat', ntohs]
    omega
  · rw [UInt8.toNat_ofNat', ntohs]
    omega

theorem sockNtop_eq (sin : SockaddrIn) :
    sockNtop sin = some (if ntohs sin.sinPort ≠ 0 then
        dotted sin.sinAddr ++ ':' :: Nat.toDigits 10 (ntohs sin.sinPort)
      else dotted sin.sinAddr) := by
  have room : (dotted sin.sinAddr).length < sizeofStr :=
    Nat.lt_of_le_of_lt length_dotted (by decide)
  rw [sockNtop, inetNtop, if_pos room, portstr_eq]
  dsimp only [Option.bind_eq_bind, Option.bind_some]
  split_ifs <;> rfl

theorem splitOn_dotted : (dotted sinAddr).splitOn ':' = [dotted sinAddr] := by
  have split : ([':'].intercalate [dotted sinAddr]).splitOn ':' = [dotted sinAddr] := by
    refine List.splitOn_intercalate ':' (fun text member => ?_) (List.cons_ne_nil _ _)
    rw [List.mem_singleton.mp member]
    exact colon_not_mem_dotted
  simpa [List.intercalate] using split

theorem splitOn_dotted_port (n : Nat) :
    (dotted sinAddr ++ ':' :: Nat.toDigits 10 n).splitOn ':' =
      [dotted sinAddr, Nat.toDigits 10 n] := by
  have split : ([':'].intercalate [dotted sinAddr, Nat.toDigits 10 n]).splitOn ':' =
      [dotted sinAddr, Nat.toDigits 10 n] := by
    refine List.splitOn_intercalate ':' (fun text member => ?_) (List.cons_ne_nil _ _)
    rcases List.mem_pair.mp member with rfl | rfl
    · exact colon_not_mem_dotted
    · exact not_mem_toDigits rfl n
  simpa [List.intercalate] using split

/-- The port 0 has two bytes 0. -/
theorem eq_of_ntohs_eq_zero (zero : ntohs sinPort = 0) : sinPort = (0, 0) := by
  rw [ntohs] at zero
  refine Prod.ext (UInt8.toNat_inj.mp ?_) (UInt8.toNat_inj.mp ?_)
  · show sinPort.1.toNat = 0
    omega
  · show sinPort.2.toNat = 0
    omega

theorem readAddress_of_sockNtop {sin : SockaddrIn} {text : List Char}
    (returned : sockNtop sin = some text) : readAddress text = some sin := by
  obtain ⟨sinPort, sinAddr⟩ := sin
  rw [sockNtop_eq] at returned
  obtain rfl := Option.some.inj returned
  dsimp only
  split_ifs with port
  · simp only [readAddress, splitOn_dotted_port, readDotted_dotted, readPort_toDigits,
      Option.map_some]
  · rw [eq_of_ntohs_eq_zero (not_not.mp port)]
    simp only [readAddress, splitOn_dotted, readDotted_dotted, Option.map_some]

/-- Whatever the address and the port, there is room for the text, and they are what can be read
back from it. -/
theorem readAddress_sockNtop (sin : SockaddrIn) :
    ∃ text, sockNtop sin = some text ∧ text.length < sizeofStr ∧
      readAddress text = some sin := by
  refine ⟨_, sockNtop_eq sin, ?_, readAddress_of_sockNtop (sockNtop_eq sin)⟩
  have room : (dotted sin.sinAddr).length ≤ 15 := length_dotted
  have short : (Nat.toDigits 10 (ntohs sin.sinPort)).length ≤ 5 := length_toDigits_ntohs
  rw [sizeofStr]
  split_ifs
  · rw [List.length_append, List.length_cons]
    omega
  · omega

end Text

/-! ### The client -/

/-- What a descriptor refers to: a file that was open before, or a socket for an address. -/
inductive File (Other : Type*)
  | other (file : Other)
  | socket (servaddr : SockaddrIn)

/-- What becomes of an address: there is no descriptor left for a socket, so that `connect` and
`close` get -1, the connection fails, or it is made. -/
inductive Fate
  | noSocket
  | refused
  | connected
  deriving DecidableEq, Repr

/-- An address of the list and what becomes of it. -/
structure Attempt where
  address : InAddr
  fate : Fate

/-- `servaddr` for this address. -/
def Attempt.servaddr (sPort : Byte × Byte) (attempt : Attempt) : SockaddrIn :=
  ⟨sPort, attempt.address⟩

/-- What is printed. -/
inductive Line
  | wjianjia
  | hostnameError (hostname : List Char)
  | getservbynameError (service : List Char)
  | trying (text : Option (List Char))
  | connectError
  | unableToConnect
  | connectSuccess
  | n (n : Int)
  | recvline (text : List Byte)
  | fputs (text : List Byte)

variable {Other : Type*}

/-- The open files of the process and what it has printed. -/
structure Process (Other : Type*) where
  table : Table (File Other)
  stdout : List Line

/-- `printf` and `fputs`. -/
def Process.print (process : Process Other) (line : Line) : Process Other :=
  { process with stdout := process.stdout ++ [line] }

/-- What the program asks for: the addresses and the port of the names, what becomes of the first
address, the second and so on, and what `read` returns on a file, one call after the other. -/
structure Kernel (Other : Type*) where
  gethostbyname : List Char → Option (List InAddr)
  inetAton : List Char → Option InAddr
  getservbyname : List Char → Option (Byte × Byte)
  fate : Nat → Fate
  read : File Other → List ReadOutcome

/-- The addresses that `pptr` goes through. -/
def Kernel.addresses (kernel : Kernel Other) (hostname : List Char) : Option (List InAddr) :=
  match kernel.gethostbyname hostname with
  | none => (kernel.inetAton hostname).map fun inetaddr => [inetaddr]
  | some list => some list

/-- The addresses with what becomes of them. -/
def Kernel.attempts (kernel : Kernel Other) (addresses : List InAddr) : List Attempt :=
  addresses.mapIdx fun index address => ⟨address, kernel.fate index⟩

/-- The loop over the addresses: `sockfd` where it breaks, and nothing where `*pptr` is `NULL`. -/
def tryAddresses (sPort : Byte × Byte) (process : Process Other) :
    List Attempt → Option Nat × Process Other
  | [] => (none, process)
  | attempt :: rest =>
    let servaddr := attempt.servaddr sPort
    let trying := process.print (.trying (sockNtop servaddr))
    match attempt.fate with
    | .noSocket => tryAddresses sPort (trying.print .connectError) rest
    | .refused =>
      let table := (process.table.install (.socket servaddr)).close process.table.lowest
      tryAddresses sPort { trying.print .connectError with table := table } rest
    | .connected =>
      (some process.table.lowest,
        { trying with table := process.table.install (.socket servaddr) })

/-- The loop that reads, as far as it comes with these results of `read`. -/
def readLoop (recvline : List Byte) (process : Process Other) :
    List ReadOutcome → Option Int × Process Other
  | [] => (none, process)
  | outcome :: rest =>
    if 0 < outcome.value then
      let stored := overwrite recvline 0 outcome.bytes
      let recvline := overwrite stored outcome.value.toNat [0]
      readLoop recvline
        (((process.print (.n outcome.value)).print (.recvline (cstring recvline))).print
          (.fputs (cstring recvline))) rest
    else (some 0, process)

/-- `main` with two arguments. It returns the exit status, or nothing while `read` waits. -/
def main (kernel : Kernel Other) (recvline : List Byte) (table : Table (File Other))
    (hostname service : List Char) : Option Int × Process Other :=
  let process : Process Other := ⟨table, [.wjianjia]⟩
  match kernel.addresses hostname with
  | none => (some (-1), process.print (.hostnameError hostname))
  | some addresses =>
    match kernel.getservbyname service with
    | none => (some (-1), process.print (.getservbynameError service))
    | some sPort =>
      match tryAddresses sPort process (kernel.attempts addresses) with
      | (none, process) => (some (-1), process.print .unableToConnect)
      | (some sockfd, process) =>
        readLoop recvline (process.print .connectSuccess)
          ((process.table.file sockfd).elim [] kernel.read)

/-! ### What the lines tell -/

/-- The address that a line says is tried. -/
def Line.address? : Line → Option SockaddrIn
  | .trying text => text.bind readAddress
  | _ => none

/-- The text that is copied to the output. -/
def Line.text? : Line → Option (List Byte)
  | .fputs text => some text
  | _ => none

/-- The first attempt that succeeds. -/
def accepted (attempts : List Attempt) : Option Attempt :=
  attempts.find? fun attempt => attempt.fate = .connected

/-- The attempts up to the first that succeeds. -/
def tried (attempts : List Attempt) : List Attempt :=
  (attempts.takeWhile fun attempt => attempt.fate ≠ .connected) ++ (accepted attempts).toList

theorem tried_cons (attempt : Attempt) (rest : List Attempt) :
    tried (attempt :: rest) =
      attempt :: if attempt.fate = .connected then [] else tried rest := by
  by_cases connected : attempt.fate = .connected <;>
    simp [tried, accepted, connected]

@[simp]
theorem filterMap_print {Told : Type*} (tells : Line → Option Told) (process : Process Other)
    (line : Line) : (process.print line).stdout.filterMap tells =
      process.stdout.filterMap tells ++ (tells line).toList := by
  rw [Process.print, List.filterMap_append]
  cases told : tells line with
  | none => rw [List.filterMap_cons_none told, List.filterMap_nil, Option.toList_none]
  | some value => rw [List.filterMap_cons_some told, List.filterMap_nil, Option.toList_some]

@[simp]
theorem bind_sockNtop (servaddr : SockaddrIn) :
    (sockNtop servaddr).bind readAddress = some servaddr := by
  rw [sockNtop_eq]
  exact readAddress_of_sockNtop (sockNtop_eq servaddr)

section Loop

variable (sPort : Byte × Byte) (process : Process Other) (attempts : List Attempt)

theorem stdout_tryAddresses :
    (tryAddresses sPort process attempts).2.stdout.filterMap Line.address? =
      process.stdout.filterMap Line.address? ++ (tried attempts).map (Attempt.servaddr sPort) := by
  induction attempts generalizing process with
  | nil => simp [tryAddresses, tried, accepted]
  | cons attempt rest inductionHypothesis =>
    rw [tryAddresses, tried_cons]
    cases fate : attempt.fate with
    | noSocket =>
      dsimp only
      rw [inductionHypothesis]
      simp [Line.address?]
    | refused =>
      dsimp only
      rw [inductionHypothesis]
      simp [Line.address?]
    | connected => simp [Line.address?]

/-- Nothing is copied before the connection is made. -/
theorem text_tryAddresses :
    (tryAddresses sPort process attempts).2.stdout.filterMap Line.text? =
      process.stdout.filterMap Line.text? := by
  induction attempts generalizing process with
  | nil => rfl
  | cons attempt rest inductionHypothesis =>
    rw [tryAddresses]
    cases fate : attempt.fate with
    | noSocket =>
      dsimp only
      rw [inductionHypothesis]
      simp [Line.text?]
    | refused =>
      dsimp only
      rw [inductionHypothesis]
      simp [Line.text?]
    | connected => simp [Line.text?]

/-- The sockets of the addresses that fail are closed again, and the one of the address that
accepts has the lowest number that was free at the start. -/
theorem table_tryAddresses :
    match accepted attempts with
    | none =>
      (tryAddresses sPort process attempts).1 = none ∧
        (tryAddresses sPort process attempts).2.table.file = process.table.file
    | some attempt =>
      (tryAddresses sPort process attempts).1 = some process.table.lowest ∧
        (tryAddresses sPort process attempts).2.table.file =
          Function.update process.table.file process.table.lowest
            (some (.socket (attempt.servaddr sPort))) := by
  induction attempts generalizing process with
  | nil => exact ⟨rfl, rfl⟩
  | cons attempt rest inductionHypothesis =>
    rw [tryAddresses, accepted, List.find?_cons]
    cases fate : attempt.fate with
    | noSocket => exact inductionHypothesis _
    | refused =>
      have same := process.table.file_close_install (.socket (attempt.servaddr sPort))
      have step := inductionHypothesis
        { (process.print (.trying (sockNtop (attempt.servaddr sPort)))).print .connectError with
          table := (process.table.install (.socket (attempt.servaddr sPort))).close
            process.table.lowest }
      rw [Table.lowest_congr same, same] at step
      exact step
    | connected => exact ⟨rfl, rfl⟩

end Loop

section Reading

variable (recvline : List Byte) (process : Process Other) (reads : List ReadOutcome)

theorem cstring_recvline (outcome : ReadOutcome) (positive : 0 < outcome.value) :
    cstring (overwrite (overwrite recvline 0 outcome.bytes) outcome.value.toNat [0]) =
      cstring outcome.bytes := by
  obtain ⟨bytes⟩ | ⟨errno⟩ := outcome
  · have both := overwrite_overwrite_behind recvline bytes [0] 0 (Nat.zero_le _)
    rw [Nat.zero_add] at both
    show cstring (overwrite (overwrite recvline 0 bytes) bytes.length [0]) = cstring bytes
    rw [both, cstring_overwrite_takeWhile, cstring]
  · rw [ReadOutcome.value_error] at positive
    exact absurd positive (by decide)

theorem table_readLoop : (readLoop recvline process reads).2.table = process.table := by
  induction reads generalizing recvline process with
  | nil => rfl
  | cons outcome rest inductionHypothesis =>
    rw [readLoop]
    split_ifs
    · exact inductionHypothesis _ _
    · rfl

theorem address_readLoop :
    (readLoop recvline process reads).2.stdout.filterMap Line.address? =
      process.stdout.filterMap Line.address? := by
  induction reads generalizing recvline process with
  | nil => rfl
  | cons outcome rest inductionHypothesis =>
    rw [readLoop]
    split_ifs
    · rw [inductionHypothesis]
      simp [Line.address?]
    · rfl

theorem text_readLoop :
    (readLoop recvline process reads).2.stdout.filterMap Line.text? =
      process.stdout.filterMap Line.text? ++
        (reads.takeWhile fun outcome => 0 < outcome.value).map fun outcome =>
          cstring outcome.bytes := by
  induction reads generalizing recvline process with
  | nil => simp [readLoop]
  | cons outcome rest inductionHypothesis =>
    rw [readLoop]
    split_ifs with positive
    · rw [inductionHypothesis, cstring_recvline recvline outcome positive]
      simp [Line.text?, positive]
    · simp [positive]

end Reading

/-- The addresses that can be read back from the lines are those of the host up to the first that
accepts the connection, each once and in order. Then what comes on the socket for that address
is printed, and this socket is all that is open besides what was open before. If none accepts,
everything is as it was. -/
theorem addresses_tried (kernel : Kernel Other) (recvline : List Byte)
    (table : Table (File Other)) {hostname service : List Char} {addresses : List InAddr}
    {sPort : Byte × Byte} (found : kernel.addresses hostname = some addresses)
    (served : kernel.getservbyname service = some sPort) :
    let ended := main kernel recvline table hostname service
    ended.2.stdout.filterMap Line.address? =
        (tried (kernel.attempts addresses)).map (Attempt.servaddr sPort) ∧
      match accepted (kernel.attempts addresses) with
      | none => ended.1 = some (-1) ∧ ended.2.table.file = table.file
      | some attempt =>
        ended.2.table.file = Function.update table.file table.lowest
            (some (.socket (attempt.servaddr sPort))) ∧
          ended.2.stdout.filterMap Line.text? =
            ((kernel.read (.socket (attempt.servaddr sPort))).takeWhile fun outcome =>
              0 < outcome.value).map fun outcome => cstring outcome.bytes := by
  dsimp only
  have lines := stdout_tryAddresses sPort ⟨table, [.wjianjia]⟩ (kernel.attempts addresses)
  have texts := text_tryAddresses sPort ⟨table, [.wjianjia]⟩ (kernel.attempts addresses)
  have tables := table_tryAddresses sPort ⟨table, [.wjianjia]⟩ (kernel.attempts addresses)
  rw [main, found, served]
  dsimp only
  revert lines texts tables
  generalize tryAddresses sPort _ (kernel.attempts addresses) = result
  obtain ⟨sockfd, process⟩ := result
  intro lines texts tables
  cases first : accepted (kernel.attempts addresses) with
  | none =>
    rw [first] at tables
    obtain ⟨rfl, same⟩ := tables
    refine ⟨?_, rfl, same⟩
    simpa [Line.address?, List.filterMap_cons] using lines
  | some attempt =>
    rw [first] at tables
    obtain ⟨rfl, opened⟩ := tables
    have sockfd : process.table.file table.lowest =
        some (.socket (attempt.servaddr sPort)) := by
      rw [opened, Function.update_self]
    dsimp only at lines texts ⊢
    rw [sockfd, Option.elim_some, address_readLoop, table_readLoop, text_readLoop]
    refine ⟨?_, opened, ?_⟩
    · simpa [Line.address?, List.filterMap_cons] using lines
    · simpa [Line.text?, List.filterMap_cons] using texts

/-- A host with two addresses, of which the second accepts, and sends `"Hi"`. -/
def secondAccepts : Kernel Unit where
  gethostbyname _ := some [(127, 0, 0, 1), (10, 0, 0, 1)]
  inetAton _ := none
  getservbyname _ := some (0, 13)
  fate
    | 0 => .refused
    | _ => .connected
  read _ := [.data [72, 105], .data []]

theorem addresses_tried_secondAccepts :
    let ended := main secondAccepts [] ⟨fun _ => none, 0, fun _ _ => rfl⟩ "host".toList
      "daytime".toList
    ended.2.stdout.filterMap Line.address? =
        [⟨(0, 13), (127, 0, 0, 1)⟩, ⟨(0, 13), (10, 0, 0, 1)⟩] ∧
      ended.2.stdout.filterMap Line.text? = [[72, 105]] := by
  obtain ⟨addresses, -, texts⟩ := @addresses_tried _ secondAccepts []
    ⟨fun _ => none, 0, fun _ _ => rfl⟩ "host".toList "daytime".toList _ _ rfl rfl
  exact ⟨addresses, texts⟩

end SocketProgram.DaytimeClient
