/-
This file models `my_open` of `unixdomain`, which has a child open a file for it. The child runs
`openfile`, which opens the file and passes the descriptor through a socketpair with `write_fd`;
an exit status other than 0 is the `errno` of what failed. The caller waits for the child to end
and then takes the descriptor with `read_fd`. The functions are read as they are compiled with
`HAVE_MSGHDR_MSG_CONTROL`, and the misspelt `argmodep` and `argv[i]` as `argmode` and `argv[1]`.
`socketpair`, `fork` and `waitpid` succeed.

The way through without a failure does what it should, and so do the errors of `openfile`. The
others do not: where `execl` fails `my_open` returns in the child as well, a child that a signal
ended leaves the caller's end of the socketpair open, `read_fd` returns without a descriptor to a
caller that does not look, and a control message of another kind is reported and then taken for a
descriptor.
-/

import Mathlib.Data.Fin.VecNotation
import Mathlib.Data.List.TakeWhile
import SocketProgram.Library.Descriptors
import SocketProgram.Library.Printf

namespace SocketProgram.MyOpen

open Descriptors
open Printf (decimal isDigit_of_mem)

/-! ### Files and messages -/

/-- What a descriptor refers to: `sockfd[0]` or `sockfd[1]` of the socketpair, or another file. -/
inductive File (Other : Type*)
  | sockfd (index : Fin 2)
  | other (file : Other)
  deriving DecidableEq, Repr

/-- `SOL_SOCKET`. -/
def solSocket : Int := 1

/-- `SCM_RIGHTS`. -/
def scmRights : Int := 1

/-- `sizeof(int)`. -/
def sizeofInt : Nat := 4

/-- A `cmsghdr`, with the length of its data and the `int` at the front of them. -/
structure Cmsghdr where
  level : Int
  type : Int
  length : Nat
  data : Int
  deriving DecidableEq, Repr

/-- The control message that comes with a byte. Access rights are files that the kernel opens for
the receiver; of any other kind, the receiver finds what the sender has written. -/
inductive Control (Other : Type*)
  | none
  | rights (files : List Other)
  | other (header : Cmsghdr) (foreign : ¬ (header.level = solSocket ∧ header.type = scmRights))

/-- What `recvmsg` does with one byte of room. -/
inductive Received (Other : Type*)
  | byte (control : Control Other)
  | eof
  | error (errno : Int)

/-! ### Processes -/

/-- How a process ends, as `waitpid` reports it. -/
inductive Ending
  | exited (code : Int)
  | signaled (signal : Nat)
  deriving DecidableEq, Repr

/-- `WEXITSTATUS`. -/
def wexitstatus (code : Int) : Int := code % 256

/-- What becomes of the child: it runs `openfile` to its end, `execl` fails and the child ends in
some way after `my_open` has returned in it, or a signal ends it before that. -/
inductive Fate
  | openfile
  | execlFails (later : Ending)
  | killed (signal : Nat)
  deriving DecidableEq, Repr

/-- What the kernel does in a call of `my_open`: `open` and `sendmsg` in the child, with the `errno`
where they fail, and `recvmsg` in the caller. -/
structure Kernel (Other : Type*) where
  fate : Fate
  opened : List Char → Int → Except Int Other
  sendmsg : Except Int Unit
  recvmsg : Received Other

/-- What a call changes in a process. -/
structure Process (Other : Type*) where
  table : Table (File Other)
  errno : Int
  printed : List String

variable {Other : Type*}

/-- What a descriptor number refers to. -/
def fileAt (table : Table (File Other)) : Int → Option (File Other)
  | .ofNat fd => table.file fd
  | .negSucc _ => none

/-! ### Numbers as arguments -/

/-- `snprintf(buf,size,"%d",n)`. -/
def snprintf (size : Nat) (n : Int) : List Char := (decimal n).take (size - 1)

/-- `sizeof(argsockfd)` and `sizeof(argmode)`. -/
def sizeofArg : Nat := 10

/-- `isspace`. -/
def isspace (c : Char) : Bool := c ∈ [' ', '\t', '\n', '\x0b', '\x0c', '\r']

/-- The digits at the front. -/
def digits (text : List Char) : Nat := Nat.ofDigitChars 10 (text.takeWhile Char.isDigit) 0

/-- `atoi`. -/
def atoi (text : List Char) : Int :=
  match text.dropWhile isspace with
  | '-' :: rest => -(digits rest : Int)
  | '+' :: rest => digits rest
  | rest => digits rest

theorem digits_toDigits (n : Nat) : digits (Nat.toDigits 10 n) = n := by
  rw [digits, List.takeWhile_eq_self_iff.mpr fun _ => isDigit_of_mem, Nat.ofDigitChars_ten_toDigits]

theorem isspace_of_isDigit {c : Char} (digit : c.isDigit = true) : ¬ isspace c = true := by
  intro space
  have member := of_decide_eq_true space
  simp only [List.mem_cons, List.not_mem_nil, or_false] at member
  rcases member with rfl | rfl | rfl | rfl | rfl | rfl <;> exact absurd digit (by decide)

theorem atoi_decimal (n : Int) : atoi (decimal n) = n := by
  cases n with
  | ofNat n =>
    have whole : (Nat.toDigits 10 n).dropWhile isspace = Nat.toDigits 10 n :=
      List.dropWhile_eq_self_iff.mpr fun _ => isspace_of_isDigit (isDigit_of_mem (List.get_mem _ _))
    rw [atoi, decimal, whole]
    split
    · rename_i sign
      exact absurd (isDigit_of_mem (sign ▸ List.mem_cons_self : '-' ∈ _)) (by decide)
    · rename_i sign
      exact absurd (isDigit_of_mem (sign ▸ List.mem_cons_self : '+' ∈ _)) (by decide)
    · rw [digits_toDigits]
      rfl
  | negSucc n =>
    show -(digits (Nat.toDigits 10 (n + 1)) : Int) = _
    rw [digits_toDigits]
    rfl

/-- An argument that is not cut short is the number. -/
theorem atoi_snprintf {n : Int} (short : (decimal n).length < sizeofArg) :
    atoi (snprintf sizeofArg n) = n := by
  rw [snprintf, List.take_of_length_le (Nat.le_sub_one_of_lt short), atoi_decimal]

/-! ### The child -/

/-- A message with one byte: the socket it goes to and the file that is passed. -/
structure Message (Other : Type*) where
  socket : Option (File Other)
  passed : Option (File Other)

/-- `write_fd`. -/
def writeFd (kernel : Kernel Other) (table : Table (File Other)) (fd : Int) (sendfd : Nat) :
    Except Int (Message Other) :=
  match kernel.sendmsg with
  | .error errno => .error errno
  | .ok () => .ok { socket := fileAt table fd, passed := table.file sendfd }

/-- `(errno>0)? errno:255`. -/
def exitCode (errno : Int) : Int := if errno > 0 then errno else 255

/-- `main` of `openfile.c`: what it prints, what it sends and the value it exits with. -/
def openfile (kernel : Kernel Other) (table : Table (File Other)) (argv : List (List Char)) :
    List String × Option (Message Other) × Int :=
  match argv with
  | [_, sockfd, filename, mode] =>
    match kernel.opened filename (atoi mode) with
    | .error errno => ([], none, exitCode errno)
    | .ok file =>
      match writeFd kernel (table.install (.other file)) (atoi sockfd) table.lowest with
      | .error errno => ([], none, exitCode errno)
      | .ok message => ([], some message, 0)
  | _ => (["openfile <sockfd#> <filename> <mode>"], none, -1)

/-- The child: what it prints, what it sends, the value with which `my_open` returns in it and how
it ends. -/
structure Child (Other : Type*) where
  printed : List String
  sent : Option (Message Other)
  returned : Option Int
  ending : Ending

/-- The child from `fork` on, with the descriptors it has been given. -/
def child (kernel : Kernel Other) (table : Table (File Other)) (sockfd : Fin 2 → Nat)
    (pathname : List Char) (mode : Int) : Child Other :=
  let table := table.close (sockfd 0)
  let argsockfd := snprintf sizeofArg (sockfd 1)
  let argmode := snprintf sizeofArg mode
  match kernel.fate with
  | .openfile =>
    let (printed, sent, code) :=
      openfile kernel table ["openfile".toList, argsockfd, pathname, argmode]
    { printed := printed, sent := sent, returned := none, ending := .exited code }
  | .execlFails later =>
    { printed := ["execl error\n"], sent := none, returned := some (-1), ending := later }
  | .killed signal => { printed := [], sent := none, returned := none, ending := .signaled signal }

/-! ### The caller -/

/-- What `recvmsg` stores for a control message: its header, the new descriptors of the access
rights in it, and the table with them. -/
def Control.store (control : Control Other) (table : Table (File Other)) :
    Option Cmsghdr × List Nat × Table (File Other) :=
  match control with
  | .none => (Option.none, [], table)
  | .rights files =>
    let (descriptors, next) := table.installAll (files.map .other)
    let header : Cmsghdr :=
      { level := solSocket, type := scmRights, length := descriptors.length * sizeofInt,
        data := descriptors.headD 0 }
    (some header, descriptors, next)
  | .other header _ => (some header, [], table)

/-- What `read_fd` prints about a control message and stores as the descriptor. -/
def recvfd : Option Cmsghdr → List String × Int
  | none => ([], -1)
  | some header =>
    if header.length = sizeofInt then
      ((if header.level ≠ solSocket then ["control level != SOL_SOCKET"] else []) ++
        (if header.type ≠ scmRights then ["control type != SCM_RIGHTS"] else []), header.data)
    else ([], -1)

/-- What `read_fd` returns, what it leaves in `*recvfd`, and the descriptors that have been received
as access rights. -/
structure ReadFd (Other : Type*) where
  n : Int
  recvfd : Int
  rights : List Nat
  process : Process Other

/-- `read_fd`, with what `*recvfd` holds before. -/
def readFd (kernel : Kernel Other) (process : Process Other) (before : Int) : ReadFd Other :=
  match kernel.recvmsg with
  | .error errno =>
    { n := -1, recvfd := before, rights := [], process := { process with errno := errno } }
  | .eof => { n := 0, recvfd := before, rights := [], process := process }
  | .byte control =>
    let (header, rights, table) := control.store process.table
    let (printed, fd) := recvfd header
    { n := 1, recvfd := fd, rights := rights, process := { process with
        table := table, printed := process.printed ++ printed } }

/-- `socketpair`, which takes two new descriptors. -/
def socketpair (table : Table Other) : (Fin 2 → Nat) × Table (File Other) :=
  let table := table.map File.other
  let first := table.install (.sockfd 0)
  (![table.lowest, first.lowest], first.install (.sockfd 1))

/-- What `my_open` returns, in the child when it does and in the caller, the descriptors that the
caller has received as access rights, and how the child ended. -/
structure Returned (Other : Type*) where
  inChild : Option Int
  value : Int
  rights : List Nat
  process : Process Other
  ending : Ending

/-- `my_open`. The variable `fd` holds whatever it does until it is stored to. -/
def myOpen (kernel : Kernel Other) (fd : Int) (table : Table Other) (errno : Int)
    (pathname : List Char) (mode : Int) : Returned Other :=
  let (sockfd, pair) := socketpair table
  let child := child kernel pair sockfd pathname mode
  let process : Process Other := { table := pair.close (sockfd 1), errno := errno, printed := [] }
  match child.ending with
  | .signaled _ =>
    { inChild := child.returned, value := -1, rights := [], ending := child.ending,
      process := { process with printed := ["child did not termintate\n"] } }
  | .exited code =>
    let status := wexitstatus code
    if status = 0 then
      let read := readFd kernel process fd
      { inChild := child.returned, value := read.recvfd, rights := read.rights,
        ending := child.ending,
        process := { read.process with table := read.process.table.close (sockfd 0) } }
    else
      { inChild := child.returned, value := -1, rights := [], ending := child.ending,
        process := { process with errno := status, table := process.table.close (sockfd 0) } }

/-! ### The ends of the socketpair -/

/-- The caller has its own end of the socketpair and not the other. -/
structure OneEnd (table : Table (File Other)) (fd : Nat) : Prop where
  own : table.Only (.sockfd 0) fd
  peer : ¬ table.Refers (.sockfd 1)

theorem other_ne_sockfd {files : List Other} (index : Fin 2) :
    ∀ file ∈ files.map File.other, file ≠ .sockfd index := by
  rintro _ member rfl
  obtain ⟨_, -, same⟩ := List.mem_map.mp member
  cases same

theorem sockfd_zero_ne_one : (File.sockfd 0 : File Other) ≠ .sockfd 1 := fun same =>
  absurd (File.sockfd.inj same) (by decide)

/-- After `socketpair`, each end has one descriptor. -/
theorem only_socketpair (table : Table Other) (index : Fin 2) :
    (socketpair table).2.Only (.sockfd index) ((socketpair table).1 index) := by
  have closed : ∀ index, ¬ (table.map File.other).Refers (.sockfd index) := fun index =>
    Table.not_refers_map fun file same => by cases same
  match index with
  | 0 => exact (Table.only_install (closed 0)).install sockfd_zero_ne_one.symm
  | 1 => exact Table.only_install (Table.not_refers_install (closed 1) sockfd_zero_ne_one)

theorem oneEnd_close (table : Table Other) :
    OneEnd ((socketpair table).2.close ((socketpair table).1 1)) ((socketpair table).1 0) where
  own := (only_socketpair table 0).close
    ((only_socketpair table 1).ne (only_socketpair table 0) sockfd_zero_ne_one)
  peer := (only_socketpair table 1).not_refers_close

/-- What is received is neither end. -/
theorem OneEnd.store {table : Table (File Other)} {fd : Nat} (one : OneEnd table fd)
    (control : Control Other) : OneEnd (control.store table).2.2 fd := by
  cases control with
  | none => exact one
  | rights files =>
    exact ⟨one.own.installAll (other_ne_sockfd 0),
      Table.not_refers_installAll one.peer (other_ne_sockfd 1)⟩
  | other header _ => exact one

theorem OneEnd.readFd {process : Process Other} {fd : Nat} (one : OneEnd process.table fd)
    (kernel : Kernel Other) (before : Int) :
    OneEnd (readFd kernel process before).process.table fd := by
  unfold MyOpen.readFd
  cases kernel.recvmsg with
  | error errno => exact one
  | eof => exact one
  | byte control => exact one.store control

theorem OneEnd.close {table : Table (File Other)} {fd : Nat} (one : OneEnd table fd)
    (index : Fin 2) : ¬ (table.close fd).Refers (.sockfd index) := by
  match index with
  | 0 => exact one.own.not_refers_close
  | 1 => exact Table.not_refers_close one.peer

/-! ### What `my_open` returns -/

/-- The `errno` of what fails in `openfile`. -/
def Kernel.failure? (kernel : Kernel Other) (filename : List Char) (flags : Int) : Option Int :=
  match kernel.opened filename flags, kernel.sendmsg with
  | .error errno, _ => some errno
  | .ok _, .error errno => some errno
  | .ok _, .ok () => none

theorem openfile_code (kernel : Kernel Other) (table : Table (File Other))
    (argv0 sockfd filename mode : List Char) :
    (openfile kernel table [argv0, sockfd, filename, mode]).2.2 =
      ((kernel.failure? filename (atoi mode)).map exitCode).getD 0 := by
  unfold openfile Kernel.failure? writeFd
  cases opens : kernel.opened filename (atoi mode) with
  | error errno => simp only [opens]; rfl
  | ok file =>
    cases kernel.sendmsg with
    | error errno => simp only [opens]; rfl
    | ok sent => simp only [opens]; rfl

theorem openfile_printed (kernel : Kernel Other) (table : Table (File Other))
    (argv0 sockfd filename mode : List Char) :
    (openfile kernel table [argv0, sockfd, filename, mode]).1 = [] := by
  unfold openfile writeFd
  cases opens : kernel.opened filename (atoi mode) with
  | error errno => simp only [opens]
  | ok file =>
    cases kernel.sendmsg with
    | error errno => simp only [opens]
    | ok sent => simp only [opens]

/-- The flags that `openfile` opens the file with. -/
def flags (mode : Int) : Int := atoi (snprintf sizeofArg mode)

theorem child_of_openfile {kernel : Kernel Other} (runs : kernel.fate = .openfile)
    (table : Table (File Other)) (sockfd : Fin 2 → Nat) (pathname : List Char) (mode : Int) :
    (child kernel table sockfd pathname mode).returned = none ∧
      (child kernel table sockfd pathname mode).ending =
        .exited (((kernel.failure? pathname (flags mode)).map exitCode).getD 0) := by
  unfold child
  rw [runs]
  exact ⟨rfl, congrArg Ending.exited (openfile_code _ _ _ _ _ _)⟩

theorem printed_of_openfile {kernel : Kernel Other} (runs : kernel.fate = .openfile)
    (table : Table (File Other)) (sockfd : Fin 2 → Nat) (pathname : List Char) (mode : Int) :
    (child kernel table sockfd pathname mode).printed = [] := by
  unfold child
  rw [runs]
  exact openfile_printed _ _ _ _ _ _

/-- A descriptor that has been received, or -1. -/
def Defined (rights : List Nat) (fd : Int) : Prop := fd = -1 ∨ ∃ own ∈ rights, fd = (own : Int)

/-- What is expected of `my_open`: it returns in the caller only, with a descriptor that it has
received as access rights or with -1; with -1 and its status as `errno` when the child exited with
another status than 0; and with both ends of the socketpair closed. -/
structure Meets (returned : Returned Other) : Prop where
  once : returned.inChild = none
  value : Defined returned.rights returned.value
  status : ∀ code, returned.ending = .exited code → wexitstatus code ≠ 0 →
    returned.value = -1 ∧ returned.process.errno = wexitstatus code
  closed : ∀ index, ¬ returned.process.table.Refers (.sockfd index)

/-- The caller when it waits for the child. -/
def waiting (table : Table Other) (errno : Int) : Process Other where
  table := (socketpair table).2.close ((socketpair table).1 1)
  errno := errno
  printed := []

/-- The child of this call. -/
def childOf (kernel : Kernel Other) (table : Table Other) (pathname : List Char) (mode : Int) :
    Child Other :=
  child kernel (socketpair table).2 (socketpair table).1 pathname mode

section Returns

variable (kernel : Kernel Other) (fd : Int) (table : Table Other) (errno : Int)
  (pathname : List Char) (mode : Int)

theorem inChild_myOpen : (myOpen kernel fd table errno pathname mode).inChild =
    (childOf kernel table pathname mode).returned := by
  unfold myOpen childOf
  dsimp only
  split
  · rfl
  · split <;> rfl

variable {kernel fd table errno pathname mode}

theorem inChild_of_execlFails {later : Ending} (fails : kernel.fate = .execlFails later) :
    (myOpen kernel fd table errno pathname mode).inChild = some (-1) := by
  rw [inChild_myOpen, childOf, child, fails]

theorem myOpen_of_signaled {signal : Nat}
    (ending : (childOf kernel table pathname mode).ending = .signaled signal) :
    (myOpen kernel fd table errno pathname mode).process.table = (waiting table errno).table := by
  unfold childOf at ending
  unfold myOpen
  dsimp only
  rw [ending]
  rfl

theorem myOpen_of_exited {code : Int}
    (ending : (childOf kernel table pathname mode).ending = .exited code) :
    myOpen kernel fd table errno pathname mode =
      if wexitstatus code = 0 then
        let read := readFd kernel (waiting table errno) fd
        { inChild := (childOf kernel table pathname mode).returned, value := read.recvfd,
          rights := read.rights, ending := .exited code,
          process := { read.process with
            table := read.process.table.close ((socketpair table).1 0) } }
      else
        { inChild := (childOf kernel table pathname mode).returned, value := -1, rights := [],
          ending := .exited code,
          process := { waiting table errno with
            errno := wexitstatus code
            table := (waiting table errno).table.close ((socketpair table).1 0) } } := by
  unfold childOf at ending
  unfold myOpen
  dsimp only
  rw [ending]
  rfl

end Returns

/-- A child that has run `openfile` is all that `my_open` needs, with what `read_fd` leaves when the
exit status is 0. -/
theorem meets_of_openfile_iff {kernel : Kernel Other} (runs : kernel.fate = .openfile) (fd : Int)
    (table : Table Other) (errno : Int) (pathname : List Char) (mode : Int) :
    Meets (myOpen kernel fd table errno pathname mode) ↔
      (wexitstatus (((kernel.failure? pathname (flags mode)).map exitCode).getD 0) = 0 →
        Defined (readFd kernel (waiting table errno) fd).rights
          (readFd kernel (waiting table errno) fd).recvfd) := by
  obtain ⟨once, ending⟩ := child_of_openfile runs (socketpair table).2 (socketpair table).1
    pathname mode
  have one := oneEnd_close table
  rw [myOpen_of_exited ending]
  split
  · rename_i zero
    constructor
    · exact fun meets _ => meets.value
    · intro defined
      refine ⟨once, defined zero, fun code same failed => ?_, (one.readFd kernel fd).close⟩
      cases same
      exact absurd zero failed
  · rename_i failed
    refine iff_of_true ⟨once, Or.inl rfl, fun code same _ => ?_, one.close⟩ fun zero =>
      absurd zero failed
    cases same
    exact ⟨rfl, rfl⟩

/-- `read_fd` gets a byte, and not with a control message of another kind that it takes for a
descriptor. -/
def Received.Sound : Received Other → Prop
  | .byte (.other header _) => header.length = sizeofInt → header.data = -1
  | .byte _ => True
  | .eof | .error _ => False

theorem not_defined_zero : ¬ Defined [] 0 := by
  rintro (same | ⟨_, member, _⟩)
  · exact absurd same (by decide)
  · cases member

/-- Of access rights, the descriptor is taken when it is the only one. -/
theorem defined_rights (descriptors : List Nat) :
    Defined descriptors (recvfd (some ⟨solSocket, scmRights, descriptors.length * sizeofInt,
      (descriptors.headD 0 : Nat)⟩)).2 := by
  cases descriptors with
  | nil => exact Or.inl rfl
  | cons first rest =>
    rw [recvfd]
    split
    · exact Or.inr ⟨first, List.mem_cons_self, rfl⟩
    · exact Or.inl rfl

theorem defined_store_iff (control : Control Other) (table : Table (File Other)) :
    Defined (control.store table).2.1 (recvfd (control.store table).1).2 ↔
      (Received.byte control).Sound := by
  cases control with
  | none => exact iff_of_true (Or.inl rfl) trivial
  | rights files => exact iff_of_true (defined_rights _) trivial
  | other header _ =>
    show Defined [] (recvfd (some header)).2 ↔ (header.length = sizeofInt → header.data = -1)
    rw [Defined, recvfd]
    split
    · rename_i whole
      simp [whole]
    · rename_i part
      simp [part]

theorem defined_readFd_iff (kernel : Kernel Other) (process : Process Other) :
    (∀ before, Defined (readFd kernel process before).rights
        (readFd kernel process before).recvfd) ↔
      kernel.recvmsg.Sound := by
  unfold readFd
  cases kernel.recvmsg with
  | error errno => exact iff_of_false (fun defined => not_defined_zero (defined 0)) id
  | eof => exact iff_of_false (fun defined => not_defined_zero (defined 0)) id
  | byte control => exact (forall_const Int).trans (defined_store_iff control process.table)

/-- The exit status is 0 when nothing fails, or with an `errno` of which the status has nothing. -/
theorem wexitstatus_eq_zero_iff (failure : Option Int) :
    wexitstatus ((failure.map exitCode).getD 0) = 0 ↔
      ∀ errno, failure = some errno → 0 < errno ∧ errno % 256 = 0 := by
  cases failure with
  | none => exact iff_of_true rfl fun _ fails => by cases fails
  | some errno =>
    have exits : wexitstatus (exitCode errno) = 0 ↔ 0 < errno ∧ errno % 256 = 0 := by
      rw [wexitstatus, exitCode]
      split <;> omega
    refine exits.trans ⟨fun zero other same => ?_, fun zero => zero errno rfl⟩
    cases same
    exact zero

/-- `my_open` does what is expected of it, whatever `fd` holds at first, exactly when the child runs
`openfile` to its end and, with an exit status of 0, a byte is received with access rights or
without a control message that is taken for them. -/
theorem myOpen_meets_iff (kernel : Kernel Other) (table : Table Other) (errno : Int)
    (pathname : List Char) (mode : Int) :
    (∀ fd, Meets (myOpen kernel fd table errno pathname mode)) ↔
      kernel.fate = .openfile ∧
        ((∀ errno, kernel.failure? pathname (flags mode) = some errno →
            0 < errno ∧ errno % 256 = 0) →
          kernel.recvmsg.Sound) := by
  cases fate : kernel.fate with
  | openfile =>
    rw [← wexitstatus_eq_zero_iff, ← defined_readFd_iff kernel (waiting table errno)]
    simp only [meets_of_openfile_iff fate, true_and]
    exact ⟨fun meets zero fd => meets fd zero, fun meets fd zero => meets zero fd⟩
  | execlFails later =>
    refine iff_of_false (fun meets => ?_) fun holds => by cases holds.1
    have once := (meets 0).once
    rw [inChild_of_execlFails fate] at once
    cases once
  | killed signal =>
    refine iff_of_false (fun meets => ?_) fun holds => by cases holds.1
    have ending : (childOf kernel table pathname mode).ending = .signaled signal := by
      rw [childOf, child, fate]
    have closed := (meets 0).closed 0
    rw [myOpen_of_signaled ending] at closed
    exact closed (oneEnd_close table).own.refers

/-- Without `openfile`, and with a child that exits like one in which `my_open` has failed. -/
def withoutOpenfile : Kernel Unit where
  fate := .execlFails (.exited (-1))
  opened _ _ := .ok ()
  sendmsg := .ok ()
  recvmsg := .eof

/-- Where there is no `openfile`, `my_open` returns in the child as well. -/
theorem not_meets : ¬ ∀ (kernel : Kernel Unit) (fd : Int) (table : Table Unit) (errno : Int)
    (pathname : List Char) (mode : Int), Meets (myOpen kernel fd table errno pathname mode) := by
  intro meets
  have once := (meets withoutOpenfile 0 ⟨fun _ => none, 0, fun _ _ => rfl⟩ 0 ['x'] 0).once
  rw [inChild_of_execlFails rfl] at once
  cases once

/-! ### The way through -/

section Opens

variable {kernel : Kernel Other} {file : Other} {pathname : List Char} {mode : Int}

/-- `openfile` passes the file through the other end of the socketpair. -/
theorem sent_childOf (runs : kernel.fate = .openfile) (table : Table Other)
    (short : (decimal mode).length < sizeofArg)
    (short' : (decimal ((socketpair table).1 1)).length < sizeofArg)
    (opens : kernel.opened pathname mode = .ok file) (sends : kernel.sendmsg = .ok ()) :
    (childOf kernel table pathname mode).sent =
      some ⟨some (.sockfd 1), some (.other file)⟩ := by
  have ends : (socketpair table).1 0 ≠ (socketpair table).1 1 :=
    (only_socketpair table 0).ne (only_socketpair table 1) sockfd_zero_ne_one.symm
  have own : (((socketpair table).2.close ((socketpair table).1 0)).install (.other file)).Only
      (.sockfd 1) ((socketpair table).1 1) :=
    ((only_socketpair table 1).close ends).install fun same => by cases same
  have failing : ∀ argv0, openfile kernel ((socketpair table).2.close ((socketpair table).1 0))
      [argv0, snprintf sizeofArg ((socketpair table).1 1), pathname, snprintf sizeofArg mode] =
      ([], some ⟨some (.sockfd 1), some (.other file)⟩, 0) := by
    intro argv0
    unfold openfile writeFd
    simp only [atoi_snprintf short, atoi_snprintf short', opens, sends]
    rw [Table.file_install_lowest]
    exact congrArg (fun socket => ([], some (Message.mk socket _), 0)) ((own _).mpr rfl)
  rw [childOf, child, runs]
  dsimp only
  rw [failing]

/-- While it waits for the child, the caller has its own descriptors and one end of the
socketpair. -/
theorem waiting_file (table : Table Other) (errno : Int) {number : Nat}
    (different : number ≠ (socketpair table).1 0) :
    (waiting table errno).table.file number = (table.map File.other).file number := by
  have first : number ≠ (table.map File.other).lowest := different
  have old := Table.file_install_of_ne first (.sockfd 0)
  by_cases peer : number = (socketpair table).1 1
  · have free : ((table.map File.other).install (.sockfd 0)).file number = none := by
      rw [peer]
      exact Table.file_lowest _
    rw [← old, free, peer]
    exact Table.file_close_self _ _
  · exact (Table.file_close_of_ne peer _).trans ((Table.file_install_of_ne peer _).trans old)

/-- The number that a received file gets was free before. -/
theorem file_lowest_waiting (table : Table Other) (errno : Int) :
    table.file (waiting table errno).table.lowest = none := by
  have free : (waiting table errno).table.lowest ≠ (socketpair table).1 0 :=
    (oneEnd_close table).own.ne_lowest.symm
  have unused := (waiting_file table errno free).symm.trans (Table.file_lowest _)
  exact Option.map_eq_none_iff.mp unused

/-- The descriptors with a received file, and without the socketpair. -/
def received (table : Table Other) (errno : Int) (file : Other) : Table (File Other) :=
  ((waiting table errno).table.install (.other file)).close ((socketpair table).1 0)

theorem file_received (table : Table Other) (errno : Int) (file : Other) (number : Nat) :
    (received table errno file).file number =
      if number = (waiting table errno).table.lowest then some (.other file)
      else (table.map File.other).file number := by
  have free : (waiting table errno).table.lowest ≠ (socketpair table).1 0 :=
    (oneEnd_close table).own.ne_lowest.symm
  by_cases own : number = (waiting table errno).table.lowest
  · rw [if_pos own, own]
    exact (Table.file_close_of_ne free _).trans (Table.file_install_lowest _ _)
  · rw [if_neg own]
    by_cases first : number = (socketpair table).1 0
    · rw [first]
      exact (Table.file_close_self _ _).trans (Table.file_lowest _).symm
    · exact (Table.file_close_of_ne first _).trans ((Table.file_install_of_ne own _).trans
        (waiting_file table errno first))

/-- What `my_open` returns where the kernel delivers what is sent through the socketpair. -/
theorem myOpen_of_delivers (fd : Int) (table : Table Other) (errno : Int)
    (runs : kernel.fate = .openfile) (short : (decimal mode).length < sizeofArg)
    (short' : (decimal ((socketpair table).1 1)).length < sizeofArg)
    (opens : kernel.opened pathname mode = .ok file) (sends : kernel.sendmsg = .ok ())
    (delivers : ∀ passed, (childOf kernel table pathname mode).sent =
      some ⟨some (.sockfd 1), some (.other passed)⟩ → kernel.recvmsg = .byte (.rights [passed])) :
    myOpen kernel fd table errno pathname mode =
      { inChild := none
        value := (waiting table errno).table.lowest
        rights := [(waiting table errno).table.lowest], ending := .exited 0
        process := { waiting table errno with table := received table errno file } } := by
  have receives := delivers file (sent_childOf runs table short short' opens sends)
  have succeeds : kernel.failure? pathname (flags mode) = none := by
    rw [flags, atoi_snprintf short, Kernel.failure?, opens, sends]
  obtain ⟨once, exits⟩ := child_of_openfile runs (socketpair table).2 (socketpair table).1
    pathname mode
  have ending : (childOf kernel table pathname mode).ending = .exited 0 := by
    rw [childOf, exits, succeeds]
    rfl
  rw [myOpen_of_exited ending, if_pos (by decide : wexitstatus 0 = 0), childOf, once]
  unfold readFd
  rw [receives]
  rfl

/-- Where the kernel delivers what is sent through the socketpair, `my_open` opens the file in
another process and returns a descriptor for it: one that was free before, while every other
descriptor of the caller is as it was and both ends of the socketpair are closed. -/
theorem myOpen_adds (kernel : Kernel Other) (fd : Int) (table : Table Other) (errno : Int)
    (pathname : List Char) (mode : Int) (file : Other) (runs : kernel.fate = .openfile)
    (short : (decimal mode).length < sizeofArg)
    (short' : (decimal ((socketpair table).1 1)).length < sizeofArg)
    (opens : kernel.opened pathname mode = .ok file) (sends : kernel.sendmsg = .ok ())
    (delivers : ∀ passed, (childOf kernel table pathname mode).sent =
      some ⟨some (.sockfd 1), some (.other passed)⟩ → kernel.recvmsg = .byte (.rights [passed])) :
    (myOpen kernel fd table errno pathname mode).inChild = none ∧
      ∃ own : Nat, (myOpen kernel fd table errno pathname mode).value = own ∧
        table.file own = none ∧
        ∀ number, (myOpen kernel fd table errno pathname mode).process.table.file number =
          if number = own then some (.other file) else (table.map File.other).file number := by
  rw [myOpen_of_delivers fd table errno runs short short' opens sends delivers]
  exact ⟨rfl, _, rfl, file_lowest_waiting table errno, file_received table errno file⟩

/-- A process with the descriptors 0, 1, 2 and 4, each for a file of its own. -/
def withGap : Table Nat where
  file fd := if fd < 3 ∨ fd = 4 then some fd else none
  size := 5
  free fd outside := if_neg (by omega)

/-- The first end of a socketpair fills the gap, so the second one has the number 5. -/
theorem socketpair_withGap : (socketpair withGap).1 1 = 5 := by
  have first : (withGap.map File.other).lowest = 3 := Table.lowest_eq rfl (by decide)
  refine Table.lowest_eq ?_ fun lower below => ?_
  · rw [Table.file_install_of_ne (by rw [first]; decide)]
    rfl
  · by_cases gap : lower = 3
    · rw [gap, ← first, Table.file_install_lowest]
      exact Option.some_ne_none _
    · rw [Table.file_install_of_ne (by rw [first]; exact gap)]
      show (if lower < 3 ∨ lower = 4 then some lower else none).map File.other ≠ none
      rw [if_pos (by omega)]
      exact Option.some_ne_none _

/-- A file is opened for this process, and it keeps its descriptors. -/
theorem myOpen_adds_withGap :
    let kernel : Kernel Nat := ⟨.openfile, fun _ _ => .ok 7, .ok (), .byte (.rights [7])⟩
    (myOpen kernel 0 withGap 0 ['x'] 2).inChild = none ∧
      ∃ own : Nat, (myOpen kernel 0 withGap 0 ['x'] 2).value = own ∧ withGap.file own = none ∧
        (myOpen kernel 0 withGap 0 ['x'] 2).process.table.file own = some (.other 7) ∧
        (myOpen kernel 0 withGap 0 ['x'] 2).process.table.file 4 = some (.other 4) := by
  intro kernel
  have short : (decimal ((socketpair withGap).1 1)).length < sizeofArg := by
    rw [socketpair_withGap]
    decide
  have delivers : ∀ passed, (childOf kernel withGap ['x'] 2).sent =
      some ⟨some (.sockfd 1), some (.other passed)⟩ →
        kernel.recvmsg = .byte (.rights [passed]) := by
    intro passed sent
    have same := (sent_childOf rfl withGap (by decide) short rfl rfl).symm.trans sent
    injection same with message
    injection message with _ payload
    injection payload with file
    injection file with number
    rw [← number]
  obtain ⟨inCaller, own, value, free, files⟩ :=
    myOpen_adds kernel 0 withGap 0 ['x'] 2 7 rfl (by decide) short rfl rfl delivers
  have other : 4 ≠ own := by
    rintro rfl
    cases free
  exact ⟨inCaller, own, value, free, by rw [files, if_pos rfl],
    by rw [files, if_neg other]; rfl⟩

end Opens

end SocketProgram.MyOpen
