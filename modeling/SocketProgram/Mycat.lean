/-
This file is about `unixdomain/mycat.c`, which has `my_open` open a file and copies it to the
standard output. What `read` and `write` return is looked at no further than for the end of the
loop: a `read` that fails ends it as the end of the file does, and the rest of a short `write` is
not written.

So what comes out is in the order of the file and from no other, and the program ends; and it is
all of the file if nothing is left unread and every `write` takes all that it is offered. The exit
status tells none of this.
-/

import SocketProgram.Kernel
import SocketProgram.Library.Progress
import SocketProgram.MyOpen

namespace SocketProgram.Mycat

open Descriptors MyOpen Runs
open Printf (decimal)

/-! ### The source -/

/-- `BUFFSIZE` of `unp.h`. -/
def buffsize : Nat := 8192

/-- `O_RDONLY`. -/
def oRdonly : Int := 0

/-- `STDOUT_FILENO`. -/
def stdoutFileno : Int := 1

/-- Where `mycat` is: at `read`, at `write` with this much of `buff`, or at its end. -/
inductive Pc
  | read
  | write (buff : List Byte)
  | exited (status : Int)
  deriving DecidableEq, Repr

/-- `mycat`: `fd` and the open files, what has not been read of the file that `fd` refers to, and
what it and the child of `my_open` have printed. -/
structure State (Other : Type*) where
  pc : Pc
  fd : Int
  table : Table (File Other)
  rest : List Byte
  printed : List String

/-- A call with the file it is made on. -/
inductive Event (Other : Type*)
  | read (file : Option (File Other)) (outcome : ReadOutcome)
  | write (file : Option (File Other)) (buff : List Byte) (outcome : WriteOutcome)

/-- What `read` does on a file of which so much is left. -/
inductive FileRead (size : Nat) : List Byte → ReadOutcome → List Byte → Prop
  | data (bytes rest : List Byte) (nonempty : bytes ≠ []) (fits : bytes.length ≤ size) :
      FileRead size (bytes ++ rest) (.data bytes) rest
  | eof : FileRead size [] (.data []) []
  | error (errno : Errno) (rest : List Byte) : FileRead size rest (.error errno) rest

variable {Other : Type*}

/-- The message of a process in which `my_open` returns this. -/
def cannotOpen (pathname : List Char) (fd : Int) : List String :=
  if fd < 0 then ["cannot open " ++ String.ofList pathname ++ "\n"] else []

/-- `main` up to the loop, in the process that calls it and, if `my_open` returns there, in the
child, which ends before. -/
def main (kernel : MyOpen.Kernel Other) (fd : Int) (table : Table Other) (errno : Int)
    (argv : List (List Char)) (contents : File Other → List Byte) : State Other :=
  match argv with
  | [_, pathname] =>
    let returned := myOpen kernel fd table errno pathname oRdonly
    { pc := if returned.value < 0 then .exited (-1) else .read
      fd := returned.value
      table := returned.process.table
      rest := (fileAt returned.process.table returned.value).elim [] contents
      printed := (childOf kernel table pathname oRdonly).printed ++
        returned.inChild.elim [] (cannotOpen pathname) ++
        returned.process.printed ++ cannotOpen pathname returned.value }
  | _ =>
    { pc := .exited (-1), fd := fd, table := table.map .other, rest := [],
      printed := ["usage: mycat <pathname>\n"] }

/-- The test of the loop. -/
def afterRead (outcome : ReadOutcome) : Pc :=
  if 0 < outcome.value then .write outcome.bytes else .exited 0

/-- One call. On a descriptor that is not open, it fails. -/
inductive Step : State Other → List (Event Other) → State Other → Prop
  | read {state : State Other} {outcome : ReadOutcome} {rest : List Byte}
      (here : state.pc = .read) (reads : FileRead buffsize state.rest outcome rest)
      (opened : fileAt state.table state.fd = none → outcome.value < 0) :
      Step state [.read (fileAt state.table state.fd) outcome]
        { state with pc := afterRead outcome, rest := rest }
  | write {state : State Other} {buff : List Byte} {outcome : WriteOutcome}
      (here : state.pc = .write buff) (fits : outcome.Fits buff.length)
      (opened : fileAt state.table stdoutFileno = none → outcome.value < 0) :
      Step state [.write (fileAt state.table stdoutFileno) buff outcome]
        { state with pc := .read }

/-- `mycat`, one call at a time. -/
def mycat (kernel : MyOpen.Kernel Other) (fd : Int) (table : Table Other) (errno : Int)
    (argv : List (List Char)) (contents : File Other → List Byte) :
    System (State Other) (Event Other) where
  start history state := history = [] ∧ state = main kernel fd table errno argv contents
  step := Step

/-! ### When the file cannot be opened -/

section Failure

variable {kernel : MyOpen.Kernel Other} {argv0 pathname : List Char}

/-- `openfile` tells what has failed, and there is one message. -/
theorem main_of_failure {failed : Int} (fd : Int) (table : Table Other) (errno : Int)
    (contents : File Other → List Byte) (runs : kernel.fate = .openfile)
    (fails : kernel.failure? pathname (flags oRdonly) = some failed)
    (told : wexitstatus (exitCode failed) ≠ 0) :
    (main kernel fd table errno [argv0, pathname] contents).pc = .exited (-1) ∧
      (main kernel fd table errno [argv0, pathname] contents).printed =
        cannotOpen pathname (-1) := by
  have silent : (childOf kernel table pathname oRdonly).printed = [] :=
    printed_of_openfile runs _ _ _ _
  obtain ⟨once, exits⟩ : (childOf kernel table pathname oRdonly).returned = none ∧
      (childOf kernel table pathname oRdonly).ending = .exited (exitCode failed) := by
    rw [childOf, (child_of_openfile runs _ _ _ _).2, fails]
    exact ⟨(child_of_openfile runs _ _ _ _).1, rfl⟩
  have returned := @myOpen_of_exited Other kernel fd table errno pathname oRdonly _ exits
  rw [if_neg told] at returned
  refine ⟨?_, ?_⟩
  · simp only [main, returned]
    rfl
  · simp only [main, returned, once, silent]
    rfl

/-- Without `openfile`, there is a message of the child as well. -/
theorem printed_of_execlFails {code : Int} (fd : Int) (table : Table Other) (errno : Int)
    (contents : File Other → List Byte) (fails : kernel.fate = .execlFails (.exited code))
    (told : wexitstatus code ≠ 0) :
    (main kernel fd table errno [argv0, pathname] contents).printed =
      "execl error\n" :: (cannotOpen pathname (-1) ++ cannotOpen pathname (-1)) := by
  have ended : childOf kernel table pathname oRdonly =
      { printed := ["execl error\n"], sent := none, returned := some (-1),
        ending := .exited code } := by
    rw [childOf, child, fails]
  have exits : (childOf kernel table pathname oRdonly).ending = .exited code := by rw [ended]
  have returned := @myOpen_of_exited Other kernel fd table errno pathname oRdonly _ exits
  rw [if_neg told] at returned
  simp only [main, returned, ended]
  rfl

end Failure

/-! ### What is copied -/

/-- What a call has read. -/
def Event.input : Event Other → List Byte
  | .read _ outcome => outcome.bytes
  | .write .. => []

/-- What a call has written. -/
def Event.output : Event Other → List Byte
  | .read .. => []
  | .write _ buff outcome => buff.take outcome.count

/-- A `write` takes all that it is offered. -/
def Event.Whole : Event Other → Prop
  | .read .. => True
  | .write _ buff outcome => outcome.count = buff.length

/-- A call is on the file, or on the standard output. -/
def Event.On (file stdout : Other) : Event Other → Prop
  | .read on _ => on = some (.other file)
  | .write on _ _ => on = some (.other stdout)

/-- What is to be written next. -/
def Pc.pending : Pc → List Byte
  | .write buff => buff
  | _ => []

/-- The test of the loop lets through what has been read. -/
theorem pending_afterRead (outcome : ReadOutcome) :
    (afterRead outcome).pending = outcome.bytes := by
  unfold afterRead
  split_ifs with positive
  · rfl
  · cases outcome with
    | data bytes =>
      rw [ReadOutcome.value_data, Int.natCast_pos, List.length_pos_iff, not_not] at positive
      exact positive.symm
    | error errno => rfl

/-- What `read` has left of the file is behind what it has returned. -/
theorem FileRead.bytes_append {size : Nat} {before after : List Byte} {outcome : ReadOutcome}
    (reads : FileRead size before outcome after) : outcome.bytes ++ after = before := by
  cases reads <;> rfl

section Copying

variable {file stdout : Other} {contents : List Byte} {history : List (Event Other)}
  {state : State Other}

/-- What holds at every moment of the loop. -/
structure Copying (file stdout : Other) (contents : List Byte) (history : List (Event Other))
    (state : State Other) : Prop where
  own : fileAt state.table state.fd = some (.other file)
  out : fileAt state.table stdoutFileno = some (.other stdout)
  quiet : state.printed = []
  on : ∀ event ∈ history, event.On file stdout
  input : history.flatMap Event.input ++ state.rest = contents
  output : (history.flatMap Event.output ++ state.pc.pending).Sublist
    (history.flatMap Event.input)
  whole : history.flatMap Event.output ++ state.pc.pending = history.flatMap Event.input ↔
    ∀ event ∈ history, event.Whole
  status : ∀ status, state.pc = .exited status → status = 0

theorem Copying.read {outcome : ReadOutcome} {rest : List Byte}
    (copying : Copying file stdout contents history state) (here : state.pc = .read)
    (reads : FileRead buffsize state.rest outcome rest) :
    Copying file stdout contents
      (history ++ [.read (fileAt state.table state.fd) outcome])
      { state with pc := afterRead outcome, rest := rest } := by
  have output := copying.output
  have whole := copying.whole
  rw [here] at output whole
  simp only [Pc.pending, List.append_nil] at output whole
  refine
    { own := copying.own, out := copying.out, quiet := copying.quiet, on := ?_, input := ?_,
      output := ?_, whole := ?_, status := ?_ }
  · rw [List.forall_mem_append, List.forall_mem_singleton]
    exact ⟨copying.on, copying.own⟩
  · simp only [List.flatMap_append, List.flatMap_singleton, Event.input, List.append_assoc]
    rw [reads.bytes_append]
    exact copying.input
  · simp only [List.flatMap_append, List.flatMap_singleton, Event.input, Event.output,
      List.append_nil, pending_afterRead]
    exact output.append (List.Sublist.refl _)
  · rw [List.forall_mem_append, List.forall_mem_singleton, ← whole]
    simp only [List.flatMap_append, List.flatMap_singleton, Event.input, Event.output,
      List.append_nil, pending_afterRead, List.append_cancel_right_eq, Event.Whole, and_true]
  · intro status ended
    unfold afterRead at ended
    split_ifs at ended
    exact (Pc.exited.inj ended).symm

theorem Copying.write {buff : List Byte} {outcome : WriteOutcome}
    (copying : Copying file stdout contents history state) (here : state.pc = .write buff)
    (fits : outcome.Fits buff.length) :
    Copying file stdout contents
      (history ++ [.write (fileAt state.table stdoutFileno) buff outcome])
      { state with pc := .read } := by
  have output := copying.output
  have whole := copying.whole
  rw [here] at output whole
  simp only [Pc.pending] at output whole
  refine
    { own := copying.own, out := copying.out, quiet := copying.quiet, on := ?_, input := ?_,
      output := ?_, whole := ?_, status := fun status ended => by cases ended }
  · rw [List.forall_mem_append, List.forall_mem_singleton]
    exact ⟨copying.on, copying.out⟩
  · simp only [List.flatMap_append, List.flatMap_singleton, Event.input, List.append_nil]
    exact copying.input
  · simp only [List.flatMap_append, List.flatMap_singleton, Event.input, Event.output,
      List.append_nil, Pc.pending]
    exact ((List.Sublist.refl _).append (List.take_sublist _ _)).trans output
  · rw [List.forall_mem_append, List.forall_mem_singleton, ← whole]
    simp only [List.flatMap_append, List.flatMap_singleton, Event.input, Event.output,
      List.append_nil, Pc.pending, Event.Whole]
    constructor
    · intro same
      -- a part of `buff` is as long as what is behind it
      have lengths := congrArg List.length same
      have longest := output.length_le
      rw [List.length_append] at longest
      rw [List.length_append, List.length_take, Nat.min_eq_left fits] at lengths
      have all : outcome.count = buff.length := by
        have bound : outcome.count ≤ buff.length := fits
        omega
      rw [all, List.take_length] at same
      exact ⟨same, all⟩
    · rintro ⟨same, all⟩
      rw [all, List.take_length]
      exact same

end Copying

/-! ### The run -/

section Run

variable {kernel : MyOpen.Kernel Other} {fd : Int} {table : Table Other} {errno : Int}
  {argv : List (List Char)} {contents : File Other → List Byte}

/-- The calls that are still to come, at most: two for a byte that is left, and one for the end. -/
def State.left (state : State Other) : Nat :=
  match state.pc with
  | .read => 2 * state.rest.length + 1
  | .write _ => 2 * state.rest.length + 2
  | .exited _ => 0

theorem spends_mycat :
    Spends (mycat kernel fd table errno argv contents) (fun _ => true) State.left := by
  intro history state events next _ steps
  cases steps with
  | @read outcome rest here reads =>
    have shorter := congrArg List.length reads.bytes_append
    rw [List.length_append] at shorter
    simp only [State.left, here, List.countP_singleton, if_true]
    unfold afterRead
    split_ifs with positive
    · have nonempty : 0 < outcome.bytes.length := by
        cases outcome with
        | data bytes => exact Int.natCast_pos.mp positive
        | error errno =>
          rw [ReadOutcome.value_error] at positive
          exact absurd positive (by decide)
      dsimp only
      omega
    · dsimp only
      omega
  | write here _ _ =>
    simp only [State.left, here, List.countP_singleton, if_true]
    omega

/-- There is always a call that can return. -/
theorem work_mycat {state : State Other} (goesOn : ¬ ∃ status, state.pc = .exited status) :
    ∃ events next, (mycat kernel fd table errno argv contents).step state events next ∧
      0 < events.countP fun _ => true := by
  cases here : state.pc with
  | read => exact ⟨_, _, .read here (.error .eintr _) fun _ => by decide, by simp⟩
  | write buff =>
    have fits : (WriteOutcome.error .eintr).Fits buff.length := Nat.zero_le _
    exact ⟨_, _, .write here fits fun _ => by decide, by simp⟩
  | exited status => exact absurd ⟨status, here⟩ goesOn

end Run

section Copied

variable {file stdout : Other} {contents : List Byte} {history : List (Event Other)}
  {state : State Other}

/-- At the end, all of the file has been written if none of it is left unread and no `write` has
been short. -/
theorem Copying.copied_iff (copying : Copying file stdout contents history state) {status : Int}
    (ended : state.pc = .exited status) :
    history.flatMap Event.output = contents ↔
      state.rest = [] ∧ ∀ event ∈ history, event.Whole := by
  have output := copying.output
  have whole := copying.whole
  rw [ended] at output whole
  simp only [Pc.pending, List.append_nil] at output whole
  rw [← whole, ← copying.input]
  constructor
  · intro same
    have longest := output.length_le
    have lengths := congrArg List.length same
    rw [List.length_append] at lengths
    have none : state.rest = [] := List.eq_nil_of_length_eq_zero (by omega)
    rw [none, List.append_nil] at same
    exact ⟨none, same⟩
  · rintro ⟨none, same⟩
    rw [none, List.append_nil, same]

end Copied

section Opened

variable {kernel : MyOpen.Kernel Other} {argv0 pathname : List Char} {file stdout : Other}

/-- In the loop the new descriptor refers to the file. -/
theorem fileAt_received (table : Table Other) (errno : Int) (file : Other) :
    fileAt (received table errno file) (waiting table errno).table.lowest =
      some (.other file) := by
  show (received table errno file).file (waiting table errno).table.lowest = some (.other file)
  rw [file_received, if_pos rfl]

/-- The new descriptor is not the standard output that there was before. -/
theorem fileAt_received_stdout {table : Table Other} (errno : Int) (file : Other)
    (isOpen : table.file 1 = some stdout) :
    fileAt (received table errno file) stdoutFileno = some (.other stdout) := by
  have different : 1 ≠ (waiting table errno).table.lowest := fun same => by
    have free := file_lowest_waiting table errno
    rw [← same, isOpen] at free
    cases free
  show (received table errno file).file 1 = some (.other stdout)
  rw [file_received, if_neg different]
  exact congrArg (Option.map File.other) isOpen

/-- The loop begins with the file open, and nothing is printed before. -/
theorem main_of_delivers (fd : Int) (table : Table Other) (errno : Int)
    (contents : File Other → List Byte) (runs : kernel.fate = .openfile)
    (short : (decimal ((socketpair table).1 1)).length < sizeofArg)
    (opens : kernel.opened pathname oRdonly = .ok file) (sends : kernel.sendmsg = .ok ())
    (delivers : ∀ passed, (childOf kernel table pathname oRdonly).sent =
      some ⟨some (.sockfd 1), some (.other passed)⟩ → kernel.recvmsg = .byte (.rights [passed])) :
    main kernel fd table errno [argv0, pathname] contents =
      { pc := .read
        fd := (waiting table errno).table.lowest
        table := received table errno file
        rest := contents (.other file)
        printed := [] } := by
  have returned := myOpen_of_delivers fd table errno runs (by decide) short opens sends delivers
  have silent : (childOf kernel table pathname oRdonly).printed = [] :=
    printed_of_openfile runs _ _ _ _
  have found : ¬ ((waiting table errno).table.lowest : Int) < 0 :=
    Int.not_lt.mpr (Int.natCast_nonneg _)
  have own := fileAt_received table errno file
  simp only [main, returned, silent, cannotOpen, if_neg found, own]
  rfl

/-- Where `my_open` opens the file in another process, in every run: what is read is that file and
what is written is a part of it in its order, and all of it if and only if nothing was left unread
and no `write` was short. The loop makes no more than two calls a byte and one more, it can always
be continued to its end, and the exit status is 0 whatever has become of the copy. -/
theorem mycat_copies (kernel : MyOpen.Kernel Other) (fd : Int) (table : Table Other) (errno : Int)
    (argv0 pathname : List Char) (contents : File Other → List Byte) (file stdout : Other)
    (isOpen : table.file 1 = some stdout) (runs : kernel.fate = .openfile)
    (short : (decimal ((socketpair table).1 1)).length < sizeofArg)
    (opens : kernel.opened pathname oRdonly = .ok file) (sends : kernel.sendmsg = .ok ())
    (delivers : ∀ passed, (childOf kernel table pathname oRdonly).sent =
      some ⟨some (.sockfd 1), some (.other passed)⟩ → kernel.recvmsg = .byte (.rights [passed]))
    {history : List (Event Other)} {state : State Other}
    (run : Run (mycat kernel fd table errno [argv0, pathname] contents) history state) :
    Copying file stdout (contents (.other file)) history state ∧
      (∀ status, state.pc = .exited status →
        (history.flatMap Event.output = contents (.other file) ↔
          state.rest = [] ∧ ∀ event ∈ history, event.Whole)) ∧
      history.length ≤ 2 * (contents (.other file)).length + 1 ∧
      ∃ more final,
        Run (mycat kernel fd table errno [argv0, pathname] contents) (history ++ more) final ∧
          final.pc = .exited 0 := by
  have starts := @main_of_delivers Other kernel argv0 pathname file fd table errno contents runs
    short opens sends delivers
  have begins : Copying file stdout (contents (.other file)) []
      (main kernel fd table errno [argv0, pathname] contents) := by
    rw [starts]
    exact
      { own := fileAt_received table errno file
        out := fileAt_received_stdout errno file isOpen
        quiet := rfl
        on := fun event member => absurd member List.not_mem_nil
        input := rfl
        output := List.Sublist.refl []
        whole := iff_of_true rfl fun event member => absurd member List.not_mem_nil
        status := fun status ended => by cases ended }
  have copying : ∀ {history state},
      Run (mycat kernel fd table errno [argv0, pathname] contents) history state →
        Copying file stdout (contents (.other file)) history state := by
    intro history state run
    refine run.invariant (Copying file stdout (contents (.other file))) ?_ ?_
    · rintro history state ⟨rfl, rfl⟩
      exact begins
    · intro history state events next copying steps
      cases steps with
      | read here reads _ => exact copying.read here reads
      | write here fits _ => exact copying.write here fits
  refine ⟨copying run, fun status ended => (copying run).copied_iff ended, ?_, ?_⟩
  · have bound := run.countP_works_le spends_mycat (2 * (contents (.other file)).length + 1) ?_
    · simp only [List.countP_true] at bound
      omega
    · rintro history state ⟨rfl, rfl⟩
      rw [starts]
      rfl
  · obtain ⟨more, final, run', status, ended⟩ := run.reaches spends_mycat
      (fun _ _ _ goesOn => work_mycat goesOn)
    exact ⟨more, final, run', (copying run').status status ended ▸ ended⟩

end Opened

/-- A process with nothing open but a terminal, `true`, as its standard output. -/
def onTerminal : Table Bool where
  file number := if number = 1 then some true else none
  size := 2
  free number above := if_neg (by omega)

/-- The socketpair of this process has a number of one digit. -/
theorem socketpair_onTerminal : (socketpair onTerminal).1 1 ≤ 2 := by
  have first : (onTerminal.map File.other).lowest = 0 := Nat.le_zero.mp (Nat.find_min' _ rfl)
  refine Nat.find_min' _ ?_
  rw [Table.file_install_of_ne (by rw [first]; decide)]
  rfl

/-- A file of two bytes, `false`, that is opened and passed. -/
def opening : MyOpen.Kernel Bool where
  fate := .openfile
  opened _ _ := .ok false
  sendmsg := .ok ()
  recvmsg := .byte (.rights [false])

/-- It is read and written at once. -/
theorem mycat_copies_onTerminal :
    let system := mycat opening 0 onTerminal 0 [[], ['x']] fun _ => [104, 105]
    let history : List (Event Bool) := [.read (some (.other false)) (.data [104, 105]),
      .write (some (.other true)) [104, 105] (.wrote 2), .read (some (.other false)) (.data [])]
    ∃ state, Run system history state ∧ Copying false true [104, 105] history state ∧
      history.flatMap Event.output = [104, 105] ∧ history.length ≤ 2 * 2 + 1 := by
  intro system history
  have short : (decimal ((socketpair onTerminal).1 1)).length < sizeofArg := by
    have digit : (socketpair onTerminal).1 1 = 0 ∨ (socketpair onTerminal).1 1 = 1 ∨
        (socketpair onTerminal).1 1 = 2 := by
      have le := socketpair_onTerminal
      omega
    rcases digit with digit | digit | digit
    all_goals rw [digit]; decide
  have delivers : ∀ passed, (childOf opening onTerminal ['x'] oRdonly).sent =
      some ⟨some (.sockfd 1), some (.other passed)⟩ →
        opening.recvmsg = .byte (.rights [passed]) := by
    intro passed sent
    rw [@sent_childOf Bool opening false ['x'] oRdonly rfl onTerminal (by decide) short rfl
      rfl] at sent
    cases sent
    rfl
  have starts := @main_of_delivers Bool opening [] ['x'] false 0 onTerminal 0
    (fun _ => [104, 105]) rfl short rfl rfl delivers
  have file := fileAt_received onTerminal 0 false
  have out := fileAt_received_stdout 0 false (rfl : onTerminal.file 1 = some true)
  have started : Run system [] _ := .start ⟨rfl, starts.symm⟩
  have first := started.step (.read rfl (.data [104, 105] [] (by decide) (by decide))
    fun closed => by rw [file] at closed; cases closed)
  have written := first.step (@Step.write Bool _ [104, 105] (.wrote 2) rfl (Nat.le_refl 2)
    fun closed => by rw [out] at closed; cases closed)
  have ended := written.step (.read rfl .eof fun closed => by rw [file] at closed; cases closed)
  simp only [file, out] at ended
  obtain ⟨copying, whole, calls, -⟩ := mycat_copies opening 0 onTerminal 0 [] ['x']
    (fun _ => [104, 105]) false true rfl rfl short rfl rfl delivers ended
  refine ⟨_, ended, copying, (whole 0 rfl).mpr ⟨rfl, ?_⟩, calls⟩
  simp [Event.Whole]

end SocketProgram.Mycat
