/-
This file is about what the line clients print. Each of the three `str_cli`s compares the value of
`readline` with 0 and prints `recvline` whenever it is something else. After a call that has
failed, what stands in `recvline` is whatever part of a line the call had stored, in front of what
was there before.

What reaches the standard output depends on the calls of `readline` alone, and on what was in the
array at first. So the three are seen as one screen that is handed the returned calls; which
`readline` it is, and what else goes on between two calls, makes no difference to it.
-/

import SocketProgram.EchoSystem
import SocketProgram.SelectClientStdio

namespace SocketProgram.StrCliPrints

open Memory Source Runs
open EchoSystem (Client Version againRound terminated)

/-! ### The screen -/

/-- What of a client decides what it prints: its array, its standard output, and whether it is
gone because the server has terminated. -/
structure Screen where
  recvline : List Byte
  stdout : List Byte
  exited : Bool
  deriving DecidableEq, Repr

/-- What every client does when a call of `readline` has returned. -/
def Screen.take (notice : List Byte) (screen : Screen) (ret : Return) : Screen :=
  let recvline := overwrite screen.recvline 0 ret.stored
  if ret.value = 0 then ⟨recvline, screen.stdout ++ notice, true⟩
  else ⟨recvline, screen.stdout ++ cstring recvline, screen.exited⟩

/-- The line a call has stored, if it has not failed. The NUL behind it is not a part of it. -/
def line (ret : Return) : List Byte := if ret.value = -1 then [] else ret.stored.dropLast

/-- The lines of the calls that have not failed. -/
def lines (history : List Return) : List Byte := history.flatMap line

/-- The client has printed the lines it has received and nothing else, up to the notice with which
it ends when the server has terminated. -/
def OnlyReceived (notice : List Byte) (history : List Return) (screen : Screen) : Prop :=
  screen.stdout = lines history ++ if screen.exited = true then notice else []

/-- What `recvline` holds after these calls. -/
def recvlineAfter (recvline : List Byte) (history : List Return) : List Byte :=
  history.foldl (fun recvline ret => overwrite recvline 0 ret.stored) recvline

/-- A call after which nothing is printed but its line: it has not failed, and there is no NUL in
the line; or it has failed and leaves `recvline` with a NUL in front. -/
def Good (recvline : List Byte) (ret : Return) : Prop :=
  if ret.value = -1 then (overwrite recvline 0 ret.stored).headD 0 = 0 else 0 ∉ line ret

/-- Every call is one of these. -/
def AllGood (recvline : List Byte) (history : List Return) : Prop :=
  ∀ before ret after, history = before ++ ret :: after → Good (recvlineAfter recvline before) ret

/-- What `readline` returns: -1, or 0 with the empty line, or more with some line. -/
structure Sensible (ret : Return) : Prop where
  nul : ret.value ≠ -1 → ∃ stored, ret.stored = stored ++ [0]
  empty : ret.value = 0 → ret.stored = [0]

theorem cstring_eq_nil_iff (array : List Byte) : cstring array = [] ↔ array.headD 0 = 0 := by
  cases array with
  | nil => exact iff_of_true rfl rfl
  | cons c array =>
    by_cases nul : c = 0
    · subst nul
      exact iff_of_true rfl rfl
    · have more : cstring (c :: array) = c :: cstring array :=
        List.takeWhile_cons_of_pos (bne_iff_ne.mpr nul)
      rw [more]
      exact iff_of_false (List.cons_ne_nil _ _) nul

theorem cstring_overwrite_iff (recvline stored : List Byte) :
    cstring (overwrite recvline 0 (stored ++ [0])) = stored ↔ 0 ∉ stored := by
  constructor
  · intro whole member
    rw [cstring_overwrite_takeWhile] at whole
    have kept := List.mem_takeWhile_imp (whole.symm ▸ member)
    exact absurd kept (by decide)
  · exact cstring_overwrite recvline stored

/-- What is printed is the line, exactly if the call is good. -/
theorem onlyReceived_take {notice : List Byte} {history : List Return} {screen : Screen}
    (only : OnlyReceived notice history screen) (running : screen.exited = false) {ret : Return}
    (sensible : Sensible ret) :
    OnlyReceived notice (history ++ [ret]) (screen.take notice ret) ↔
      Good screen.recvline ret := by
  have stdout : screen.stdout = lines history := by
    rw [OnlyReceived, running] at only
    exact only.trans (List.append_nil _)
  have more : lines (history ++ [ret]) = lines history ++ line ret := by
    rw [lines, List.flatMap_append, List.flatMap_singleton]
    rfl
  rw [OnlyReceived, more, Screen.take, Good]
  by_cases ended : ret.value = 0
  · have notFailed : ret.value ≠ -1 := by omega
    have line' : line ret = [] := by
      rw [line, sensible.empty ended, if_neg notFailed]
      rfl
    rw [if_pos ended, if_neg notFailed, line', List.append_nil]
    exact iff_of_true (congrArg (· ++ notice) stdout) List.not_mem_nil
  · rw [if_neg ended]
    show screen.stdout ++ cstring (overwrite screen.recvline 0 ret.stored) =
      lines history ++ line ret ++ (if screen.exited = true then notice else []) ↔ _
    rw [running, if_neg Bool.false_ne_true, List.append_nil, stdout, List.append_cancel_left_eq]
    by_cases failed : ret.value = -1
    · rw [if_pos failed, line, if_pos failed, cstring_eq_nil_iff]
    · obtain ⟨stored, nul⟩ := sensible.nul failed
      rw [if_neg failed, line, if_neg failed, nul, List.dropLast_concat, cstring_overwrite_iff]

theorem recvlineAfter_append (recvline : List Byte) (history : List Return) (ret : Return) :
    recvlineAfter recvline (history ++ [ret]) =
      overwrite (recvlineAfter recvline history) 0 ret.stored :=
  List.foldl_append

theorem AllGood.front {recvline : List Byte} {history more : List Return}
    (good : AllGood recvline (history ++ more)) : AllGood recvline history := by
  intro before ret after split
  exact good before ret (after ++ more) (by rw [split, List.append_assoc, List.cons_append])

theorem allGood_append (recvline : List Byte) (history : List Return) (ret : Return) :
    AllGood recvline (history ++ [ret]) ↔
      AllGood recvline history ∧ Good (recvlineAfter recvline history) ret := by
  constructor
  · intro good
    exact ⟨good.front, good history ret [] rfl⟩
  · rintro ⟨earlier, last⟩ before ret' after split
    rcases place_concat split with ⟨rfl, rfl, -⟩ | ⟨between, front⟩
    · exact last
    · exact earlier before ret' between front

/-- What a step shows on the screen: nothing, or a call of `readline` that has returned. -/
def Shows (notice : List Byte) (screen : Screen) (events : List Return) (next : Screen) : Prop :=
  events = [] ∧ next = screen ∨
    ∃ ret, events = [ret] ∧ Sensible ret ∧ screen.exited = false ∧ next = screen.take notice ret

/-- A client, as seen on its screen: what it starts with and what each of its steps shows. -/
structure Prints {State : Type*} (client : System State Return) (screen : State → Screen)
    (notice recvline : List Byte) (Inv : State → Prop) : Prop where
  start : ∀ history state, client.start history state →
    history = [] ∧ screen state = ⟨recvline, [], false⟩ ∧ Inv state
  step : ∀ state events next, Inv state → client.step state events next →
    Inv next ∧ Shows notice (screen state) events (screen next)

/-- A client prints what it has received and nothing else, at every moment, exactly if every call
of `readline` is good. -/
theorem Prints.always_iff {State : Type*} {client : System State Return}
    {screen : State → Screen} {notice recvline : List Byte} {Inv : State → Prop}
    (prints : Prints client screen notice recvline Inv) {history : List Return} {state : State} :
    Always client (fun history state => OnlyReceived notice history (screen state)) history state ↔
      Run client history state ∧ AllGood recvline history := by
  refine always_iff_meets (AllGood recvline) (fun history state => Inv state ∧
    (screen state).recvline = recvlineAfter recvline history) ?_ ?_ ?_ ?_
  · intro history state starts
    obtain ⟨rfl, shown, inv⟩ := prints.start history state starts
    rw [shown]
    refine ⟨⟨inv, rfl⟩, rfl, fun before ret after split => ?_⟩
    exact absurd split.symm (List.append_ne_nil_of_right_ne_nil _ (List.cons_ne_nil _ _))
  · rintro history state events next ⟨inv, holds⟩ steps
    obtain ⟨inv', shows⟩ := prints.step state events next inv steps
    refine ⟨inv', ?_⟩
    rcases shows with ⟨rfl, same⟩ | ⟨ret, rfl, -, -, taken⟩
    · rw [same, List.append_nil]
      exact holds
    · rw [taken, recvlineAfter_append, ← holds, Screen.take]
      split_ifs <;> rfl
  · rintro history state events next ⟨inv, holds⟩ only good steps
    obtain ⟨-, shows⟩ := prints.step state events next inv steps
    rcases shows with ⟨rfl, same⟩ | ⟨ret, rfl, sensible, running, taken⟩
    · rw [same, List.append_nil]
      exact iff_of_true only good
    · rw [taken, onlyReceived_take only running sensible, allGood_append, holds]
      exact (and_iff_right good).symm
  · exact fun history events good => good.front

/-! ### What `readline` returns -/

/-- A call of `readline` as far as it has come has counted what it has stored. -/
def Counted : Return ⊕ Frame → Prop
  | .inl ret => Sensible ret
  | .inr frame => frame.n = frame.stored.length + 1

theorem sensible_filled {frame : Frame} (positive : 0 < frame.n) : Sensible frame.filled := by
  refine ⟨fun _ => ⟨frame.stored, rfl⟩, fun zero => ?_⟩
  have value : (frame.n : Int) = 0 := zero
  omega

theorem counted_test {maxlen : Nat} {frame : Frame} (counted : frame.n = frame.stored.length + 1) :
    Counted ((readlineLoop maxlen).test frame) := by
  by_cases more : frame.n < maxlen
  · rw [Text.test_more (decide_eq_true more)]
    exact counted
  · rw [Text.test_over (decide_eq_false more)]
    exact sensible_filled (by omega)

theorem counted_round {maxlen : Nat} (reply : Reply) {frame : Frame}
    (counted : frame.n = frame.stored.length + 1) :
    Counted ((readlineLoop maxlen).round reply frame) := by
  rcases body : readlineBody reply frame with ret | next
  · rw [Text.round_return body]
    unfold readlineBody at body
    split_ifs at body with byte ends eof <;> cases body
    · have positive : 0 < frame.n := by omega
      exact sensible_filled positive
    · refine ⟨fun _ => ⟨frame.stored, rfl⟩, fun zero => ?_⟩
      have value : (frame.n : Int) - 1 = 0 := zero
      have nothing : frame.stored = [] := List.eq_nil_of_length_eq_zero (by omega)
      exact congrArg (· ++ [0]) nothing
    · exact ⟨fun succeeded => absurd rfl succeeded, fun zero => by cases zero⟩
  · rw [Text.round_next body]
    unfold readlineBody at body
    split_ifs at body with byte ends
    cases body
    refine counted_test ?_
    rw [List.length_append, List.length_singleton, counted]

/-- A `read` of one byte is interrupted, or is to the byte-at-a-time loop what some reply is to the
other. -/
theorem readline1Body_cases {outcome : ReadOutcome} (fits : outcome.Fits 1) (frame : Frame) :
    readline1Body outcome frame = .inr frame ∨
      ∃ reply, readline1Body outcome frame = readlineBody reply frame := by
  cases outcome with
  | data bytes =>
    rcases bytes with _ | ⟨c, more⟩
    · exact .inr ⟨_, readline1Body_eof frame⟩
    · have single : more = [] := List.eq_nil_of_length_eq_zero (Nat.le_zero.mp
        (Nat.le_of_succ_le_succ fits))
      subst single
      exact .inr ⟨_, readline1Body_data c frame⟩
  | error errno =>
    by_cases interrupted : errno = .eintr
    · subst interrupted
      exact .inl (readline1Body_interrupted frame)
    · exact .inr ⟨_, readline1Body_error interrupted frame⟩

theorem counted_round1 {outcome : ReadOutcome} (fits : outcome.Fits 1) {frame : Frame}
    (counted : frame.n = frame.stored.length + 1) :
    Counted ((readline1Text maxline).round outcome frame) := by
  rcases readline1Body_cases fits frame with interrupted | ⟨reply, same⟩
  · have body : (readline1Text maxline).body outcome frame = .inr frame := interrupted
    have test : (readline1Text maxline).test frame = (readlineLoop maxline).test frame := rfl
    rw [Text.round_next body, test]
    exact counted_test counted
  · have body : (readline1Text maxline).body outcome frame =
        (readlineLoop maxline).body reply frame := same
    rw [Text.round_congr body rfl]
    exact counted_round reply counted

theorem counted_againRound (outcome : ReadOutcome) (buffer : LineBuffer) {frame : Frame}
    (counted : frame.n = frame.stored.length + 1) :
    Counted (againRound outcome buffer frame).2 := by
  rw [againRound]
  split
  · exact counted_round _ counted
  · exact counted

/-- The return of a call, if it has come so far. -/
def returned : Return ⊕ Frame → List Return
  | .inl ret => [ret]
  | .inr _ => []

theorem test_enter : (readlineLoop maxline).test Frame.enter = .inr Frame.enter :=
  Text.test_more (by decide)

/-! ### `str_cli` of `lib/` and of `tcpcli01.c` -/

/-- One step of the client, with the call of `readline` that returns in it. The file and the socket
may do anything, and so may the `write`s of `written`. -/
inductive Step (version : Version) : Client → List Return → Client → Prop
  | fgetsNull {client : Client} (pc : client.pc = .gets) (ended : fgets maxline client.fp = none) :
      Step version client [] { client with pc := .returned }
  | fgets {client : Client} {stored rest : List Byte} (pc : client.pc = .gets)
      (got : fgets maxline client.fp = some (stored, rest)) :
      Step version client [] ({ client with fp := rest }.send stored)
  | write {client : Client} {frame : WrittenFrame} {outcome : WriteOutcome}
      (pc : client.pc = .writing frame) (fits : outcome.Fits frame.nleft) :
      Step version client []
        (client.sent ((written (strlen client.sendline)).round outcome frame))
  | byte {client : Client} {frame : Frame} {outcome : ReadOutcome} (pc : client.pc = .reading frame)
      (unbuffered : version = .readline1) (fits : outcome.Fits 1) :
      Step version client (returned ((readline1Text maxline).round outcome frame))
        (client.received ((readline1Text maxline).round outcome frame))
  | deliver {client : Client} {frame : Frame} (pc : client.pc = .reading frame)
      (buffered : version = .readline) (positive : 0 < client.buffer.cnt) :
      Step version client (returned ((readlineLoop maxline).round client.buffer.deliver.1 frame))
        ({ client with buffer := client.buffer.deliver.2 }.received
          ((readlineLoop maxline).round client.buffer.deliver.1 frame))
  | fill {client : Client} {frame : Frame} {outcome : ReadOutcome} (pc : client.pc = .reading frame)
      (buffered : version = .readline) (empty : client.buffer.cnt ≤ 0)
      (fits : outcome.Fits maxline) :
      Step version client (returned (againRound outcome client.buffer frame).2)
        ({ client with buffer := (againRound outcome client.buffer frame).1 }.received
          (againRound outcome client.buffer frame).2)

/-- `str_cli` with this in `recvline` at first. -/
def strCli (version : Version) (recvline : List Byte) : System Client Return where
  start history client := history = [] ∧ client.pc = .gets ∧ client.recvline = recvline ∧
    client.buffer = .zero ∧ client.stdout = []
  step := Step version

/-- What is seen of the client. -/
def ofClient (client : Client) : Screen :=
  ⟨client.recvline, client.stdout, decide (client.pc = .exited)⟩

/-- A client that is in `readline` has counted what it has stored. -/
def ClientInv (client : Client) : Prop :=
  ∀ frame, client.pc = .reading frame → frame.n = frame.stored.length + 1

/-- What follows a call of `readline` as far as it has come. -/
theorem shows_received {client : Client} (running : client.pc ≠ .exited) {progress : Return ⊕ Frame}
    (counted : Counted progress) :
    ClientInv (client.received progress) ∧
      Shows terminated (ofClient client) (returned progress)
        (ofClient (client.received progress)) := by
  have open' : (ofClient client).exited = false := decide_eq_false running
  cases progress with
  | inr frame =>
    refine ⟨?_, .inl ⟨rfl, ?_⟩⟩
    · rintro _ ⟨⟩
      exact counted
    · show Screen.mk client.recvline client.stdout false = _
      rw [← open']
      rfl
  | inl ret =>
    refine ⟨?_, .inr ⟨ret, rfl, counted, open', ?_⟩⟩
    · rw [EchoSystem.Client.received]
      split_ifs <;> rintro _ ⟨⟩
    · rw [EchoSystem.Client.received, Screen.take, open']
      split_ifs <;> rfl

/-- What precedes the call. -/
theorem shows_sent {client : Client} (running : client.pc ≠ .exited)
    (progress : Int ⊕ WrittenFrame) :
    ClientInv (client.sent progress) ∧
      Shows terminated (ofClient client) [] (ofClient (client.sent progress)) := by
  cases progress with
  | inl value =>
    rw [EchoSystem.Client.sent, test_enter]
    have entered : Counted (.inr Frame.enter) := rfl
    exact shows_received running entered
  | inr frame =>
    refine ⟨by rintro _ ⟨⟩, .inl ⟨rfl, ?_⟩⟩
    show Screen.mk client.recvline client.stdout false = Screen.mk _ _ _
    rw [decide_eq_false running]

theorem prints_strCli (version : Version) (recvline : List Byte) :
    Prints (strCli version recvline) ofClient terminated recvline ClientInv := by
  constructor
  · rintro history client ⟨rfl, pc, rfl, -, stdout⟩
    refine ⟨rfl, ?_, fun frame reading => ?_⟩
    · rw [ofClient, pc, stdout]
      rfl
    · cases pc.symm.trans reading
  · intro client events next inv steps
    cases steps with
    | fgetsNull pc ended =>
      refine ⟨by rintro _ ⟨⟩, .inl ⟨rfl, ?_⟩⟩
      rw [ofClient, ofClient, pc]
      rfl
    | fgets pc got => exact shows_sent (fun exited => by cases pc.symm.trans exited) _
    | write pc fits => exact shows_sent (fun exited => by cases pc.symm.trans exited) _
    | byte pc unbuffered fits =>
      exact shows_received (fun exited => by cases pc.symm.trans exited)
        (counted_round1 fits (inv _ pc))
    | deliver pc buffered positive =>
      exact shows_received (fun exited => by cases pc.symm.trans exited)
        (counted_round _ (inv _ pc))
    | fill pc buffered empty fits =>
      exact shows_received (fun exited => by cases pc.symm.trans exited)
        (counted_againRound _ _ (inv _ pc))

/-! ### `str_cli` of `strcliselect01.c` -/

/-- What a call writes to the standard output. -/
def toStdout : SelectClientStdio.Call → List Byte
  | .fputs text => text
  | .printf text => text.toList.map fun c => UInt8.ofNat c.toNat
  | .select _ _ | .readSocket _ _ | .readInput _ _ | .writen _ => []

/-- The call of `readline` that returns in a step with these calls, if there is one. -/
def returnedBy (client : SelectClientStdio.Client) (calls : List SelectClientStdio.Call) :
    List Return :=
  match client.pc with
  | .readline _ frame =>
    if 0 < client.buffer.cnt then
      returned ((readlineLoop maxline).round client.buffer.deliver.1 frame)
    else
      match calls with
      | .readSocket _ outcome :: _ => returned (againRound outcome client.buffer frame).2
      | _ => []
  | _ => []

/-- The client that waits in `select`, with what it has written to the standard output. -/
def selectStrCli (recvline : List Byte) :
    System (SelectClientStdio.Client × List Byte) Return where
  start history state := history = [] ∧ SelectClientStdio.strCli.start [] state.1 ∧
    state.1.recvline = recvline ∧ state.2 = []
  step state events next := ∃ calls, SelectClientStdio.Step state.1 calls next.1 ∧
    next.2 = state.2 ++ calls.flatMap toStdout ∧ events = returnedBy state.1 calls

/-- The text with which it ends when the server has terminated. -/
def selectTerminated : List Byte :=
  toStdout (.printf "[str_cli]:server terminated prematurely\n")

/-- The process is over because the server has terminated. -/
def gone : SelectClientStdio.Pc → Bool
  | .exited _ => true
  | .select | .readline _ _ | .fgets _ | .returned => false

/-- What is seen of the client. -/
def ofSelectClient (state : SelectClientStdio.Client × List Byte) : Screen :=
  ⟨state.1.recvline, state.2, gone state.1.pc⟩

/-- A client that is in `readline` has counted what it has stored. -/
def SelectInv (state : SelectClientStdio.Client × List Byte) : Prop :=
  ∀ input frame, state.1.pc = .readline input frame → frame.n = frame.stored.length + 1

section Select

variable {client : SelectClientStdio.Client} (stdout : List Byte)

/-- Outside `readline` no call of it returns. -/
theorem returnedBy_outside (outside : ∀ input frame, client.pc ≠ .readline input frame)
    (calls : List SelectClientStdio.Call) : returnedBy client calls = [] := by
  rw [returnedBy]
  split
  · rename_i input frame pc
    exact absurd pc (outside input frame)
  · rfl

/-- A step with these calls shows on the screen the call of `readline` that returns in it. -/
def StepShows (client : SelectClientStdio.Client) (calls : List SelectClientStdio.Call)
    (next : SelectClientStdio.Client) : Prop :=
  SelectInv (next, stdout ++ calls.flatMap toStdout) ∧
    Shows selectTerminated (ofSelectClient (client, stdout)) (returnedBy client calls)
      (ofSelectClient (next, stdout ++ calls.flatMap toStdout))

/-- A step in which a call of `readline` comes so far, with this buffer. -/
theorem stepShows_received (running : gone client.pc = false) (buffer : LineBuffer)
    (input : Bool) {progress : Return ⊕ Frame} (counted : Counted progress)
    {calls : List SelectClientStdio.Call} (returns : returnedBy client calls = returned progress)
    (output : calls.flatMap toStdout =
      ({ client with buffer := buffer }.received input progress).1.flatMap toStdout) :
    StepShows stdout client calls ({ client with buffer := buffer }.received input progress).2 := by
  rw [StepShows, returns, output]
  cases progress with
  | inr frame =>
    refine ⟨?_, .inl ⟨rfl, ?_⟩⟩
    · rintro _ _ ⟨⟩
      exact counted
    · show Screen.mk client.recvline (stdout ++ []) false = Screen.mk _ _ _
      rw [running, List.append_nil]
  | inl ret =>
    refine ⟨?_, .inr ⟨ret, rfl, counted, running, ?_⟩⟩
    · rw [SelectClientStdio.Client.received]
      split_ifs
      · rintro _ _ ⟨⟩
      · cases input <;> rintro _ _ ⟨⟩
    · rw [SelectClientStdio.Client.received, Screen.take]
      split_ifs
      · exact congrArg (Screen.mk _ · true) (congrArg (stdout ++ ·) (List.append_nil _))
      · have still : (ofSelectClient (client, stdout)).exited = false := running
        rw [still]
        cases input <;>
          exact congrArg (Screen.mk _ · false) (congrArg (stdout ++ ·) (List.append_nil _))

/-- A step outside `readline` in which nothing is printed. -/
theorem stepShows_quiet (outside : ∀ input frame, client.pc ≠ .readline input frame)
    (running : gone client.pc = false) {next : SelectClientStdio.Client}
    (recvline : next.recvline = client.recvline)
    (pc : next.pc = .select ∨ (∃ line, next.pc = .fgets line) ∨ next.pc = .returned)
    {calls : List SelectClientStdio.Call} (quiet : calls.flatMap toStdout = []) :
    StepShows stdout client calls next := by
  have outside' : gone next.pc = false ∧ ∀ input frame, next.pc ≠ .readline input frame := by
    rcases pc with pc | ⟨line, pc⟩ | pc <;> rw [pc] <;> exact ⟨rfl, by rintro _ _ ⟨⟩⟩
  refine ⟨fun input frame pc => absurd pc (outside'.2 input frame),
    .inl ⟨returnedBy_outside outside calls, ?_⟩⟩
  rw [ofSelectClient, ofSelectClient, quiet, List.append_nil]
  dsimp only
  rw [recvline, running, outside'.1]

theorem stepShows_select (pc : client.pc = .select) (socket input : Bool) :
    StepShows stdout client ([.select socket input] ++ (client.testSocket socket input).1)
      (client.testSocket socket input).2 := by
  have running : gone client.pc = false := by rw [pc]; rfl
  have outside : ∀ input frame, client.pc ≠ .readline input frame := by
    intro input frame within
    cases pc.symm.trans within
  cases socket with
  | true =>
    have entered : client.testSocket true input = client.received input (.inr Frame.enter) :=
      congrArg (client.received input) test_enter
    have counted : Counted (.inr Frame.enter) := rfl
    rw [entered]
    exact stepShows_received stdout running client.buffer input counted
      (returnedBy_outside outside _) rfl
  | false =>
    have next : (client.testSocket false input).2.pc = .select ∨
        (∃ line, (client.testSocket false input).2.pc = .fgets line) ∨
          (client.testSocket false input).2.pc = .returned := by
      cases input with
      | true => exact .inr (.inl ⟨[], rfl⟩)
      | false => exact .inl rfl
    refine stepShows_quiet stdout outside running ?_ next ?_
    · rfl
    · rfl

theorem stepShows_fgets {stored : List Byte} (pc : client.pc = .fgets stored)
    {next : SelectClientStdio.Client} (recvline : next.recvline = client.recvline)
    (pc' : next.pc = .select ∨ (∃ line, next.pc = .fgets line) ∨ next.pc = .returned)
    {calls : List SelectClientStdio.Call} (quiet : calls.flatMap toStdout = []) :
    StepShows stdout client calls next := by
  refine stepShows_quiet stdout (fun input frame within => ?_) (by rw [pc]; rfl) recvline pc' quiet
  cases pc.symm.trans within

/-- Every step. -/
theorem stepShows_of_step {calls : List SelectClientStdio.Call} {next : SelectClientStdio.Client}
    (inv : SelectInv (client, stdout)) (step : SelectClientStdio.Step client calls next) :
    StepShows stdout client calls next := by
  cases step with
  | select pc socket input => exact stepShows_select stdout pc socket input
  | @deliver input frame pc positive =>
    refine stepShows_received stdout (by rw [pc]; rfl) client.buffer.deliver.2 input
      (counted_round _ (inv input frame pc)) ?_ rfl
    rw [returnedBy, pc]
    exact if_pos positive
  | @read input frame outcome pc empty fits =>
    refine stepShows_received stdout (by rw [pc]; rfl)
      (againRound outcome client.buffer frame).1 input
      (counted_againRound outcome client.buffer (inv input frame pc)) ?_ rfl
    rw [returnedBy, pc]
    exact if_neg (Int.not_lt.mpr empty)
  | @copy stored pc buffered =>
    rw [SelectClientStdio.Client.copy]
    dsimp only
    split_ifs
    · refine stepShows_fgets stdout pc ?_ (.inl rfl) ?_ <;> rfl
    · refine stepShows_fgets stdout pc ?_ (.inr (.inl ⟨_, rfl⟩)) ?_ <;> rfl
  | @fill stored outcome pc empty =>
    rw [SelectClientStdio.Client.fill]
    split_ifs
    · refine stepShows_fgets stdout pc ?_ (.inr (.inl ⟨stored, pc⟩)) ?_ <;> rfl
    · refine stepShows_fgets stdout pc ?_ (.inl rfl) ?_ <;> rfl
    · refine stepShows_fgets stdout pc ?_ (.inr (.inr rfl)) ?_ <;> rfl

end Select

theorem prints_selectStrCli (recvline : List Byte) :
    Prints (selectStrCli recvline) ofSelectClient selectTerminated recvline SelectInv := by
  constructor
  · rintro history ⟨client, stdout⟩ ⟨rfl, ⟨-, pc, -, -⟩, rfl, rfl⟩
    have pc' : client.pc = .select := pc
    refine ⟨rfl, ?_, fun input frame reading => ?_⟩
    · show Screen.mk client.recvline [] (gone client.pc) = _
      rw [pc']
      rfl
    · cases pc'.symm.trans reading
  · rintro ⟨client, stdout⟩ events ⟨next, stdout'⟩ inv ⟨calls, step, rfl, rfl⟩
    exact stepShows_of_step stdout inv step

/-! ### The law -/

/-- Of every run of the three clients: at every moment the client has printed the lines that it has
received and nothing else, exactly if every call of `readline` is good, that is, if it has not
failed and has stored a line without a NUL, or has failed and leaves `recvline` with a NUL in
front. -/
theorem str_cli_onlyReceived_iff (recvline : List Byte) :
    (∀ version history client,
      Always (strCli version recvline)
          (fun history client => OnlyReceived terminated history (ofClient client)) history client ↔
        Run (strCli version recvline) history client ∧ AllGood recvline history) ∧
    (∀ history state,
      Always (selectStrCli recvline)
          (fun history state => OnlyReceived selectTerminated history (ofSelectClient state))
          history state ↔
        Run (selectStrCli recvline) history state ∧ AllGood recvline history) :=
  ⟨fun version _ _ => (prints_strCli version recvline).always_iff,
    fun _ _ => (prints_selectStrCli recvline).always_iff⟩

/-- The client at its first `fgets`, with a line in its file and nothing but NULs in its arrays. -/
def started : Client where
  pc := .gets
  fp := [97, newline]
  sendline := List.replicate maxline 0
  recvline := List.replicate maxline 0
  buffer := .zero
  stdout := []

/-- The client when it has written its line. -/
def asked : Client :=
  (Client.send { started with fp := [] } [97, newline, 0]).sent
    ((written 2).round (.wrote 2) (.enter 2))

/-- The client when one byte of a line has come. -/
def half : Client :=
  Client.received { asked with buffer := (againRound (.data [98]) .zero Frame.enter).1 }
    (againRound (.data [98]) .zero Frame.enter).2

/-- The connection is reset behind the first byte of a line, and that byte is printed. -/
theorem not_str_cli_onlyReceived :
    ¬ ∀ version recvline history client, Run (strCli version recvline) history client →
      OnlyReceived terminated history (ofClient client) := by
  intro only
  have start : Run (strCli .readline (List.replicate maxline 0)) [] started :=
    .start ⟨rfl, rfl, rfl, rfl, rfl⟩
  have gets : Step .readline started [] ({ started with fp := [] }.send [97, newline, 0]) :=
    .fgets rfl rfl
  have writes : Step .readline ({ started with fp := [] }.send [97, newline, 0]) [] asked :=
    .write rfl (Nat.le_refl 2)
  have one : (ReadOutcome.data [98]).Fits maxline := by
    show 1 ≤ maxline
    decide
  have within : asked.pc = .reading Frame.enter := rfl
  have reads : Step .readline asked [] half := .fill within rfl (Int.le_refl 0) one
  have reset : (ReadOutcome.error (.other 104)).Fits maxline := Nat.zero_le _
  have within' : half.pc = .reading ⟨2, [98]⟩ := rfl
  have buffered : Version.readline = .readline := rfl
  have fails := Step.fill within' buffered (Int.le_refl 0) reset
  have printed := only _ _ _ _ ((((start.step gets).step writes).step reads).step fails)
  cases printed

end SocketProgram.StrCliPrints
