/-
This file models the `readline` of `threads/readline.c` under any interleaving of
the threads that call it. Every thread has a buffer of its own, which its first
call allocates and hangs on a key that the first call of all creates.

The world is shared: the `pthread_once` flag, the values of the key, the heap
the buffers are allocated from, and the descriptors. A thread takes one step at a
time: the calls of pthreads and `calloc` one by one, and then one `my_read` a
step. What makes the threads independent is that no two of them hold the same
buffer and that each has its own descriptor: a step changes nothing of what
another thread sees. What a thread sees of the world is then a buffered reader
running alone, and that is a byte-at-a-time reader by the simulation of
`Readline`.
-/

import Mathlib.Algebra.Group.Int.Defs
import Mathlib.Algebra.GroupWithZero.Nat
import SocketProgram.Library.Runs
import SocketProgram.ReadlineDescriptors

namespace SocketProgram.ThreadReadline

open Source Runs

/-! ### The program of one thread -/

/-- An `Rline`: `rl_cnt`, `rl_bufptr` and `rl_buf`. -/
abbrev Rline := LineBuffer

/-- Where a thread is: outside `readline`, before `pthread_once`, before
`pthread_getspecific`, before `calloc`, before `pthread_setspecific`, or at the test of the
loop, with the locals that are live there. A pointer to an `Rline` is its position in the
heap. -/
inductive Pc
  | outside
  | once (maxlen : Nat)
  | getspecific (maxlen : Nat)
  | calloc (maxlen : Nat)
  | setspecific (maxlen tsd : Nat)
  | loop (maxlen tsd : Nat) (frame : Frame)
  deriving DecidableEq, Repr

/-- The world the threads share, with where each of them is and the calls each has still to
make. `rlKey` is the value of the key in each thread; `none` is `NULL`. -/
structure World (Thread Fd : Type*) where
  rlOnce : Bool
  rlKey : Thread → Option Nat
  heap : List Rline
  queue : Fd → List Arrival
  pc : Thread → Pc
  todo : Thread → List Nat

/-- `rc` is a `size_t` here, so the `-1` of `my_read` arrives as the largest one. -/
def unsignedRc (reply : Reply) : Reply := { reply with rc := reply.rc % 2 ^ 64 }

section Step

variable {Thread Fd : Type*} [DecidableEq Thread]

/-- A thread moves on. -/
def World.goto (world : World Thread Fd) (thread : Thread) (pc : Pc) : World Thread Fd :=
  { world with pc := Function.update world.pc thread pc }

@[simp]
theorem pc_goto (world : World Thread Fd) (thread : Thread) (pc : Pc) :
    (world.goto thread pc).pc thread = pc := Function.update_self _ _ _

/-- `readline_once`: `pthread_key_create` makes a key whose value is `NULL` in every
thread. -/
def World.readlineOnce (world : World Thread Fd) : World Thread Fd :=
  { world with rlOnce := true, rlKey := fun _ => none }

/-- The `Rline` behind a pointer. -/
def World.deref (world : World Thread Fd) (tsd : Nat) : Rline := world.heap.getD tsd LineBuffer.zero

/-- What `my_read(tsd,fd,&c)` leaves: the buffer behind `tsd` and the descriptor. -/
def World.store [DecidableEq Fd] (world : World Thread Fd) (tsd : Nat) (fd : Fd) (rline : Rline)
    (queue : List Arrival) : World Thread Fd :=
  { world with
    heap := world.heap.set tsd rline
    queue := Function.update world.queue fd queue }

variable [DecidableEq Fd] (split : Fd → Split) (fd : Thread → Fd)

/-- One step of a thread, with what its call of `readline` gave if the step ended one. `none`
when the thread has nothing left to do or blocks in `read`. -/
def step (thread : Thread) (world : World Thread Fd) :
    Option (World Thread Fd × Option Return) :=
  match world.pc thread with
  | .outside =>
    match world.todo thread with
    | [] => none
    | maxlen :: rest =>
      some ({ world with todo := Function.update world.todo thread rest }.goto thread
        (.once maxlen), none)
  | .once maxlen =>
    some ((if world.rlOnce then world else world.readlineOnce).goto thread
      (.getspecific maxlen), none)
  | .getspecific maxlen =>
    match world.rlKey thread with
    | none => some (world.goto thread (.calloc maxlen), none)
    | some tsd => some (world.goto thread (.loop maxlen tsd Frame.enter), none)
  | .calloc maxlen =>
    some ({ world with heap := world.heap ++ [LineBuffer.zero] }.goto thread
      (.setspecific maxlen world.heap.length), none)
  | .setspecific maxlen tsd =>
    some ({ world with rlKey := Function.update world.rlKey thread (some tsd) }.goto thread
      (.loop maxlen tsd Frame.enter), none)
  | .loop maxlen tsd frame =>
    if frame.n < maxlen then
      match myRead (split (fd thread)) (world.deref tsd, world.queue (fd thread)) with
      | none => none
      | some (reply, rline, queue) =>
        match readlineBody (unsignedRc reply) frame with
        | .inl ret =>
          some ((world.store tsd (fd thread) rline queue).goto thread .outside, some ret)
        | .inr next =>
          some ((world.store tsd (fd thread) rline queue).goto thread (.loop maxlen tsd next), none)
    else some (world.goto thread .outside, some frame.filled)

/-- The world in which no thread has called `readline` yet. -/
def World.initial (queue : Fd → List Arrival) (calls : Thread → List Nat) : World Thread Fd where
  rlOnce := false
  rlKey _ := none
  heap := []
  queue := queue
  pc _ := .outside
  todo := calls

/-- The threads, interleaved in any order. An event is a step of a thread, with the result of
its call if the step ended one. -/
def threads (queue : Fd → List Arrival) (calls : Thread → List Nat) :
    System (World Thread Fd) (Thread × Option Return) where
  start history world := history = [] ∧ world = World.initial queue calls
  step world events next := ∃ thread result, step split fd thread world = some (next, result) ∧
    events = [(thread, result)]

end Step

/-! ### No two threads hold the same buffer -/

section Apart

variable {Thread Fd : Type*}

/-- The buffer a thread holds: the one it has just allocated, or the value of its key. -/
def World.held (world : World Thread Fd) (thread : Thread) : Option Nat :=
  match world.pc thread with
  | .setspecific _ tsd => some tsd
  | _ => world.rlKey thread

/-- What keeps the threads apart. -/
structure Apart (world : World Thread Fd) : Prop where
  allocated : ∀ thread tsd, world.held thread = some tsd → tsd < world.heap.length
  distinct : ∀ first second tsd, world.held first = some tsd → world.held second = some tsd →
    first = second
  before : world.rlOnce = false → ∀ thread, world.rlKey thread = none ∧
    (world.pc thread = .outside ∨ ∃ maxlen, world.pc thread = .once maxlen)
  looping : ∀ thread maxlen tsd frame, world.pc thread = .loop maxlen tsd frame →
    world.rlKey thread = some tsd
  unset : ∀ thread maxlen, world.pc thread = .calloc maxlen → world.rlKey thread = none

/-- Past `pthread_once` the key exists. -/
theorem Apart.once_done {world : World Thread Fd} (apart : Apart world) (thread : Thread)
    (inside : world.pc thread ≠ .outside) (past : ∀ maxlen, world.pc thread ≠ .once maxlen) :
    world.rlOnce = true := by
  by_contra never
  rcases (apart.before (Bool.eq_false_iff.mpr never) thread).2 with outside | ⟨maxlen, once⟩
  · exact inside outside
  · exact past maxlen once

theorem apart_initial (queue : Fd → List Arrival) (calls : Thread → List Nat) :
    Apart (World.initial queue calls) where
  allocated := nofun
  distinct := nofun
  before _ _ := ⟨rfl, Or.inl rfl⟩
  looping := nofun
  unset := nofun

/-- What a step of a thread does to the world, as far as keeping the threads apart goes: the
other threads stay where they are and keep their keys, no buffer disappears, the thread keeps
the buffer it holds or gets one that nobody held, and what a thread has found out about its
key stays true. -/
structure Effect (fd : Thread → Fd) (thread : Thread) (world next : World Thread Fd) : Prop where
  pc : ∀ other, other ≠ thread → next.pc other = world.pc other
  todo : ∀ other, other ≠ thread → next.todo other = world.todo other
  queue : ∀ other, other ≠ fd thread → next.queue other = world.queue other
  buffers : ∀ tsd, tsd < world.heap.length → world.held thread ≠ some tsd →
    next.deref tsd = world.deref tsd
  key : ∀ other, other ≠ thread → next.rlKey other = world.rlKey other
  grown : world.heap.length ≤ next.heap.length
  held : next.held thread = world.held thread ∨
    next.held thread = some world.heap.length ∧ world.heap.length < next.heap.length
  before : next.rlOnce = false → world.rlOnce = false ∧ next.rlKey thread = none ∧
    (next.pc thread = .outside ∨ ∃ maxlen, next.pc thread = .once maxlen)
  looping : ∀ maxlen tsd frame, next.pc thread = .loop maxlen tsd frame →
    next.rlKey thread = some tsd
  unset : ∀ maxlen, next.pc thread = .calloc maxlen → next.rlKey thread = none

theorem Effect.held_other {fd : Thread → Fd} {thread : Thread} {world next : World Thread Fd}
    (effect : Effect fd thread world next) {other : Thread} (different : other ≠ thread) :
    next.held other = world.held other := by
  rw [World.held, World.held, effect.pc other different, effect.key other different]

theorem Effect.apart {fd : Thread → Fd} {thread : Thread} {world next : World Thread Fd}
    (apart : Apart world) (effect : Effect fd thread world next) : Apart next := by
  have stays : ∀ other tsd, other ≠ thread → next.held other = some tsd →
      world.held other = some tsd ∧ tsd < world.heap.length := by
    intro other tsd different held
    rw [effect.held_other different] at held
    exact ⟨held, apart.allocated other tsd held⟩
  -- A buffer of another thread is not the one the thread holds now.
  have unshared : ∀ other tsd, other ≠ thread → next.held other = some tsd →
      next.held thread ≠ some tsd := by
    intro other tsd different held held'
    obtain ⟨old, bound⟩ := stays other tsd different held
    rcases effect.held with same | ⟨fresh, _⟩
    · exact different (apart.distinct other thread tsd old (same ▸ held'))
    · rw [fresh] at held'
      exact absurd (Option.some.inj held') (by omega)
  refine ⟨?_, ?_, ?_, ?_, ?_⟩
  · intro other tsd held
    by_cases same : other = thread
    · subst same
      rcases effect.held with kept | ⟨fresh, larger⟩
      · exact lt_of_lt_of_le (apart.allocated other tsd (kept ▸ held)) effect.grown
      · rw [fresh] at held
        exact Option.some.inj held ▸ larger
    · exact lt_of_lt_of_le (stays other tsd same held).2 effect.grown
  · intro first second tsd held held'
    by_cases same : first = thread
    · by_cases same' : second = thread
      · rw [same, same']
      · exact absurd (same ▸ held) (unshared second tsd same' held')
    · by_cases same' : second = thread
      · exact absurd (same' ▸ held') (unshared first tsd same held)
      · exact apart.distinct first second tsd (stays first tsd same held).1
          (stays second tsd same' held').1
  · intro never other
    obtain ⟨never', key, pc⟩ := effect.before never
    by_cases same : other = thread
    · exact same ▸ ⟨key, pc⟩
    · rw [effect.key other same, effect.pc other same]
      exact apart.before never' other
  · intro other maxlen tsd frame pc
    by_cases same : other = thread
    · subst same
      exact effect.looping maxlen tsd frame pc
    · rw [effect.pc other same] at pc
      rw [effect.key other same]
      exact apart.looping other maxlen tsd frame pc
  · intro other maxlen pc
    by_cases same : other = thread
    · subst same
      exact effect.unset maxlen pc
    · rw [effect.pc other same] at pc
      rw [effect.key other same]
      exact apart.unset other maxlen pc

end Apart

section Views

variable {Thread Fd : Type*} {fd : Thread → Fd}

/-! ### What a thread sees -/

/-- The buffer a thread reads from; one that has none yet will get one full of zeros. -/
def World.rline (world : World Thread Fd) (thread : Thread) : Rline :=
  match world.held thread with
  | some tsd => world.deref tsd
  | none => LineBuffer.zero

/-- What a byte-at-a-time reader in the place of the thread would have in front of it. -/
def World.stream (fd : Thread → Fd) (world : World Thread Fd) (thread : Thread) :
    List Arrival :=
  (world.rline thread).unread.map Arrival.byte ++ world.queue (fd thread)

/-- What a byte-at-a-time reader gives from a program point on. -/
def comingFrom (split : Split) (stream : List Arrival) (todo : List Nat) : Pc → List Return
  | .outside => readline1Calls split stream todo
  | .once maxlen | .getspecific maxlen | .calloc maxlen | .setspecific maxlen _ =>
    readline1Calls split stream (maxlen :: todo)
  | .loop maxlen _ frame =>
    match (readlineLoop maxlen).run nextReply stream frame with
    | none => []
    | some (ret, rest) => ret :: readline1Calls split rest todo

/-- What a byte-at-a-time reader in the place of the thread would give for the calls the
thread has still to return from. -/
def World.coming (split : Split) (fd : Thread → Fd) (world : World Thread Fd) (thread : Thread) :
    List Return :=
  comingFrom split (world.stream fd thread) (world.todo thread) (world.pc thread)

theorem Effect.rline_other {thread : Thread} {world next : World Thread Fd}
    (apart : Apart world) (effect : Effect fd thread world next) {other : Thread}
    (different : other ≠ thread) : next.rline other = world.rline other := by
  rw [World.rline, World.rline, effect.held_other different]
  cases held : world.held other with
  | none => rfl
  | some tsd =>
    exact effect.buffers tsd (apart.allocated other tsd held) fun held' =>
      different (apart.distinct other thread tsd held held')

/-- A step changes nothing of what another thread sees. -/
theorem Effect.coming_other {thread : Thread} {world next : World Thread Fd}
    (apart : Apart world) (effect : Effect fd thread world next) {other : Thread}
    (different : other ≠ thread) (own : fd other ≠ fd thread) (split : Split) :
    next.coming split fd other = world.coming split fd other := by
  have stream : next.stream fd other = world.stream fd other := by
    rw [World.stream, World.stream, effect.rline_other apart different, effect.queue _ own]
  rw [World.coming, World.coming, effect.pc other different, effect.todo other different, stream]

/-- A step that leaves the thread's buffer and descriptor alone leaves it the same stream. -/
theorem coming_of_rline {thread : Thread} {world next : World Thread Fd}
    {result : Option Return} (split' : Split) (sound : (world.rline thread).Sound)
    (rline : next.rline thread = world.rline thread)
    (queue : next.queue (fd thread) = world.queue (fd thread))
    (same : ∀ stream, result.toList ++
        comingFrom split' stream (next.todo thread) (next.pc thread) =
      comingFrom split' stream (world.todo thread) (world.pc thread)) :
    result.toList ++ next.coming split' fd thread =
        world.coming split' fd thread ∧ (next.rline thread).Sound := by
  have stream : next.stream fd thread = world.stream fd thread := by
    rw [World.stream, World.stream, rline, queue]
  rw [World.coming, World.coming, stream, same, rline]
  exact ⟨rfl, sound⟩

/-! ### The replies of `my_read` -/

/-- The replies of `my_read` are the same to the loop when `rc` is unsigned. -/
theorem readlineBody_unsignedRc {reply : Reply}
    (known : reply.rc = 1 ∨ reply.rc = 0 ∨ reply.rc = -1) (frame : Frame) :
    readlineBody (unsignedRc reply) frame = readlineBody reply frame := by
  obtain ⟨rc, c⟩ := reply
  rcases known with rfl | rfl | rfl <;> rfl

theorem rc_of_nextReply {queue rest : List Arrival} {reply : Reply}
    (replied : nextReply queue = some (reply, rest)) :
    reply.rc = 1 ∨ reply.rc = 0 ∨ reply.rc = -1 := by
  induction queue with
  | nil => cases replied
  | cons arrival queue inductionHypothesis =>
    cases arrival with
    | byte c => cases replied; exact Or.inl rfl
    | eof => cases replied; exact Or.inr (Or.inl rfl)
    | fail errno =>
      rw [nextReply] at replied
      split_ifs at replied
      · exact inductionHypothesis replied
      · cases replied; exact Or.inr (Or.inr rfl)

/-- A call starts the loop on the stream. -/
theorem readline1Calls_cons (split : Split) (stream : List Arrival) (maxlen : Nat)
    (maxlens : List Nat) :
    readline1Calls split stream (maxlen :: maxlens) =
      match (readlineLoop maxlen).run nextReply stream Frame.enter with
      | none => []
      | some (ret, rest) => ret :: readline1Calls split rest maxlens := by
  rw [← readline1Loop_eq_run]
  rfl

end Views

/-! ### The steps of a thread -/

section Moves

variable {Thread Fd : Type*} [DecidableEq Thread] [DecidableEq Fd]
  {split : Fd → Split} {fd : Thread → Fd}

/-- What one step of a thread can do, guards included. -/
inductive Moves (split : Fd → Split) (fd : Thread → Fd) (thread : Thread)
    (world : World Thread Fd) : World Thread Fd → Option Return → Prop
  | call {maxlen : Nat} {rest : List Nat} (pc : world.pc thread = .outside)
      (todo : world.todo thread = maxlen :: rest) :
      Moves split fd thread world ({ world with
        todo := Function.update world.todo thread rest }.goto thread (.once maxlen)) none
  | onceDone {maxlen : Nat} (pc : world.pc thread = .once maxlen) (once : world.rlOnce = true) :
      Moves split fd thread world (world.goto thread (.getspecific maxlen)) none
  | onceFirst {maxlen : Nat} (pc : world.pc thread = .once maxlen)
      (once : world.rlOnce = false) :
      Moves split fd thread world (world.readlineOnce.goto thread (.getspecific maxlen)) none
  | getspecificNull {maxlen : Nat} (pc : world.pc thread = .getspecific maxlen)
      (key : world.rlKey thread = none) :
      Moves split fd thread world (world.goto thread (.calloc maxlen)) none
  | getspecific {maxlen tsd : Nat} (pc : world.pc thread = .getspecific maxlen)
      (key : world.rlKey thread = some tsd) :
      Moves split fd thread world (world.goto thread (.loop maxlen tsd Frame.enter)) none
  | calloc {maxlen : Nat} (pc : world.pc thread = .calloc maxlen) :
      Moves split fd thread world ({ world with
        heap := world.heap ++ [LineBuffer.zero] }.goto thread
          (.setspecific maxlen world.heap.length)) none
  | setspecific {maxlen tsd : Nat} (pc : world.pc thread = .setspecific maxlen tsd) :
      Moves split fd thread world ({ world with
        rlKey := Function.update world.rlKey thread (some tsd) }.goto thread
          (.loop maxlen tsd Frame.enter)) none
  | readReturn {maxlen tsd : Nat} {frame : Frame} {reply : Reply} {rline : Rline}
      {queue : List Arrival} {ret : Return} (pc : world.pc thread = .loop maxlen tsd frame)
      (more : frame.n < maxlen)
      (reads : myRead (split (fd thread)) (world.deref tsd, world.queue (fd thread)) =
        some (reply, rline, queue))
      (body : readlineBody (unsignedRc reply) frame = .inl ret) :
      Moves split fd thread world
        ((world.store tsd (fd thread) rline queue).goto thread .outside) (some ret)
  | readRound {maxlen tsd : Nat} {frame following : Frame} {reply : Reply} {rline : Rline}
      {queue : List Arrival} (pc : world.pc thread = .loop maxlen tsd frame)
      (more : frame.n < maxlen)
      (reads : myRead (split (fd thread)) (world.deref tsd, world.queue (fd thread)) =
        some (reply, rline, queue))
      (body : readlineBody (unsignedRc reply) frame = .inr following) :
      Moves split fd thread world
        ((world.store tsd (fd thread) rline queue).goto thread (.loop maxlen tsd following)) none
  | full {maxlen tsd : Nat} {frame : Frame} (pc : world.pc thread = .loop maxlen tsd frame)
      (stopped : ¬ frame.n < maxlen) :
      Moves split fd thread world (world.goto thread .outside) (some frame.filled)

/-- A step does one of these. -/
theorem moves_of_step {thread : Thread} {world next : World Thread Fd}
    {result : Option Return}
    (stepped : step split fd thread world = some (next, result)) :
    Moves split fd thread world next result := by
  unfold step at stepped
  cases pc : world.pc thread with
  | outside =>
    cases todo : world.todo thread with
    | nil => simp [pc, todo] at stepped
    | cons maxlen rest =>
      simp only [pc, todo, Option.some.injEq, Prod.mk.injEq] at stepped
      obtain ⟨rfl, rfl⟩ := stepped
      exact .call pc todo
  | once maxlen =>
    simp only [pc, Option.some.injEq, Prod.mk.injEq] at stepped
    obtain ⟨rfl, rfl⟩ := stepped
    split
    · exact .onceDone pc ‹_›
    · exact .onceFirst pc (Bool.eq_false_iff.mpr ‹_›)
  | getspecific maxlen =>
    cases key : world.rlKey thread with
    | none =>
      simp only [pc, key, Option.some.injEq, Prod.mk.injEq] at stepped
      obtain ⟨rfl, rfl⟩ := stepped
      exact .getspecificNull pc key
    | some tsd =>
      simp only [pc, key, Option.some.injEq, Prod.mk.injEq] at stepped
      obtain ⟨rfl, rfl⟩ := stepped
      exact .getspecific pc key
  | calloc maxlen =>
    simp only [pc, Option.some.injEq, Prod.mk.injEq] at stepped
    obtain ⟨rfl, rfl⟩ := stepped
    exact .calloc pc
  | setspecific maxlen tsd =>
    simp only [pc, Option.some.injEq, Prod.mk.injEq] at stepped
    obtain ⟨rfl, rfl⟩ := stepped
    exact .setspecific pc
  | loop maxlen tsd frame =>
    simp only [pc] at stepped
    split_ifs at stepped with more
    · cases reads : myRead (split (fd thread)) (world.deref tsd, world.queue (fd thread)) with
      | none => simp [reads] at stepped
      | some answer =>
        obtain ⟨reply, rline, queue⟩ := answer
        cases body : readlineBody (unsignedRc reply) frame with
        | inl ret =>
          simp only [reads, body, Option.some.injEq, Prod.mk.injEq] at stepped
          obtain ⟨rfl, rfl⟩ := stepped
          exact .readReturn pc more reads body
        | inr following =>
          simp only [reads, body, Option.some.injEq, Prod.mk.injEq] at stepped
          obtain ⟨rfl, rfl⟩ := stepped
          exact .readRound pc more reads body
    · simp only [Option.some.injEq, Prod.mk.injEq] at stepped
      obtain ⟨rfl, rfl⟩ := stepped
      exact .full pc more

variable {thread : Thread} {world next : World Thread Fd} {result : Option Return}

/-- Every step keeps to its thread. -/
theorem Moves.effect (apart : Apart world) (moves : Moves split fd thread world next result) :
    Effect fd thread world next := by
  have past : ∀ pc, world.pc thread = pc → pc ≠ .outside → (∀ maxlen, pc ≠ .once maxlen) →
      world.rlOnce = true := by
    rintro _ rfl inside past
    exact apart.once_done thread inside past
  cases moves with
  | call pc todo => constructor <;> simp_all [World.goto, World.held, World.deref, apart.before]
  | onceDone pc once => constructor <;> simp_all [World.goto, World.held, World.deref]
  | onceFirst pc once =>
    have before := apart.before once
    constructor <;> simp_all [World.goto, World.held, World.deref, World.readlineOnce]
  | getspecificNull pc key =>
    have once := past _ pc (by simp) (by simp)
    constructor <;> simp_all [World.goto, World.held, World.deref]
  | getspecific pc key =>
    have once := past _ pc (by simp) (by simp)
    constructor <;> simp_all [World.goto, World.held, World.deref]
  | calloc pc =>
    have once := past _ pc (by simp) (by simp)
    have key := apart.unset thread _ pc
    constructor <;> simp_all [World.goto, World.held, World.deref, List.getElem?_append_left]
  | setspecific pc =>
    have once := past _ pc (by simp) (by simp)
    constructor <;> simp_all [World.goto, World.held, World.deref]
  | readReturn pc more reads body =>
    have once := past _ pc (by simp) (by simp)
    have key := apart.looping thread _ _ _ pc
    constructor <;> simp_all [World.goto, World.held, World.deref, World.store]
  | readRound pc more reads body =>
    have once := past _ pc (by simp) (by simp)
    have key := apart.looping thread _ _ _ pc
    constructor <;> simp_all [World.goto, World.held, World.deref, World.store]
  | full pc stopped =>
    have once := past _ pc (by simp) (by simp)
    have key := apart.looping thread _ _ _ pc
    constructor <;> simp_all [World.goto, World.held, World.deref]

/-- One `my_read` of a thread, seen as one reply of its stream. -/
theorem read_stream (apart : Apart world) (sound : (world.rline thread).Sound)
    {maxlen tsd : Nat} {frame : Frame} {reply : Reply} {rline : Rline} {queue : List Arrival}
    (pc : world.pc thread = .loop maxlen tsd frame)
    (reads : myRead (split (fd thread)) (world.deref tsd, world.queue (fd thread)) =
      some (reply, rline, queue)) (after : Pc)
    (stays : ∀ maxlen tsd, after ≠ .setspecific maxlen tsd) :
    nextReply (world.stream fd thread) = some (reply,
        ((world.store tsd (fd thread) rline queue).goto thread after).stream fd thread) ∧
      (((world.store tsd (fd thread) rline queue).goto thread after).rline thread).Sound := by
  have key := apart.looping thread _ _ _ pc
  have held : world.held thread = some tsd := by rw [World.held, pc, key]
  have here : world.rline thread = world.deref tsd := by rw [World.rline, held]
  have bound := apart.allocated thread tsd held
  have agree := myRead_agree (split (fd thread)) (world.deref tsd, world.queue (fd thread))
    (world.stream fd thread) ⟨here ▸ sound, by rw [World.stream, here]⟩
  rw [reads] at agree
  obtain ⟨rest, replied, sound', ahead⟩ := agree.of_some
  have there : ((world.store tsd (fd thread) rline queue).goto thread after).rline thread =
      rline := by
    have held' : ((world.store tsd (fd thread) rline queue).goto thread after).held thread =
        some tsd := by
      rw [World.held, pc_goto]
      cases after with
      | setspecific maxlen tsd => exact absurd rfl (stays maxlen tsd)
      | _ => exact key
    rw [World.rline, held']
    show (world.heap.set tsd rline).getD tsd LineBuffer.zero = rline
    rw [List.getD_eq_getElem _ _ (by rw [List.length_set]; exact bound), List.getElem_set_self]
  have queue' : ((world.store tsd (fd thread) rline queue).goto thread after).queue (fd thread) =
      queue := Function.update_self _ _ _
  have stream : ((world.store tsd (fd thread) rline queue).goto thread after).stream fd thread =
      rest := by
    rw [World.stream, there, queue']
    exact ahead
  rw [there, stream]
  exact ⟨replied, sound'⟩

/-- A step of a thread gives the first of what is coming to it, or nothing and leaves it all
coming. -/
theorem Moves.coming (split' : Split) (apart : Apart world)
    (sound : (world.rline thread).Sound) (moves : Moves split fd thread world next result) :
    result.toList ++ next.coming split' fd thread =
        world.coming split' fd thread ∧ (next.rline thread).Sound := by
  cases moves with
  | call pc todo =>
    refine coming_of_rline split' sound ?_ rfl fun stream => ?_
    · simp_all [World.rline, World.held, World.goto, World.deref]
    · simp_all [World.goto, comingFrom]
  | onceDone pc once =>
    refine coming_of_rline split' sound ?_ rfl fun stream => ?_
    · simp_all [World.rline, World.held, World.goto, World.deref]
    · simp_all [World.goto, comingFrom]
  | onceFirst pc once =>
    have key := (apart.before once thread).1
    refine coming_of_rline split' sound ?_ rfl fun stream => ?_
    · simp_all [World.rline, World.held, World.goto, World.readlineOnce]
    · simp_all [World.goto, World.readlineOnce, comingFrom]
  | getspecificNull pc key =>
    refine coming_of_rline split' sound ?_ rfl fun stream => ?_
    · simp_all [World.rline, World.held, World.goto]
    · simp_all [World.goto, comingFrom]
  | getspecific pc key =>
    refine coming_of_rline split' sound ?_ rfl fun stream => ?_
    · simp_all [World.rline, World.held, World.goto, World.deref]
    · simp_all [World.goto, comingFrom, readline1Calls_cons]
  | calloc pc =>
    have key := apart.unset thread _ pc
    refine coming_of_rline split' sound ?_ rfl fun stream => ?_
    · simp_all [World.rline, World.held, World.goto, World.deref]
    · simp_all [World.goto, comingFrom]
  | setspecific pc =>
    refine coming_of_rline split' sound ?_ rfl fun stream => ?_
    · simp_all [World.rline, World.held, World.goto, World.deref]
    · simp_all [World.goto, comingFrom, readline1Calls_cons]
  | readReturn pc more reads body =>
    obtain ⟨replied, sound'⟩ := read_stream apart sound pc reads .outside (by simp)
    rw [readlineBody_unsignedRc (rc_of_nextReply replied)] at body
    refine ⟨?_, sound'⟩
    rw [World.coming, World.coming, pc, pc_goto, comingFrom, comingFrom,
      Loop.run_return (decide_eq_true more) replied body]
    rfl
  | readRound pc more reads body =>
    obtain ⟨replied, sound'⟩ := read_stream apart sound pc reads (.loop _ _ _) (by simp)
    rw [readlineBody_unsignedRc (rc_of_nextReply replied)] at body
    refine ⟨?_, sound'⟩
    rw [World.coming, World.coming, pc, pc_goto, comingFrom, comingFrom,
      Loop.run_round (decide_eq_true more) replied body]
    rfl
  | full pc stopped =>
    have key := apart.looping thread _ _ _ pc
    refine coming_of_rline split' sound ?_ rfl fun stream => ?_
    · simp_all [World.rline, World.held, World.goto, World.deref]
    · rw [pc, pc_goto, comingFrom, comingFrom, Loop.run_finish (decide_eq_false stopped)]
      rfl

/-- A thread that cannot step has nothing coming: it has made all its calls, or the call it
is in never returns to the byte-at-a-time reader either. -/
theorem coming_of_stuck (split' : Split) (apart : Apart world)
    (sound : (world.rline thread).Sound) (stuck : step split fd thread world = none) :
    world.coming split' fd thread = [] := by
  unfold step at stuck
  cases pc : world.pc thread with
  | outside =>
    cases todo : world.todo thread with
    | nil => rw [World.coming, pc, todo, comingFrom, readline1Calls]
    | cons maxlen rest => simp [pc, todo] at stuck
  | once maxlen => simp [pc] at stuck
  | getspecific maxlen => cases key : world.rlKey thread <;> simp [pc, key] at stuck
  | calloc maxlen => simp [pc] at stuck
  | setspecific maxlen tsd => simp [pc] at stuck
  | loop maxlen tsd frame =>
    simp only [pc] at stuck
    split_ifs at stuck with more
    have key := apart.looping thread _ _ _ pc
    have here : world.rline thread = world.deref tsd := by rw [World.rline, World.held, pc, key]
    have agree := myRead_agree (split (fd thread)) (world.deref tsd, world.queue (fd thread))
      (world.stream fd thread) ⟨here ▸ sound, by rw [World.stream, here]⟩
    cases reads : myRead (split (fd thread)) (world.deref tsd, world.queue (fd thread)) with
    | none =>
      rw [reads] at agree
      rw [World.coming, pc, comingFrom, Loop.run_blocked (decide_eq_true more) agree.of_none]
    | some answer =>
      obtain ⟨reply, rline, queue⟩ := answer
      cases body : readlineBody (unsignedRc reply) frame <;> simp [reads, body] at stuck

/-! ### A thread takes finitely many steps -/

/-- How many steps a thread can take from a program point before it has returned. -/
def Pc.rank : Pc → Nat
  | .outside => 0
  | .once maxlen => maxlen + 5
  | .getspecific maxlen => maxlen + 4
  | .calloc maxlen => maxlen + 3
  | .setspecific maxlen _ => maxlen + 2
  | .loop maxlen _ frame => maxlen - frame.n + 1

/-- How many steps a thread can take for a list of calls. -/
def callsRank (maxlens : List Nat) : Nat := (maxlens.map fun maxlen => maxlen + 6).sum

/-- How many steps a thread can still take. -/
def World.rank (world : World Thread Fd) (thread : Thread) : Nat :=
  callsRank (world.todo thread) + (world.pc thread).rank

omit [DecidableEq Thread] [DecidableEq Fd] in
/-- A step that takes up no call lowers the rank with the rank of the program point. -/
theorem rank_lt_of_pc {before after : Pc} (pc : world.pc thread = before)
    (moved : next.pc thread = after) (todo : next.todo thread = world.todo thread)
    (lower : after.rank < before.rank) : next.rank thread < world.rank thread := by
  rw [World.rank, World.rank, pc, moved, todo]
  exact Nat.add_lt_add_left lower _

theorem Moves.rank (moves : Moves split fd thread world next result) :
    next.rank thread < world.rank thread := by
  cases moves with
  | call pc todo =>
    simp only [World.rank, pc, todo, Pc.rank, callsRank, World.goto, Function.update_self,
      List.map_cons, List.sum_cons]
    omega
  | onceDone pc once => exact rank_lt_of_pc pc (pc_goto _ _ _) rfl (Nat.lt_succ_self _)
  | onceFirst pc once => exact rank_lt_of_pc pc (pc_goto _ _ _) rfl (Nat.lt_succ_self _)
  | getspecificNull pc key => exact rank_lt_of_pc pc (pc_goto _ _ _) rfl (Nat.lt_succ_self _)
  | @getspecific maxlen _ pc key =>
    refine rank_lt_of_pc pc (pc_goto _ _ _) rfl ?_
    show maxlen - 1 + 1 < maxlen + 4
    omega
  | calloc pc => exact rank_lt_of_pc pc (pc_goto _ _ _) rfl (Nat.lt_succ_self _)
  | @setspecific maxlen _ pc =>
    refine rank_lt_of_pc pc (pc_goto _ _ _) rfl ?_
    show maxlen - 1 + 1 < maxlen + 2
    omega
  | readReturn pc more reads body =>
    exact rank_lt_of_pc pc (pc_goto _ _ _) rfl (Nat.succ_pos _)
  | @readRound maxlen _ frame following _ _ _ pc more reads body =>
    have counted := n_of_readlineBody body
    refine rank_lt_of_pc pc (pc_goto _ _ _) rfl ?_
    show maxlen - following.n + 1 < maxlen - frame.n + 1
    omega
  | full pc stopped => exact rank_lt_of_pc pc (pc_goto _ _ _) rfl (Nat.succ_pos _)

end Moves

/-! ### Every interleaving -/

section Runs

variable {Thread Fd : Type*} [DecidableEq Thread] {split : Fd → Split} {fd : Thread → Fd}

/-- What the calls of a thread have given it, in order. -/
def returned (thread : Thread) (history : List (Thread × Option Return)) : List Return :=
  (on thread history).filterMap Prod.snd

theorem returned_append (thread : Thread) (first second : List (Thread × Option Return)) :
    returned thread (first ++ second) = returned thread first ++ returned thread second := by
  rw [returned, on, List.filter_append, List.filterMap_append]
  rfl

theorem returned_self (thread : Thread) (result : Option Return) :
    returned thread [(thread, result)] = result.toList := by
  cases result <;> simp [returned, on]

theorem returned_other {thread other : Thread} (different : other ≠ thread)
    (result : Option Return) : returned other [(thread, result)] = [] := by
  simp [returned, on, different.symm]

/-- What holds after any number of steps: the threads are apart, and to each of them what its
calls have given and what is still coming is together what a byte-at-a-time reader gives. -/
structure Together (split' : Split) (fd : Thread → Fd) (queue : Fd → List Arrival)
    (calls : Thread → List Nat) (history : List (Thread × Option Return))
    (world : World Thread Fd) : Prop where
  apart : Apart world
  sound : ∀ thread, (world.rline thread).Sound
  coming : ∀ thread, returned thread history ++ world.coming split' fd thread =
    readline1Calls split' (queue (fd thread)) (calls thread)
  steps : ∀ thread, (on thread history).length + world.rank thread ≤ callsRank (calls thread)

theorem together_initial (split' : Split) (fd : Thread → Fd) (queue : Fd → List Arrival)
    (calls : Thread → List Nat) :
    Together split' fd queue calls [] (World.initial queue calls) where
  apart := apart_initial queue calls
  sound _ := LineBuffer.sound_zero
  coming thread := by
    have stream : (World.initial queue calls).stream fd thread = queue (fd thread) := by
      show LineBuffer.zero.unread.map Arrival.byte ++ queue (fd thread) = queue (fd thread)
      rw [LineBuffer.unread_of_nonpos (Int.le_refl 0)]
      rfl
    rw [World.coming, stream]
    rfl
  steps thread := Nat.le_of_eq (Nat.zero_add _)

variable [DecidableEq Fd]

theorem together_step (own : Function.Injective fd) {split' : Split} {queue : Fd → List Arrival}
    {calls : Thread → List Nat} {history : List (Thread × Option Return)}
    {thread : Thread} {world next : World Thread Fd} {result : Option Return}
    (together : Together split' fd queue calls history world)
    (moves : Moves split fd thread world next result) :
    Together split' fd queue calls (history ++ [(thread, result)]) next := by
  have effect := moves.effect together.apart
  obtain ⟨coming, sound⟩ := moves.coming split' together.apart (together.sound thread)
  refine ⟨effect.apart together.apart, ?_, ?_, ?_⟩
  · intro other
    by_cases same : other = thread
    · exact same ▸ sound
    · rw [effect.rline_other together.apart same]
      exact together.sound other
  · intro other
    rw [returned_append, ← together.coming other]
    by_cases same : other = thread
    · subst same
      rw [returned_self, List.append_assoc, coming]
    · rw [returned_other same, List.append_nil,
        effect.coming_other together.apart same fun same' => same (own same')]
  · intro other
    have before := together.steps other
    by_cases same : other = thread
    · subst same
      have less := moves.rank
      simp only [on, List.filter_append, List.length_append, List.filter_cons_of_pos,
        decide_true, List.filter_nil, List.length_singleton] at before ⊢
      omega
    · have rank : next.rank other = world.rank other := by
        rw [World.rank, World.rank, effect.pc other same, effect.todo other same]
      have event : on other [(thread, result)] = [] := by
        rw [on, List.filter_cons_of_neg (by simpa using Ne.symm same), List.filter_nil]
      rw [rank, on, List.filter_append, List.length_append]
      show (on other history).length + (on other [(thread, result)]).length + _ ≤ _
      rw [event]
      exact before

/-- Under every interleaving each thread is given exactly what the byte-at-a-time `readline`
gives on its descriptor alone: at any moment the first of those results, and all of them once
it cannot go on. It cannot go on after finitely many steps of its own. -/
theorem threads_refine_readline1 (split : Fd → Split) (split' : Split) (fd : Thread → Fd)
    (own : Function.Injective fd) (queue : Fd → List Arrival) (calls : Thread → List Nat)
    {history : List (Thread × Option Return)} {world : World Thread Fd}
    (run : Run (threads split fd queue calls) history world) (thread : Thread) :
    returned thread history <+: readline1Calls split' (queue (fd thread)) (calls thread) ∧
      (step split fd thread world = none →
        returned thread history = readline1Calls split' (queue (fd thread)) (calls thread)) ∧
      (on thread history).length ≤ callsRank (calls thread) := by
  have together : Together split' fd queue calls history world := by
    refine run.invariant (Together split' fd queue calls) ?_ ?_
    · rintro _ _ ⟨rfl, rfl⟩
      exact together_initial split' fd queue calls
    · rintro history world _ next together ⟨thread, result, stepped, rfl⟩
      exact together_step own together (moves_of_step stepped)
  have coming := together.coming thread
  refine ⟨⟨_, coming⟩, fun stuck => ?_, ?_⟩
  · rw [coming_of_stuck split' together.apart (together.sound thread) stuck] at coming
    rwa [List.append_nil] at coming
  · have steps := together.steps thread
    omega

/-- The steps of a list of threads, one after the other: the events and the world they leave.
`none` when one of them cannot step. -/
def follow (split : Fd → Split) (fd : Thread → Fd) :
    List Thread → World Thread Fd → Option (List (Thread × Option Return) × World Thread Fd)
  | [], world => some ([], world)
  | thread :: schedule, world =>
    match step split fd thread world with
    | none => none
    | some (next, result) =>
      (follow split fd schedule next).map fun rest => ((thread, result) :: rest.1, rest.2)

theorem run_follow {queue : Fd → List Arrival} {calls : Thread → List Nat}
    {schedule : List Thread} {history events : List (Thread × Option Return)}
    {world next : World Thread Fd} (run : Run (threads split fd queue calls) history world)
    (follows : follow split fd schedule world = some (events, next)) :
    Run (threads split fd queue calls) (history ++ events) next := by
  induction schedule generalizing history events world with
  | nil =>
    obtain ⟨rfl, rfl⟩ := Prod.mk.inj (Option.some.inj follows)
    rwa [List.append_nil]
  | cons thread schedule inductionHypothesis =>
    rw [follow] at follows
    cases stepped : step split fd thread world with
    | none => rw [stepped] at follows; cases follows
    | some answer =>
      obtain ⟨middle, result⟩ := answer
      rw [stepped] at follows
      obtain ⟨⟨rest, last⟩, continues, same⟩ := Option.map_eq_some_iff.mp follows
      obtain ⟨rfl, rfl⟩ := Prod.mk.inj same
      have run' := inductionHypothesis (run.step ⟨thread, result, stepped, rfl⟩) continues
      rwa [List.append_assoc] at run'

/-- Two threads, one on a descriptor where "a\n" arrives and one where "b\n" does, taking
turns from their first calls on. -/
theorem threads_refine_readline1_turns :
    ∃ history world,
      Run (threads (fun _ _ _ => 2) (fun thread : Bool => if thread then (4 : Int) else 3)
        (fun fd => [.byte (if fd = 4 then 97 else 98), .byte newline]) fun _ => [maxline])
        history world ∧
      returned true history = [⟨2, [97, newline, 0]⟩] ∧
      returned true history =
        readline1Calls (fun _ _ => 1) [.byte 97, .byte newline] [maxline] := by
  have turns : ((follow (fun _ _ _ => 2) (fun thread : Bool => if thread then (4 : Int) else 3)
      ((List.range 14).map fun turn => turn % 2 = 0) (World.initial
        (fun fd => [.byte (if fd = 4 then 97 else 98), .byte newline]) fun _ => [maxline])).map
      fun result => returned true result.1) = some [⟨2, [97, newline, 0]⟩] := by
    decide +kernel
  obtain ⟨⟨history, world⟩, follows, results⟩ := Option.map_eq_some_iff.mp turns
  have run := run_follow (.start ⟨rfl, rfl⟩) follows
  refine ⟨history, world, run, results, ?_⟩
  refine (threads_refine_readline1 _ (fun _ _ => 1) _ ?_ _ _ run true).1.eq_of_length ?_
  · rintro (_ | _) (_ | _) same <;> first | rfl | cases same
  · rw [List.nil_append, show returned true history = _ from results]
    decide +kernel

end Runs

end SocketProgram.ThreadReadline
