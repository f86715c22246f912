import HttpServer.Logs.Rounds

/-!
# The asynchronous log is delivered exactly

`Batches` is what the looper is for, over any type of messages: a queue that is drained a
batch at a time. The looper simulates it: what it has handed over, what lies in the consumer
buffer and what is readable in the producer buffer are the bytes of the finished batches,
the current batch and the pending messages. Only five steps touch any of this; every other
step leaves the data as it is (`SameData`).
-/

namespace HttpServer.Logs
open Lib

/-! ## A queue drained in batches -/

/-- A queue drained in batches: the batches finished, the one in work, and the messages
still pending. -/
structure Batches (α : Type*) where
  finished : List (List α)
  current : List α
  pending : List α

namespace Batches
variable {α : Type*}

/-- Nothing has been accepted. -/
def new : Batches α := ⟨[], [], []⟩

/-- A message comes in. -/
def accept (b : Batches α) (m : α) : Batches α := { b with pending := b.pending ++ [m] }

/-- The pending messages become the batch in work. -/
def take (b : Batches α) : Batches α := { b with current := b.pending, pending := [] }

/-- The batch in work is finished. -/
def finish (b : Batches α) : Batches α := { b with finished := b.finished ++ [b.current], current := [] }

/-- All messages, each in its place. -/
def all (b : Batches α) : List α := b.finished.flatten ++ b.current ++ b.pending

@[simp] theorem all_accept (b : Batches α) (m : α) : (b.accept m).all = b.all ++ [m] := by
  simp [all, accept]

/-- Taking a batch loses nothing if there is none in work. -/
theorem all_take {b : Batches α} (clear : b.current = []) : b.take.all = b.all := by
  simp [all, take, clear]

@[simp] theorem all_finish (b : Batches α) : b.finish.all = b.all := by
  simp [all, finish]

end Batches

/-! ## The simulation -/

/-- What the consumer buffer holds: nothing, a batch still to be handed over, or one that
has been handed over. -/
inductive Phase where
  | clear
  | full
  | spent
  | exited
  deriving DecidableEq

/-- The phase at each point of `threadEntry`. -/
def ConsumerPc.phase : ConsumerPc → Phase
  | .notify | .unlock | .callback => .full
  | .reset => .spent
  | .exited => .exited
  | _ => .clear

@[simp] theorem ConsumerPc.phase_wake (pc : ConsumerPc) : pc.wake.phase = pc.phase := by
  cases pc <;> rfl

namespace Looper
variable {ι : Type} {type : AsyncType} {s s' : Looper ι}

/-- The bytes swapped into the consumer buffer but not yet handed over. -/
def inHand (s : Looper ι) : Bytes := if s.consumer.phase = .full then s.conBuf.readable else []

/-- The looper's data are the bytes of the queue `b`. -/
structure Simulates (s : Looper ι) (b : Batches Msg) : Prop where
  all : b.all = s.pushed
  finished : s.handed = b.finished.map bytes
  current : s.inHand = bytes b.current
  pending : s.proBuf.readable = bytes b.pending
  clear : s.consumer.phase ≠ .full → b.current = []

/-- At the exit: every message pushed before the exit check lies in one of the buffers
handed over, except for messages without bytes; the pushes before `stop` are among them. -/
structure ExitComplete (s : Looper ι) (atExit : List Msg) (b : Batches Msg) : Prop where
  exit : s.atExit = some atExit
  all : b.all = atExit
  finished : s.handed = b.finished.map bytes
  current : b.current = []
  pending : ∀ m ∈ b.pending, m.1 = []
  stopped : ∃ before, s.beforeStop = some before ∧ before <+: atExit

/-- The invariant of the looper's data. -/
structure Delivering (s : Looper ι) : Prop where
  pro : s.proBuf.Wf
  con : s.conBuf.Wf
  simulates : ∃ b, s.Simulates b
  clear : s.consumer.phase = .clear → s.conBuf.readable = []
  calling : s.stopper = .call → s.stop = false
  stopped : s.stop = true → ∃ before, s.beforeStop = some before ∧ before <+: s.pushed
  exited : s.consumer.phase = .exited → s.stop = true ∧ ∃ atExit b, s.ExitComplete atExit b

/-- From `s` to `s'` no data change hands. -/
structure SameData (s s' : Looper ι) : Prop where
  stop : s'.stop = s.stop
  proBuf : s'.proBuf = s.proBuf
  conBuf : s'.conBuf = s.conBuf
  pushed : s'.pushed = s.pushed
  handed : s'.handed = s.handed
  beforeStop : s'.beforeStop = s.beforeStop
  atExit : s'.atExit = s.atExit
  phase : s'.consumer.phase = s.consumer.phase
  calling : s'.stopper = .call → s.stopper = .call

theorem Simulates.same {b : Batches Msg} (sim : s.Simulates b) (same : SameData s s') : s'.Simulates b := by
  have inHand : s'.inHand = s.inHand := by
    unfold Looper.inHand
    rw [same.phase, same.conBuf]
  constructor
  case all => rw [same.pushed, sim.all]
  case finished => rw [same.handed, sim.finished]
  case current => rw [inHand, sim.current]
  case pending => rw [same.proBuf, sim.pending]
  case clear => rw [same.phase]; exact sim.clear

/-- The bytes of the messages pushed, in three parts. -/
theorem Simulates.bytes_eq {b : Batches Msg} (sim : s.Simulates b) :
    s.handed.flatten ++ s.inHand ++ s.proBuf.readable = bytes s.pushed := by
  rw [sim.finished, sim.current, sim.pending, ← sim.all, Batches.all, bytes_append, bytes_append, bytes_flatten]

theorem ExitComplete.same {atExit : List Msg} {b : Batches Msg} (exit : s.ExitComplete atExit b)
    (atExit' : s'.atExit = s.atExit) (handed : s'.handed = s.handed) (beforeStop : s'.beforeStop = s.beforeStop) :
    s'.ExitComplete atExit b := by
  constructor
  case exit => rw [atExit', exit.exit]
  case all => exact exit.all
  case finished => rw [handed, exit.finished]
  case current => exact exit.current
  case pending => exact exit.pending
  case stopped => rw [beforeStop]; exact exit.stopped

theorem Delivering.same (inv : s.Delivering) (same : SameData s s') : s'.Delivering := by
  constructor
  case pro => rw [same.proBuf]; exact inv.pro
  case con => rw [same.conBuf]; exact inv.con
  case simulates =>
    obtain ⟨b, sim⟩ := inv.simulates
    exact ⟨b, sim.same same⟩
  case clear => rw [same.phase, same.conBuf]; exact inv.clear
  case calling => rw [same.stop]; exact fun calling => inv.calling (same.calling calling)
  case stopped => rw [same.stop, same.beforeStop, same.pushed]; exact inv.stopped
  case exited =>
    rw [same.phase, same.stop]
    intro exited
    obtain ⟨stop, atExit, b, exit⟩ := inv.exited exited
    exact ⟨stop, atExit, b, exit.same same.atExit same.handed same.beforeStop⟩

/-! ## The steps that move data -/

/-- A push puts its message behind all others. -/
theorem Delivering.store (inv : s.Delivering) {m : Msg} {b : Buffer} (push : s.proBuf.push m.1 = .ok b) :
    Delivering { s with proBuf := b, pushed := s.pushed ++ [m] } := by
  obtain ⟨wf, readable⟩ := Buffer.push_ok inv.pro (Buffer.sizesFit_of_short inv.pro m.2) push
  obtain ⟨q, sim⟩ := inv.simulates
  constructor
  case pro => exact wf
  case con => exact inv.con
  case simulates =>
    refine ⟨q.accept m, ?_⟩
    constructor
    case all => rw [Batches.all_accept, sim.all]
    case finished => exact sim.finished
    case current => exact sim.current
    case pending =>
      show b.readable = bytes (q.pending ++ [m])
      rw [readable, sim.pending, bytes_append, bytes_singleton]
    case clear => exact sim.clear
  case clear => exact inv.clear
  case calling => exact inv.calling
  case stopped =>
    intro stop
    obtain ⟨before, stopped, pre⟩ := inv.stopped stop
    exact ⟨before, stopped, pre.trans (List.prefix_append _ _)⟩
  case exited =>
    intro exited
    obtain ⟨stop, atExit, q, exit⟩ := inv.exited exited
    exact ⟨stop, atExit, q, exit.same rfl rfl rfl⟩

/-- The consumer exits with both buffers empty. -/
theorem Delivering.exit (inv : s.Delivering) (clear : s.consumer.phase = .clear) (stop : s.stop = true)
    (empty : s.proBuf.empty = true) :
    Delivering { s with mutex := none, consumer := .exited, atExit := some s.pushed } := by
  obtain ⟨q, sim⟩ := inv.simulates
  have current : q.current = [] := sim.clear (by rw [clear]; decide)
  have drained : bytes q.pending = [] := by rw [← sim.pending, (Buffer.empty_iff inv.pro).mp empty]
  constructor
  case pro => exact inv.pro
  case con => exact inv.con
  case simulates =>
    refine ⟨q, sim.all, sim.finished, ?_, sim.pending, fun _ => current⟩
    rw [current]
    rfl
  case clear => exact fun absurd => nomatch absurd
  case calling => exact inv.calling
  case stopped => exact inv.stopped
  case exited =>
    refine fun _ => ⟨stop, s.pushed, q, rfl, sim.all, sim.finished, current, ?_, inv.stopped stop⟩
    intro m mem
    exact List.flatten_eq_nil_iff.mp drained m.1 (List.mem_map_of_mem mem)

/-- The swap takes the pending messages into a consumer buffer that is empty. -/
theorem Delivering.swap (inv : s.Delivering) (clear : s.consumer.phase = .clear) :
    Delivering { s with conBuf := s.proBuf, proBuf := s.conBuf, consumer := .notify } := by
  obtain ⟨q, sim⟩ := inv.simulates
  have current : q.current = [] := sim.clear (by rw [clear]; decide)
  constructor
  case pro => exact inv.con
  case con => exact inv.pro
  case simulates =>
    refine ⟨q.take, ?_, sim.finished, sim.pending, inv.clear clear, fun notFull => absurd rfl notFull⟩
    rw [Batches.all_take current, sim.all]
  case clear => exact fun absurd => nomatch absurd
  case calling => exact inv.calling
  case stopped => exact inv.stopped
  case exited => exact fun absurd => nomatch absurd

/-- The callback is handed the batch in work. -/
theorem Delivering.callback (inv : s.Delivering) (full : s.consumer.phase = .full) :
    Delivering { s with handed := s.handed ++ [s.conBuf.readable], consumer := .reset } := by
  obtain ⟨q, sim⟩ := inv.simulates
  have inHand : s.conBuf.readable = bytes q.current := by rw [← sim.current, inHand, if_pos full]
  constructor
  case pro => exact inv.pro
  case con => exact inv.con
  case simulates =>
    refine ⟨q.finish, ?_, ?_, rfl, sim.pending, fun _ => rfl⟩
    · rw [Batches.all_finish, sim.all]
    · show s.handed ++ [s.conBuf.readable] = (q.finished ++ [q.current]).map bytes
      rw [sim.finished, inHand, List.map_append, List.map_singleton]
  case clear => exact fun absurd => nomatch absurd
  case calling => exact inv.calling
  case stopped => exact inv.stopped
  case exited => exact fun absurd => nomatch absurd

/-- The reset empties a buffer that has been handed over. -/
theorem Delivering.reset (inv : s.Delivering) (spent : s.consumer.phase = .spent) :
    Delivering { s with conBuf := s.conBuf.reset, consumer := .lock } := by
  obtain ⟨q, sim⟩ := inv.simulates
  have current : q.current = [] := sim.clear (by rw [spent]; decide)
  constructor
  case pro => exact inv.pro
  case con => exact Buffer.wf_reset inv.con
  case simulates =>
    refine ⟨q, sim.all, sim.finished, ?_, sim.pending, fun _ => current⟩
    rw [current]
    rfl
  case clear => exact fun _ => Buffer.readable_reset _
  case calling => exact inv.calling
  case stopped => exact inv.stopped
  case exited => exact fun absurd => nomatch absurd

/-- `stop` notes what has been pushed before it. -/
theorem Delivering.stop (inv : s.Delivering) (calling : s.stopper = .call) :
    Delivering { s with stop := true, beforeStop := some s.pushed, stopper := .notify } := by
  obtain ⟨q, sim⟩ := inv.simulates
  constructor
  case pro => exact inv.pro
  case con => exact inv.con
  case simulates => exact ⟨q, sim.all, sim.finished, sim.current, sim.pending, sim.clear⟩
  case clear => exact inv.clear
  case calling => exact fun absurd => nomatch absurd
  case stopped => exact fun _ => ⟨s.pushed, rfl, List.prefix_rfl⟩
  case exited =>
    intro exited
    have stop := (inv.exited exited).1
    rw [inv.calling calling] at stop
    cases stop

/-! ## Every run -/

theorem delivering_new : (new : Looper ι).Delivering := by
  constructor
  case pro => exact Buffer.wf_new
  case con => exact Buffer.wf_new
  case simulates => exact ⟨.new, rfl, rfl, rfl, Buffer.readable_new, fun _ => rfl⟩
  case clear => exact fun _ => Buffer.readable_new
  case calling => exact fun _ => rfl
  case stopped => exact fun absurd => nomatch absurd
  case exited => exact fun absurd => nomatch absurd

variable [DecidableEq ι]

theorem delivering_step {a : LooperAction ι} (inv : s.Delivering) (taken : s.step type a = some s') :
    s'.Delivering := by
  cases transition_of_step taken with
  | store pc stored => exact (inv.store stored).same ⟨rfl, rfl, rfl, rfl, rfl, rfl, rfl, rfl, id⟩
  | exit pc stop empty => exact inv.exit (by rw [pc]; rfl) stop empty
  | swap pc => exact inv.swap (by rw [pc]; rfl)
  | callback pc => exact inv.callback (by rw [pc]; rfl)
  | reset pc => exact inv.reset (by rw [pc]; rfl)
  | stop pc => exact inv.stop pc
  | push | acquire | full | fits | doze | release | outOfMemory | wakeProducer =>
    exact inv.same ⟨rfl, rfl, rfl, rfl, rfl, rfl, rfl, rfl, id⟩
  | lock pc | relock pc | goOn pc | ready pc | nothing pc | rest pc | notifyAll pc | skip pc | unlock pc =>
    exact inv.same ⟨rfl, rfl, rfl, rfl, rfl, rfl, rfl, by rw [pc]; rfl, id⟩
  | signal | wakeConsumer => exact inv.same ⟨rfl, rfl, rfl, rfl, rfl, rfl, rfl, ConsumerPc.phase_wake _, id⟩
  | stopNotify =>
    exact inv.same ⟨rfl, rfl, rfl, rfl, rfl, rfl, rfl, ConsumerPc.phase_wake _, fun absurd => nomatch absurd⟩
  | joined => exact inv.same ⟨rfl, rfl, rfl, rfl, rfl, rfl, rfl, rfl, fun absurd => nomatch absurd⟩

theorem delivering_of_reachable (reached : (machine ι type).Reachable s) : s.Delivering :=
  reached.invariant delivering_new fun _ _ _ inv _ taken => delivering_step inv taken

/-- **Delivery is exact.** In every state reached, the buffers handed to the callback, the
consumer buffer and the producer buffer hold the messages pushed, in the order of their
critical sections, of which no two overlap, and each wholly in one of the buffers; the
consumer buffer is empty at every swap; and when the consumer has exited, the buffers handed
over hold every message pushed before its exit check, among them all that were pushed before
`stop`. -/
theorem delivery_exact (reached : (machine ι type).Reachable s) :
    Exclusive s.mutex s.inside ∧
    (∃ b : Batches Msg, b.all = s.pushed ∧ s.handed = b.finished.map bytes ∧ s.inHand = bytes b.current ∧
      s.proBuf.readable = bytes b.pending) ∧
    s.handed.flatten ++ s.inHand ++ s.proBuf.readable = bytes s.pushed ∧
    (s.consumer = .swap → s.conBuf.empty = true) ∧
    (s.consumer = .exited → ∃ atExit b, s.ExitComplete atExit b) := by
  have inv := delivering_of_reachable reached
  obtain ⟨b, sim⟩ := inv.simulates
  refine ⟨exclusive_of_reachable reached, ⟨b, sim.all, sim.finished, sim.current, sim.pending⟩, sim.bytes_eq, ?_, ?_⟩
  · intro swap
    rw [Buffer.empty_iff inv.con]
    exact inv.clear (by rw [swap]; rfl)
  · intro exited
    exact (inv.exited (by rw [exited]; rfl)).2

/-- Two producers push; one pushes again while the callback runs, and then the looper is
stopped. The consumer hands over what it has, and what came meanwhile, and exits. -/
theorem delivery_exact_twoRounds :
    ∃ s : Looper Bool, (machine Bool .asyncSafe).Reachable s ∧ s.handed = [ascii "hihi", ascii "hi"] ∧
      s.handed.flatten ++ s.inHand ++ s.proBuf.readable = bytes s.pushed ∧ s.consumer = .exited ∧
      ∃ atExit b, s.ExitComplete atExit b := by
  obtain ⟨s₁, ran₁, calling₁, handed₁, -, stopper⟩ := exists_calling .asyncSafe true false short short short
    (by decide) (by decide) (by decide)
  obtain ⟨s₂, ran₂, calling₂, handed₂, -, stop, -⟩ := calling₁.exec_stop .asyncSafe (by decide) stopper
  obtain ⟨s₃, ran₃, exited, handed₃, -⟩ := calling₂.exec_exit .asyncSafe stop
  have called : ∀ {s : Looper Bool} {current pending}, s.Calling current pending →
      (machine Bool .asyncSafe).exec s [.consumer] = some s.called := by
    intro s current pending calling
    simp [Machine.exec_cons, machine, step, stepConsumer, calling.pc, Looper.called]
  have reached := Machine.Reachable.exec (Machine.Reachable.exec .init ran₁) (called calling₁)
  have reached := Machine.Reachable.exec (reached.exec ran₂) (called calling₂)
  have reached := reached.exec ran₃
  obtain ⟨-, -, data, -, complete⟩ := delivery_exact reached
  refine ⟨s₃, reached, ?_, data, exited, complete exited⟩
  rw [handed₃, handed₂, handed₁]
  rfl

end Looper

end HttpServer.Logs
