import HttpServer.Lib.Refinement
import HttpServer.Logs.Looper

/-!
# Whole calls and whole rounds

Schedules in which a thread of the looper is not interrupted: a call of `push` that finds the
mutex free and room (`exec_pushCall`), and the consumer's way from its lock to the callback
(`exec_toCallback`). Of these `exists_calling`, `exec_stop` and `exec_exit` make a run of two
rounds, from the first push to the consumer's exit.
-/

namespace HttpServer.Logs
open Lib

namespace Looper
variable {ι : Type} [DecidableEq ι] {type : AsyncType} {s : Looper ι}

/-- A short message. -/
def short : Msg := ⟨ascii "hi", by decide⟩

/-- The steps of a call of `push` that waits for nothing. -/
def pushCall (i : ι) (m : Msg) : List (LooperAction ι) := .push i m :: List.replicate 5 (.producer i)

/-- From the lock to the callback. -/
def toCallback : List (LooperAction ι) := List.replicate 6 .consumer

/-- Nobody is inside `push`, and the mutex is free. -/
structure Calm (s : Looper ι) : Prop where
  idle : ∀ i, s.producers i = .idle
  free : s.mutex = none

omit [DecidableEq ι] in
theorem calm_new : (new : Looper ι).Calm := ⟨fun _ => rfl, rfl⟩

theorem exec_pushCall {i : ι} {m : Msg} {b : Buffer} (calm : s.Calm)
    (room : type = .asyncSafe → m.1.length ≤ s.proBuf.writeAbleSize) (stored : s.proBuf.push m.1 = .ok b) :
    (machine ι type).exec s (pushCall i m) =
      some { s with proBuf := b, pushed := s.pushed ++ [m], consumer := s.consumer.wake } := by
  obtain ⟨idle, free⟩ := calm
  have back : Function.update s.producers i .idle = s.producers := by
    rw [← idle i, Function.update_eq_self]
  have fits : ¬ (type = .asyncSafe ∧ ¬ m.1.length ≤ s.proBuf.writeAbleSize) := fun more => more.2 (room more.1)
  simp only [pushCall, List.replicate, Machine.exec_cons, machine, step, idle, if_true, Option.bind_some,
    stepProducer, setProducer, Function.update_self, free, if_neg fits, stored, Function.update_idem, back,
    Machine.exec_nil]

theorem exec_toCallback (calm : s.Calm) (lock : s.consumer = .lock) (wf : s.proBuf.Wf)
    (pending : s.proBuf.readable ≠ []) :
    (machine ι type).exec s toCallback =
      some { s with conBuf := s.proBuf, proBuf := s.conBuf, consumer := .callback } := by
  obtain ⟨idle, free⟩ := calm
  have more : s.proBuf.empty = false := Bool.eq_false_iff.mpr fun empty => pending ((Buffer.empty_iff wf).mp empty)
  have still : (fun i => (s.producers i).wake) = s.producers := by
    funext i
    rw [idle i]
    rfl
  cases type <;>
    simp [toCallback, Machine.exec_cons, machine, step, stepConsumer, lock, free, more, still, Buffer.swap]

/-- The looper after the callback. -/
def called (s : Looper ι) : Looper ι := { s with handed := s.handed ++ [s.conBuf.readable], consumer := .reset }

/-- A looper at the callback, and what it has in its buffers. -/
structure Calling (s : Looper ι) (current pending : Bytes) : Prop where
  calm : s.Calm
  pc : s.consumer = .callback
  pro : s.proBuf.Wf ∧ s.proBuf.readable = pending
  con : s.conBuf.Wf ∧ s.conBuf.readable = current

/-- Two messages are swapped out, and a third is pushed while the callback has them. -/
theorem exists_calling (type : AsyncType) (i j : ι) (m₁ m₂ m₃ : Msg) (more : m₁.1 ≠ [])
    (fits : m₁.1.length + m₂.1.length ≤ DEFAULT_BUFFER_SIZE) (fits' : m₃.1.length ≤ DEFAULT_BUFFER_SIZE) :
    ∃ s, (machine ι type).exec new (pushCall i m₁ ++ pushCall j m₂ ++ toCallback ++ pushCall i m₃) = some s ∧
      s.Calling (m₁.1 ++ m₂.1) m₃.1 ∧ s.handed = [] ∧ s.pushed = [m₁, m₂, m₃] ∧ s.stopper = .call := by
  have size : Buffer.new.buffer.length = DEFAULT_BUFFER_SIZE := List.length_replicate
  have room : Buffer.new.writeAbleSize = DEFAULT_BUFFER_SIZE := Buffer.room_new
  have fits₁ : m₁.1.length ≤ Buffer.new.writeAbleSize := by omega
  obtain ⟨b₁, stored₁, wf₁, readable₁, length₁, -, writer₁⟩ := Buffer.push_fits Buffer.wf_new fits₁
  have fits₂ : m₂.1.length ≤ b₁.writeAbleSize := by
    rw [Buffer.writeAbleSize, length₁, writer₁, size]
    show m₂.1.length ≤ DEFAULT_BUFFER_SIZE - (0 + m₁.1.length)
    omega
  obtain ⟨b₂, stored₂, wf₂, readable₂, -⟩ := Buffer.push_fits wf₁ fits₂
  obtain ⟨b₃, stored₃, wf₃, readable₃, -⟩ := Buffer.push_fits Buffer.wf_new (room ▸ fits')
  rw [Buffer.readable_new, List.nil_append] at readable₁ readable₃
  rw [readable₁] at readable₂
  have pending : b₂.readable ≠ [] := by
    rw [readable₂]
    exact List.append_ne_nil_of_left_ne_nil more _
  rw [Machine.exec_append, Machine.exec_append, Machine.exec_append, exec_pushCall calm_new (fun _ => fits₁) stored₁,
    Option.bind_some, exec_pushCall ⟨fun _ => rfl, rfl⟩ (fun _ => fits₂) stored₂, Option.bind_some,
    exec_toCallback ⟨fun _ => rfl, rfl⟩ rfl wf₂ pending, Option.bind_some,
    exec_pushCall ⟨fun _ => rfl, rfl⟩ (fun _ => room ▸ fits') stored₃]
  exact ⟨_, rfl, ⟨⟨fun _ => rfl, rfl⟩, rfl, ⟨wf₃, readable₃⟩, wf₂, readable₂⟩, rfl, rfl, rfl⟩

/-- The looper is stopped once the callback has returned, and has a second round to go. -/
theorem Calling.exec_stop (type : AsyncType) {current pending : Bytes} (calling : s.Calling current pending)
    (more : pending ≠ []) (stopper : s.stopper = .call) :
    ∃ s', (machine ι type).exec s.called ([.consumer, .stop] ++ toCallback) = some s' ∧ s'.Calling pending [] ∧
      s'.handed = s.handed ++ [current] ∧ s'.pushed = s.pushed ∧ s'.stop = true ∧ s'.beforeStop = some s.pushed := by
  obtain ⟨⟨idle, free⟩, pc, ⟨wf, readable⟩, wf', current⟩ := calling
  have reset : (machine ι type).exec s.called [.consumer, .stop] = some { s with
      handed := s.handed ++ [s.conBuf.readable], conBuf := s.conBuf.reset, consumer := .lock, stop := true,
      beforeStop := some s.pushed, stopper := .notify } := by
    simp [Machine.exec_cons, machine, step, stepConsumer, stepStopper, called, stopper]
  rw [Machine.exec_append, reset, Option.bind_some]
  refine ⟨_, exec_toCallback ⟨idle, free⟩ rfl wf (readable ▸ more),
    ⟨⟨idle, free⟩, rfl, ⟨Buffer.wf_reset wf', Buffer.readable_reset _⟩, wf, readable⟩, ?_, rfl, rfl, rfl⟩
  rw [current]

/-- After the last callback the consumer exits. -/
theorem Calling.exec_exit (type : AsyncType) {current : Bytes} (calling : s.Calling current [])
    (stop : s.stop = true) :
    ∃ s', (machine ι type).exec s.called [.consumer, .consumer, .consumer] = some s' ∧ s'.consumer = .exited ∧
      s'.handed = s.handed ++ [current] ∧ s'.beforeStop = s.beforeStop ∧ s'.atExit = some s.pushed := by
  obtain ⟨⟨idle, free⟩, pc, ⟨wf, readable⟩, wf', current⟩ := calling
  have empty := (Buffer.empty_iff wf).mpr readable
  have ran : (machine ι type).exec s.called [.consumer, .consumer, .consumer] = some { s with
      handed := s.handed ++ [s.conBuf.readable], conBuf := s.conBuf.reset, consumer := .exited,
      atExit := some s.pushed } := by
    simp [Machine.exec_cons, machine, step, stepConsumer, called, stop, empty, free]
  refine ⟨_, ran, rfl, ?_, rfl, rfl⟩
  rw [current]

end Looper

end HttpServer.Logs
