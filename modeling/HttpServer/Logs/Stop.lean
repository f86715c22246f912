import HttpServer.Logs.Looper

/-!
# Stopping the asynchronous looper

`stop` stores the flag and notifies without the mutex, so its notification may fall between
the consumer's test of its predicate and its sleep, and is lost. `not_hung` shows that this
is the only way `stop` can hang: in every run in which no notification falls into that
window, no state reached is hung. `hangs_in_window` and `hung_stays` show that a run through
the window does hang, until a later push or a chance wake-up.
-/

namespace HttpServer.Logs

/-- The consumer has found its predicate false and has not been woken since. -/
def ConsumerPc.dozing : ConsumerPc → Bool
  | .sleep | .asleep => true
  | _ => false

theorem ConsumerPc.dozing_wake {pc : ConsumerPc} (awake : pc.dozing = false) : pc.wake.dozing = false := by
  cases pc <;> first | exact awake | rfl

namespace Looper
open Lib
variable {ι : Type} {type : AsyncType} {s s' : Looper ι}

/-- `stop` waits in `join`, nobody pushes, and the consumer is asleep. -/
structure Hung (s : Looper ι) : Prop where
  stop : s.stop = true
  join : s.stopper = .join
  idle : ∀ i, s.producers i = .idle
  asleep : s.consumer = .asleep

/-- The condition on a step: `stop` does not notify a consumer that is between the test of
its predicate and its sleep. -/
def NotInWindow (s : Looper ι) (a : LooperAction ι) : Prop :=
  a = .stop → s.stopper = .notify → s.consumer ≠ .sleep

/-- Once `stop` has notified, the consumer stays awake. -/
structure StaysAwake (s : Looper ι) : Prop where
  flag : s.stopper ≠ .call → s.stop = true
  awake : s.stopper = .join ∨ s.stopper = .joined → s.consumer.dozing = false

/-- From `s` to `s'` the stopper has not moved, and a consumer that can see the flag has not
dozed off. -/
structure KeepsAwake (s s' : Looper ι) : Prop where
  stop : s'.stop = s.stop
  stopper : s'.stopper = s.stopper
  awake : s.stop = true → s.consumer.dozing = false → s'.consumer.dozing = false

theorem StaysAwake.keep (inv : s.StaysAwake) (keeps : KeepsAwake s s') : s'.StaysAwake := by
  constructor
  · rw [keeps.stop, keeps.stopper]
    exact inv.flag
  · intro notified
    rw [keeps.stopper] at notified
    apply keeps.awake
    · apply inv.flag
      rcases notified with join | joined
      · rw [join]
        decide
      · rw [joined]
        decide
    · exact inv.awake notified

variable [DecidableEq ι]

/-- The consumer dozes off only if it finds the flag not set, and outside the window the
notification wakes every consumer that dozes. -/
theorem staysAwake_step {a : LooperAction ι} (inv : s.StaysAwake) (outside : s.NotInWindow a)
    (taken : s.step type a = some s') : s'.StaysAwake := by
  cases transition_of_step taken with
  | push | acquire | full | fits | doze | store | release | outOfMemory | wakeProducer =>
    exact inv.keep ⟨rfl, rfl, fun _ awake => awake⟩
  | signal | wakeConsumer => exact inv.keep ⟨rfl, rfl, fun _ => ConsumerPc.dozing_wake⟩
  | nothing pc stop =>
    refine inv.keep ⟨rfl, rfl, fun flag _ => ?_⟩
    rw [stop] at flag
    cases flag
  | rest pc =>
    refine inv.keep ⟨rfl, rfl, fun _ awake => ?_⟩
    rw [pc] at awake
    cases awake
  | lock | relock | exit | goOn | ready | swap | notifyAll | skip | unlock | callback | reset =>
    exact inv.keep ⟨rfl, rfl, fun _ _ => rfl⟩
  | stop pc =>
    constructor
    · exact fun _ => rfl
    · rintro (join | joined)
      · cases join
      · cases joined
  | stopNotify pc =>
    constructor
    · exact fun _ => inv.flag (by rw [pc]; decide)
    · intro _
      show s.consumer.wake.dozing = false
      have elsewhere := outside rfl pc
      cases consumer : s.consumer with
      | sleep => exact absurd consumer elsewhere
      | _ => rfl
  | joined pc =>
    constructor
    · exact fun _ => inv.flag (by rw [pc]; decide)
    · exact fun _ => inv.awake (.inl pc)

theorem staysAwake_of_reachable (reached : (machine ι type).ReachableIf NotInWindow s) : s.StaysAwake := by
  refine reached.invariant ?_ ?_
  · constructor
    · exact fun called => absurd rfl called
    · rintro (join | joined)
      · cases join
      · cases joined
  · intro s a s' inv outside taken
    exact staysAwake_step inv outside taken

/-- **Stopping hangs in the window only.** In every run in which `stop` never notifies the
consumer between the test of its predicate and its sleep, no state reached is hung. -/
theorem not_hung (reached : (machine ι type).ReachableIf NotInWindow s) : ¬ s.Hung := by
  intro hung
  have awake := (staysAwake_of_reachable reached).awake (.inl hung.join)
  rw [hung.asleep] at awake
  cases awake

/-- A looper whose caller of `stop` has notified and waits. -/
def stopping : Looper Unit :=
  { new with stop := true, stopper := .join, consumer := .lock, beforeStop := some [] }

theorem not_hung_stopping : ¬ stopping.Hung := by
  have called : (machine Unit .asyncSafe).ReachableIf NotInWindow
      { new with stop := true, stopper := .notify, beforeStop := some [] } :=
    .step (a := LooperAction.stop) .init (fun _ notify => nomatch notify) rfl
  have notified : (machine Unit .asyncSafe).ReachableIf NotInWindow stopping :=
    .step (a := LooperAction.stop) called (fun _ _ consumer => nomatch consumer) rfl
  exact not_hung notified

/-! ## The window -/

/-- From a notification in the window, with nobody pushing, two steps lead to a hung state. -/
theorem hangs_in_window (flag : s.stop = true) (notify : s.stopper = .notify) (window : s.consumer = .sleep)
    (idle : ∀ i, s.producers i = .idle) :
    ∃ s', (machine ι type).exec s [.stop, .consumer] = some s' ∧ s'.Hung := by
  refine ⟨{ s with stopper := .join, mutex := none, consumer := .asleep }, ?_, ⟨flag, rfl, idle, rfl⟩⟩
  simp [Machine.exec_cons, machine, step, stepStopper, stepConsumer, notify, window, ConsumerPc.wake]

/-- A hung state stays hung, whatever is tried, until somebody pushes or the consumer wakes
up by chance. -/
theorem hung_stays {a : LooperAction ι} (hung : s.Hung) (quiet : ∀ i m, a ≠ .push i m)
    (noChance : a ≠ .wakeConsumer) (taken : s.step type a = some s') : s'.Hung := by
  obtain ⟨stop, join, idle, asleep⟩ := hung
  cases a with
  | push i m => exact absurd rfl (quiet i m)
  | producer i =>
    simp only [step, stepProducer, idle i] at taken
    cases taken
  | outOfMemory i =>
    simp only [step, stepOutOfMemory, idle i] at taken
    cases taken
  | wakeProducer i =>
    cases taken
    refine ⟨stop, join, fun j => ?_, asleep⟩
    simp [setProducer, Function.update_apply, idle, ProducerPc.wake]
  | consumer =>
    simp only [step, stepConsumer, asleep] at taken
    cases taken
  | wakeConsumer => exact absurd rfl noChance
  | stop =>
    simp only [step, stepStopper, join, asleep] at taken
    cases taken

/-- The consumer tests its predicate, `stop` stores and notifies, the consumer falls asleep. -/
theorem stop_hangs : ∃ s : Looper Unit, (machine Unit .asyncSafe).Reachable s ∧ s.Hung := by
  refine ⟨{ new with stop := true, stopper := .join, consumer := .asleep, beforeStop := some [] }, ?_, ?_⟩
  · exact Machine.Reachable.exec .init (rfl : (machine Unit .asyncSafe).exec new
      [.consumer, .consumer, .consumer, .stop, .stop, .consumer] = some _)
  · exact ⟨rfl, rfl, fun _ => rfl, rfl⟩

end Looper

end HttpServer.Logs
