import HttpServer.Pool.WorkConserving

/-!
# Where the tasks are

`waiting` collects the tasks whose processing has not begun: with their callers, in the queue,
or with the worker that has popped them. Only a call adds to them, and only a worker that has
left its critical section takes one away; every other step hands tasks on.
-/

namespace HttpServer.Pool
open Lib

/-- The task a caller has not pushed yet. -/
def PusherPc.waiting {τ : Type} : PusherPc τ → Multiset τ
  | .lock t | .push t => {t}
  | _ => 0

/-- The task a worker has popped and not begun. -/
def WorkerPc.waiting {τ : Type} : WorkerPc τ → Multiset τ
  | .unlock t => {t}
  | _ => 0

namespace ThreadPool
variable {ω π τ : Type} [Fintype ω] [Fintype π] [DecidableEq ω] [DecidableEq π] {s s' : ThreadPool ω π τ}

/-- The tasks not begun. -/
def waiting (s : ThreadPool ω π τ) : Multiset τ :=
  total s.pushers PusherPc.waiting + s.taskQueue + total s.workers WorkerPc.waiting

omit [DecidableEq π] in
/-- A worker that leaves the queue alone exchanges its own task. -/
theorem waiting_setWorker {i : ω} (lock : Option (Holder ω π)) (pc : WorkerPc τ) :
    ({ s with lock := lock }.setWorker i pc).waiting + (s.workers i).waiting = s.waiting + pc.waiting := by
  have exchange := total_update s.workers WorkerPc.waiting i pc
  simp only [waiting, setWorker, add_assoc, exchange]

omit [DecidableEq ω] in
/-- A caller that leaves the queue alone exchanges its own task. -/
theorem waiting_setPusher {p : π} (lock : Option (Holder ω π)) (pc : PusherPc τ) :
    ({ s with lock := lock }.setPusher p pc).waiting + (s.pushers p).waiting = s.waiting + pc.waiting := by
  have exchange := total_update s.pushers PusherPc.waiting p pc
  simp only [waiting, setPusher]
  rw [add_right_comm, add_right_comm (total _ _) _ (PusherPc.waiting _), exchange]
  ac_rfl

omit [DecidableEq π] in
/-- A worker begins its task when it leaves its critical section. -/
theorem waiting_worker {i : ω} (taken : s.stepWorker i = some s') :
    s'.waiting + (s.workers i).waiting = s.waiting := by
  unfold stepWorker at taken
  cases pc : s.workers i with
  | lock | woken =>
    simp only [pc] at taken
    split at taken <;> cases taken
    simpa [pc, WorkerPc.waiting] using waiting_setWorker (s := s) (i := i) (some (.worker i)) (.test _)
  | test woken =>
    simp only [pc] at taken
    split at taken
    · cases taken
      simpa [pc, WorkerPc.waiting] using waiting_setWorker (s := s) (i := i) s.lock .sleep
    · rename_i full
      obtain ⟨t, rest, queue⟩ := List.exists_cons_of_ne_nil fun empty => full ((taskQueueIsEmpty_iff s).mpr empty)
      rw [popTask_cons queue] at taken
      cases taken
      -- the front of the queue is the worker's now
      have exchange := total_update s.workers WorkerPc.waiting i (.unlock t)
      simp only [pc, WorkerPc.waiting, add_zero] at exchange
      simp only [waiting, setWorker, queue, exchange, ← Multiset.cons_coe, ← Multiset.singleton_add]
      ac_rfl
  | sleep =>
    simp only [pc] at taken
    cases taken
    simpa [pc, WorkerPc.waiting] using waiting_setWorker (s := s) (i := i) none .asleep
  | unlock t =>
    simp only [pc] at taken
    cases taken
    simpa [pc, WorkerPc.waiting] using waiting_setWorker (s := s) (i := i) none (.processOn t)
  | processOn t =>
    simp only [pc] at taken
    cases taken
    simpa [pc, WorkerPc.waiting] using waiting_setWorker (s := s) (i := i) s.lock .lock
  | asleep | undefined =>
    simp only [pc] at taken
    cases taken

omit [DecidableEq ω] in
theorem waiting_pusher {p : π} (taken : s.stepPusher p = some s') : s'.waiting = s.waiting := by
  unfold stepPusher at taken
  cases pc : s.pushers p with
  | lock t =>
    simp only [pc] at taken
    split at taken <;> cases taken
    have exchange := waiting_setPusher (s := s) (p := p) (some (.pusher p)) (.push t)
    rw [pc] at exchange
    exact add_right_cancel exchange
  | push t =>
    simp only [pc] at taken
    cases taken
    have exchange := total_update s.pushers PusherPc.waiting p .unlock
    simp only [pc, PusherPc.waiting, add_zero] at exchange
    simp only [waiting, setPusher, ← exchange, ← Multiset.coe_add, Multiset.coe_singleton]
    ac_rfl
  | unlock =>
    simp only [pc] at taken
    cases taken
    have exchange := waiting_setPusher (s := s) (p := p) none .wakeup
    rw [pc] at exchange
    exact add_right_cancel exchange
  | idle | wakeup =>
    simp only [pc] at taken
    cases taken

theorem waiting_signal {p : π} {target : Option ω} (taken : s.stepSignal p target = some s') :
    s'.waiting = s.waiting := by
  unfold stepSignal at taken
  split at taken
  · rename_i i pc
    split at taken <;> cases taken
    rename_i asleep
    have woken := waiting_setWorker (s := s) (i := i) s.lock .woken
    have signalled := waiting_setPusher (s := s.setWorker i .woken) (p := p) s.lock .idle
    simp only [WorkerPc.isAsleep_iff.mp asleep, WorkerPc.waiting, add_zero] at woken
    simp only [setWorker, pc, PusherPc.waiting, add_zero] at signalled
    exact signalled.trans woken
  · rename_i pc
    split at taken <;> cases taken
    simpa [pc, PusherPc.waiting] using waiting_setPusher (s := s) (p := p) s.lock .idle
  · cases taken

/-- A call adds its task. -/
theorem waiting_call {p : π} {t : τ} (taken : s.step (.call p t) = some s') : s'.waiting = t ::ₘ s.waiting := by
  simp only [step] at taken
  split at taken <;> cases taken
  rename_i pc
  have exchange := waiting_setPusher (s := s) (p := p) s.lock (.lock t)
  rw [pc] at exchange
  simpa [PusherPc.waiting, add_comm] using exchange

theorem waiting_wake {i : ω} (taken : s.step (.wake i) = some s') : s'.waiting = s.waiting := by
  simp only [step] at taken
  split at taken <;> cases taken
  rename_i asleep
  simpa [WorkerPc.isAsleep_iff.mp asleep, WorkerPc.waiting] using waiting_setWorker (s := s) (i := i) s.lock .woken

/-! ## Who is at a task -/

omit [Fintype π] [Fintype ω] [DecidableEq π] in
/-- A worker is at the task with which it left its critical section. -/
theorem processOn_own {i : ω} (taken : s.stepWorker i = some s') (t : τ) :
    s'.workers i = .processOn t ↔ s.workers i = .unlock t := by
  unfold stepWorker at taken
  cases pc : s.workers i with
  | lock | woken =>
    simp only [pc] at taken
    split at taken <;> cases taken
    simp [setWorker]
  | test woken =>
    simp only [pc] at taken
    split at taken
    · cases taken
      simp [setWorker]
    · rename_i full
      obtain ⟨t, rest, queue⟩ := List.exists_cons_of_ne_nil fun empty => full ((taskQueueIsEmpty_iff s).mpr empty)
      rw [popTask_cons queue] at taken
      cases taken
      simp [setWorker]
  | sleep | unlock t | processOn t =>
    simp only [pc] at taken
    cases taken
    simp [setWorker]
  | asleep | undefined =>
    simp only [pc] at taken
    cases taken

omit [Fintype π] [Fintype ω] [DecidableEq π] in
theorem workers_worker {i j : ω} (taken : s.stepWorker i = some s') (other : j ≠ i) : s'.workers j = s.workers j := by
  unfold stepWorker at taken
  cases pc : s.workers i with
  | lock | woken =>
    simp only [pc] at taken
    split at taken <;> cases taken
    exact Function.update_of_ne other _ _
  | test woken =>
    simp only [pc] at taken
    split at taken
    · cases taken
      exact Function.update_of_ne other _ _
    · rename_i full
      obtain ⟨t, rest, queue⟩ := List.exists_cons_of_ne_nil fun empty => full ((taskQueueIsEmpty_iff s).mpr empty)
      rw [popTask_cons queue] at taken
      cases taken
      exact Function.update_of_ne other _ _
  | sleep | unlock t | processOn t =>
    simp only [pc] at taken
    cases taken
    exact Function.update_of_ne other _ _
  | asleep | undefined =>
    simp only [pc] at taken
    cases taken

omit [Fintype π] [Fintype ω] [DecidableEq π] in
/-- A sleeper that is woken is at no task. -/
theorem processOn_woken {i j : ω} (asleep : (s.workers i).isAsleep = true) (t : τ) :
    (s.setWorker i .woken).workers j = .processOn t ↔ s.workers j = .processOn t := by
  by_cases same : j = i
  · subst same
    simp [setWorker, WorkerPc.isAsleep_iff.mp asleep]
  · simp [setWorker, same]

omit [Fintype π] in
/-- Nobody else takes a worker to its task or away from it. -/
theorem processOn_other {a : PoolAction ω π τ} {j : ω} (taken : s.step a = some s') (other : a ≠ .worker j) (t : τ) :
    s'.workers j = .processOn t ↔ s.workers j = .processOn t := by
  cases a with
  | call p t =>
    simp only [step] at taken
    split at taken <;> cases taken
    rfl
  | pusher p =>
    have same : s'.workers = s.workers := by
      simp only [step, stepPusher] at taken
      split at taken
      · cases taken
      · split at taken <;> cases taken
        rfl
      · cases taken
        rfl
      · cases taken
        rfl
      · cases taken
    rw [same]
  | signal p target =>
    simp only [step, stepSignal] at taken
    split at taken
    · split at taken <;> cases taken
      rename_i asleep
      exact processOn_woken asleep t
    · split at taken <;> cases taken
      rfl
    · cases taken
  | worker i => rw [workers_worker taken fun same => other (congrArg _ same.symm)]
  | wake i =>
    simp only [step] at taken
    split at taken <;> cases taken
    rename_i asleep
    exact processOn_woken asleep t

end ThreadPool

end HttpServer.Pool
