import HttpServer.Lib.Draining
import HttpServer.Pool.WorkConserving

/-!
# The thread pool works its queue off

Left alone, with no further call of `PushTask` and no spurious wake-up, the pool can take only
so many steps (`rank_lt`), and the only state in which it can take none is `Drained`: every
task pushed has been popped and processed, and every worker sleeps (`drained_of_stuck`).
-/

namespace HttpServer.Pool
open Lib

/-- The steps a worker is from falling asleep, if it finds no task. -/
def WorkerPc.rank {τ : Type} : WorkerPc τ → Nat
  | .lock | .woken => 3
  | .test _ => 2
  | .sleep => 1
  | .asleep | .undefined => 0
  | .unlock _ => 5
  | .processOn _ => 4

/-- The steps a caller and those it wakes are from rest. A task in the queue weighs four. -/
def PusherPc.rank {τ : Type} : PusherPc τ → Nat
  | .idle => 0
  | .lock _ => 11
  | .push _ => 10
  | .unlock => 5
  | .wakeup => 4

/-- Not a new call and not a spurious wake-up. -/
def PoolAction.Inner {ω π τ : Type} : PoolAction ω π τ → Prop
  | .call _ _ | .wake _ => False
  | .pusher _ | .signal _ _ | .worker _ => True

namespace ThreadPool
variable {ω π τ : Type} [Fintype ω] [Fintype π] [DecidableEq ω] [DecidableEq π] {s s' : ThreadPool ω π τ}

/-- The steps the pool can still take on its own. -/
def rank (s : ThreadPool ω π τ) : Nat :=
  total s.workers WorkerPc.rank + total s.pushers PusherPc.rank + 4 * s.taskQueue.length

/-- All tasks are processed, and nobody is on the way anywhere. -/
structure Drained (s : ThreadPool ω π τ) : Prop where
  lock : s.lock = none
  queue : s.taskQueue = []
  processed : s.popped = s.pushed
  workers : ∀ i, s.workers i = .asleep
  pushers : ∀ p, s.pushers p = .idle

/-! ## Every step lowers the rank -/

omit [DecidableEq π] in
/-- A worker goes on and leaves the queue alone. -/
theorem rank_setWorker {i : ω} {pc : WorkerPc τ} (lock : Option (Holder ω π)) (lower : pc.rank < (s.workers i).rank) :
    ({ s with lock := lock }.setWorker i pc).rank < s.rank := by
  have exchange := total_update s.workers WorkerPc.rank i pc
  simp only [rank, setWorker]
  omega

omit [DecidableEq ω] in
/-- A caller goes on and leaves the queue alone. -/
theorem rank_setPusher {p : π} {pc : PusherPc τ} (lock : Option (Holder ω π)) (lower : pc.rank < (s.pushers p).rank) :
    ({ s with lock := lock }.setPusher p pc).rank < s.rank := by
  have exchange := total_update s.pushers PusherPc.rank p pc
  simp only [rank, setPusher]
  omega

omit [DecidableEq π] in
theorem rank_worker {i : ω} (taken : s.stepWorker i = some s') : s'.rank < s.rank := by
  unfold stepWorker at taken
  cases pc : s.workers i with
  | lock | woken =>
    simp only [pc] at taken
    split at taken <;> cases taken
    apply rank_setWorker
    simp [pc, WorkerPc.rank]
  | test woken =>
    simp only [pc] at taken
    split at taken
    · cases taken
      apply rank_setWorker s.lock
      simp [pc, WorkerPc.rank]
    · rename_i full
      obtain ⟨t, rest, queue⟩ := List.exists_cons_of_ne_nil fun empty => full ((taskQueueIsEmpty_iff s).mpr empty)
      rw [popTask_cons queue] at taken
      cases taken
      -- the task weighs more than the way the worker now has before it
      have exchange := total_update s.workers WorkerPc.rank i (.unlock t)
      simp only [pc, WorkerPc.rank] at exchange
      simp only [rank, setWorker, queue, List.length_cons]
      omega
  | sleep | unlock t =>
    simp only [pc] at taken
    cases taken
    apply rank_setWorker
    simp [pc, WorkerPc.rank]
  | processOn t =>
    simp only [pc] at taken
    cases taken
    apply rank_setWorker s.lock
    simp [pc, WorkerPc.rank]
  | asleep | undefined =>
    simp only [pc] at taken
    cases taken

omit [DecidableEq ω] in
theorem rank_pusher {p : π} (taken : s.stepPusher p = some s') : s'.rank < s.rank := by
  unfold stepPusher at taken
  cases pc : s.pushers p with
  | lock t =>
    simp only [pc] at taken
    split at taken <;> cases taken
    apply rank_setPusher
    simp [pc, PusherPc.rank]
  | push t =>
    simp only [pc] at taken
    cases taken
    have exchange := total_update s.pushers PusherPc.rank p .unlock
    simp only [pc, PusherPc.rank] at exchange
    simp only [rank, setPusher, List.length_append, List.length_singleton]
    omega
  | unlock =>
    simp only [pc] at taken
    cases taken
    apply rank_setPusher
    simp [pc, PusherPc.rank]
  | idle | wakeup =>
    simp only [pc] at taken
    cases taken

/-- A signal costs its caller more than the worker it wakes has to go. -/
theorem rank_signal {p : π} {target : Option ω} (taken : s.stepSignal p target = some s') : s'.rank < s.rank := by
  unfold stepSignal at taken
  split at taken
  · rename_i i pc
    split at taken <;> cases taken
    rename_i asleep
    have signalled := total_update s.pushers PusherPc.rank p .idle
    have woken := total_update s.workers WorkerPc.rank i .woken
    simp only [pc, PusherPc.rank] at signalled
    simp only [WorkerPc.isAsleep_iff.mp asleep, WorkerPc.rank] at woken
    simp only [rank, setPusher, setWorker]
    omega
  · rename_i pc
    split at taken <;> cases taken
    apply rank_setPusher s.lock
    simp [pc, PusherPc.rank]
  · cases taken

theorem rank_lt {a : PoolAction ω π τ} (inner : a.Inner) (taken : s.step a = some s') : s'.rank < s.rank := by
  cases a with
  | call p t => exact absurd inner id
  | wake i => exact absurd inner id
  | pusher p => exact rank_pusher taken
  | signal p target => exact rank_signal taken
  | worker i => exact rank_worker taken

/-! ## Nothing but a drained pool is stuck -/

/-- Whoever has the lock can go on, so it is free where nobody can. -/
theorem lock_of_stuck (inv : s.Conserving) (workers : ∀ i, s.stepWorker i = none ∨ ∃ t, s.workers i = .processOn t)
    (pushers : ∀ p, s.stepPusher p = none) : s.lock = none := by
  cases held : s.lock with
  | none => rfl
  | some holder =>
    exfalso
    have inside := (inv.exclusive holder).mpr held
    cases holder with
    | worker i =>
      rcases workers i with blocked | ⟨t, pc⟩
      · have agrees := inv.agrees i
        unfold stepWorker at blocked
        change (s.workers i).locked = true at inside
        cases pc : s.workers i with
        | test woken =>
          simp only [pc] at blocked
          split at blocked
          · cases blocked
          · split at blocked <;> cases blocked
        | sleep | unlock t =>
          simp only [pc] at blocked
          cases blocked
        | undefined =>
          rw [pc] at agrees
          exact agrees
        | lock | asleep | woken | processOn t =>
          rw [pc] at inside
          cases inside
      · change (s.workers i).locked = true at inside
        rw [pc] at inside
        cases inside
    | pusher p =>
      have blocked := pushers p
      unfold stepPusher at blocked
      change (s.pushers p).locked = true at inside
      cases pc : s.pushers p with
      | push t | unlock =>
        simp only [pc] at blocked
        cases blocked
      | idle | lock t | wakeup =>
        rw [pc] at inside
        cases inside

omit [DecidableEq π] in
/-- With the lock free, a worker that cannot go on is asleep or at its task. -/
theorem worker_of_stuck (inv : s.Conserving) (free : s.lock = none) {i : ω}
    (blocked : s.stepWorker i = none ∨ ∃ t, s.workers i = .processOn t) :
    s.workers i = .asleep ∨ ∃ t, s.workers i = .processOn t := by
  rcases blocked with blocked | busy
  · have outside : s.inside (.worker i) = false := by
      by_contra within
      have held := (inv.exclusive (.worker i)).mp (eq_true_of_ne_false within)
      rw [free] at held
      cases held
    change (s.workers i).locked = false at outside
    unfold stepWorker at blocked
    cases pc : s.workers i with
    | asleep => exact .inl rfl
    | processOn t => exact .inr ⟨t, rfl⟩
    | lock | woken => simp [pc, free] at blocked
    | test _ | sleep | unlock t | undefined =>
      rw [pc] at outside
      cases outside
  · exact .inr busy

/-- With the lock free, a caller that cannot go on is done. -/
theorem pusher_of_stuck (inv : s.Conserving) (free : s.lock = none) {p : π} (blocked : s.stepPusher p = none)
    (signals : ∀ target, s.stepSignal p target = none) : s.pushers p = .idle := by
  have outside : s.inside (.pusher p) = false := by
    by_contra within
    have held := (inv.exclusive (.pusher p)).mp (eq_true_of_ne_false within)
    rw [free] at held
    cases held
  change (s.pushers p).locked = false at outside
  unfold stepPusher at blocked
  cases pc : s.pushers p with
  | idle => rfl
  | lock t => simp [pc, free] at blocked
  | push t | unlock =>
    rw [pc] at outside
    cases outside
  | wakeup =>
    -- it wakes a sleeper, or there is none
    by_cases sleeper : ∃ i, (s.workers i).isAsleep = true
    · obtain ⟨i, asleep⟩ := sleeper
      simpa [stepSignal, pc, asleep] using signals (some i)
    · simpa [stepSignal, pc, sleeper] using signals none

omit [DecidableEq ω] [DecidableEq π] in
/-- A pool with a sleeper and nobody on the way has an empty queue. -/
theorem queue_of_sleeper (inv : s.Conserving) (sleeper : ∃ i, s.workers i = .asleep)
    (workers : ∀ i, s.workers i = .asleep ∨ ∃ t, s.workers i = .processOn t) (pushers : ∀ p, s.pushers p = .idle) :
    s.taskQueue = [] := by
  obtain ⟨i, asleep⟩ := sleeper
  have bound := inv.stranded ⟨i, WorkerPc.isAsleep_iff.mpr asleep⟩
  have signals : s.unsignalled = 0 := by
    unfold unsignalled countIn
    simp [pushers, PusherPc.toSignal]
  have retests : s.retesting = 0 := by
    unfold retesting countIn
    rw [Finset.card_eq_zero, Finset.filter_eq_empty_iff]
    intro j _
    rcases workers j with pc | ⟨t, pc⟩ <;> simp [pc, WorkerPc.toRetest]
  rw [← List.length_eq_zero_iff]
  omega

/-- The only state in which the pool can do nothing by itself. -/
theorem drained_of_stuck [Nonempty ω] (inv : s.Conserving) (stuck : (machine ω π τ).Stuck PoolAction.Inner s) :
    s.Drained := by
  have workers (i : ω) : s.stepWorker i = none ∨ ∃ t, s.workers i = .processOn t := .inl (stuck (.worker i) trivial)
  have pushers (p : π) : s.stepPusher p = none := stuck (.pusher p) trivial
  have free := lock_of_stuck inv workers pushers
  have idle (p : π) : s.pushers p = .idle :=
    pusher_of_stuck inv free (pushers p) fun target => stuck (.signal p target) trivial
  have asleep (i : ω) : s.workers i = .asleep := by
    rcases worker_of_stuck inv free (workers i) with pc | ⟨t, pc⟩
    · exact pc
    · have blocked : s.stepWorker i = none := stuck (.worker i) trivial
      simp [stepWorker, pc] at blocked
  have empty := queue_of_sleeper inv ⟨Classical.arbitrary ω, asleep _⟩ (fun i => .inl (asleep i)) idle
  constructor
  case lock => exact free
  case queue => exact empty
  case processed => simpa [empty] using inv.fifo
  case workers => exact asleep
  case pushers => exact idle

/-- **The pool works off what it is given.** From every state reached, the steps a pool with a
worker takes without a further call or a spurious wake-up are at most its rank; and wherever it
can take none, every task ever pushed has been processed, in the order of the pushes, the mutex
is free and all workers sleep. -/
theorem pool_drains [Nonempty ω] (reached : (machine ω π τ).Reachable s) :
    (machine ω π τ).Drains PoolAction.Inner Drained s ∧
    ∀ as s', (∀ a ∈ as, a.Inner) → (machine ω π τ).exec s as = some s' → as.length + s'.rank ≤ s.rank := by
  constructor
  · apply Machine.drains_of_rank Nat.lt_wfRel.wf rank
    · intro s a s' inv inner taken
      exact ⟨conserving_step inv taken, rank_lt inner taken⟩
    · intro s inv stuck
      exact drained_of_stuck inv stuck
    · exact conserving_of_reachable reached
  · intro as s' inner ran
    clear reached
    induction as generalizing s with
    | nil =>
      cases ran
      simp
    | cons a rest ih =>
      obtain ⟨t, taken, ran⟩ := Option.bind_eq_some_iff.mp ran
      have lower := rank_lt (inner a List.mem_cons_self) taken
      have later := ih (fun b mem => inner b (List.mem_cons_of_mem a mem)) ran
      rw [List.length_cons]
      omega

theorem pool_drains_unsignalledTask :
    ∃ s, (machine Bool Unit Nat).exec new unsignalledTask = some s ∧
      (machine Bool Unit Nat).Drains PoolAction.Inner Drained s := by
  refine ⟨_, rfl, ?_⟩
  apply And.left
  apply pool_drains
  exact Machine.Reachable.exec .init (rfl : (machine Bool Unit Nat).exec new unsignalledTask = some _)

end ThreadPool

end HttpServer.Pool
