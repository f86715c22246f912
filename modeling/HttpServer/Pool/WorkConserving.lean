import HttpServer.Pool.ThreadPool

/-!
# The thread pool loses no task and strands none

`Conserving` is the invariant of the pool: the lock excludes, the queue is what has been
pushed and not popped, a worker that has tested the queue can rely on what it saw, and while
a worker sleeps every task in the queue has a signal or a woken worker on its way.
-/

namespace HttpServer.Pool

/-- A worker on its way to sleep has seen an empty queue, which still is; and no worker has
popped from one. -/
def WorkerPc.Agrees {τ : Type} (queue : List τ) : WorkerPc τ → Prop
  | .sleep => queue = []
  | .undefined => False
  | _ => True

theorem WorkerPc.agrees_of_not_locked {τ : Type} {pc : WorkerPc τ} (queue : List τ) (free : pc.locked = false) :
    pc.Agrees queue := by
  cases pc <;> trivial

theorem WorkerPc.isAsleep_iff {τ : Type} {pc : WorkerPc τ} : pc.isAsleep = true ↔ pc = .asleep := by
  cases pc <;> simp [isAsleep]

namespace ThreadPool
open Lib
variable {ω π τ : Type} {s s' : ThreadPool ω π τ}

/-- Whether a thread is at a point where it has the lock. -/
def inside (s : ThreadPool ω π τ) : Holder ω π → Bool
  | .worker i => (s.workers i).locked
  | .pusher p => (s.pushers p).locked

theorem taskQueue_worker [DecidableEq ω] {i : ω} (taken : s.stepWorker i = some s')
    (outside : (s.workers i).locked = false) : s'.taskQueue = s.taskQueue := by
  unfold stepWorker at taken
  cases pc : s.workers i with
  | lock | woken =>
    simp only [pc] at taken
    split at taken <;> cases taken
    rfl
  | processOn t =>
    simp only [pc] at taken
    cases taken
    rfl
  | test _ | sleep | unlock t =>
    rw [pc] at outside
    cases outside
  | asleep | undefined =>
    simp only [pc] at taken
    cases taken

theorem taskQueue_pusher [DecidableEq π] {p : π} (taken : s.stepPusher p = some s')
    (outside : (s.pushers p).locked = false) : s'.taskQueue = s.taskQueue := by
  unfold stepPusher at taken
  cases pc : s.pushers p with
  | lock t =>
    simp only [pc] at taken
    split at taken <;> cases taken
    rfl
  | push t | unlock =>
    rw [pc] at outside
    cases outside
  | idle | wakeup =>
    simp only [pc] at taken
    cases taken

/-- A step that changes the queue is one of a thread that has the lock. -/
theorem taskQueue_same [Fintype ω] [DecidableEq ω] [DecidableEq π] {a : PoolAction ω π τ}
    (taken : s.step a = some s') (idle : ∀ i, a = .worker i → s.inside (.worker i) = false)
    (idle' : ∀ p, a = .pusher p → s.inside (.pusher p) = false) : s'.taskQueue = s.taskQueue := by
  cases a with
  | call p t =>
    simp only [step] at taken
    split at taken <;> cases taken
    rfl
  | pusher p => exact taskQueue_pusher taken (idle' p rfl)
  | signal p target =>
    simp only [step, stepSignal] at taken
    split at taken
    · split at taken <;> cases taken
      rfl
    · split at taken <;> cases taken
      rfl
    · cases taken
  | worker i => exact taskQueue_worker taken (idle i rfl)
  | wake i =>
    simp only [step] at taken
    split at taken <;> cases taken
    rfl

/-- How many calls of `PushTask` have pushed but not yet signalled. -/
def unsignalled [Fintype π] (s : ThreadPool ω π τ) : Nat := countIn s.pushers PusherPc.toSignal

/-- How many workers have been woken but have not yet tested the queue again. -/
def retesting [Fintype ω] (s : ThreadPool ω π τ) : Nat := countIn s.workers WorkerPc.toRetest

/-- While a worker sleeps, every task in the queue has a wake-up on its way. -/
def NoneStranded [Fintype ω] [Fintype π] (s : ThreadPool ω π τ) : Prop :=
  (∃ i, (s.workers i).isAsleep = true) → s.taskQueue.length ≤ s.unsignalled + s.retesting

/-- The invariant of the pool. -/
structure Conserving [Fintype ω] [Fintype π] (s : ThreadPool ω π τ) : Prop where
  exclusive : Exclusive s.lock s.inside
  fifo : s.popped ++ s.taskQueue = s.pushed
  agrees : ∀ i, (s.workers i).Agrees s.taskQueue
  stranded : s.NoneStranded

/-! ## One thread steps, the others stay -/

section Worker
variable [DecidableEq ω] {i : ω} {pc : WorkerPc τ}

/-- A step of worker `i` by one of the rules for a lock. -/
theorem exclusive_worker (inv : Exclusive s.lock s.inside) (workers : s'.workers = Function.update s.workers i pc)
    (pushers : s'.pushers = s.pushers)
    (move : LockStep s.lock s'.lock (.worker i) (s.workers i).locked pc.locked) : Exclusive s'.lock s'.inside := by
  refine @Exclusive.step _ _ _ _ (.worker i) _ inv ?_ ?_
  · show LockStep _ _ _ (s.workers i).locked (s'.workers i).locked
    rw [workers, Function.update_self]
    exact move
  · intro h other
    cases h with
    | worker j =>
      have distinct : j ≠ i := fun eq => other (congrArg _ eq)
      show (s'.workers j).locked = (s.workers j).locked
      rw [workers, Function.update_of_ne distinct]
    | pusher p => exact congrArg PusherPc.locked (congrFun pushers p)

/-- Every worker agrees with the queue if the one that moved does and the others did. -/
theorem agrees_update {queue : List τ} {workers : ω → WorkerPc τ} (own : pc.Agrees queue)
    (others : ∀ j, j ≠ i → (workers j).Agrees queue) (j : ω) : (Function.update workers i pc j).Agrees queue := by
  by_cases same : j = i
  · subst same
    rw [Function.update_self]
    exact own
  · rw [Function.update_of_ne same]
    exact others j same

/-- A worker that has not just fallen asleep leaves the sleepers as they were. -/
theorem asleep_of_update {workers : ω → WorkerPc τ} (awake : pc.isAsleep = false)
    (sleeper : ∃ j, (Function.update workers i pc j).isAsleep = true) : ∃ j, (workers j).isAsleep = true := by
  obtain ⟨j, asleep⟩ := sleeper
  by_cases same : j = i
  · subst same
    rw [Function.update_self, awake] at asleep
    cases asleep
  · rw [Function.update_of_ne same] at asleep
    exact ⟨j, asleep⟩

end Worker

/-- A step of caller `p` by one of the rules for a lock. -/
theorem exclusive_pusher [DecidableEq π] {p : π} {pc : PusherPc τ} (inv : Exclusive s.lock s.inside)
    (workers : s'.workers = s.workers) (pushers : s'.pushers = Function.update s.pushers p pc)
    (move : LockStep s.lock s'.lock (.pusher p) (s.pushers p).locked pc.locked) : Exclusive s'.lock s'.inside := by
  refine @Exclusive.step _ _ _ _ (.pusher p) _ inv ?_ ?_
  · show LockStep _ _ _ (s.pushers p).locked (s'.pushers p).locked
    rw [pushers, Function.update_self]
    exact move
  · intro h other
    cases h with
    | worker i => exact congrArg WorkerPc.locked (congrFun workers i)
    | pusher q =>
      have distinct : q ≠ p := fun eq => other (congrArg _ eq)
      show (s'.pushers q).locked = (s.pushers q).locked
      rw [pushers, Function.update_of_ne distinct]

/-- Whoever has the lock may change the queue: no worker relies on what it saw of it. -/
theorem agrees_of_inside {h : Holder ω π} (inv : Exclusive s.lock s.inside) (held : s.inside h = true) (queue : List τ)
    (j : ω) (other : Holder.worker j ≠ h) : (s.workers j).Agrees queue :=
  WorkerPc.agrees_of_not_locked queue (inv.outside held other)

/-! ## Every step conserves -/

section Steps
variable [Fintype ω] [Fintype π]

/-- A worker's step that leaves the queue alone. It may fall asleep, or be done with a new
test, only with the queue empty. -/
theorem Conserving.worker [DecidableEq ω] {i : ω} {pc : WorkerPc τ} {lock : Option (Holder ω π)} (inv : s.Conserving)
    (move : LockStep s.lock lock (.worker i) (s.workers i).locked pc.locked) (own : pc.Agrees s.taskQueue)
    (idle : s.taskQueue = [] ∨ pc.isAsleep = false ∧ ((s.workers i).toRetest = true → pc.toRetest = true)) :
    Conserving ({ s with lock := lock }.setWorker i pc) := by
  constructor
  case exclusive => exact exclusive_worker inv.exclusive rfl rfl move
  case fifo => exact inv.fifo
  case agrees => exact agrees_update own fun j _ => inv.agrees j
  case stranded =>
    intro sleeper
    show s.taskQueue.length ≤ s.unsignalled + countIn (Function.update s.workers i pc) WorkerPc.toRetest
    rcases idle with empty | ⟨awake, more⟩
    · rw [empty]
      exact Nat.zero_le _
    · have before := inv.stranded (asleep_of_update awake sleeper)
      have counts : s.retesting ≤ countIn (Function.update s.workers i pc) WorkerPc.toRetest := countIn_le more
      omega

/-- A pop takes the first task, and ends the new test of at most one woken worker. -/
theorem Conserving.pop [DecidableEq ω] {i : ω} {woken : Bool} {t : τ} {rest : List τ} (inv : s.Conserving)
    (pc : s.workers i = .test woken) (queue : s.taskQueue = t :: rest) :
    Conserving ({ s with taskQueue := rest, popped := s.popped ++ [t] }.setWorker i (.unlock t)) := by
  have held : s.inside (.worker i) = true := congrArg WorkerPc.locked pc
  constructor
  case exclusive => exact exclusive_worker inv.exclusive rfl rfl (.stay (by rw [pc]; rfl) rfl)
  case fifo =>
    show (s.popped ++ [t]) ++ rest = s.pushed
    rw [List.append_assoc, List.singleton_append, ← queue, inv.fifo]
  case agrees =>
    apply agrees_update
    · trivial
    · intro j distinct
      exact agrees_of_inside inv.exclusive held rest j fun eq => distinct (Holder.worker.inj eq)
  case stranded =>
    intro sleeper
    show rest.length ≤ s.unsignalled + countIn (Function.update s.workers i (.unlock t)) WorkerPc.toRetest
    have before := inv.stranded (asleep_of_update rfl sleeper)
    have counts := countIn_le_update s.workers WorkerPc.toRetest i (.unlock t)
    rw [queue, List.length_cons] at before
    unfold retesting at before
    omega

theorem conserving_worker [DecidableEq ω] {i : ω} (inv : s.Conserving) (taken : s.stepWorker i = some s') :
    s'.Conserving := by
  have agrees := inv.agrees i
  unfold stepWorker at taken
  cases pc : s.workers i with
  | lock =>
    simp only [pc] at taken
    split at taken <;> cases taken
    rename_i free
    exact inv.worker (.acquire free rfl rfl) trivial (.inr ⟨rfl, by rw [pc]; nofun⟩)
  | woken =>
    simp only [pc] at taken
    split at taken <;> cases taken
    rename_i free
    exact inv.worker (.acquire free rfl rfl) trivial (.inr ⟨rfl, fun _ => rfl⟩)
  | test woken =>
    simp only [pc] at taken
    split at taken
    · rename_i empty
      cases taken
      have queue := (taskQueueIsEmpty_iff s).mp empty
      exact inv.worker (.stay (by rw [pc]; rfl) rfl) queue (.inl queue)
    · rename_i full
      obtain ⟨t, rest, queue⟩ := List.exists_cons_of_ne_nil fun empty => full ((taskQueueIsEmpty_iff s).mpr empty)
      rw [popTask_cons queue] at taken
      cases taken
      exact inv.pop pc queue
  | sleep =>
    simp only [pc] at taken
    cases taken
    rw [pc] at agrees
    exact inv.worker (.release (by rw [pc]; rfl) rfl rfl) trivial (.inl agrees)
  | unlock t =>
    simp only [pc] at taken
    cases taken
    exact inv.worker (.release (by rw [pc]; rfl) rfl rfl) trivial (.inr ⟨rfl, by rw [pc]; nofun⟩)
  | processOn t =>
    simp only [pc] at taken
    cases taken
    exact inv.worker (.stay (by rw [pc]; rfl) rfl) trivial (.inr ⟨rfl, by rw [pc]; nofun⟩)
  | asleep | undefined =>
    simp only [pc] at taken
    cases taken

/-- A sleeper that is woken is on its way to the queue. -/
theorem Conserving.wake [DecidableEq ω] {i : ω} (inv : s.Conserving) (asleep : (s.workers i).isAsleep = true) :
    Conserving (s.setWorker i .woken) := by
  have pc := WorkerPc.isAsleep_iff.mp asleep
  exact inv.worker (.stay (by rw [pc]; rfl) rfl) trivial (.inr ⟨rfl, by rw [pc]; nofun⟩)

/-- A step of a caller that has not pushed yet, or has pushed but not signalled. -/
theorem Conserving.pusher [DecidableEq π] {p : π} {pc : PusherPc τ} {lock : Option (Holder ω π)} (inv : s.Conserving)
    (move : LockStep s.lock lock (.pusher p) (s.pushers p).locked pc.locked)
    (same : pc.toSignal = (s.pushers p).toSignal) : Conserving ({ s with lock := lock }.setPusher p pc) := by
  constructor
  case exclusive => exact exclusive_pusher inv.exclusive rfl rfl move
  case fifo => exact inv.fifo
  case agrees => exact inv.agrees
  case stranded =>
    intro sleeper
    show s.taskQueue.length ≤ countIn (Function.update s.pushers p pc) PusherPc.toSignal + s.retesting
    rw [countIn_stay same]
    exact inv.stranded sleeper

/-- A push owes a signal for its task. -/
theorem Conserving.push [DecidableEq π] {p : π} {t : τ} (inv : s.Conserving) (pc : s.pushers p = .push t) :
    Conserving ({ s with taskQueue := s.taskQueue ++ [t], pushed := s.pushed ++ [t] }.setPusher p .unlock) := by
  have held : s.inside (.pusher p) = true := congrArg PusherPc.locked pc
  constructor
  case exclusive => exact exclusive_pusher inv.exclusive rfl rfl (.stay (by rw [pc]; rfl) rfl)
  case fifo =>
    show s.popped ++ (s.taskQueue ++ [t]) = s.pushed ++ [t]
    rw [← List.append_assoc, inv.fifo]
  case agrees => exact fun j => agrees_of_inside inv.exclusive held _ j nofun
  case stranded =>
    intro sleeper
    show (s.taskQueue ++ [t]).length ≤ countIn (Function.update s.pushers p .unlock) PusherPc.toSignal + s.retesting
    have before := inv.stranded sleeper
    rw [List.length_append, List.length_singleton, countIn_enter (by rw [pc]; rfl) rfl]
    unfold unsignalled at before
    omega

theorem conserving_pusher [DecidableEq π] {p : π} (inv : s.Conserving) (taken : s.stepPusher p = some s') :
    s'.Conserving := by
  unfold stepPusher at taken
  cases pc : s.pushers p with
  | lock t =>
    simp only [pc] at taken
    split at taken <;> cases taken
    rename_i free
    exact inv.pusher (.acquire free rfl rfl) (by rw [pc]; rfl)
  | push t =>
    simp only [pc] at taken
    cases taken
    exact inv.push pc
  | unlock =>
    simp only [pc] at taken
    cases taken
    exact inv.pusher (.release (by rw [pc]; rfl) rfl rfl) (by rw [pc]; rfl)
  | idle | wakeup =>
    simp only [pc] at taken
    cases taken

variable [DecidableEq ω] [DecidableEq π]

/-- A signal is exchanged for a woken worker, or finds nobody asleep. -/
theorem conserving_signal {p : π} {target : Option ω} (inv : s.Conserving)
    (taken : s.stepSignal p target = some s') : s'.Conserving := by
  unfold stepSignal at taken
  split at taken
  · rename_i i pc
    split at taken <;> cases taken
    rename_i asleep
    have woken := inv.wake asleep
    constructor
    case exclusive =>
      exact exclusive_pusher woken.exclusive rfl rfl (.stay (by show _ = (s.pushers p).locked; rw [pc]; rfl) rfl)
    case fifo => exact woken.fifo
    case agrees => exact woken.agrees
    case stranded =>
      intro sleeper
      have before := inv.stranded ⟨i, asleep⟩
      have signals : countIn (Function.update s.pushers p .idle) PusherPc.toSignal + 1 = s.unsignalled :=
        countIn_leave (by rw [pc]; rfl) rfl
      have retests : countIn (Function.update s.workers i .woken) WorkerPc.toRetest = s.retesting + 1 :=
        countIn_enter (by rw [WorkerPc.isAsleep_iff.mp asleep]; rfl) rfl
      show s.taskQueue.length ≤ countIn (Function.update s.pushers p .idle) PusherPc.toSignal +
        countIn (Function.update s.workers i .woken) WorkerPc.toRetest
      omega
  · rename_i pc
    split at taken <;> cases taken
    rename_i nobody
    constructor
    case exclusive => exact exclusive_pusher inv.exclusive rfl rfl (.stay (by rw [pc]; rfl) rfl)
    case fifo => exact inv.fifo
    case agrees => exact inv.agrees
    case stranded => exact fun sleeper => absurd sleeper nobody
  · cases taken

theorem conserving_step {a : PoolAction ω π τ} (inv : s.Conserving) (taken : s.step a = some s') : s'.Conserving := by
  cases a with
  | call p t =>
    simp only [step] at taken
    split at taken <;> cases taken
    rename_i pc
    exact inv.pusher (.stay (by rw [pc]; rfl) rfl) (by rw [pc]; rfl)
  | pusher p => exact conserving_pusher inv taken
  | signal p target => exact conserving_signal inv taken
  | worker i => exact conserving_worker inv taken
  | wake i =>
    simp only [step] at taken
    split at taken <;> cases taken
    rename_i asleep
    exact inv.wake asleep

theorem conserving_of_reachable (reached : (machine ω π τ).Reachable s) : s.Conserving := by
  refine reached.invariant ?_ ?_
  · constructor
    case exclusive =>
      intro h
      cases h <;> simp [machine, new, inside, WorkerPc.locked, PusherPc.locked]
    case fifo => rfl
    case agrees => exact fun _ => trivial
    case stranded => exact fun _ => Nat.zero_le _
  · intro s a s' inv _ taken
    exact conserving_step inv taken

/-- **The pool is lossless, in order and work-conserving.** In every state reached, the tasks
popped and the queue are the tasks pushed, in the order of their critical sections, of which
no two overlap; no `PopTask` has been executed on an empty queue; and while a worker sleeps,
the queue is no longer than the calls that have pushed but not signalled and the workers that
have been woken but not tested the queue again. -/
theorem pool_conserving (reached : (machine ω π τ).Reachable s) :
    Exclusive s.lock s.inside ∧
    s.popped ++ s.taskQueue = s.pushed ∧
    (∀ i, s.workers i ≠ .undefined) ∧
    ((∃ i, s.workers i = .asleep) → s.taskQueue.length ≤ s.unsignalled + s.retesting) := by
  have inv := conserving_of_reachable reached
  refine ⟨inv.exclusive, inv.fifo, ?_, ?_⟩
  · intro i pc
    have agrees := inv.agrees i
    rw [pc] at agrees
    exact agrees
  · rintro ⟨i, asleep⟩
    exact inv.stranded ⟨i, WorkerPc.isAsleep_iff.mpr asleep⟩

end Steps

/-- Both workers fall asleep, and a caller has pushed a task but not signalled. -/
def unsignalledTask : List (PoolAction Bool Unit Nat) :=
  [.worker false, .worker false, .worker false, .worker true, .worker true, .worker true, .call () 7,
    .pusher (), .pusher (), .pusher ()]

theorem pool_conserving_unsignalledTask :
    ∃ s, (machine Bool Unit Nat).exec new unsignalledTask = some s ∧
      s.popped ++ s.taskQueue = [7] ∧ s.taskQueue.length ≤ s.unsignalled + s.retesting := by
  refine ⟨_, rfl, ?_⟩
  obtain ⟨-, fifo, -, bound⟩ := pool_conserving (Machine.Reachable.exec .init
    (rfl : (machine Bool Unit Nat).exec new unsignalledTask = some _))
  exact ⟨fifo, bound ⟨false, rfl⟩⟩

end ThreadPool

end HttpServer.Pool
