import HttpServer.Lib.Counting
import HttpServer.Lib.Machine
import HttpServer.Lib.Mutex

/-!
# The thread pool

`ThreadPool` as a machine: workers in `ThreadRoutine`, callers in `PushTask`, one lock, one
condition variable and the queue of tasks. The test that ends a worker's loop and the
`PopTask` behind it are one step: the worker has the lock from before the one to after the
other, and without the lock nobody changes the queue (`taskQueue_same`). A signal wakes one
sleeping worker if there is one; sleepers may also wake up for no reason.
-/

namespace HttpServer.Pool
open Lib

/-- Where a worker is in `ThreadRoutine`, and whether it is at its test of the queue because
it has been woken. `undefined` is where a `PopTask` on an empty queue leads. -/
inductive WorkerPc (τ : Type) where
  | lock
  | test (woken : Bool)
  | sleep
  | asleep
  | woken
  | unlock (t : τ)
  | processOn (t : τ)
  | undefined
  deriving DecidableEq

/-- Where a caller is in `PushTask`. -/
inductive PusherPc (τ : Type) where
  | idle
  | lock (t : τ)
  | push (t : τ)
  | unlock
  | wakeup
  deriving DecidableEq

/-- The worker sleeps in `ThreadWait`. -/
def WorkerPc.isAsleep {τ : Type} : WorkerPc τ → Bool
  | .asleep => true
  | _ => false

/-- The points of `ThreadRoutine` with the lock. -/
def WorkerPc.locked {τ : Type} : WorkerPc τ → Bool
  | .test _ | .sleep | .unlock _ | .undefined => true
  | _ => false

/-- The points of `PushTask` with the lock. -/
def PusherPc.locked {τ : Type} : PusherPc τ → Bool
  | .push _ | .unlock => true
  | _ => false

/-- The worker has been woken and has not tested the queue again. -/
def WorkerPc.toRetest {τ : Type} : WorkerPc τ → Bool
  | .woken | .test true => true
  | _ => false

/-- The caller has pushed its task and not yet signalled. -/
def PusherPc.toSignal {τ : Type} : PusherPc τ → Bool
  | .unlock | .wakeup => true
  | _ => false

/-- Who has the lock. -/
inductive Holder (ω π : Type) where
  | worker (i : ω)
  | pusher (p : π)
  deriving DecidableEq

/-- The queue, the lock and the threads, with the history of the tasks pushed and popped. -/
structure ThreadPool (ω π τ : Type) where
  taskQueue : List τ
  lock : Option (Holder ω π)
  workers : ω → WorkerPc τ
  pushers : π → PusherPc τ
  pushed : List τ
  popped : List τ

/-- What happens next. A signal names the worker it wakes, if it wakes one. -/
inductive PoolAction (ω π τ : Type) where
  | call (p : π) (t : τ)
  | pusher (p : π)
  | signal (p : π) (target : Option ω)
  | worker (i : ω)
  | wake (i : ω)

namespace ThreadPool
variable {ω π τ : Type} [Fintype ω] [DecidableEq ω] [DecidableEq π]

/-- A pool as initialised. -/
def new : ThreadPool ω π τ where
  taskQueue := []
  lock := none
  workers := fun _ => .lock
  pushers := fun _ => .idle
  pushed := []
  popped := []

/-- Worker `i` goes to `pc`. -/
def setWorker (s : ThreadPool ω π τ) (i : ω) (pc : WorkerPc τ) : ThreadPool ω π τ :=
  { s with workers := Function.update s.workers i pc }

/-- Caller `p` goes to `pc`. -/
def setPusher (s : ThreadPool ω π τ) (p : π) (pc : PusherPc τ) : ThreadPool ω π τ :=
  { s with pushers := Function.update s.pushers p pc }

/-- `TaskQueueIsEmpty`. -/
def taskQueueIsEmpty (s : ThreadPool ω π τ) : Bool := s.taskQueue.length = 0

/-- `PopTask`: the front of the queue, which it takes out. It is undefined on an empty queue. -/
def popTask (s : ThreadPool ω π τ) : Option (τ × ThreadPool ω π τ) :=
  match s.taskQueue with
  | [] => none
  | t :: rest => some (t, { s with taskQueue := rest, popped := s.popped ++ [t] })

omit [Fintype ω] [DecidableEq ω] [DecidableEq π] in
theorem taskQueueIsEmpty_iff (s : ThreadPool ω π τ) : s.taskQueueIsEmpty = true ↔ s.taskQueue = [] := by
  rw [taskQueueIsEmpty, decide_eq_true_eq, List.length_eq_zero_iff]

omit [Fintype ω] [DecidableEq ω] [DecidableEq π] in
theorem popTask_cons {s : ThreadPool ω π τ} {t : τ} {rest : List τ} (queue : s.taskQueue = t :: rest) :
    s.popTask = some (t, { s with taskQueue := rest, popped := s.popped ++ [t] }) := by
  simp only [popTask, queue]

/-- A step of `ThreadRoutine`. -/
def stepWorker (s : ThreadPool ω π τ) (i : ω) : Option (ThreadPool ω π τ) :=
  match s.workers i with
  | .lock => if s.lock = none then some ({ s with lock := some (.worker i) }.setWorker i (.test false)) else none
  | .test _ =>
    if s.taskQueueIsEmpty then some (s.setWorker i .sleep)
    else
      match s.popTask with
      | some (t, popped) => some (popped.setWorker i (.unlock t))
      | none => some (s.setWorker i .undefined)
  | .sleep => some ({ s with lock := none }.setWorker i .asleep)
  | .asleep => none
  | .woken => if s.lock = none then some ({ s with lock := some (.worker i) }.setWorker i (.test true)) else none
  | .unlock t => some ({ s with lock := none }.setWorker i (.processOn t))
  | .processOn _ => some (s.setWorker i .lock)
  | .undefined => none

/-- A step of `PushTask` before its `ThreadWakeup`. -/
def stepPusher (s : ThreadPool ω π τ) (p : π) : Option (ThreadPool ω π τ) :=
  match s.pushers p with
  | .idle => none
  | .lock t => if s.lock = none then some ({ s with lock := some (.pusher p) }.setPusher p (.push t)) else none
  | .push t => some ({ s with taskQueue := s.taskQueue ++ [t], pushed := s.pushed ++ [t] }.setPusher p .unlock)
  | .unlock => some ({ s with lock := none }.setPusher p .wakeup)
  | .wakeup => none

/-- `ThreadWakeup`: it wakes a sleeper unless there is none. -/
def stepSignal (s : ThreadPool ω π τ) (p : π) (target : Option ω) : Option (ThreadPool ω π τ) :=
  match s.pushers p, target with
  | .wakeup, some i => if (s.workers i).isAsleep then some ((s.setWorker i .woken).setPusher p .idle) else none
  | .wakeup, none => if ∃ i, (s.workers i).isAsleep then none else some (s.setPusher p .idle)
  | _, _ => none

/-- The pool's transitions. -/
def step (s : ThreadPool ω π τ) : PoolAction ω π τ → Option (ThreadPool ω π τ)
  | .call p t =>
    match s.pushers p with
    | .idle => some (s.setPusher p (.lock t))
    | _ => none
  | .pusher p => s.stepPusher p
  | .signal p target => s.stepSignal p target
  | .worker i => s.stepWorker i
  | .wake i => if (s.workers i).isAsleep then some (s.setWorker i .woken) else none

/-- The pool as a machine. -/
def machine (ω π τ : Type) [Fintype ω] [DecidableEq ω] [DecidableEq π] :
    Machine (ThreadPool ω π τ) (PoolAction ω π τ) :=
  ⟨new, step⟩

end ThreadPool

end HttpServer.Pool
