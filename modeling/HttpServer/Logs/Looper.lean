import HttpServer.Lib.Machine
import HttpServer.Lib.Mutex
import HttpServer.Logs.Buffer

/-!
# The asynchronous looper

`AsyncLooper` as a machine: any number of producers in `push`, the consumer in
`threadEntry`, and one call of `stop`. A thread is where its program counter says. Every
access to the buffers, the stop flag, the mutex or a condition variable is a step of its
own; a wait releases the mutex and falls asleep in one step, and tests its predicate again
once it is woken and has the mutex back. Sleepers may wake up for no reason. `Transition`
says once what a step can do; every invariant of the looper is proved over its cases.
-/

namespace HttpServer.Logs
open Lib

/-- `AsyncType`. -/
inductive AsyncType where
  | asyncSafe
  | asyncUnsafe
  deriving DecidableEq, Repr

/-- A message: the characters of a `std::string`. -/
abbrev Msg := { data : Bytes // data.length ≤ Buffer.MAX_STRING_SIZE }

/-- The bytes of a list of messages. -/
def bytes (messages : List Msg) : Bytes := (messages.map Subtype.val).flatten

@[simp] theorem bytes_nil : bytes [] = [] := rfl

@[simp] theorem bytes_append (first second : List Msg) : bytes (first ++ second) = bytes first ++ bytes second := by
  simp [bytes]

@[simp] theorem bytes_singleton (m : Msg) : bytes [m] = m.1 := by simp [bytes]

theorem bytes_flatten (batches : List (List Msg)) : bytes batches.flatten = (batches.map bytes).flatten := by
  induction batches with
  | nil => rfl
  | cons batch batches ih => rw [List.flatten_cons, bytes_append, ih, List.map_cons, List.flatten_cons]

/-- Where a producer is in `push`, and with which message. -/
inductive ProducerPc where
  | idle
  | lock (m : Msg)
  | test (m : Msg)
  | sleep (m : Msg)
  | asleep (m : Msg)
  | woken (m : Msg)
  | store (m : Msg)
  | notify
  | unlock
  deriving DecidableEq

/-- Where the consumer is in `threadEntry`. -/
inductive ConsumerPc where
  | lock
  | check
  | test
  | sleep
  | asleep
  | woken
  | swap
  | notify
  | unlock
  | callback
  | reset
  | exited
  deriving DecidableEq, Repr

/-- Where the caller of `stop` is. -/
inductive StopperPc where
  | call
  | notify
  | join
  | joined
  deriving DecidableEq, Repr

/-- The points of `push` with the mutex. -/
def ProducerPc.locked : ProducerPc → Bool
  | .test _ | .sleep _ | .store _ | .notify | .unlock => true
  | _ => false

/-- The points of `threadEntry` with the mutex. -/
def ConsumerPc.locked : ConsumerPc → Bool
  | .check | .test | .sleep | .swap | .notify | .unlock => true
  | _ => false

/-- A producer on which `_cond_pro` is signalled. -/
def ProducerPc.wake : ProducerPc → ProducerPc
  | .asleep m => .woken m
  | pc => pc

/-- The consumer when `_cond_con` is signalled. -/
def ConsumerPc.wake : ConsumerPc → ConsumerPc
  | .asleep => .woken
  | pc => pc

@[simp] theorem ProducerPc.locked_wake (pc : ProducerPc) : pc.wake.locked = pc.locked := by
  cases pc <;> rfl

@[simp] theorem ConsumerPc.locked_wake (pc : ConsumerPc) : pc.wake.locked = pc.locked := by
  cases pc <;> rfl

/-- Who has the mutex. -/
inductive Holder (ι : Type) where
  | producer (i : ι)
  | consumer
  deriving DecidableEq

/-- The fields of the looper, the threads, and the history: the messages pushed in lock
order, the buffers handed to the callback, and the messages pushed when `stop` was called
and when the consumer decided to exit. -/
structure Looper (ι : Type) where
  stop : Bool
  proBuf : Buffer
  conBuf : Buffer
  mutex : Option (Holder ι)
  producers : ι → ProducerPc
  consumer : ConsumerPc
  stopper : StopperPc
  pushed : List Msg
  handed : List Bytes
  beforeStop : Option (List Msg)
  atExit : Option (List Msg)

/-- What happens next: a call of `push`, a step of a thread, an exception for want of
memory, a wake-up for no reason. -/
inductive LooperAction (ι : Type) where
  | push (i : ι) (m : Msg)
  | producer (i : ι)
  | outOfMemory (i : ι)
  | wakeProducer (i : ι)
  | consumer
  | wakeConsumer
  | stop
  deriving DecidableEq

namespace Looper
variable {ι : Type} [DecidableEq ι]

/-- A looper as constructed. -/
def new : Looper ι where
  stop := false
  proBuf := .new
  conBuf := .new
  mutex := none
  producers := fun _ => .idle
  consumer := .lock
  stopper := .call
  pushed := []
  handed := []
  beforeStop := none
  atExit := none

/-- Producer `i` goes to `pc`. -/
def setProducer (s : Looper ι) (i : ι) (pc : ProducerPc) : Looper ι :=
  { s with producers := Function.update s.producers i pc }

/-- A step of `push`. -/
def stepProducer (type : AsyncType) (s : Looper ι) (i : ι) : Option (Looper ι) :=
  match s.producers i with
  | .idle => none
  | .lock m => if s.mutex = none then some ({ s with mutex := some (.producer i) }.setProducer i (.test m)) else none
  | .test m =>
    if type = .asyncSafe ∧ ¬ m.1.length ≤ s.proBuf.writeAbleSize then some (s.setProducer i (.sleep m))
    else some (s.setProducer i (.store m))
  | .sleep m => some ({ s with mutex := none }.setProducer i (.asleep m))
  | .asleep _ => none
  | .woken m => if s.mutex = none then some ({ s with mutex := some (.producer i) }.setProducer i (.test m)) else none
  | .store m =>
    match s.proBuf.push m.1 with
    | .ok b => some ({ s with proBuf := b, pushed := s.pushed ++ [m] }.setProducer i .notify)
    | .error _ => none
  | .notify => some ({ s with consumer := s.consumer.wake }.setProducer i .unlock)
  | .unlock => some ({ s with mutex := none }.setProducer i .idle)

/-- A `push` that has to grow the buffer may leave by an exception instead. -/
def stepOutOfMemory (s : Looper ι) (i : ι) : Option (Looper ι) :=
  match s.producers i with
  | .store m =>
    if s.proBuf.writeAbleSize < m.1.length then some ({ s with mutex := none }.setProducer i .idle) else none
  | _ => none

/-- A step of `threadEntry`. The `break` leaves the block and with it the mutex. -/
def stepConsumer (type : AsyncType) (s : Looper ι) : Option (Looper ι) :=
  match s.consumer with
  | .lock => if s.mutex = none then some { s with mutex := some .consumer, consumer := .check } else none
  | .check =>
    if s.stop && s.proBuf.empty then some { s with mutex := none, consumer := .exited, atExit := some s.pushed }
    else some { s with consumer := .test }
  | .test => some { s with consumer := if s.stop || !s.proBuf.empty then .swap else .sleep }
  | .sleep => some { s with mutex := none, consumer := .asleep }
  | .asleep => none
  | .woken => if s.mutex = none then some { s with mutex := some .consumer, consumer := .test } else none
  | .swap =>
    let swapped := s.conBuf.swap s.proBuf
    some { s with conBuf := swapped.1, proBuf := swapped.2, consumer := .notify }
  | .notify =>
    if type = .asyncSafe then some { s with producers := fun i => (s.producers i).wake, consumer := .unlock }
    else some { s with consumer := .unlock }
  | .unlock => some { s with mutex := none, consumer := .callback }
  | .callback => some { s with handed := s.handed ++ [s.conBuf.readable], consumer := .reset }
  | .reset => some { s with conBuf := s.conBuf.reset, consumer := .lock }
  | .exited => none

/-- A step of `stop`. -/
def stepStopper (s : Looper ι) : Option (Looper ι) :=
  match s.stopper with
  | .call => some { s with stop := true, beforeStop := some s.pushed, stopper := .notify }
  | .notify => some { s with consumer := s.consumer.wake, stopper := .join }
  | .join => if s.consumer = .exited then some { s with stopper := .joined } else none
  | .joined => none

/-- The looper's transitions. -/
def step (type : AsyncType) (s : Looper ι) : LooperAction ι → Option (Looper ι)
  | .push i m => if s.producers i = .idle then some (s.setProducer i (.lock m)) else none
  | .producer i => s.stepProducer type i
  | .outOfMemory i => s.stepOutOfMemory i
  | .wakeProducer i => some (s.setProducer i (s.producers i).wake)
  | .consumer => s.stepConsumer type
  | .wakeConsumer => some { s with consumer := s.consumer.wake }
  | .stop => s.stepStopper

/-- The looper as a machine. -/
def machine (ι : Type) [DecidableEq ι] (type : AsyncType) : Machine (Looper ι) (LooperAction ι) := ⟨new, step type⟩

/-! ## What a step can do -/

variable {type : AsyncType} {s s' : Looper ι}

/-- The transitions of the threads, one by one, with what enables them. -/
inductive Transition (type : AsyncType) (s : Looper ι) : LooperAction ι → Looper ι → Prop where
  | push {i : ι} {m : Msg} (pc : s.producers i = .idle) :
      Transition type s (.push i m) (s.setProducer i (.lock m))
  | acquire {i : ι} {m : Msg} (pc : s.producers i = .lock m ∨ s.producers i = .woken m) (free : s.mutex = none) :
      Transition type s (.producer i) ({ s with mutex := some (.producer i) }.setProducer i (.test m))
  | full {i : ι} {m : Msg} (pc : s.producers i = .test m) (more : s.proBuf.writeAbleSize < m.1.length) :
      Transition type s (.producer i) (s.setProducer i (.sleep m))
  | fits {i : ι} {m : Msg} (pc : s.producers i = .test m)
      (room : type = .asyncSafe → m.1.length ≤ s.proBuf.writeAbleSize) :
      Transition type s (.producer i) (s.setProducer i (.store m))
  | doze {i : ι} {m : Msg} (pc : s.producers i = .sleep m) :
      Transition type s (.producer i) ({ s with mutex := none }.setProducer i (.asleep m))
  | store {i : ι} {m : Msg} {b : Buffer} (pc : s.producers i = .store m) (stored : s.proBuf.push m.1 = .ok b) :
      Transition type s (.producer i) ({ s with proBuf := b, pushed := s.pushed ++ [m] }.setProducer i .notify)
  | signal {i : ι} (pc : s.producers i = .notify) :
      Transition type s (.producer i) ({ s with consumer := s.consumer.wake }.setProducer i .unlock)
  | release {i : ι} (pc : s.producers i = .unlock) :
      Transition type s (.producer i) ({ s with mutex := none }.setProducer i .idle)
  | outOfMemory {i : ι} {m : Msg} (pc : s.producers i = .store m) (more : s.proBuf.writeAbleSize < m.1.length) :
      Transition type s (.outOfMemory i) ({ s with mutex := none }.setProducer i .idle)
  | wakeProducer {i : ι} : Transition type s (.wakeProducer i) (s.setProducer i (s.producers i).wake)
  | lock (pc : s.consumer = .lock) (free : s.mutex = none) :
      Transition type s .consumer { s with mutex := some .consumer, consumer := .check }
  | relock (pc : s.consumer = .woken) (free : s.mutex = none) :
      Transition type s .consumer { s with mutex := some .consumer, consumer := .test }
  | exit (pc : s.consumer = .check) (stop : s.stop = true) (empty : s.proBuf.empty = true) :
      Transition type s .consumer { s with mutex := none, consumer := .exited, atExit := some s.pushed }
  | goOn (pc : s.consumer = .check) : Transition type s .consumer { s with consumer := .test }
  | ready (pc : s.consumer = .test) : Transition type s .consumer { s with consumer := .swap }
  | nothing (pc : s.consumer = .test) (stop : s.stop = false) (empty : s.proBuf.empty = true) :
      Transition type s .consumer { s with consumer := .sleep }
  | rest (pc : s.consumer = .sleep) : Transition type s .consumer { s with mutex := none, consumer := .asleep }
  | swap (pc : s.consumer = .swap) :
      Transition type s .consumer { s with conBuf := s.proBuf, proBuf := s.conBuf, consumer := .notify }
  | notifyAll (pc : s.consumer = .notify) (safe : type = .asyncSafe) :
      Transition type s .consumer { s with producers := fun i => (s.producers i).wake, consumer := .unlock }
  | skip (pc : s.consumer = .notify) (other : type ≠ .asyncSafe) :
      Transition type s .consumer { s with consumer := .unlock }
  | unlock (pc : s.consumer = .unlock) : Transition type s .consumer { s with mutex := none, consumer := .callback }
  | callback (pc : s.consumer = .callback) :
      Transition type s .consumer { s with handed := s.handed ++ [s.conBuf.readable], consumer := .reset }
  | reset (pc : s.consumer = .reset) :
      Transition type s .consumer { s with conBuf := s.conBuf.reset, consumer := .lock }
  | wakeConsumer : Transition type s .wakeConsumer { s with consumer := s.consumer.wake }
  | stop (pc : s.stopper = .call) :
      Transition type s .stop { s with stop := true, beforeStop := some s.pushed, stopper := .notify }
  | stopNotify (pc : s.stopper = .notify) :
      Transition type s .stop { s with consumer := s.consumer.wake, stopper := .join }
  | joined (pc : s.stopper = .join) : Transition type s .stop { s with stopper := .joined }

theorem transition_producer {i : ι} (taken : s.stepProducer type i = some s') : Transition type s (.producer i) s' := by
  unfold stepProducer at taken
  cases pc : s.producers i with
  | lock m =>
    simp only [pc] at taken
    split at taken <;> cases taken
    rename_i free
    exact .acquire (.inl pc) free
  | woken m =>
    simp only [pc] at taken
    split at taken <;> cases taken
    rename_i free
    exact .acquire (.inr pc) free
  | test m =>
    simp only [pc] at taken
    split at taken <;> cases taken
    · rename_i blocked
      exact .full pc (Nat.lt_of_not_le blocked.2)
    · rename_i passes
      refine .fits pc fun safe => ?_
      by_contra more
      exact passes ⟨safe, more⟩
  | sleep m =>
    simp only [pc] at taken
    cases taken
    exact .doze pc
  | store m =>
    simp only [pc] at taken
    split at taken <;> cases taken
    rename_i stored
    exact .store pc stored
  | notify =>
    simp only [pc] at taken
    cases taken
    exact .signal pc
  | unlock =>
    simp only [pc] at taken
    cases taken
    exact .release pc
  | idle | asleep m =>
    simp only [pc] at taken
    cases taken

theorem transition_consumer (taken : s.stepConsumer type = some s') : Transition type s .consumer s' := by
  unfold stepConsumer at taken
  cases pc : s.consumer with
  | lock =>
    simp only [pc] at taken
    split at taken <;> cases taken
    rename_i free
    exact .lock pc free
  | check =>
    simp only [pc] at taken
    split at taken <;> cases taken
    · rename_i stopping
      obtain ⟨stop, empty⟩ := Bool.and_eq_true_iff.mp stopping
      exact .exit pc stop empty
    · exact .goOn pc
  | test =>
    simp only [pc] at taken
    split at taken <;> cases taken
    · exact .ready pc
    · rename_i quiet
      obtain ⟨stop, empty⟩ := Bool.or_eq_false_iff.mp (eq_false_of_ne_true quiet)
      exact .nothing pc stop (by simpa using empty)
  | sleep =>
    simp only [pc] at taken
    cases taken
    exact .rest pc
  | woken =>
    simp only [pc] at taken
    split at taken <;> cases taken
    rename_i free
    exact .relock pc free
  | swap =>
    simp only [pc] at taken
    cases taken
    exact .swap pc
  | notify =>
    simp only [pc] at taken
    split at taken <;> cases taken
    · rename_i safe
      exact .notifyAll pc safe
    · rename_i other
      exact .skip pc other
  | unlock =>
    simp only [pc] at taken
    cases taken
    exact .unlock pc
  | callback =>
    simp only [pc] at taken
    cases taken
    exact .callback pc
  | reset =>
    simp only [pc] at taken
    cases taken
    exact .reset pc
  | asleep | exited =>
    simp only [pc] at taken
    cases taken

/-- Every step is one of the transitions. -/
theorem transition_of_step {a : LooperAction ι} (taken : s.step type a = some s') : Transition type s a s' := by
  cases a with
  | push i m =>
    simp only [step] at taken
    split at taken <;> cases taken
    rename_i idle
    exact .push idle
  | producer i => exact transition_producer taken
  | outOfMemory i =>
    simp only [step, stepOutOfMemory] at taken
    split at taken
    · rename_i m pc
      split at taken <;> cases taken
      rename_i more
      exact .outOfMemory pc more
    · cases taken
  | wakeProducer i =>
    cases taken
    exact .wakeProducer
  | consumer => exact transition_consumer taken
  | wakeConsumer =>
    cases taken
    exact .wakeConsumer
  | stop =>
    simp only [step, stepStopper] at taken
    cases pc : s.stopper with
    | call =>
      simp only [pc] at taken
      cases taken
      exact .stop pc
    | notify =>
      simp only [pc] at taken
      cases taken
      exact .stopNotify pc
    | join =>
      simp only [pc] at taken
      split at taken <;> cases taken
      exact .joined pc
    | joined =>
      simp only [pc] at taken
      cases taken

/-! ## Mutual exclusion -/

/-- Whether a thread is at a point where it has the mutex. -/
def inside (s : Looper ι) : Holder ι → Bool
  | .producer i => (s.producers i).locked
  | .consumer => s.consumer.locked

/-- A step of producer `i` by one of the rules for a lock. -/
theorem exclusive_setProducer {i : ι} {pc : ProducerPc} (inv : Exclusive s.mutex s.inside)
    (producers : s'.producers = Function.update s.producers i pc)
    (move : LockStep s.mutex s'.mutex (.producer i) (s.producers i).locked pc.locked)
    (consumer : s'.consumer.locked = s.consumer.locked) : Exclusive s'.mutex s'.inside := by
  refine @Exclusive.step _ _ _ _ (.producer i) _ inv ?_ ?_
  · show LockStep _ _ _ (s.producers i).locked (s'.producers i).locked
    rw [producers, Function.update_self]
    exact move
  · intro h other
    cases h with
    | producer j =>
      have distinct : j ≠ i := fun eq => other (congrArg _ eq)
      show (s'.producers j).locked = (s.producers j).locked
      rw [producers, Function.update_of_ne distinct]
    | consumer => exact consumer

omit [DecidableEq ι] in
/-- A step of the consumer by one of the rules for a lock. -/
theorem exclusive_setConsumer (inv : Exclusive s.mutex s.inside)
    (producers : ∀ i, (s'.producers i).locked = (s.producers i).locked)
    (move : LockStep s.mutex s'.mutex .consumer s.consumer.locked s'.consumer.locked) :
    Exclusive s'.mutex s'.inside := by
  apply inv.step move
  intro h other
  cases h with
  | producer i => exact producers i
  | consumer => exact absurd rfl other

theorem exclusive_step {a : LooperAction ι} (inv : Exclusive s.mutex s.inside) (taken : s.step type a = some s') :
    Exclusive s'.mutex s'.inside := by
  cases transition_of_step taken with
  | acquire pc free => exact exclusive_setProducer inv rfl (.acquire free rfl rfl) rfl
  | doze pc | release pc | outOfMemory pc =>
    exact exclusive_setProducer inv rfl (.release (by rw [pc]; rfl) rfl rfl) rfl
  | push pc | full pc | fits pc | store pc => exact exclusive_setProducer inv rfl (.stay (by rw [pc]; rfl) rfl) rfl
  | signal pc => exact exclusive_setProducer inv rfl (.stay (by rw [pc]; rfl) rfl) (ConsumerPc.locked_wake _)
  | wakeProducer => exact exclusive_setProducer inv rfl (.stay (ProducerPc.locked_wake _) rfl) rfl
  | lock pc free | relock pc free => exact exclusive_setConsumer inv (fun _ => rfl) (.acquire free rfl rfl)
  | exit pc | rest pc | unlock pc => exact exclusive_setConsumer inv (fun _ => rfl) (.release (by rw [pc]; rfl) rfl rfl)
  | goOn pc | ready pc | nothing pc | swap pc | skip pc | callback pc | reset pc =>
    exact exclusive_setConsumer inv (fun _ => rfl) (.stay (by rw [pc]; rfl) rfl)
  | notifyAll pc => exact exclusive_setConsumer inv (fun _ => ProducerPc.locked_wake _) (.stay (by rw [pc]; rfl) rfl)
  | wakeConsumer | stopNotify => exact exclusive_setConsumer inv (fun _ => rfl) (.stay (ConsumerPc.locked_wake _) rfl)
  | stop | joined => exact exclusive_setConsumer inv (fun _ => rfl) (.stay rfl rfl)

/-- **Mutual exclusion.** In every state reached, the threads at a point with the mutex are
the one that has it. -/
theorem exclusive_of_reachable (reached : (machine ι type).Reachable s) : Exclusive s.mutex s.inside := by
  refine reached.invariant ?_ ?_
  · intro h
    cases h <;> simp [machine, new, inside, ProducerPc.locked, ConsumerPc.locked]
  · intro s a s' inv _ taken
    exact exclusive_step inv taken

end Looper

end HttpServer.Logs
