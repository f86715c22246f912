import HttpServer.Server.Conservation
import HttpServer.Server.Ending

/-!
# Every connection is served in the end

Once no more connections are accepted, the server can only take finitely many steps, whatever
the schedule and the answers of a system with steady sockets: every step brings the pool closer
to rest or one handler closer to its return. And it cannot get stuck before every connection it
has accepted has been handled.
-/

namespace HttpServer.Server
open Lib Net Protocol Pool

/-- An answer that can always be given: the call fails, or there is nothing to read. -/
def refusal : (c : Call) → c.Answer
  | .recv _ => (⟨[], .closed⟩ : Sock)
  | .stat _ => (none : Option Stat)
  | .openRead _ | .write _ _ | .send _ _ => (-1 : Int)
  | .pipeInput | .pipeOutput => (none : Option (Nat × Nat))
  | .fork _ _ => false
  | .read _ => ([] : Bytes)
  | .waitpid => WaitStatus.failed
  | .sendfile _ _ _ | .close _ => ()

theorem possible_refusal (fds : Finset Nat) (c : Call) : possible fds c (refusal c) := by
  cases c with
  | openRead path => exact .inl rfl
  | pipeInput | pipeOutput => exact .inl rfl
  | _ => trivial

/-- Not a new connection and not a spurious wake-up. -/
def ServerAction.Inner {ω : Type} : ServerAction ω → Prop
  | .accept _ => False
  | .pool a => a.Inner
  | .begin _ _ | .call _ _ _ => True

/-- Nor a call of one of the workers whose calls are not answered. -/
def ServerAction.InnerBut {ω : Type} (hanging : Set ω) (a : ServerAction ω) : Prop :=
  a.Inner ∧ ∀ i c r, a = .call i c r → i ∉ hanging

namespace Running
variable {ω : Type} [Fintype ω] [DecidableEq ω] {base : Finset Nat} {s s' : Running ω}

/-- The pool of the server runs as a thread pool does. -/
theorem pool_of_reachable (reached : (machine ω base).Reachable s) :
    (ThreadPool.machine ω Unit Nat).Reachable s.pool := by
  refine reached.invariant .init ?_
  intro s a s' ran _ taken
  cases turn_of_step taken with
  | refused same => exact same ▸ ran
  | accepted pool pushed same =>
    subst same
    exact .step (a := .call () (lowestUnused s.fds)) ran trivial pushed
  | pool a pool old turn moved same =>
    subst same
    exact .step (a := a) ran trivial moved
  | begun i found sock pool pc worked same =>
    subst same
    exact .step (a := .worker i) ran trivial worked
  | called i c r next handler answered same => exact same ▸ ran

/-- The sockets are steady: the results of `send` are -1 and counts, and a connection on which it
has failed stays broken. And what a program prints is no longer than a string can be. -/
def Steady (s : Running ω) : ServerAction ω → Prop
  | .call i c r => steady (s.broken i) c r
  | _ => True

/-- Every handler returns. -/
def Ending (s : Running ω) : Prop := ∀ i, Acc Next (s.handlers i, s.broken i)

omit [Fintype ω] in
/-- What others do does not keep a handler from returning. -/
theorem Ending.update {i : ω} {h : Handler Stage} {broken : Bool} (ending : s.Ending) (ends : Acc Next (h, broken))
    (handlers : s'.handlers = Function.update s.handlers i h) (flags : s'.broken = Function.update s.broken i broken) :
    s'.Ending := by
  intro j
  rw [handlers, flags]
  by_cases same : j = i
  · subst same
    simpa using ends
  · simpa [same] using ending j

theorem ending_step {a : ServerAction ω} (ending : s.Ending) (steady : s.Steady a) (taken : s.step a = some s') :
    s'.Ending := by
  cases turn_of_step taken with
  | refused same => exact same ▸ ending
  | accepted pool pushed same => exact same ▸ ending
  | pool a pool old turn moved same => exact same ▸ ending
  | begun i found sock pool pc worked same =>
    subst same
    exact ending.update (acc_handlerRequest found sock false) rfl rfl
  | called i c r next handler answered same =>
    subst same
    have ends := ending i
    rw [handler] at ends
    exact ending.update (ends.inv ⟨c, next, r, rfl, steady, rfl⟩) rfl rfl

theorem ending_of_reachable (reached : (machine ω base).ReachableIf Steady s) : s.Ending := by
  refine reached.invariant ?_ fun _ _ _ inv steady taken => ending_step inv steady taken
  exact fun _ => acc_returned false

/-- The pool comes closer to rest, or one handler to its return. -/
theorem lex_lower {a : ServerAction ω} (inner : a.Inner) (ending : s.Ending) (steady : s.Steady a)
    (taken : s.step a = some s') :
    Prod.Lex (· < ·) (OneLower fun h' h => Acc Next h ∧ Next h' h)
      (s'.pool.rank, fun i => (s'.handlers i, s'.broken i)) (s.pool.rank, fun i => (s.handlers i, s.broken i)) := by
  cases turn_of_step taken with
  | refused same => exact absurd inner id
  | accepted pool pushed same => exact absurd inner id
  | pool a pool old turn moved same =>
    subst same
    exact .left _ _ (ThreadPool.rank_lt inner moved)
  | begun i found sock pool pc worked same =>
    subst same
    exact .left _ _ (ThreadPool.rank_lt (a := .worker i) trivial worked)
  | called i c r next handler answered same =>
    subst same
    refine .right _ ⟨i, ((next r).resume Handler.goOn, s.broken i || failed c r), ⟨ending i, ?_⟩, ?_⟩
    · exact ⟨c, next, r, handler, steady, rfl⟩
    · funext j
      by_cases same : j = i
      · subst same
        simp [afterCall]
      · simp [afterCall, same]

/-- Nobody but workers whose calls are not answered is on the way anywhere, and if there are
others, no connection waits. -/
structure Rests (hanging : Set ω) (s : Running ω) : Prop where
  lock : s.pool.lock = none
  pushers : ∀ p, s.pool.pushers p = .idle
  workers : ∀ i, s.pool.workers i = .asleep ∨ i ∈ hanging ∧ ∃ t, s.pool.workers i = .processOn t
  handlers : ∀ i, i ∉ hanging → s.handlers i = .ret .returned
  queue : (∃ i, i ∉ hanging) → s.pool.taskQueue = []

/-- Every connection accepted has been handled, and nobody is on the way anywhere. -/
structure Settled (base : Finset Nat) (s : Running ω) : Prop where
  pool : s.pool.Drained
  handlers : ∀ i, s.handlers i = .ret .returned
  table : s.fds.card = base.card + s.owed

omit [DecidableEq ω] in
/-- Where the queue is empty and no worker about to begin, no connection waits. -/
theorem Rests.waiting {hanging : Set ω} (rests : s.Rests hanging) (free : ∃ i, i ∉ hanging) : s.pool.waiting = 0 := by
  have empty : total s.pool.workers WorkerPc.waiting = 0 := by
    apply Finset.sum_eq_zero
    intro i _
    rcases rests.workers i with asleep | ⟨-, t, busy⟩
    · rw [asleep]
      rfl
    · rw [busy]
      rfl
  have idle : total s.pool.pushers PusherPc.waiting = 0 := by
    apply Finset.sum_eq_zero
    intro p _
    rw [rests.pushers]
    rfl
  rw [ThreadPool.waiting, empty, idle, rests.queue free]
  rfl

omit [Fintype ω] [DecidableEq ω] in
/-- What is refused is refused by a steady socket. -/
theorem steady_refusal (broken : Bool) (c : Call) : steady broken c (refusal c) := by
  cases c with
  | send sock data =>
    have least : (-1 : Int) ≤ data.length := by omega
    exact ⟨le_refl _, least, fun _ => rfl⟩
  | read fd =>
    show ([] : Bytes).length < 2 ^ 63
    decide
  | _ => trivial

/-- A handler never rests before its loop. -/
theorem returned_of_ret (reached : (machine ω base).Reachable s) (i : ω) (stage : Stage)
    (ended : s.handlers i = .ret stage) : stage = .returned := by
  induction reached generalizing i stage with
  | init => exact (Program.ret.inj ended).symm
  | step _ _ taken ih =>
    cases turn_of_step taken with
    | refused same | accepted pool pushed same | pool a pool old turn moved same =>
      subst same
      exact ih i stage ended
    | begun j found sock pool pc worked same =>
      subst same
      simp only [afterBegin] at ended
      by_cases mine : i = j
      · subst mine
        rw [Function.update_self] at ended
        cases ended
      · rw [Function.update_of_ne mine] at ended
        exact ih i stage ended
    | called j c r next handler answered same =>
      subst same
      simp only [afterCall] at ended
      by_cases mine : i = j
      · subst mine
        rw [Function.update_self] at ended
        exact Handler.returned_of_resume ended
      · rw [Function.update_of_ne mine] at ended
        exact ih i stage ended

variable {hanging : Set ω}

/-- A worker is at its task only as long as its handler waits for an answer. -/
theorem processOn_of_stuck (reached : (machine ω base).Reachable s)
    (stuck : (machine ω base).Stuck (ServerAction.InnerBut hanging) s) {i : ω} {t : Nat}
    (pc : s.pool.workers i = .processOn t) : i ∈ hanging := by
  by_contra free
  cases handler : s.handlers i with
  | ret stage =>
    obtain rfl := returned_of_ret reached i stage handler
    have blocked : s.stepPool (.worker i) = none := stuck (.pool (.worker i)) ⟨trivial, nofun⟩
    simp [stepPool, pc, handler, ThreadPool.step, ThreadPool.stepWorker] at blocked
  | call c next =>
    have blocked : s.stepCall i c (refusal c) = none := by
      refine stuck (.call i c (refusal c)) ⟨trivial, ?_⟩
      rintro _ _ _ ⟨⟩
      exact free
    simp [stepCall, handler, possible_refusal] at blocked

/-- A worker that the server cannot move cannot move in the pool. -/
theorem worker_blocked (stuck : (machine ω base).Stuck (ServerAction.InnerBut hanging) s) (i : ω) :
    s.pool.stepWorker i = none ∨ ∃ t, s.pool.workers i = .processOn t := by
  have blocked : s.stepPool (.worker i) = none := stuck (.pool (.worker i)) ⟨trivial, nofun⟩
  cases pc : s.pool.workers i with
  | unlock t =>
    have unbegun : s.stepBegin i ⟨0, ⟨0, 0⟩⟩ = none := stuck (.begin i ⟨0, ⟨0, 0⟩⟩) ⟨trivial, nofun⟩
    simp [stepBegin, pc, ThreadPool.step, ThreadPool.stepWorker] at unbegun
  | processOn t => exact .inr ⟨t, rfl⟩
  | _ =>
    left
    simpa [stepPool, pc, ThreadPool.step] using blocked

/-- The only states in which the server can do nothing by itself. -/
theorem rests_of_stuck (reached : (machine ω base).Reachable s)
    (stuck : (machine ω base).Stuck (ServerAction.InnerBut hanging) s) : s.Rests hanging := by
  have inv := ThreadPool.conserving_of_reachable (pool_of_reachable reached)
  have pushers (p : Unit) : s.pool.stepPusher p = none :=
    Option.map_eq_none_iff.mp (stuck (.pool (.pusher p)) ⟨trivial, nofun⟩)
  have signals (p : Unit) (target : Option ω) : s.pool.stepSignal p target = none :=
    Option.map_eq_none_iff.mp (stuck (.pool (.signal p target)) ⟨trivial, nofun⟩)
  have free := ThreadPool.lock_of_stuck inv (worker_blocked stuck) pushers
  have idle (p : Unit) : s.pool.pushers p = .idle := ThreadPool.pusher_of_stuck inv free (pushers p) (signals p)
  have workers (i : ω) := ThreadPool.worker_of_stuck inv free (worker_blocked stuck i)
  have asleep (i : ω) (other : i ∉ hanging) : s.pool.workers i = .asleep := by
    rcases workers i with pc | ⟨t, pc⟩
    · exact pc
    · exact absurd (processOn_of_stuck reached stuck pc) other
  obtain ⟨lives, debts, leaked, owned⟩ := owned_of_reachable reached
  constructor
  case lock => exact free
  case pushers => exact idle
  case workers =>
    intro i
    rcases workers i with pc | ⟨t, pc⟩
    · exact .inl pc
    · exact .inr ⟨processOn_of_stuck reached stuck pc, t, pc⟩
  case handlers => exact fun i other => (owned.idle i (by simp [asleep i other])).1
  case queue => exact fun ⟨i, other⟩ => ThreadPool.queue_of_sleeper inv ⟨i, asleep i other⟩ workers idle

/-- Where no handler waits for an answer either, the server has settled. -/
theorem Rests.settled [Nonempty ω] (reached : (machine ω base).Reachable s) (rests : s.Rests ∅) : Settled base s := by
  have inv := ThreadPool.conserving_of_reachable (pool_of_reachable reached)
  have asleep (i : ω) : s.pool.workers i = .asleep :=
    (rests.workers i).resolve_right fun busy => absurd busy.1 (Set.notMem_empty i)
  have some : ∃ i : ω, i ∉ (∅ : Set ω) := ⟨Classical.arbitrary ω, Set.notMem_empty _⟩
  obtain ⟨lives, debts, leaked, owned⟩ := owned_of_reachable reached
  constructor
  case pool =>
    constructor
    case lock => exact rests.lock
    case queue => exact rests.queue some
    case processed => simpa [rests.queue some] using inv.fifo
    case workers => exact asleep
    case pushers => exact rests.pushers
  case handlers => exact fun i => rests.handlers i (Set.notMem_empty i)
  case table =>
    rw [owned.card_idle (by simp [asleep]), rests.waiting some]
    rfl

/-- What a system can answer, one with steady sockets can answer. -/
theorem stuck_of_steady (stuck : ((machine ω base).guarded Steady).Stuck ServerAction.Inner s) :
    (machine ω base).Stuck ServerAction.Inner s := by
  intro a inner
  cases a with
  | call i c r =>
    have refused : s.stepCall i c (refusal c) = none :=
      Machine.guarded_none (stuck (.call i c (refusal c)) trivial) (steady_refusal (s.broken i) c)
    show s.stepCall i c r = none
    unfold stepCall at refused ⊢
    split
    · rfl
    · rename_i c' next handler
      simp only [handler] at refused
      split
      · rename_i same
        rw [dif_pos same, if_pos (possible_refusal _ c)] at refused
        cases refused
      · rfl
  | accept ok => exact absurd inner id
  | pool a => exact Machine.guarded_none (stuck (.pool a) inner) trivial
  | begin i found => exact Machine.guarded_none (stuck (.begin i found) trivial) trivial

/-- **Every connection is served in the end.** From every state reached, a run in which no more
connections are accepted and no wake-up is spurious ends, whatever a system with steady sockets
answers to the handlers; and where it ends, every connection accepted has been handled, all
workers sleep, and no descriptor is open that was not so at the start, but those `ProcessCgi`
has left. -/
theorem server_drains [Nonempty ω] (reached : (machine ω base).ReachableIf Steady s) :
    ((machine ω base).guarded Steady).Drains ServerAction.Inner (Settled base) s := by
  apply Machine.drains_of_rank (WellFounded.prod_lex Nat.lt_wfRel.wf (wellFounded_oneLower (wellFounded_acc Next)))
    (fun s => (s.pool.rank, fun i => (s.handlers i, s.broken i)))
  · intro s a s' (reached : (machine ω base).ReachableIf Steady s) inner taken
    obtain ⟨steady, taken⟩ := Machine.guarded_step.mp taken
    exact ⟨.step reached steady taken, lex_lower inner (ending_of_reachable reached) steady taken⟩
  · intro s reached stuck
    have all : (machine ω base).Reachable s := reached.weaken fun _ _ _ => trivial
    apply Rests.settled all
    apply rests_of_stuck all
    exact fun a inner => stuck_of_steady stuck a inner.1
  · exact reached

theorem server_drains_twoHandlers :
    ∃ s, (machine Bool {0, 1, 2, 3}).exec (new {0, 1, 2, 3}) twoHandlers = some s ∧
      ((machine Bool {0, 1, 2, 3}).guarded Steady).Drains ServerAction.Inner (Settled {0, 1, 2, 3}) s := by
  have begun : ∃ s, (machine Bool {0, 1, 2, 3}).exec (new {0, 1, 2, 3}) twoHandlers = some s := ⟨_, rfl⟩
  obtain ⟨s, ran⟩ := begun
  refine ⟨s, ran, server_drains (Machine.ReachableIf.exec_of_mem .init ?_ ran)⟩
  intro a mem s
  cases a with
  | call i c r => simp [twoHandlers, connecting] at mem
  | accept ok | pool a | begin i found => trivial

end Running

end HttpServer.Server
