import HttpServer.Server.Loop

/-!
# Nobody touches another's descriptors

`Owned` is the invariant of the running server: the descriptor table is what was open at the
start, the connections that wait to be handled, what each handler owns, and what has been left
behind. The table has no number twice, so these are disjoint; and a handler makes its calls on
what it owns.
-/

namespace HttpServer.Server
open Lib Net Protocol Pool

/-! ## The table and the calls -/

/-- A call exchanges what it gives for what it takes. -/
theorem after_val {fds : Finset Nat} {c : Call} {r : c.Answer} (answered : possible fds c r)
    (opened : ∀ d ∈ descriptors.gives c, d ∈ fds) :
    (after fds c r).val + descriptors.gives c = descriptors.takes c r + fds.val := by
  have fresh := lowestUnused_notMem fds
  have pipes (ends : Option (Nat × Nat))
      (made : ends = none ∨ ends = some (lowestUnused fds, lowestUnused (insert (lowestUnused fds) fds))) (rd wr : Nat)
      (here : ends = some (rd, wr)) : (insert wr (insert rd fds)).val = {rd, wr} + fds.val := by
    subst here
    obtain ⟨rfl, rfl⟩ : rd = _ ∧ wr = _ := by simpa using made
    rw [Finset.insert_val_of_notMem (lowestUnused_notMem _), Finset.insert_val_of_notMem fresh, Multiset.cons_swap,
      Multiset.insert_eq_cons, Multiset.cons_add, Multiset.singleton_add]
  cases c with
  | openRead path =>
    change Int at r
    rcases answered with rfl | rfl
    · simp [after, descriptors, named]
    · simp [after, descriptors, Finset.insert_val_of_notMem fresh]
  | pipeInput =>
    cases r with
    | none => exact (add_zero _).trans (zero_add _).symm
    | some ends => exact (add_zero _).trans (pipes _ answered _ _ rfl)
  | pipeOutput =>
    cases r with
    | none => exact (add_zero _).trans (zero_add _).symm
    | some ends => exact (add_zero _).trans (pipes _ answered _ _ rfl)
  | close fd =>
    show (if 0 ≤ fd then fds.erase fd.toNat else fds).val + (named fd : Multiset Nat) = 0 + fds.val
    unfold named
    split
    · rename_i nonneg
      have mem : fd.toNat ∈ fds.val := opened fd.toNat (by simp [descriptors, named, nonneg])
      rw [Finset.erase_val, zero_add, Multiset.coe_singleton, add_comm, Multiset.singleton_add,
        Multiset.cons_erase mem]
    · rw [zero_add]
      exact add_zero _
  | recv _ | stat _ | fork _ _ | write _ _ | read _ | waitpid | send _ _ | sendfile _ _ _ =>
    exact (add_zero _).trans (zero_add _).symm

namespace Running
variable {ω : Type} [Fintype ω] [DecidableEq ω] {base : Finset Nat} {s s' : Running ω}

/-- Every descriptor has one owner: `lives` are those of the handlers, which will be left with
`debts` of them, and `leaked` those that handlers have left behind. -/
structure Owned (base : Finset Nat) (s : Running ω) (lives : ω → Multiset Nat) (debts : ω → Nat)
    (leaked : Multiset Nat) : Prop where
  table : s.fds.val = base.val + s.pool.waiting + total lives id + leaked
  owed : leaked.card + total debts id = s.owed
  keeps : ∀ i, Keeps descriptors Handler.Paid (lives i) (debts i) (s.handlers i)
  idle : ∀ i, (∀ t, s.pool.workers i ≠ .processOn t) → s.handlers i = .ret .returned ∧ lives i = 0

variable {lives : ω → Multiset Nat} {debts : ω → Nat} {leaked : Multiset Nat}

omit [DecidableEq ω] in
theorem Owned.new (base : Finset Nat) : Owned base (new base : Running ω) 0 0 0 := by
  constructor
  case table => simp [Running.new, ThreadPool.waiting, ThreadPool.new, total, PusherPc.waiting, WorkerPc.waiting]
  case owed => simp [Running.new, total]
  case keeps => exact fun _ => .ret rfl
  case idle => exact fun _ _ => ⟨rfl, rfl⟩

omit [DecidableEq ω] in
/-- A handler that has nothing owes nothing. -/
theorem Owned.debt_idle (inv : Owned base s lives debts leaked) {i : ω} (idle : s.handlers i = .ret .returned ∧ lives i = 0) :
    debts i = 0 := by
  have keeps := inv.keeps i
  rw [idle.1, idle.2] at keeps
  exact (Keeps.of_ret keeps).symm

/-- A new connection waits. -/
theorem Owned.accepted {pool : ThreadPool ω Unit Nat} (inv : Owned base s lives debts leaked)
    (pushed : s.pool.step (.call () (lowestUnused s.fds)) = some pool) :
    Owned base { s with fds := insert (lowestUnused s.fds) s.fds, pool := pool } lives debts leaked := by
  constructor
  case table =>
    show (insert (lowestUnused s.fds) s.fds).val = base.val + pool.waiting + total lives id + leaked
    rw [Finset.insert_val_of_notMem (lowestUnused_notMem _), inv.table, ThreadPool.waiting_call pushed,
      ← Multiset.singleton_add, ← Multiset.singleton_add]
    ac_rfl
  case owed => exact inv.owed
  case keeps => exact inv.keeps
  case idle =>
    intro i free
    apply inv.idle i
    intro t pc
    exact free t ((ThreadPool.processOn_other pushed nofun t).mpr pc)

/-- Everything in the pool but the beginning of a task leaves the waiting ones as they are. -/
theorem waiting_pool {a : PoolAction ω Unit Nat} {pool : ThreadPool ω Unit Nat} (old : ∀ p t, a ≠ .call p t)
    (unbegun : ∀ i, a = .worker i → ∀ t, s.pool.workers i ≠ .unlock t) (moved : s.pool.step a = some pool) :
    pool.waiting = s.pool.waiting := by
  cases a with
  | call p t => exact absurd rfl (old p t)
  | pusher p => exact ThreadPool.waiting_pusher moved
  | signal p target => exact ThreadPool.waiting_signal moved
  | wake i => exact ThreadPool.waiting_wake moved
  | worker i =>
    have worked := ThreadPool.waiting_worker moved
    cases pc : s.pool.workers i with
    | unlock t => exact absurd pc (unbegun i rfl t)
    | _ => simpa [pc, WorkerPc.waiting] using worked

/-- What a handler that has returned still has is left behind. -/
theorem Owned.pool {a : PoolAction ω Unit Nat} {pool : ThreadPool ω Unit Nat} (inv : Owned base s lives debts leaked)
    (old : ∀ p t, a ≠ .call p t)
    (turn : ∀ i, a = .worker i → (∀ t, s.pool.workers i ≠ .unlock t) ∧
      ∀ t, s.pool.workers i = .processOn t → s.handlers i = .ret .returned)
    (moved : s.pool.step a = some pool) :
    ∃ lives debts leaked, Owned base { s with pool := pool } lives debts leaked := by
  have waiting := waiting_pool old (fun i own => (turn i own).1) moved
  by_cases done : ∃ i t, a = .worker i ∧ s.pool.workers i = .processOn t
  · obtain ⟨i, t, rfl, pc⟩ := done
    have returned := (turn i rfl).2 t pc
    have keeps := inv.keeps i
    rw [returned] at keeps
    have paid : (lives i).card = debts i := Keeps.of_ret keeps
    have left := total_update lives id i 0
    have settled := total_update debts id i 0
    refine ⟨Function.update lives i 0, Function.update debts i 0, leaked + lives i, ?_⟩
    constructor
    case table =>
      show s.fds.val = base.val + pool.waiting + total (Function.update lives i 0) id + (leaked + lives i)
      simp only [id, add_zero] at left
      rw [inv.table, waiting, ← left]
      ac_rfl
    case owed =>
      show (leaked + lives i).card + total (Function.update debts i 0) id = s.owed
      simp only [id, add_zero] at settled
      rw [Multiset.card_add, paid, ← inv.owed, ← settled]
      omega
    case keeps =>
      intro j
      by_cases same : j = i
      · subst same
        simpa [returned] using Keeps.ret rfl
      · simpa [same] using inv.keeps j
    case idle =>
      intro j free
      by_cases same : j = i
      · subst same
        exact ⟨returned, Function.update_self ..⟩
      · have still : ∀ t, s.pool.workers j ≠ .processOn t := fun t pc =>
          free t ((ThreadPool.processOn_other moved (fun own => same (PoolAction.worker.inj own).symm) t).mpr pc)
        simpa [same] using inv.idle j still
  · refine ⟨lives, debts, leaked, ?_⟩
    constructor
    case table =>
      show s.fds.val = base.val + pool.waiting + total lives id + leaked
      rw [inv.table, waiting]
    case owed => exact inv.owed
    case keeps => exact inv.keeps
    case idle =>
      intro j free
      apply inv.idle j
      intro t pc
      by_cases own : a = .worker j
      · exact done ⟨j, t, own, pc⟩
      · exact free t ((ThreadPool.processOn_other moved own t).mpr pc)

/-- A worker takes its connection into the handler. -/
theorem Owned.begun {i : ω} {sock : Nat} {pool : ThreadPool ω Unit Nat} (inv : Owned base s lives debts leaked)
    (found : Circumstances) (pc : s.pool.workers i = .unlock sock) (worked : s.pool.step (.worker i) = some pool) :
    Owned base (s.afterBegin i found sock pool) (Function.update lives i {sock}) debts leaked := by
  have idle := inv.idle i (by simp [pc])
  have waiting := ThreadPool.waiting_worker worked
  have taken : total (Function.update lives i {sock}) id = total lives id + ({sock} : Multiset Nat) := by
    simpa [idle.2] using total_update lives id i {sock}
  simp only [pc, WorkerPc.waiting] at waiting
  constructor
  case table =>
    show s.fds.val = base.val + pool.waiting + total (Function.update lives i {sock}) id + leaked
    rw [inv.table, taken, ← waiting]
    ac_rfl
  case owed => exact inv.owed
  case keeps =>
    intro j
    by_cases same : j = i
    · subst same
      simpa [afterBegin, inv.debt_idle idle] using keeps_handlerRequest found sock
    · simpa [afterBegin, same] using inv.keeps j
  case idle =>
    intro j free
    by_cases same : j = i
    · subst same
      exact absurd ((ThreadPool.processOn_own worked sock).mpr pc) (free sock)
    · have still : ∀ t, s.pool.workers j ≠ .processOn t := fun t pc =>
        free t ((ThreadPool.processOn_other worked (fun own => same (PoolAction.worker.inj own).symm) t).mpr pc)
      simpa [afterBegin, same] using inv.idle j still

omit [DecidableEq ω] in
/-- What a handler owns is open. -/
theorem Owned.opened (inv : Owned base s lives debts leaked) {i : ω} {d : Nat} (own : d ∈ lives i) : d ∈ s.fds := by
  have mem : d ∈ total lives id := by
    unfold total
    exact Multiset.mem_sum.mpr ⟨i, Finset.mem_univ i, own⟩
  rw [← Finset.mem_val, inv.table]
  simp [mem]

/-- A call moves descriptors between its handler and the table. -/
theorem Owned.called {i : ω} {c : Call} {r : c.Answer} {next : c.Answer → Handler Stage}
    (inv : Owned base s lives debts leaked) (handler : s.handlers i = .call c next) (answered : possible s.fds c r) :
    ∃ lives debts, Owned base (s.afterCall i c r next) lives debts leaked := by
  have keeps := inv.keeps i
  rw [handler] at keeps
  obtain ⟨live, later, moved⟩ := keeps.step r
  have table := after_val answered fun d given => inv.opened (keeps.owns (.inr given))
  have exchange := total_update lives id i live
  have owing := total_update debts id i (debts i + descriptors.owes c r)
  simp only [id] at exchange owing
  refine ⟨Function.update lives i live, Function.update debts i (debts i + descriptors.owes c r), ?_⟩
  constructor
  case table =>
    show (after s.fds c r).val = base.val + s.pool.waiting + total (Function.update lives i live) id + leaked
    -- both sides, with what the call gives and what the handler had
    apply add_right_cancel (b := descriptors.gives c + lives i)
    calc (after s.fds c r).val + (descriptors.gives c + lives i)
        = (after s.fds c r).val + descriptors.gives c + lives i := by ac_rfl
      _ = base.val + s.pool.waiting + leaked + total lives id + (descriptors.takes c r + lives i) := by
        rw [table, inv.table]
        ac_rfl
      _ = base.val + s.pool.waiting + leaked + (total lives id + live) + descriptors.gives c := by
        rw [← moved]
        ac_rfl
      _ = base.val + s.pool.waiting + total (Function.update lives i live) id + leaked +
          (descriptors.gives c + lives i) := by
        rw [← exchange]
        ac_rfl
  case owed =>
    show leaked.card + total (Function.update debts i (debts i + descriptors.owes c r)) id =
      s.owed + descriptors.owes c r
    rw [← inv.owed]
    omega
  case keeps =>
    intro j
    by_cases same : j = i
    · subst same
      simpa [afterCall] using later.resume Handler.keeps_goOn
    · simpa [afterCall, same] using inv.keeps j
  case idle =>
    intro j free
    by_cases same : j = i
    · subst same
      have returned := (inv.idle j free).1
      rw [handler] at returned
      cases returned
    · simpa [afterCall, same] using inv.idle j free

theorem owned_step {a : ServerAction ω} (inv : Owned base s lives debts leaked) (taken : s.step a = some s') :
    ∃ lives debts leaked, Owned base s' lives debts leaked := by
  cases turn_of_step taken with
  | refused same => exact ⟨lives, debts, leaked, same ▸ inv⟩
  | accepted pool pushed same => exact ⟨lives, debts, leaked, same ▸ inv.accepted pushed⟩
  | pool a pool old turn moved same => exact same ▸ inv.pool old turn moved
  | begun i found sock pool pc worked same => exact ⟨_, debts, leaked, same ▸ inv.begun found pc worked⟩
  | called i c r next handler answered same =>
    obtain ⟨lives, debts, inv⟩ := inv.called handler answered
    exact ⟨lives, debts, leaked, same ▸ inv⟩

theorem owned_of_reachable (reached : (machine ω base).Reachable s) :
    ∃ lives debts leaked, Owned base s lives debts leaked := by
  refine reached.invariant ?_ ?_
  · exact ⟨0, 0, 0, .new base⟩
  · rintro s a s' ⟨lives, debts, leaked, inv⟩ _ taken
    exact owned_step inv taken

/-! ## What follows -/

/-- What two handlers own is apart. -/
theorem Owned.apart (inv : Owned base s lives debts leaked) {i j : ω} (other : j ≠ i) {d : Nat} (own : d ∈ lives i) :
    d ∉ lives j := by
  have both : lives i + lives j ≤ s.fds.val := by
    have rest : lives j ≤ ∑ k ∈ Finset.univ.erase i, lives k :=
      Finset.single_le_sum (fun _ _ => zero_le) (Finset.mem_erase.mpr ⟨other, Finset.mem_univ j⟩)
    have all : total lives id = lives i + ∑ k ∈ Finset.univ.erase i, lives k :=
      (Finset.add_sum_erase _ _ (Finset.mem_univ i)).symm
    calc lives i + lives j ≤ total lives id := all ▸ add_le_add le_rfl rest
      _ ≤ base.val + s.pool.waiting + total lives id := le_add_self
      _ ≤ s.fds.val := inv.table ▸ le_self_add
  have apart := (Multiset.nodup_add.mp (Multiset.nodup_of_le both s.fds.nodup)).2.2
  exact Multiset.disjoint_left.mp apart own

omit [DecidableEq ω] in
/-- What a handler owns has neither been open from the start nor does it wait. -/
theorem Owned.foreign (inv : Owned base s lives debts leaked) {i : ω} {d : Nat} (own : d ∈ lives i) :
    d ∉ base ∧ d ∉ s.pool.waiting := by
  have mem : d ∈ total lives id := Multiset.mem_sum.mpr ⟨i, Finset.mem_univ i, own⟩
  have nodup := s.fds.nodup
  rw [inv.table] at nodup
  have apart := (Multiset.nodup_add.mp (Multiset.nodup_add.mp nodup).1).2.2
  have absent := Multiset.disjoint_right.mp apart mem
  simpa using absent

/-- **Connections do not touch each other's descriptors.** In every state the server reaches,
the descriptors the next call of a handler reads, writes, sends on or closes are open; none of
them was open when the server started, none is the connection of a waiting task, and none is
touched by the next call of another handler. -/
theorem server_exclusive (reached : (machine ω base).Reachable s) {i : ω} {c : Call} {next : c.Answer → Handler Stage}
    (handler : s.handlers i = .call c next) {d : Nat} (touched : d ∈ descriptors.uses c ∨ d ∈ descriptors.gives c) :
    d ∈ s.fds ∧ d ∉ base ∧ d ∉ s.pool.waiting ∧
      ∀ j c' next', j ≠ i → s.handlers j = .call c' next' →
        d ∉ descriptors.uses c' ∧ d ∉ descriptors.gives c' := by
  obtain ⟨lives, debts, leaked, inv⟩ := owned_of_reachable reached
  have keeps := inv.keeps i
  rw [handler] at keeps
  have own := keeps.owns touched
  refine ⟨inv.opened own, (inv.foreign own).1, (inv.foreign own).2, ?_⟩
  intro j c' next' other handler'
  have keeps' := inv.keeps j
  rw [handler'] at keeps'
  constructor
  · exact fun used => inv.apart other own (keeps'.owns (.inl used))
  · exact fun given => inv.apart other own (keeps'.owns (.inr given))

/-- Two connections are accepted, and two workers begin to handle them. -/
def twoHandlers : List (ServerAction Bool) :=
  connecting true ++ .begin true ⟨0, ⟨0, 0⟩⟩ :: (connecting false ++ [.begin false ⟨0, ⟨0, 0⟩⟩])

theorem server_exclusive_twoHandlers :
    ∃ s next next', (machine Bool {0, 1, 2, 3}).exec (new {0, 1, 2, 3}) twoHandlers = some s ∧
      s.handlers true = .call (.recv (EndPoint.new 4 0)) next ∧ s.handlers false = .call (.recv (EndPoint.new 5 0)) next' ∧
      4 ∈ s.fds ∧ 4 ∉ ({0, 1, 2, 3} : Finset Nat) ∧ 4 ∉ s.pool.waiting ∧
      4 ∉ descriptors.uses (.recv (EndPoint.new 5 0)) := by
  have begun : ∃ s next next', (machine Bool {0, 1, 2, 3}).exec (new {0, 1, 2, 3}) twoHandlers = some s ∧
      s.handlers true = .call (.recv (EndPoint.new 4 0)) next ∧
      s.handlers false = .call (.recv (EndPoint.new 5 0)) next' := ⟨_, _, _, rfl, rfl, rfl⟩
  obtain ⟨s, next, next', ran, handler, handler'⟩ := begun
  obtain ⟨opened, foreign, unqueued, apart⟩ := server_exclusive (Machine.Reachable.exec .init ran) handler
    (.inl (by decide : 4 ∈ descriptors.uses (.recv (EndPoint.new 4 0))))
  exact ⟨s, next, next', ran, handler, handler', opened, foreign, unqueued, (apart false _ next' nofun handler').1⟩

omit [DecidableEq ω] in
/-- With no worker at a task, only what waits and what is owed is open beside the server's own. -/
theorem Owned.card_idle (inv : Owned base s lives debts leaked) (idle : ∀ i t, s.pool.workers i ≠ .processOn t) :
    s.fds.card = base.card + s.pool.waiting.card + s.owed := by
  have bare : total lives id = 0 := Finset.sum_eq_zero fun i _ => (inv.idle i (idle i)).2
  have free : total debts id = 0 := Finset.sum_eq_zero fun i _ => inv.debt_idle (inv.idle i (idle i))
  have table := congrArg Multiset.card inv.table
  rw [bare, add_zero, Multiset.card_add, Multiset.card_add] at table
  rw [← inv.owed, free, add_zero]
  exact table

/-- **The descriptors of the server are accounted for.** What was open at the start stays open,
and so do the connections that wait, each under a number of its own. Whenever no worker is at a
task, nothing else is open but what `ProcessCgi` has left: two ends for every second `pipe` that
failed and four for every `fork` that failed. -/
theorem server_accounts (reached : (machine ω base).Reachable s) :
    base.val + s.pool.waiting ≤ s.fds.val ∧
    ((∀ i t, s.pool.workers i ≠ .processOn t) → s.fds.card = base.card + s.pool.waiting.card + s.owed) := by
  obtain ⟨lives, debts, leaked, inv⟩ := owned_of_reachable reached
  constructor
  · rw [inv.table, add_assoc (base.val + _)]
    exact le_self_add
  · exact inv.card_idle

/-- A program is asked for, and `fork` fails: the four ends of its pipes stay open. -/
def forkFailed : List (ServerAction Unit) :=
  [.begin () ⟨0, ⟨0, 0⟩⟩,
    .call () (.recv (EndPoint.new 4 0)) (⟨ascii "GET /a?b HTTP/1.0\r\n\r\n", .closed⟩ : Sock),
    .call () (.stat (ascii "wwwroot/a")) (some ⟨0o100755, 10⟩ : Option Stat),
    .call () .pipeInput (some (5, 6) : Option (Nat × Nat)), .call () .pipeOutput (some (7, 8) : Option (Nat × Nat)),
    .call () (.fork (ascii "wwwroot/a") [ascii "METHOD=GET", ascii "QUERY_STRING=b"]) false,
    .call () (.openRead errorPage) (-1 : Int), .call () (.send 4 (ascii "HTTP/1.0 404 Not Found\r\n")) (24 : Int),
    .call () (.send 4 (ascii "\r\n")) (2 : Int), .call () (.sendfile 4 (-1) 10) (), .call () (.close (-1)) (),
    .call () (.close 4) (), .pool (.worker ())]

theorem server_accounts_forkFailed :
    ∃ s, (machine Unit {0, 1, 2, 3}).exec (new {0, 1, 2, 3}) (connecting () ++ forkFailed) = some s ∧ s.owed = 4 ∧
      s.fds.card = 4 + s.pool.waiting.card + s.owed := by
  have ended : ((machine Unit {0, 1, 2, 3}).exec (new {0, 1, 2, 3}) (connecting () ++ forkFailed)).map (fun s =>
      (s.owed, s.pool.workers ())) = some (4, .lock) := by decide +kernel
  obtain ⟨s, ran, ends⟩ := Option.map_eq_some_iff.mp ended
  obtain ⟨owed, pc⟩ := Prod.mk.inj ends
  refine ⟨s, ran, owed, (server_accounts (Machine.Reachable.exec .init ran)).2 ?_⟩
  rintro ⟨⟩ t
  simp [pc]

end Running

end HttpServer.Server
