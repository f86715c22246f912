import HttpServer.Lib.LazyInstance

/-!
# The two singletons

`ThreadPool::getinstance` and `TcpServer::getinstance`, called by any number of threads. They
share one algorithm, and differ in what they construct and in what the system is asked:
`pthread_create` for each worker of the pool; `socket`, `setsockopt`, `bind` and `listen` for the
server, which ends the process where one of them fails.
-/

namespace HttpServer.Server
open Lib

/-! ## The pool -/

def NUM : Nat := 6

/-- The pool with the worker threads it has created. -/
structure PoolObject where
  num : Nat
  threads : Nat
  deriving DecidableEq, Repr

/-- A turn of the loop of `InitThreadPool`; `created` says that `pthread_create` has returned 0. -/
def initThreadPool (p : PoolObject) (i : Nat) (created : Bool) : PoolObject × Outcome Nat :=
  if created then
    ({ p with threads := p.threads + 1 }, if i + 1 < p.num then .more (i + 1) else .done)
  else (p, .done)

def poolRecipe (ι : Type*) : Recipe ι PoolObject Nat Bool := ⟨fun _ => ⟨NUM, 0⟩, 0, initThreadPool⟩

/-- How far the creation of the workers has come: it ends with the last or with the first that fails. -/
inductive Creates : List Bool → PoolObject → Outcome Nat → Prop where
  | going {n : Nat} (few : n < NUM) : Creates (.replicate n true) ⟨NUM, n⟩ (.more n)
  | full : Creates (.replicate NUM true) ⟨NUM, NUM⟩ .done
  | failed {n : Nat} (few : n < NUM) : Creates (.replicate n true ++ [false]) ⟨NUM, n⟩ .done

theorem creates_of_replay {ι : Type*} {i : ι} {answers : List Bool} {p : PoolObject} {out : Outcome Nat}
    (replayed : (poolRecipe ι).Replay i answers p out) : Creates answers p out := by
  induction replayed with
  | start => exact .going (n := 0) (by decide)
  | @answer answers p k created _ ih =>
    cases ih with
    | going few =>
      cases created with
      | true =>
        simp only [poolRecipe, initThreadPool, if_true]
        rw [← List.replicate_succ']
        by_cases more : k + 1 < NUM
        · rw [if_pos more]
          exact .going more
        · rw [if_neg more]
          have last : k + 1 = NUM := by omega
          rw [last]
          exact .full
      | false => exact .failed few

theorem Creates.num_eq {answers : List Bool} {p : PoolObject} {out : Outcome Nat} (creates : Creates answers p out) :
    p.num = NUM := by
  cases creates <;> rfl

/-- The threads of a pool are the calls of `pthread_create` that have succeeded. -/
theorem Creates.threads {answers : List Bool} {p : PoolObject} {out : Outcome Nat} (creates : Creates answers p out) :
    p.threads ≤ NUM ∧ p.threads = answers.count true ∧
      (out = .done → p.threads = NUM ∨ answers.getLast? = some false) := by
  cases creates with
  | going few => exact ⟨few.le, by simp, fun done => by cases done⟩
  | full => exact ⟨le_rfl, by simp, fun _ => .inl rfl⟩
  | failed few => exact ⟨few.le, by simp, fun _ => .inr (by simp)⟩

section Pool
variable {ι : Type*} [DecidableEq ι] {s : LazyInstance ι PoolObject Nat Bool}

/-- The pool never ends the process. -/
theorem pool_alive (reached : (LazyInstance.machine (poolRecipe ι)).Reachable s) : s.exited = none := by
  cases ended : s.exited with
  | none => rfl
  | some code =>
    obtain ⟨maker, p, -, replayed⟩ := LazyInstance.of_exited reached ended
    have creates := creates_of_replay replayed
    generalize s.answers = answers at creates
    cases creates

omit [DecidableEq ι] in
theorem poolRecipe_lowers : (poolRecipe ι).Lowers fun k => NUM - k := by
  intro i answers p k replayed created k' more
  have creates := creates_of_replay replayed
  generalize answers = answers at creates
  cases creates with
  | going few =>
    cases created with
    | true =>
      simp only [poolRecipe, initThreadPool, if_true] at more
      split_ifs at more
      cases more
      show NUM - (k + 1) < NUM - k
      omega
    | false => cases more

/-- **One pool.** However many threads call `ThreadPool::getinstance`, one pool is made, and at every moment the
calls of `pthread_create` so far are those of one run of `InitThreadPool` on it; so it never has more than `NUM`
workers. Every call returns it and none waits for ever. A call that has been through the mutex finds all its
workers created, unless `pthread_create` has failed. -/
theorem getinstance_pool [Fintype ι] (reached : (LazyInstance.machine (poolRecipe ι)).Reachable s) :
    s.objects.length ≤ 1 ∧ (s.objects = [] → s.answers = []) ∧
      (∀ p ∈ s.objects, p.num = NUM ∧ p.threads ≤ NUM ∧ p.threads = s.answers.count true ∧
        ∃ out, Creates s.answers p out) ∧
      (∀ i x locked, s.callers i = .returned x locked →
        x = some 0 ∧ ∃ n ≤ NUM, s.objects = [⟨NUM, n⟩] ∧ n = s.answers.count true ∧
          (locked = true → n = NUM ∨ s.answers.getLast? = some false)) ∧
      (LazyInstance.machine (poolRecipe ι)).Drains (fun _ => True)
        (fun s => ∀ i, ∃ locked, s.callers i = .returned (some 0) locked) s := by
  refine ⟨LazyInstance.one_object reached, LazyInstance.answers_eq_nil reached, ?_, ?_, ?_⟩
  · intro p mem
    obtain ⟨maker, out, replayed⟩ := LazyInstance.replay_of_mem reached mem
    have creates := creates_of_replay replayed
    obtain ⟨few, count, -⟩ := creates.threads
    exact ⟨creates.num_eq, few, count, out, creates⟩
  · intro i x locked returned
    obtain ⟨same, maker, p, out, objects, replayed, done⟩ :=
      LazyInstance.of_returned reached (pool_alive reached) returned
    have creates := creates_of_replay replayed
    obtain ⟨few, count, whole⟩ := creates.threads
    refine ⟨same, p.threads, few, ?_, count, fun through => whole (done through)⟩
    rw [objects, ← creates.num_eq]
  · obtain ⟨ends, settles⟩ := LazyInstance.drains poolRecipe_lowers reached
    refine ⟨ends, ?_⟩
    intro as s' permitted ran stuck
    apply (settles as s' permitted ran stuck).resolve_left
    exact not_not.mpr (pool_alive (reached.exec ran))

end Pool

/-- One thread makes the pool, and while it creates the workers another takes the pointer without the mutex. -/
def overtaken : List (GetAction Bool Bool) :=
  [.go false, .go false, .go false, .go false, .go false, .answer false true, .go true, .go true]

/-- The second thread gets the pool with one worker; the first goes on, and so do all calls. -/
theorem getinstance_pool_overtaken :
    ∃ s, (LazyInstance.machine (poolRecipe Bool)).exec .new overtaken = some s ∧
      s.callers true = .returned (some 0) false ∧ s.objects = [⟨NUM, 1⟩] ∧ s.objects.length ≤ 1 ∧
      (∀ p ∈ s.objects, p.threads ≤ NUM ∧ p.threads = s.answers.count true ∧ ∃ out, Creates s.answers p out) ∧
      (LazyInstance.machine (poolRecipe Bool)).Drains (fun _ => True)
        (fun s => ∀ i, ∃ locked, s.callers i = .returned (some 0) locked) s := by
  have run : ∃ s, (LazyInstance.machine (poolRecipe Bool)).exec .new overtaken = some s ∧
      s.callers true = .returned (some 0) false ∧ s.objects = [⟨NUM, 1⟩] := ⟨_, rfl, rfl, rfl⟩
  obtain ⟨s, ran, returned, objects⟩ := run
  obtain ⟨one, -, once, -, drains⟩ := getinstance_pool (Machine.Reachable.exec .init ran)
  exact ⟨s, ran, returned, objects, one, fun p mem => (once p mem).2, drains⟩

/-! ## The server -/

def BACKLOG : Nat := 5

/-- The server, and what its socket has been bound to. -/
structure TcpServer where
  port : Int
  listenSock : Int
  bound : Option Nat
  backlog : Option Nat
  deriving DecidableEq, Repr

/-- `htons`: the port that an `int` names in sixteen bits. -/
def htons (port : Int) : Nat := (port % 2 ^ 16).toNat

/-- The calls of `Socket`, `Bind` and `Listen`, in their order. -/
inductive InitPc where
  | socket
  | setsockopt
  | bind
  | listen
  deriving DecidableEq, Repr

/-- What `InitServer` does with the result of each call. -/
def initServer (t : TcpServer) : InitPc → Int → TcpServer × Outcome InitPc
  | .socket, r => ({ t with listenSock := r }, if r < 0 then .exit 1 else .more .setsockopt)
  | .setsockopt, _ => (t, .more .bind)
  | .bind, r => if r < 0 then (t, .exit 2) else ({ t with bound := some (htons t.port) }, .more .listen)
  | .listen, r => if r < 0 then (t, .exit 3) else ({ t with backlog := some BACKLOG }, .done)

/-- Each caller comes with its own port. -/
def tcpRecipe {ι : Type*} (port : ι → Int) : Recipe ι TcpServer InitPc Int :=
  ⟨fun i => ⟨port i, -1, none, none⟩, .socket, initServer⟩

/-- How far `InitServer` has come. -/
inductive Listens (port : Int) : List Int → TcpServer → Outcome InitPc → Prop where
  | start : Listens port [] ⟨port, -1, none, none⟩ (.more .socket)
  | noSocket {r : Int} (failed : r < 0) : Listens port [r] ⟨port, r, none, none⟩ (.exit 1)
  | socket {r : Int} (ok : 0 ≤ r) : Listens port [r] ⟨port, r, none, none⟩ (.more .setsockopt)
  | reuse {r o : Int} (ok : 0 ≤ r) : Listens port [r, o] ⟨port, r, none, none⟩ (.more .bind)
  | noBind {r o b : Int} (ok : 0 ≤ r) (failed : b < 0) : Listens port [r, o, b] ⟨port, r, none, none⟩ (.exit 2)
  | bind {r o b : Int} (ok : 0 ≤ r) (bound : 0 ≤ b) :
      Listens port [r, o, b] ⟨port, r, some (htons port), none⟩ (.more .listen)
  | noListen {r o b l : Int} (ok : 0 ≤ r) (bound : 0 ≤ b) (failed : l < 0) :
      Listens port [r, o, b, l] ⟨port, r, some (htons port), none⟩ (.exit 3)
  | listen {r o b l : Int} (ok : 0 ≤ r) (bound : 0 ≤ b) (listening : 0 ≤ l) :
      Listens port [r, o, b, l] ⟨port, r, some (htons port), some BACKLOG⟩ .done

section Tcp
variable {ι : Type*} {port : ι → Int} {s : LazyInstance ι TcpServer InitPc Int}

theorem listens_of_replay {i : ι} {answers : List Int} {t : TcpServer} {out : Outcome InitPc}
    (replayed : (tcpRecipe port).Replay i answers t out) : Listens (port i) answers t out := by
  induction replayed with
  | start => exact .start
  | answer r _ ih =>
    simp only [tcpRecipe]
    cases ih with
    | start =>
      simp only [initServer, List.nil_append]
      split
      · rename_i failed
        exact .noSocket failed
      · rename_i ok
        exact .socket (not_lt.mp ok)
    | socket ok => exact .reuse ok
    | reuse ok =>
      simp only [initServer, List.cons_append, List.nil_append]
      split
      · rename_i failed
        exact .noBind ok failed
      · rename_i bound
        exact .bind ok (not_lt.mp bound)
    | bind ok bound =>
      simp only [initServer, List.cons_append, List.nil_append]
      split
      · rename_i failed
        exact .noListen ok bound failed
      · rename_i listening
        exact .listen ok bound (not_lt.mp listening)

/-- The calls `InitServer` has still to make. -/
def InitPc.left : InitPc → Nat
  | .socket => 3
  | .setsockopt => 2
  | .bind => 1
  | .listen => 0

theorem tcpRecipe_lowers : (tcpRecipe port).Lowers InitPc.left := by
  rintro i answers t pc - r pc' more
  cases pc with
  | socket =>
    simp only [tcpRecipe, initServer] at more
    split_ifs at more
    cases more
    decide
  | setsockopt =>
    cases more
    decide
  | bind =>
    simp only [tcpRecipe, initServer] at more
    split_ifs at more
    cases more
    decide
  | listen =>
    simp only [tcpRecipe, initServer] at more
    split_ifs at more

/-- The last answer is the failure of the call that the exit code stands for. -/
def Refused (answers : List Int) (code : Nat) : Prop :=
  (∃ r ∈ answers.getLast?, r < 0) ∧
    (code = 1 ∧ answers.length = 1 ∨ code = 2 ∧ answers.length = 3 ∨ code = 3 ∧ answers.length = 4)

theorem Listens.refused {p : Int} {answers : List Int} {t : TcpServer} {code : Nat}
    (listens : Listens p answers t (.exit code)) : Refused answers code := by
  cases listens with
  | noSocket failed => exact ⟨⟨_, rfl, failed⟩, .inl ⟨rfl, rfl⟩⟩
  | noBind _ failed => exact ⟨⟨_, rfl, failed⟩, .inr (.inl ⟨rfl, rfl⟩)⟩
  | noListen _ _ failed => exact ⟨⟨_, rfl, failed⟩, .inr (.inr ⟨rfl, rfl⟩)⟩

theorem Listens.port_eq {p : Int} {answers : List Int} {t : TcpServer} {out : Outcome InitPc}
    (listens : Listens p answers t out) : t.port = p := by
  cases listens <;> rfl

variable [DecidableEq ι]

/-- **One listening socket.** However many threads call `TcpServer::getinstance`, with whatever ports, one
server is made, for the port of one of them, and all get it. A call that has been through the mutex finds it
listening. No call waits for ever, and the process ends only where `socket`, `bind` or `listen` has failed,
with the code of that call. -/
theorem getinstance_tcp [Fintype ι] (reached : (LazyInstance.machine (tcpRecipe port)).Reachable s) :
    s.objects.length ≤ 1 ∧
      (∀ i x locked, s.exited = none → s.callers i = .returned x locked →
        x = some 0 ∧ ∃ maker t, s.objects = [t] ∧ t.port = port maker ∧
          (locked = true → 0 ≤ t.listenSock ∧ t.bound = some (htons (port maker)) ∧ t.backlog = some BACKLOG)) ∧
      (∀ code, s.exited = some code → Refused s.answers code) ∧
      (LazyInstance.machine (tcpRecipe port)).Drains (fun _ => True) LazyInstance.Settled s := by
  refine ⟨LazyInstance.one_object reached, ?_, ?_, LazyInstance.drains tcpRecipe_lowers reached⟩
  · intro i x locked alive returned
    obtain ⟨same, maker, t, out, objects, replayed, done⟩ := LazyInstance.of_returned reached alive returned
    have listens := listens_of_replay replayed
    refine ⟨same, maker, t, objects, listens.port_eq, ?_⟩
    intro through
    cases done through
    generalize s.answers = answers at listens
    cases listens with
    | listen ok => exact ⟨ok, rfl, rfl⟩
  · intro code ended
    obtain ⟨maker, t, -, replayed⟩ := LazyInstance.of_exited reached ended
    exact (listens_of_replay replayed).refused

end Tcp

/-- The ports of two threads. -/
def portOf (second : Bool) : Int := if second then 80 else 65536 + 8081

/-- The first of them makes the server, the second gets it. -/
def twoPorts : List (GetAction Bool Int) :=
  [.go false, .go true, .go false, .go false, .go false, .go false, .answer false 3, .answer false 0, .answer false 0,
    .answer false 0, .go false, .go true, .go true, .go true, .go true]

theorem getinstance_tcp_twoPorts :
    ∃ s t, (LazyInstance.machine (tcpRecipe portOf)).exec .new twoPorts = some s ∧
      s.callers true = .returned (some 0) true ∧ s.objects = [t] ∧ t.backlog = some BACKLOG := by
  have run : ∃ s, (LazyInstance.machine (tcpRecipe portOf)).exec .new twoPorts = some s ∧
      s.callers true = .returned (some 0) true ∧ s.exited = none := ⟨_, rfl, rfl, rfl⟩
  obtain ⟨s, ran, returned, alive⟩ := run
  obtain ⟨-, maker, t, objects, -, listening⟩ :=
    (getinstance_tcp (Machine.Reachable.exec .init ran)).2.1 true _ _ alive returned
  exact ⟨s, t, ran, returned, objects, (listening rfl).2.2⟩

end HttpServer.Server
