import HttpServer.Pool.Draining
import HttpServer.Pool.Tasks
import HttpServer.Server.Ownership

/-!
# The running server

`HttpServer::Loop`, the thread pool it pushes its connections to and the handlers the workers
run, all on the descriptor table of one process. The loop is the pool's only caller. `begin` is
the step of a worker out of its critical section and into `HandlerRequest`; the calls of the
handlers then interleave with everything else, and the worker comes back for the next task when
its handler has returned. The numbers of new descriptors are the lowest unused ones at the time.
-/

namespace HttpServer.Server
open Lib Protocol Pool

/-- The descriptor table, the pool and the handlers, how many descriptors `ProcessCgi` has been
made to leave open, and whether a `send` of the handler has failed. -/
structure Running (ω : Type) where
  fds : Finset Nat
  pool : ThreadPool ω Unit Nat
  handlers : ω → Handler Stage
  owed : Nat
  broken : ω → Bool

/-- What happens next. `accept` may fail; a call comes with its answer. -/
inductive ServerAction (ω : Type) where
  | accept (ok : Bool)
  | pool (a : PoolAction ω Unit Nat)
  | begin (i : ω) (found : Circumstances)
  | call (i : ω) (c : Call) (r : c.Answer)

/-- The system can answer so. -/
def possible (fds : Finset Nat) : (c : Call) → c.Answer → Prop
  | .openRead _, fd => fd = (-1 : Int) ∨ fd = (lowestUnused fds : Int)
  | .pipeInput, ends => ends = none ∨ ends = some (lowestUnused fds, lowestUnused (insert (lowestUnused fds) fds))
  | .pipeOutput, ends => ends = none ∨ ends = some (lowestUnused fds, lowestUnused (insert (lowestUnused fds) fds))
  | _, _ => True

instance (fds : Finset Nat) : (c : Call) → (r : c.Answer) → Decidable (possible fds c r)
  | .openRead _, (fd : Int) => inferInstanceAs (Decidable (fd = (-1 : Int) ∨ fd = (lowestUnused fds : Int)))
  | .pipeInput, (ends : Option (Nat × Nat)) => inferInstanceAs (Decidable (ends = none ∨ ends = some _))
  | .pipeOutput, (ends : Option (Nat × Nat)) => inferInstanceAs (Decidable (ends = none ∨ ends = some _))
  | .recv _, _ | .stat _, _ | .fork _ _, _ | .write _ _, _ | .read _, _ | .waitpid, _ | .send _ _, _
  | .sendfile _ _ _, _ | .close _, _ => .isTrue trivial

/-- A `send` fails. -/
def failed : (c : Call) → c.Answer → Bool
  | .send _ _, (size : Int) => size < 0
  | _, _ => false

/-- The table after a call. -/
def after (fds : Finset Nat) : (c : Call) → c.Answer → Finset Nat
  | .openRead _, (fd : Int) => if 0 ≤ fd then insert fd.toNat fds else fds
  | .pipeInput, some ends => insert ends.2 (insert ends.1 fds)
  | .pipeOutput, some ends => insert ends.2 (insert ends.1 fds)
  | .close fd, _ => if 0 ≤ fd then fds.erase fd.toNat else fds
  | _, _ => fds

namespace Running
variable {ω : Type} [Fintype ω] [DecidableEq ω]

/-- A server that has nothing open but `base`, among it its listening socket. -/
def new (base : Finset Nat) : Running ω where
  fds := base
  pool := ThreadPool.new
  handlers := fun _ => .ret .returned
  owed := 0
  broken := fun _ => false

/-- A turn of the loop: a connection is accepted and its task handed to `PushTask`. -/
def stepAccept (s : Running ω) (ok : Bool) : Option (Running ω) :=
  if ok then
    (s.pool.step (.call () (lowestUnused s.fds))).map fun pool =>
      { s with fds := insert (lowestUnused s.fds) s.fds, pool := pool }
  else if s.pool.pushers () = .idle then some s else none

/-- A step of the pool. A worker with a task goes on by `begin`, or when its handler is done. -/
def stepPool (s : Running ω) : PoolAction ω Unit Nat → Option (Running ω)
  | .call _ _ => none
  | .worker i =>
    match s.pool.workers i, s.handlers i with
    | .unlock _, _ => none
    | .processOn _, .call _ _ | .processOn _, .ret (.sending _ _ _) => none
    | _, _ => (s.pool.step (.worker i)).map fun pool => { s with pool := pool }
  | a => (s.pool.step a).map fun pool => { s with pool := pool }

/-- Worker `i`, in a pool that has let it go, has begun to handle `sock`. -/
def afterBegin (s : Running ω) (i : ω) (found : Circumstances) (sock : Nat) (pool : ThreadPool ω Unit Nat) :
    Running ω :=
  { s with
    pool := pool
    handlers := Function.update s.handlers i (handlerRequest found sock)
    broken := Function.update s.broken i false }

/-- Worker `i` begins to handle the connection it has popped. -/
def stepBegin (s : Running ω) (i : ω) (found : Circumstances) : Option (Running ω) :=
  match s.pool.workers i with
  | .unlock sock => (s.pool.step (.worker i)).map (s.afterBegin i found sock)
  | _ => none

/-- The call `c` of worker `i` is answered, and its handler goes on with `next`. -/
def afterCall (s : Running ω) (i : ω) (c : Call) (r : c.Answer) (next : c.Answer → Handler Stage) : Running ω :=
  { s with
    fds := after s.fds c r
    handlers := Function.update s.handlers i ((next r).resume Handler.goOn)
    owed := s.owed + descriptors.owes c r
    broken := Function.update s.broken i (s.broken i || failed c r) }

/-- The handler of worker `i` makes a call. -/
def stepCall (s : Running ω) (i : ω) (c : Call) (r : c.Answer) : Option (Running ω) :=
  match s.handlers i with
  | .ret _ => none
  | .call c' next =>
    if same : c = c' then
      if possible s.fds c r then some (s.afterCall i c r (same ▸ next)) else none
    else none

/-- The server's transitions. -/
def step (s : Running ω) : ServerAction ω → Option (Running ω)
  | .accept ok => s.stepAccept ok
  | .pool a => s.stepPool a
  | .begin i found => s.stepBegin i found
  | .call i c r => s.stepCall i c r

/-- The server as a machine. -/
def machine (ω : Type) [Fintype ω] [DecidableEq ω] (base : Finset Nat) : Machine (Running ω) (ServerAction ω) :=
  ⟨new base, step⟩

/-! ## What a step is -/

variable {s s' : Running ω}

/-- A step of the server is a failed `accept`, a new connection, a step of the pool, the
beginning of a handler, or a call. -/
inductive Turn (s s' : Running ω) : ServerAction ω → Prop where
  | refused : s' = s → Turn s s' (.accept false)
  | accepted (pool : ThreadPool ω Unit Nat) : s.pool.step (.call () (lowestUnused s.fds)) = some pool →
      s' = { s with fds := insert (lowestUnused s.fds) s.fds, pool := pool } → Turn s s' (.accept true)
  | pool (a : PoolAction ω Unit Nat) (pool : ThreadPool ω Unit Nat) : (∀ p t, a ≠ .call p t) →
      (∀ i, a = .worker i → (∀ t, s.pool.workers i ≠ .unlock t) ∧
        ∀ t, s.pool.workers i = .processOn t → s.handlers i = .ret .returned) →
      s.pool.step a = some pool → s' = { s with pool := pool } → Turn s s' (.pool a)
  | begun (i : ω) (found : Circumstances) (sock : Nat) (pool : ThreadPool ω Unit Nat) :
      s.pool.workers i = .unlock sock → s.pool.step (.worker i) = some pool →
      s' = s.afterBegin i found sock pool → Turn s s' (.begin i found)
  | called (i : ω) (c : Call) (r : c.Answer) (next : c.Answer → Handler Stage) : s.handlers i = .call c next →
      possible s.fds c r → s' = s.afterCall i c r next → Turn s s' (.call i c r)

theorem turn_of_step {a : ServerAction ω} (taken : s.step a = some s') : Turn s s' a := by
  cases a with
  | accept ok =>
    cases ok with
    | true =>
      obtain ⟨pool, pushed, rfl⟩ := Option.map_eq_some_iff.mp taken
      exact .accepted pool pushed rfl
    | false =>
      simp only [step, stepAccept, Bool.false_eq_true, if_false] at taken
      split at taken <;> cases taken
      exact .refused rfl
  | pool a =>
    cases a with
    | call p t => cases taken
    | worker i =>
      simp only [step, stepPool] at taken
      split at taken
      · cases taken
      · cases taken
      · cases taken
      · rename_i unpopped calling sending
        obtain ⟨pool, worked, rfl⟩ := Option.map_eq_some_iff.mp taken
        refine .pool _ pool nofun ?_ worked rfl
        rintro _ ⟨rfl⟩
        constructor
        · intro t pc
          exact unpopped t pc
        · intro t pc
          cases handler : s.handlers i with
          | call c next => exact absurd handler (calling t c next pc)
          | ret stage =>
            cases stage with
            | returned => rfl
            | sending sock body total => exact absurd handler (sending t sock body total pc)
    | pusher p =>
      obtain ⟨pool, moved, rfl⟩ := Option.map_eq_some_iff.mp taken
      exact .pool _ pool nofun nofun moved rfl
    | signal p target =>
      obtain ⟨pool, moved, rfl⟩ := Option.map_eq_some_iff.mp taken
      exact .pool _ pool nofun nofun moved rfl
    | wake i =>
      obtain ⟨pool, moved, rfl⟩ := Option.map_eq_some_iff.mp taken
      exact .pool _ pool nofun nofun moved rfl
  | begin i found =>
    simp only [step, stepBegin] at taken
    split at taken
    · rename_i sock pc
      obtain ⟨pool, worked, rfl⟩ := Option.map_eq_some_iff.mp taken
      exact .begun i found sock pool pc worked rfl
    · cases taken
  | call i c r =>
    simp only [step, stepCall] at taken
    split at taken
    · cases taken
    · rename_i c' next handler
      split at taken
      · rename_i same
        subst same
        split at taken <;> cases taken
        rename_i answered
        exact .called i c r next handler answered rfl
      · cases taken

/-! ## A handler that nobody interrupts -/

omit [Fintype ω] [DecidableEq ω] in
/-- The answers of the system of one connection are possible, and change its table as here. -/
theorem answer_possible (env : Env) (c : Call) (os : Os) :
    possible os.fds c (answer env c os).1 ∧ after os.fds c (answer env c os).1 = (answer env c os).2.fds := by
  have pipes (ok : Bool) :
      let ends := (os.pipe ok).1.map fun ends => (ends.1.toNat, ends.2.toNat)
      (ends = none ∨ ends = some (lowestUnused os.fds, lowestUnused (insert (lowestUnused os.fds) os.fds))) ∧
        after os.fds .pipeInput ends = (os.pipe ok).2.fds ∧ after os.fds .pipeOutput ends = (os.pipe ok).2.fds := by
    cases ok with
    | true => exact ⟨.inr rfl, rfl, rfl⟩
    | false => exact ⟨.inl rfl, rfl, rfl⟩
  cases c with
  | openRead path =>
    show (((os.openRead env path).1 = -1 ∨ (os.openRead env path).1 = lowestUnused os.fds) ∧
      (if 0 ≤ (os.openRead env path).1 then insert (os.openRead env path).1.toNat os.fds else os.fds) =
        (os.openRead env path).2.fds)
    unfold Os.openRead
    split
    · exact ⟨.inr rfl, if_pos (Int.natCast_nonneg _)⟩
    · exact ⟨.inl rfl, rfl⟩
  | pipeInput => exact ⟨(pipes env.pipeInput).1, (pipes env.pipeInput).2.1⟩
  | pipeOutput => exact ⟨(pipes env.pipeOutput).1, (pipes env.pipeOutput).2.2⟩
  | fork path environ =>
    refine ⟨trivial, ?_⟩
    show os.fds = (if env.forkOk then (os.emit (.fork true)).emit (.execl path environ) else os.emit (.fork false)).fds
    split <;> rfl
  | close fd =>
    refine ⟨trivial, ?_⟩
    show (if 0 ≤ fd then os.fds.erase fd.toNat else os.fds) = (os.close fd).fds
    unfold Os.close
    by_cases nonneg : 0 ≤ fd
    · by_cases mem : fd.toNat ∈ os.fds
      · rw [if_pos nonneg, if_pos ⟨nonneg, mem⟩]
      · rw [if_pos nonneg, if_neg fun both => mem both.2]
        exact Finset.erase_eq_of_notMem mem
    · rw [if_neg nonneg, if_neg fun both => nonneg both.1]
      rfl
  | recv _ | stat _ | write _ _ | read _ | waitpid | send _ _ | sendfile _ _ _ => exact ⟨trivial, rfl⟩

/-- The calls of a program can be made one after the other, with the answers of the system of one
connection, and the handler goes on where that ends. -/
theorem exec_calls (base : Finset Nat) (env : Env) (i : ω) {p : Handler Stage} {os : Os}
    (handler : s.handlers i = p.resume Handler.goOn) (table : s.fds = os.fds) :
    ∃ as s', (machine ω base).exec s as = some s' ∧ (∀ a ∈ as, ∃ c r, a = .call i c r) ∧
      s'.handlers i = Handler.goOn (p.run (answer env) os).1 ∧ s'.pool = s.pool ∧
      s'.fds = (p.run (answer env) os).2.fds := by
  induction p generalizing s os with
  | ret stage => exact ⟨[], s, rfl, by simp, handler, rfl, table⟩
  | call c next ih =>
    obtain ⟨answered, changed⟩ := answer_possible env c os
    let r := (answer env c os).1
    let s₁ := s.afterCall i c r next
    have called : (machine ω base).step s (.call i c r) = some s₁ := by
      show s.stepCall i c r = some s₁
      rw [← table] at answered
      simp only [stepCall, handler, Program.resume_call, dif_pos, if_pos answered, r, s₁]
    have table' : s₁.fds = (answer env c os).2.fds := by
      rw [← changed, ← table]
      rfl
    obtain ⟨as, s', ran, calls, went, pool, fds⟩ := ih r (Function.update_self ..) table'
    refine ⟨.call i c r :: as, s', ?_, ?_, went, pool, fds⟩
    · rw [Machine.exec_cons, called]
      exact ran
    · intro a mem
      rcases List.mem_cons.mp mem with rfl | mem
      · exact ⟨c, r, rfl⟩
      · exact calls a mem

/-- One run of calls after another. -/
theorem exec_calls_append {base : Finset Nat} {i : ω} {as bs : List (ServerAction ω)} {s₁ s₂ : Running ω}
    (ran : (machine ω base).exec s as = some s₁) (calls : ∀ a ∈ as, ∃ c r, a = .call i c r)
    (later : (machine ω base).exec s₁ bs = some s₂) (calls' : ∀ a ∈ bs, ∃ c r, a = .call i c r) :
    (machine ω base).exec s (as ++ bs) = some s₂ ∧ ∀ a ∈ as ++ bs, ∃ c r, a = .call i c r := by
  constructor
  · rw [Machine.exec_append, ran]
    exact later
  · intro a mem
    rcases List.mem_append.mp mem with mem | mem
    · exact calls a mem
    · exact calls' a mem

/-- So can the calls of all rounds of the body loop. -/
theorem exec_sending (base : Finset Nat) (env : Env) (i : ω) {sock : Int} {body : Bytes} {rounds total : Nat}
    {os : Os} (ends : Handler.Ends sock body rounds total os) (handler : s.handlers i = Handler.sendLoop sock body total)
    (table : s.fds = os.fds) :
    ∃ as s', (machine ω base).exec s as = some s' ∧ (∀ a ∈ as, ∃ c r, a = .call i c r) ∧
      s'.handlers i = .ret .returned ∧ s'.pool = s.pool ∧
      s'.fds = ((Protocol.sendLoop sock body rounds total os).close sock).fds := by
  induction rounds generalizing s total os with
  | zero => exact absurd ends id
  | succ rounds ih =>
    have begins : s.handlers i = (Handler.sendLoop sock body total).resume Handler.goOn := by
      rw [handler]
      unfold Handler.sendLoop
      split <;> rfl
    obtain ⟨as, s₁, ran, calls, went, pool, fds⟩ := exec_calls base env i begins table
    unfold Handler.sendLoop at went fds
    unfold Protocol.sendLoop
    by_cases more : total < body.length
    · by_cases some : 0 < sizeT (os.send sock (body.drop total)).1
      · simp only [more, some, if_true, Program.run_bind, Handler.run_send, Program.run_pure] at went fds
        obtain ⟨bs, s₂, later, calls', returned, pool', fds'⟩ := ih (ends more some) went fds
        obtain ⟨all, both⟩ := exec_calls_append ran calls later calls'
        refine ⟨as ++ bs, s₂, all, both, returned, pool'.trans pool, ?_⟩
        simp only [if_pos more, if_pos some]
        exact fds'
      · simp only [more, some, if_true, if_false, Program.run_bind, Handler.run_send, Handler.run_leave] at went fds
        refine ⟨as, s₁, ran, calls, went, pool, ?_⟩
        simp only [if_pos more, if_neg some]
        exact fds
    · simp only [if_neg more, Handler.run_leave] at went fds
      refine ⟨as, s₁, ran, calls, went, pool, ?_⟩
      rw [if_neg more]
      exact fds

/-- And what is left where a program has ended. -/
theorem exec_finish (base : Finset Nat) (env : Env) (i : ω) {stage : Stage} {os : Os}
    (handler : s.handlers i = Handler.goOn stage) (table : s.fds = os.fds) :
    ∃ as s', (machine ω base).exec s as = some s' ∧ (∀ a ∈ as, ∃ c r, a = .call i c r) ∧
      s'.handlers i = .ret .returned ∧ s'.pool = s.pool ∧ s'.fds = (Handler.finish stage os).fds := by
  cases stage with
  | returned => exact ⟨[], s, rfl, by simp, handler, rfl, table⟩
  | sending sock body total => exact exec_sending base env i (Handler.ends sock body (le_refl _)) handler table

/-- **The server refines to `handlerRequest`.** When a worker begins to handle a connection and
nobody interrupts it, the server has a run of calls of that worker after which its handler has
returned and the descriptor table is what `handlerRequest` makes of it, for every filesystem and
every outcome of the system calls. -/
theorem server_serves_alone (env : Env) {base : Finset Nat} {i : ω} {sock : Nat} {os : Os}
    (pc : s.pool.workers i = .unlock sock) (table : s.fds = os.fds) :
    ∃ found as s', (machine ω base).exec s (.begin i found :: as) = some s' ∧
      (∀ a ∈ as, ∃ c r, a = .call i c r) ∧ s'.handlers i = .ret .returned ∧ s'.pool.workers i = .processOn sock ∧
      s'.fds = (Protocol.handlerRequest env sock os).fds := by
  let found : Circumstances := ⟨env.staleSize, env.staleStat⟩
  have worked : ∃ pool, s.pool.step (.worker i) = some pool ∧ pool.workers i = .processOn sock := by
    refine ⟨_, by simp only [ThreadPool.step, ThreadPool.stepWorker, pc]; rfl, ?_⟩
    exact Function.update_self ..
  obtain ⟨pool, worked, there⟩ := worked
  let s₀ := s.afterBegin i found sock pool
  have begun : (machine ω base).step s (.begin i found) = some s₀ := by
    show s.stepBegin i found = _
    simp only [stepBegin, pc, worked]
    rfl
  have handler : s₀.handlers i = (handlerRequest found sock).resume Handler.goOn := Function.update_self ..
  obtain ⟨as, s₁, ran, calls, went, kept, fds⟩ := exec_calls base env i handler table
  obtain ⟨bs, s₂, later, calls', returned, kept', fds'⟩ := exec_finish base env i went fds
  obtain ⟨all, both⟩ := exec_calls_append ran calls later calls'
  refine ⟨found, as ++ bs, s₂, ?_, both, returned, ?_, ?_⟩
  · rw [Machine.exec_cons, begun]
    exact all
  · rw [kept', kept]
    exact there
  · rw [fds', run_handlerRequest]

/-- A connection is accepted, pushed and popped. -/
def connecting (i : ω) : List (ServerAction ω) :=
  [.accept true, .pool (.pusher ()), .pool (.pusher ()), .pool (.pusher ()), .pool (.signal () none),
    .pool (.worker i), .pool (.worker i)]

/-- A program is asked for, whose two bytes go out one by one. -/
def asking : Os := { cgiConnection with fds := {0, 1, 2, 3, 4}, sends := [30, 30, 30, 30, 1] }

theorem server_serves_alone_asking :
    ∃ s : Running Unit, (machine Unit {0, 1, 2, 3}).exec (new {0, 1, 2, 3}) (connecting ()) = some s ∧
      ∃ found as s', (machine Unit {0, 1, 2, 3}).exec s (.begin () found :: as) = some s' ∧
        s'.handlers () = .ret .returned ∧
        s'.fds = (Protocol.handlerRequest { Env.programs with cgiOutput := ascii "hi" } 4 asking).fds ∧
        Syscall.fork true ∈ (Protocol.handlerRequest { Env.programs with cgiOutput := ascii "hi" } 4 asking).trace := by
  have popped : ∃ s : Running Unit, (machine Unit {0, 1, 2, 3}).exec (new {0, 1, 2, 3}) (connecting ()) = some s ∧
      s.pool.workers () = .unlock 4 ∧ s.fds = {0, 1, 2, 3, 4} := ⟨_, rfl, rfl, by decide⟩
  obtain ⟨s, ran, pc, table⟩ := popped
  obtain ⟨found, as, s', alone, -, returned, -, fds⟩ :=
    @server_serves_alone _ _ _ s { Env.programs with cgiOutput := ascii "hi" } {0, 1, 2, 3} () 4 asking pc table
  exact ⟨s, ran, found, as, s', alone, returned, fds, by decide +kernel⟩

end Running

end HttpServer.Server
