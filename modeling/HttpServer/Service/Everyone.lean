import HttpServer.Server.Draining
import HttpServer.Service.Handling

/-!
# Every client is sent its reply

The running server again, with the view each client has of its handler. The system shows a site
and the clients send whole requests; the accept loop, the pool and the handlers interleave as
they may, descriptors are reused, and several handlers build their responses at once.
`server_attends` says that none of this is visible: at every moment what has been sent to a
client is a prefix of the reply to its own request, and all of it once its handler has returned.
What is sent is what `send` and `sendfile` have taken; that it arrives is up to the network.
-/

namespace HttpServer.Service
open Lib Net Protocol Server

/-- The server, the views of the connections that its workers handle or have handled last, those of the
connections before, and the sockets of all connections accepted. -/
structure Attended (ω : Type) where
  server : Running ω
  views : ω → Option View
  finished : List View
  accepted : List Nat

/-- Worker `i` begins to handle a connection whose client sends `request`; or any other step. -/
inductive AttendedAction (ω : Type) where
  | serve (i : ω) (found : Circumstances) (request : WireRequest)
  | call (i : ω) (c : Call) (r : c.Answer)
  | accept (ok : Bool)
  | pool (a : Pool.PoolAction ω Unit Nat)

/-- What the server does. -/
def AttendedAction.server {ω : Type} : AttendedAction ω → ServerAction ω
  | .serve i found _ => .begin i found
  | .call i c r => .call i c r
  | .accept ok => .accept ok
  | .pool a => .pool a

namespace Attended
variable {ω : Type} [Fintype ω] [DecidableEq ω]

/-- A server that has begun to handle nothing. -/
def new (base : Finset Nat) : Attended ω := ⟨.new base, fun _ => none, [], []⟩

/-- The transitions: those of the server, and what its clients see of them. -/
def step (site : Site) (s : Attended ω) : AttendedAction ω → Option (Attended ω)
  | .serve i found request =>
    match s.server.pool.workers i with
    | .unlock sock =>
      (s.server.step (.begin i found)).map fun server =>
        { s with
          server := server
          views := Function.update s.views i (some (View.new request sock))
          finished := s.finished ++ (s.views i).toList }
    | _ => none
  | .call i c r =>
    (s.server.step (.call i c r)).map fun server =>
      { s with
        server := server
        views := Function.update s.views i ((s.views i).map fun v => v.after site c r) }
  | .accept ok =>
    (s.server.step (.accept ok)).map fun server =>
      { s with
        server := server
        accepted := if ok then s.accepted ++ [lowestUnused s.server.fds] else s.accepted }
  | .pool a => (s.server.step (.pool a)).map fun server => { s with server := server }

def machine (site : Site) (ω : Type) [Fintype ω] [DecidableEq ω] (base : Finset Nat) :
    Machine (Attended ω) (AttendedAction ω) :=
  ⟨new base, step site⟩

/-- The clients send whole requests, and the system shows the site to every handler. -/
def Conforms (site : Site) (s : Attended ω) : AttendedAction ω → Prop
  | .serve _ _ request => WellSent request
  | .call i c r => ∀ v ∈ s.views i, v.allows site c r
  | _ => True

/-! ## What a call adds to a view -/

/-- The same connection, later. -/
structure Later (v v' : View) : Prop where
  request : v'.request = v.request
  sock : v'.sock = v.sock
  sent : v.sent <+: v'.sent

theorem later_refl (v : View) : Later v v := ⟨rfl, rfl, List.prefix_rfl⟩

theorem later_trans {v v' v'' : View} (first : Later v v') (second : Later v' v'') : Later v v'' :=
  ⟨second.request.trans first.request, second.sock.trans first.sock, first.sent.trans second.sent⟩

theorem later_got (v : View) (data : Bytes) : Later v (v.got data) := ⟨rfl, rfl, List.prefix_append ..⟩

theorem later_after (site : Site) (v : View) (c : Call) (r : c.Answer) : Later v (v.after site c r) := by
  have same (v' : View) (request : v'.request = v.request) (sock : v'.sock = v.sock) (sent : v'.sent = v.sent) :
      Later v v' := ⟨request, sock, sent ▸ List.prefix_rfl⟩
  unfold View.after
  split
  case h_1 | h_4 | h_7 =>
    split
    · exact same _ rfl rfl rfl
    · exact later_refl v
  case h_5 | h_6 =>
    split
    · exact later_got v _
    · exact later_refl v
  case h_2 | h_3 => exact same _ rfl rfl rfl
  case h_8 => exact later_refl v

/-- What `stat` may say of a node. -/
def statOf : Node → Stat
  | .folder => ⟨0o040755, 0⟩
  | .file executable text => ⟨if executable then 0o100755 else 0o100644, (text.getD []).length⟩

theorem describes_statOf (node : Node) : node.describes (statOf node) := by
  cases node with
  | folder => exact ⟨by decide, by decide⟩
  | file executable text =>
    refine ⟨?_, ?_, ?_⟩
    · cases executable <;> simp [statOf, Stat.isDir]
    · cases executable <;> simp [statOf, Stat.isExec]
    · rintro t rfl
      rfl

/-- A system that shows the site can answer every call, with descriptors that are free. -/
theorem answerable (site : Site) (v : View) (c : Call) {fds : Finset Nat} (taken : 0 ∈ fds) :
    ∃ r, possible fds c r ∧ v.allows site c r := by
  cases c with
  | recv ep => exact ⟨(⟨v.request.encode, .closed⟩ : Sock), trivial, rfl⟩
  | stat path =>
    refine ⟨(site.node path).map statOf, trivial, ?_⟩
    show site.stats path _
    unfold Site.stats
    cases site.node path with
    | none => trivial
    | some node => exact describes_statOf node
  | openRead path =>
    have positive : 0 < lowestUnused fds := by
      apply Nat.pos_of_ne_zero
      intro zero
      exact lowestUnused_notMem fds (zero ▸ taken)
    by_cases some : (site.text path).isSome = true
    · exact ⟨(lowestUnused fds : Int), .inr rfl, .inr (by rw [if_pos some]; exact_mod_cast positive)⟩
    · exact ⟨(-1 : Int), .inl rfl, .inr (by rw [if_neg some]; decide)⟩
  | pipeInput | pipeOutput => exact ⟨(some _ : Option (Nat × Nat)), .inr rfl, rfl⟩
  | fork path environ => exact ⟨true, trivial, rfl⟩
  | write fd data =>
    refine ⟨(data.length : Int), trivial, ?_⟩
    intro nonempty
    have some := List.length_pos_iff.mpr nonempty
    exact ⟨by omega, le_refl _⟩
  | read fd => exact ⟨(v.ran site).1, trivial, rfl⟩
  | waitpid => exact ⟨(v.ran site).2, trivial, rfl⟩
  | send sock data => exact ⟨(data.length : Int), trivial, rfl⟩
  | sendfile sock fd count | close fd => exact ⟨(), trivial, trivial⟩

/-! ## On the way to the reply -/

/-- A handler ends with the reply to the request its client sends, if it is answered as it should be. -/
def Attends (site : Site) (p : Handler Stage) (v : View) : Prop :=
  p.Ensures (client site)
    (fun stage v' => v'.request = v.request ∧ Finishes (reply site (means v.request)).bytes stage v') v

theorem Attends.call {site : Site} {c : Call} {next : c.Answer → Handler Stage} {v : View}
    (attends : Attends site (.call c next) v) {r : c.Answer} (allowed : v.allows site c r) :
    Attends site ((next r).resume Handler.goOn) (v.after site c r) := by
  unfold Attends
  rw [(later_after site v c r).request]
  apply Program.Ensures.resume (attends r allowed)
  rintro stage v' ⟨request, finishes⟩
  apply (ensures_goOn finishes).mono
  rintro stage' v'' ⟨request', finishes'⟩
  exact ⟨request'.trans request, finishes'⟩

/-- What a handler has sent is part of the reply, and all of it once it returns. -/
theorem Attends.sent {site : Site} {p : Handler Stage} {v : View} (attends : Attends site p v) :
    v.sent <+: (reply site (means v.request)).bytes ∧
      (p = .ret .returned → v.sent = (reply site (means v.request)).bytes) := by
  constructor
  · have answered (v : View) (c : Call) : ∃ r, v.allows site c r := by
      obtain ⟨r, -, allowed⟩ := answerable site v c (Finset.mem_singleton_self 0)
      exact ⟨r, allowed⟩
    obtain ⟨stage, v', ⟨-, finishes⟩, later⟩ :=
      Program.Ensures.reaches later_refl later_trans (later_after site) answered attends
    exact later.sent.trans (Finishes.part finishes)
  · rintro rfl
    exact attends.2

/-! ## Every step -/

variable {site : Site} {base : Finset Nat} {s s' : Attended ω} {a : AttendedAction ω}

/-- Without its views it is the running server. -/
theorem server_step (taken : s.step site a = some s') : s.server.step a.server = some s'.server := by
  cases a with
  | serve i found request =>
    simp only [step] at taken
    split at taken
    · obtain ⟨server, moved, rfl⟩ := Option.map_eq_some_iff.mp taken
      exact moved
    · cases taken
  | call i c r | accept ok | pool a =>
    obtain ⟨server, moved, rfl⟩ := Option.map_eq_some_iff.mp taken
    exact moved

theorem server_of_reachable (reached : (machine site ω base).ReachableIf (Conforms site) s) :
    (Running.machine ω base).Reachable s.server := by
  refine reached.invariant .init ?_
  intro s a s' ran _ taken
  exact .step ran trivial (server_step taken)

/-- What a step does to the views: a worker takes the next connection, a view sees a call, or all stay. -/
inductive Change (site : Site) (s s' : Attended ω) : AttendedAction ω → Prop where
  | served (i : ω) (found : Circumstances) (request : WireRequest) (sock : Nat)
      (pc : s.server.pool.workers i = .unlock sock)
      (handlers : s'.server.handlers = Function.update s.server.handlers i (handlerRequest found sock))
      (broken : s'.server.broken = Function.update s.server.broken i false)
      (waiting : s'.server.pool.waiting + {sock} = s.server.pool.waiting)
      (views : s'.views = Function.update s.views i (some (View.new request sock)))
      (finished : s'.finished = s.finished ++ (s.views i).toList) (accepted : s'.accepted = s.accepted) :
      Change site s s' (.serve i found request)
  | called (i : ω) (c : Call) (r : c.Answer) (next : c.Answer → Handler Stage)
      (handler : s.server.handlers i = .call c next)
      (handlers : s'.server.handlers = Function.update s.server.handlers i ((next r).resume Handler.goOn))
      (broken : s'.server.broken = Function.update s.server.broken i (s.server.broken i || failed c r))
      (waiting : s'.server.pool.waiting = s.server.pool.waiting)
      (views : s'.views = Function.update s.views i ((s.views i).map fun v => v.after site c r))
      (finished : s'.finished = s.finished) (accepted : s'.accepted = s.accepted) : Change site s s' (.call i c r)
  | went (a : AttendedAction ω) (sockets : List Nat) (handlers : s'.server.handlers = s.server.handlers)
      (broken : s'.server.broken = s.server.broken) (waiting : s'.server.pool.waiting = s.server.pool.waiting + sockets) (views : s'.views = s.views)
      (finished : s'.finished = s.finished) (accepted : s'.accepted = s.accepted ++ sockets) : Change site s s' a

theorem change_of_step (taken : s.step site a = some s') : Change site s s' a := by
  cases a with
  | serve i found request =>
    simp only [step] at taken
    split at taken
    · rename_i sock pc
      obtain ⟨server, moved, rfl⟩ := Option.map_eq_some_iff.mp taken
      cases Running.turn_of_step moved with
      | begun _ _ sock' pool pc' worked same =>
        subst same
        cases pc.symm.trans pc'
        have waiting := Pool.ThreadPool.waiting_worker worked
        rw [pc] at waiting
        exact .served i found request sock pc rfl rfl waiting rfl rfl rfl
    · cases taken
  | call i c r =>
    obtain ⟨server, moved, rfl⟩ := Option.map_eq_some_iff.mp taken
    cases Running.turn_of_step moved with
    | called _ _ _ next handler answered same =>
      subst same
      exact .called i c r next handler rfl rfl rfl rfl rfl rfl
  | accept ok =>
    obtain ⟨server, moved, rfl⟩ := Option.map_eq_some_iff.mp taken
    cases Running.turn_of_step moved with
    | refused same =>
      subst same
      exact .went _ [] rfl rfl (by simp) rfl rfl (by simp)
    | accepted pool pushed same =>
      subst same
      refine .went _ [lowestUnused s.server.fds] rfl rfl ?_ rfl rfl rfl
      show pool.waiting = s.server.pool.waiting + _
      rw [Pool.ThreadPool.waiting_call pushed, ← Multiset.singleton_add, add_comm]
      rfl
  | pool a =>
    obtain ⟨server, moved, rfl⟩ := Option.map_eq_some_iff.mp taken
    cases Running.turn_of_step moved with
    | pool a pool old turn stepped same =>
      subst same
      have waiting := Running.waiting_pool old (fun i own => (turn i own).1) stepped
      exact .went _ [] rfl rfl (by simp [waiting]) rfl rfl (by simp)

/-- Every handler is on its way to the reply, and what is finished has got it; no `send` has failed. -/
structure AllAttend (site : Site) (s : Attended ω) : Prop where
  handlers : ∀ i v, s.views i = some v → Attends site (s.server.handlers i) v
  idle : ∀ i, s.views i = none → s.server.handlers i = .ret .returned
  finished : ∀ v ∈ s.finished, v.sent = (reply site (means v.request)).bytes
  unbroken : ∀ i, s.server.broken i = false

omit [Fintype ω] [DecidableEq ω] in
/-- A handler that makes a call has a view. -/
theorem AllAttend.view {i : ω} {c : Call} {next : c.Answer → Handler Stage} (inv : s.AllAttend site)
    (handler : s.server.handlers i = .call c next) : ∃ v, s.views i = some v := by
  cases view : s.views i with
  | none =>
    have idle := inv.idle i view
    rw [handler] at idle
    cases idle
  | some v => exact ⟨v, rfl⟩

omit [Fintype ω] in
/-- A worker goes on with a handler on its way to the reply, and the others are where they were. -/
theorem AllAttend.update {i : ω} {h : Handler Stage} {v : View} (inv : s.AllAttend site) (attends : Attends site h v)
    (handlers : s'.server.handlers = Function.update s.server.handlers i h)
    (views : s'.views = Function.update s.views i (some v)) :
    (∀ j v', s'.views j = some v' → Attends site (s'.server.handlers j) v') ∧
      ∀ j, s'.views j = none → s'.server.handlers j = .ret .returned := by
  rw [handlers, views]
  constructor
  · intro j v' view
    by_cases mine : j = i
    · subst mine
      simp only [Function.update_self] at view ⊢
      obtain rfl := Option.some.inj view
      exact attends
    · simp only [Function.update_of_ne mine] at view ⊢
      exact inv.handlers j v' view
  · intro j view
    by_cases mine : j = i
    · subst mine
      simp at view
    · simp only [Function.update_of_ne mine] at view ⊢
      exact inv.idle j view

/-- No `send` that takes all has failed. -/
theorem failed_of_allows {v : View} {c : Call} {r : c.Answer} (allowed : v.allows site c r) : failed c r = false := by
  cases c with
  | send sock data =>
    obtain rfl : r = (data.length : Int) := allowed
    exact decide_eq_false (Int.not_lt.mpr (Int.natCast_nonneg data.length))
  | _ => rfl

theorem allAttend_step (short : ∀ path environ stdin, (site.run path environ stdin).1.length < 2 ^ 63)
    (ran : (Running.machine ω base).Reachable s.server) (inv : s.AllAttend site) (conforms : s.Conforms site a)
    (taken : s.step site a = some s') : s'.AllAttend site := by
  cases change_of_step taken with
  | served i found request sock pc handlers broken _ views finished =>
    have attends : Attends site (handlerRequest found sock) (View.new request sock) :=
      ensures_handlerRequest sock conforms short
    obtain ⟨attending, idle⟩ := inv.update attends handlers views
    constructor
    case handlers => exact attending
    case idle => exact idle
    case finished =>
      intro v mem
      rw [finished] at mem
      rcases List.mem_append.mp mem with before | last
      · exact inv.finished v before
      · -- the worker has taken the next connection, so its handler has returned
        obtain ⟨lives, debts, leaked, owned⟩ := Running.owned_of_reachable ran
        have returned := (owned.idle i (by simp [pc])).1
        exact (inv.handlers i v (Option.mem_toList.mp last)).sent.2 returned
    case unbroken =>
      intro j
      rw [broken, Function.update_apply]
      split
      · rfl
      · exact inv.unbroken j
  | called i c r next handler handlers broken _ views finished =>
    obtain ⟨before, known⟩ := inv.view handler
    have allowed := conforms before known
    rw [known, Option.map_some] at views
    have attends := inv.handlers i before known
    rw [handler] at attends
    obtain ⟨attending, idle⟩ := inv.update (attends.call allowed) handlers views
    constructor
    case handlers => exact attending
    case idle => exact idle
    case finished => exact finished ▸ inv.finished
    case unbroken =>
      intro j
      rw [broken, failed_of_allows allowed, Bool.or_false, Function.update_apply]
      split
      · exact inv.unbroken i
      · exact inv.unbroken j
  | went _ sockets handlers broken _ views finished =>
    constructor
    case handlers =>
      rw [handlers, views]
      exact inv.handlers
    case idle =>
      rw [handlers, views]
      exact inv.idle
    case finished => exact finished ▸ inv.finished
    case unbroken => exact broken ▸ inv.unbroken

theorem allAttend_of_reachable (short : ∀ path environ stdin, (site.run path environ stdin).1.length < 2 ^ 63)
    (reached : (machine site ω base).ReachableIf (Conforms site) s) : s.AllAttend site := by
  have both : (Running.machine ω base).Reachable s.server ∧ s.AllAttend site := by
    refine reached.invariant ⟨.init, ?_⟩ ?_
    · exact ⟨nofun, fun _ _ => rfl, fun _ mem => absurd mem List.not_mem_nil, fun _ => rfl⟩
    · rintro s a s' ⟨ran, inv⟩ conforms taken
      exact ⟨.step ran trivial (server_step taken), allAttend_step short ran inv conforms taken⟩
  exact both.2

/-- **Every client is sent its reply.** In every run of the server in which the system shows a site and
the clients send whole requests, whatever the workers and connections, the order of all steps and the
numbers of the descriptors: what has been sent to a client is at every moment a prefix of the site's
reply to its request, and all of it when its handler has returned. -/
theorem server_attends (short : ∀ path environ stdin, (site.run path environ stdin).1.length < 2 ^ 63)
    (reached : (machine site ω base).ReachableIf (Conforms site) s) {i : ω} {v : View} (view : s.views i = some v) :
    v.sent <+: (reply site (means v.request)).bytes ∧
      (s.server.handlers i = .ret .returned → v.sent = (reply site (means v.request)).bytes) :=
  ((allAttend_of_reachable short reached).handlers i v view).sent

/-- A connection is accepted and pushed, and the worker that pops it begins to handle the request. -/
def serving (i : ω) (request : WireRequest) : List (AttendedAction ω) :=
  [.accept true, .pool (.pusher ()), .pool (.pusher ()), .pool (.pusher ()), .pool (.signal () none),
    .pool (.worker i), .pool (.worker i), .serve i ⟨0, ⟨0, 0⟩⟩ request]

/-- A request whose method the server does not know. -/
def putting : WireRequest :=
  { declaring 0 with
    method := ascii "PUT"
    methodWord := .of_all (by decide) (by decide)
    body := []
    bodyShort := Nat.two_pow_pos 31 }

/-- Two workers begin to handle a request each. -/
def twoBegun : List (AttendedAction Bool) := serving true putting ++ serving false (declaring 3)

/-- A handler has the request. -/
def receiving (i : ω) (sock : Int) (request : WireRequest) : AttendedAction ω :=
  .call i (.recv (EndPoint.new sock 0)) (⟨request.encode, .closed⟩ : Sock)

/-- The handler that declines has no page to send, and sends its status line. -/
def declining : List (AttendedAction Bool) :=
  [.call true (.openRead errorPage) (-1 : Int), .call true (.send 4 (ascii "HTTP/1.0 400 \r\n")) (15 : Int)]

theorem wellSent_putting : WellSent putting := by
  constructor
  case framed =>
    rintro value ⟨post, -⟩
    exact absurd post (by decide)
  case short => decide

theorem wellSent_declaring : WellSent (declaring 3) := by
  constructor
  case framed =>
    rintro value ⟨-, declared⟩
    exact (Option.some.inj declared).symm
  case short => decide

theorem reached_twoBegun :
    ∃ s, (machine .greeting Bool {0, 1, 2, 3}).exec (new {0, 1, 2, 3}) twoBegun = some s ∧
      s.views true = some (View.new putting 4) ∧ s.views false = some (View.new (declaring 3) 5) ∧
      (machine .greeting Bool {0, 1, 2, 3}).ReachableIf (Conforms .greeting) s := by
  have served : ∃ s, (machine .greeting Bool {0, 1, 2, 3}).exec (new {0, 1, 2, 3}) twoBegun = some s ∧
      s.views true = some (View.new putting 4) ∧ s.views false = some (View.new (declaring 3) 5) :=
    ⟨_, rfl, rfl, rfl⟩
  obtain ⟨s, ran, view, view'⟩ := served
  refine ⟨s, ran, view, view', Machine.ReachableIf.exec_of_mem .init ?_ ran⟩
  intro a mem s
  cases a with
  | serve i found request =>
    have which : request = putting ∨ request = declaring 3 := by
      simp [twoBegun, serving] at mem
      rcases mem with ⟨-, -, rfl⟩ | ⟨-, -, rfl⟩
      · exact .inl rfl
      · exact .inr rfl
    rcases which with rfl | rfl
    · exact wellSent_putting
    · exact wellSent_declaring
  | call i c r => simp [twoBegun, serving] at mem
  | accept ok | pool a => trivial

/-- Both have their requests, and one has sent its status line. -/
theorem server_attends_declining :
    ∃ s v v', (machine .greeting Bool {0, 1, 2, 3}).exec (new {0, 1, 2, 3})
        (twoBegun ++ [receiving true 4 putting] ++ [receiving false 5 (declaring 3)] ++ declining) = some s ∧
      s.views true = some v ∧ v.sent = ascii "HTTP/1.0 400 \r\n" ∧ s.views false = some v' ∧ v'.sent = [] ∧
      v.sent <+: (reply .greeting (means v.request)).bytes ∧ v'.sent <+: (reply .greeting (means v'.request)).bytes := by
  obtain ⟨s₀, ran₀, view₀, -, reached₀⟩ := reached_twoBegun
  have received : ∃ s₁, (machine .greeting Bool {0, 1, 2, 3}).exec (new {0, 1, 2, 3})
      (twoBegun ++ [receiving true 4 putting]) = some s₁ ∧ s₁.views false = some (View.new (declaring 3) 5) :=
    ⟨_, rfl, rfl⟩
  obtain ⟨s₁, ran₁, view₁⟩ := received
  have sent : ((machine .greeting Bool {0, 1, 2, 3}).exec (new {0, 1, 2, 3})
      (twoBegun ++ [receiving true 4 putting] ++ [receiving false 5 (declaring 3)] ++ declining)).map (fun s =>
        ((s.views true).map View.sent, (s.views false).map View.sent)) =
      some (some (ascii "HTTP/1.0 400 \r\n"), some []) := by decide +kernel
  obtain ⟨s, ran, views⟩ := Option.map_eq_some_iff.mp sent
  obtain ⟨v, view, status⟩ := Option.map_eq_some_iff.mp (Prod.mk.inj views).1
  obtain ⟨v', view', nothing⟩ := Option.map_eq_some_iff.mp (Prod.mk.inj views).2
  have reached₁ : (machine .greeting Bool {0, 1, 2, 3}).ReachableIf (Conforms .greeting) s₁ := by
    rw [Machine.exec_append, ran₀, Option.bind_some, Machine.exec_singleton] at ran₁
    refine reached₀.step ?_ ran₁
    rintro v mem
    obtain rfl := Option.some.inj (view₀.symm.trans mem)
    exact rfl
  have reached : (machine .greeting Bool {0, 1, 2, 3}).ReachableIf (Conforms .greeting) s := by
    have all := ran
    rw [Machine.exec_append, Machine.exec_append, ran₁, Option.bind_some, Machine.exec_singleton] at all
    obtain ⟨t, taken, later⟩ := Option.bind_eq_some_iff.mp all
    refine Machine.ReachableIf.exec_of_mem (reached₁.step ?_ taken) ?_ later
    · rintro v mem
      obtain rfl := Option.some.inj (view₁.symm.trans mem)
      exact rfl
    · intro a mem s
      simp only [declining, List.mem_cons, List.not_mem_nil, or_false] at mem
      rcases mem with rfl | rfl
      · exact fun v _ => .inr (by decide)
      · exact fun v _ => rfl
  have short : (ascii "hi").length < 2 ^ 63 := by decide
  exact ⟨s, v, v', ran, view, status, view', nothing, (server_attends (fun _ _ _ => short) reached view).1,
    (server_attends (fun _ _ _ => short) reached view').1⟩

end Attended

end HttpServer.Service
