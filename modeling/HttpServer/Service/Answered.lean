import HttpServer.Service.Everyone

/-!
# Every connection is answered in the end

`server_attends` says what has been sent to a client when its handler has returned; here the
handlers do return, but for those that wait for an answer that never comes: of a program that
does not end, of a child that hangs, of a socket that takes no more. Once no more connections are
accepted, the server runs for finitely many steps only. Where it stops, and as long as some
worker does not hang, each connection it has ever accepted has begun to be handled, none twice,
and each but those that hang has been sent the site's reply to the request of its client.
-/

namespace HttpServer.Service
open Lib Net Protocol Server

/-- Not a new connection, not a spurious wake-up, and no call of a worker that waits for ever. -/
def AttendedAction.InnerBut {ω : Type} (hanging : Set ω) (a : AttendedAction ω) : Prop := a.server.InnerBut hanging

namespace Attended
variable {ω : Type} [Fintype ω] [DecidableEq ω] {site : Site} {base : Finset Nat} {s s' : Attended ω}
  {a : AttendedAction ω} {hanging : Set ω}

/-- The views of the connections whose handling has begun. -/
def begun (s : Attended ω) : Multiset View := s.finished + total s.views fun v => (v.toList : Multiset View)

/-- The connections accepted are those that wait and those begun. -/
def Accounted (s : Attended ω) : Prop := (s.accepted : Multiset Nat) = s.server.pool.waiting + s.begun.map View.sock

theorem accounted_step (inv : s.Accounted) (taken : s.step site a = some s') : s'.Accounted := by
  unfold Accounted at inv ⊢
  cases change_of_step taken with
  | served i found request sock pc _ _ waiting views finished accepted =>
    have exchange := total_update s.views (fun v => (v.toList : Multiset View)) i (some (View.new request sock))
    have begun : s'.begun = s.begun + {View.new request sock} := by
      unfold Attended.begun
      rw [views, finished, ← Multiset.coe_add, add_assoc, add_comm ((s.views i).toList : Multiset View), exchange,
        ← add_assoc]
      rfl
    rw [accepted, inv, begun, Multiset.map_add, ← waiting, Multiset.map_singleton]
    show _ + {sock} + _ = _ + (_ + {sock})
    ac_rfl
  | called i c r next _ _ _ waiting views finished accepted =>
    have exchange := total_update s.views (fun v => (v.toList : Multiset View)) i
      ((s.views i).map fun v => v.after site c r)
    -- the view goes on, on the same socket
    have same : Multiset.map View.sock (((s.views i).map fun v => v.after site c r).toList : Multiset View) =
        Multiset.map View.sock ((s.views i).toList : Multiset View) := by
      cases s.views i with
      | none => rfl
      | some v => simp [(later_after site v c r).sock]
    have begun : s'.begun.map View.sock = s.begun.map View.sock := by
      have socks := congrArg (Multiset.map View.sock) exchange
      rw [Multiset.map_add, Multiset.map_add, same] at socks
      unfold Attended.begun
      rw [views, finished, Multiset.map_add, Multiset.map_add, add_right_cancel socks]
    rw [accepted, waiting, begun, inv]
  | went _ sockets _ _ waiting views finished accepted =>
    have begun : s'.begun = s.begun := by
      unfold Attended.begun
      rw [views, finished]
    rw [accepted, waiting, begun, ← Multiset.coe_add, inv]
    ac_rfl

theorem accounted_of_reachable (reached : (machine site ω base).ReachableIf (Conforms site) s) : s.Accounted := by
  refine reached.invariant ?_ fun _ _ _ inv _ taken => accounted_step inv taken
  simp [Accounted, machine, new, Running.new, begun, total, Pool.ThreadPool.new, Pool.ThreadPool.waiting,
    Pool.PusherPc.waiting, Pool.WorkerPc.waiting]

/-- The server rests but for the workers that wait for ever, and has settled if there is none. If
some worker does not wait for ever, the connections it has accepted are those it has begun to
handle. All of these have been sent the reply to their request, or by a worker that waits a part of it. -/
structure Answered (site : Site) (base : Finset Nat) (hanging : Set ω) (s : Attended ω) : Prop where
  rests : s.server.Rests hanging
  settled : hanging = ∅ → s.server.Settled base
  connections : (∃ i, i ∉ hanging) → s.begun.map View.sock = (s.accepted : Multiset Nat)
  finished : ∀ v ∈ s.finished, v.sent = (reply site (means v.request)).bytes
  answered : ∀ i, i ∉ hanging → ∀ v ∈ s.views i, v.sent = (reply site (means v.request)).bytes
  waiting : ∀ i ∈ hanging, ∀ v ∈ s.views i, v.sent <+: (reply site (means v.request)).bytes

/-- What the server can do, it can do with a conforming client and system. -/
theorem stuck_server (own : 0 ∈ s.server.fds)
    (stuck : ((machine site ω base).guarded (Conforms site)).Stuck (AttendedAction.InnerBut hanging) s) :
    (Running.machine ω base).Stuck (ServerAction.InnerBut hanging) s.server := by
  intro b inner
  by_contra enabled
  obtain ⟨server, moved⟩ := Option.ne_none_iff_exists'.mp enabled
  have blocked (a : AttendedAction ω) (still : a.InnerBut hanging) (conforms : s.Conforms site a) :
      s.step site a = none := Machine.guarded_none (stuck a still) conforms
  cases Running.turn_of_step moved with
  | refused | accepted => exact inner.1
  | pool a =>
    have none := blocked (.pool a) inner trivial
    exact Option.some_ne_none _ (moved.symm.trans (Option.map_eq_none_iff.mp none))
  | begun i found sock pool pc worked same =>
    have none := blocked (.serve i found putting) inner wellSent_putting
    simp [step, Running.step, Running.stepBegin, pc, worked] at none
  | called i c r next handler answered same =>
    have answer : ∃ r, possible s.server.fds c r ∧ ∀ v ∈ s.views i, v.allows site c r := by
      cases view : s.views i with
      | none => exact ⟨refusal c, possible_refusal _ c, fun v absurd => by cases absurd⟩
      | some v =>
        obtain ⟨r, possible, allowed⟩ := answerable site v c own
        exact ⟨r, possible, fun v' same => Option.some.inj same ▸ allowed⟩
    obtain ⟨r', possible, allowed⟩ := answer
    have still : (AttendedAction.call i c r').InnerBut hanging := by
      refine ⟨trivial, ?_⟩
      rintro _ _ _ ⟨⟩
      exact inner.2 i c r rfl
    have none := blocked (.call i c r') still allowed
    simp [step, Running.step, Running.stepCall, handler, possible] at none

/-- What was open when the server started is open. -/
theorem base_subset (ran : (Running.machine ω base).Reachable s.server) : base ⊆ s.server.fds := by
  obtain ⟨lives, debts, leaked, owned⟩ := Running.owned_of_reachable ran
  apply Finset.val_le_iff.mp
  rw [owned.table, add_assoc, add_assoc]
  exact le_self_add

/-- A `send` that takes all is steady. -/
theorem steady_of_conforms (short : ∀ path environ stdin, (site.run path environ stdin).1.length < 2 ^ 63)
    (inv : s.AllAttend site) (conforms : s.Conforms site a) (taken : s.step site a = some s') :
    s.server.Steady a.server := by
  cases a with
  | serve i found request | accept ok | pool a => trivial
  | call i c r =>
    cases Running.turn_of_step (server_step taken) with
    | called _ _ _ next handler =>
      obtain ⟨v, view⟩ := inv.view handler
      have allowed := conforms v view
      show steady (s.server.broken i) c r
      rw [inv.unbroken i]
      cases c with
      | send sock data =>
        obtain rfl : r = (data.length : Int) := allowed
        have least : (-1 : Int) ≤ data.length := by omega
        exact ⟨least, le_refl _, nofun⟩
      | read fd =>
        obtain rfl : r = (v.ran site).1 := allowed
        show (v.ran site).1.length < 2 ^ 63
        unfold View.ran
        split
        · exact short _ _ _
        · exact Nat.two_pow_pos 63
      | _ => trivial

theorem steady_of_reachable (short : ∀ path environ stdin, (site.run path environ stdin).1.length < 2 ^ 63)
    (reached : (machine site ω base).ReachableIf (Conforms site) s) :
    (Running.machine ω base).ReachableIf Running.Steady s.server := by
  induction reached with
  | init => exact .init
  | step before conforms taken ih =>
    have inv := allAttend_of_reachable short before
    exact ih.step (steady_of_conforms short inv conforms taken) (server_step taken)

/-- **Every connection is answered in the end.** From every state that the server reaches with a
system that shows the site and clients that send whole requests, a run in which no more connections
are accepted ends, whatever the schedule and the descriptor numbers, and whichever workers wait for
ever for an answer. Where it ends, and if one worker does not wait, every connection accepted since
the start has begun to be handled, each only once, and those of the other workers have been sent the
reply to their request. -/
theorem server_answers [Nonempty ω] (short : ∀ path environ stdin, (site.run path environ stdin).1.length < 2 ^ 63)
    (own : 0 ∈ base) (hanging : Set ω) (reached : ((machine site ω base).guarded (Conforms site)).Reachable s) :
    ((machine site ω base).guarded (Conforms site)).Drains (AttendedAction.InnerBut hanging)
      (Answered site base hanging) s := by
  apply Machine.drains_of_rank (WellFounded.prod_lex Nat.lt_wfRel.wf (wellFounded_oneLower (wellFounded_acc Next)))
    (fun s : Attended ω => (s.server.pool.rank, fun i => (s.server.handlers i, s.server.broken i))) _ _ reached
  · intro s a s' (reached : ((machine site ω base).guarded (Conforms site)).Reachable s) inner taken
    refine ⟨.step reached trivial taken, ?_⟩
    obtain ⟨conforms, taken⟩ := Machine.guarded_step.mp taken
    have before := reached.of_guarded
    have steady := steady_of_conforms short (allAttend_of_reachable short before) conforms taken
    exact Running.lex_lower inner.1 (Running.ending_of_reachable (steady_of_reachable short before)) steady
      (server_step taken)
  · intro s reached stuck
    have reached := reached.of_guarded
    have ran := server_of_reachable reached
    have rests := Running.rests_of_stuck ran (stuck_server (base_subset ran own) stuck)
    have inv := allAttend_of_reachable short reached
    constructor
    case rests => exact rests
    case settled =>
      rintro rfl
      exact rests.settled ran
    case connections =>
      intro free
      have accounted := accounted_of_reachable reached
      rw [Accounted, rests.waiting free, zero_add] at accounted
      exact accounted.symm
    case finished => exact inv.finished
    case answered => exact fun i other v view => (inv.handlers i v view).sent.2 (rests.handlers i other)
    case waiting => exact fun i _ v view => (inv.handlers i v view).sent.1

/-- Two handlers have begun, and one of them waits for ever. In some run the other sends its reply. -/
theorem server_answers_begun :
    ∃ s as s', (machine .greeting Bool {0, 1, 2, 3}).exec (new {0, 1, 2, 3}) twoBegun = some s ∧
      s.views true = some (View.new putting 4) ∧ s.views false = some (View.new (declaring 3) 5) ∧
      (∀ a ∈ as, a.InnerBut {true}) ∧
      ((machine .greeting Bool {0, 1, 2, 3}).guarded (Conforms .greeting)).exec s as = some s' ∧
      Answered .greeting {0, 1, 2, 3} {true} s' := by
  obtain ⟨s, ran, view, view', reached⟩ := reached_twoBegun
  have short : (ascii "hi").length < 2 ^ 63 := by decide
  obtain ⟨as, s', still, later, answered⟩ :=
    (server_answers (fun _ _ _ => short) (by decide) {true} reached.guarded).exec
  exact ⟨s, as, s', ran, view, view', still, later, answered⟩

end Attended

end HttpServer.Service
