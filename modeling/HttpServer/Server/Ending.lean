import HttpServer.Lib.Draining
import HttpServer.Lib.Triples
import HttpServer.Server.Loop

/-!
# Handlers that return

The body loop of `SendHttpResponse` takes a failed `send` for a large one: its `total` goes one
back, or beyond everything from zero. Where `send` fails and succeeds in turns it never ends
(`sendLoop_repeats`). `steady` is what a socket does: a result is -1 or a count, and where one
`send` has failed they all fail from then on. Then the loop ends (`acc_sendLoop`) and with it
the handler (`acc_handlerRequest`), whatever else the system answers.
-/

namespace HttpServer.Server
open Lib Net Protocol

/-- An answer of a socket, if a `send` on it has failed or not, and a response that a string can hold. -/
def steady (broken : Bool) : (c : Call) → c.Answer → Prop
  | .send _ data, (size : Int) => -1 ≤ size ∧ size ≤ data.length ∧ (broken = true → size = -1)
  | .read _, (output : Bytes) => output.length < 2 ^ 63
  | _, _ => True

/-- A handler, with whether a `send` of it has failed, comes to the next one by a call. -/
def Next (h' h : Handler Stage × Bool) : Prop :=
  ∃ c next r, h.1 = .call c next ∧ steady h.2 c r ∧ h' = ((next r).resume Handler.goOn, h.2 || failed c r)

theorem acc_returned (broken : Bool) : Acc Next (.ret .returned, broken) := by
  constructor
  rintro h' ⟨c, next, r, calls, -⟩
  cases calls

/-- Where a handler makes a call, it returns if it does so after every answer. -/
theorem acc_call {c : Call} {next : c.Answer → Handler Stage} {broken : Bool}
    (later : ∀ r, steady broken c r → Acc Next ((next r).resume Handler.goOn, broken || failed c r)) :
    Acc Next (.call c next, broken) := by
  constructor
  rintro h' ⟨c', next', r, calls, answered, rfl⟩
  cases calls
  exact later r answered

/-! ## The loop -/

theorem acc_leave (sock : Int) (broken : Bool) : Acc Next (Handler.leave sock, broken) :=
  acc_call fun _ _ => acc_returned _

section Loop
variable (sock : Int) {body : Bytes} {total : Nat}

/-- A round is over, or comes to the next one. -/
theorem acc_round {broken : Bool}
    (later : ∀ size : Int, total < body.length → -1 ≤ size → size ≤ (body.length - total : Nat) →
      (broken = true → size = -1) → 0 < sizeT size →
      Acc Next (Handler.sendLoop sock body ((total + sizeT size) % 2 ^ 64), broken || decide (size < 0))) :
    Acc Next (Handler.sendLoop sock body total, broken) := by
  unfold Handler.sendLoop
  split
  · rename_i more
    apply acc_call
    rintro (size : Int) ⟨least, most, fails⟩
    rw [List.length_drop] at most
    show Acc Next ((if 0 < sizeT size then _ else _ : Handler Stage).resume Handler.goOn, _)
    split
    · rename_i some
      exact later size more least most fails some
    · exact acc_leave sock _
  · exact acc_leave sock broken

/-- Once a `send` has failed, `total` goes back to zero and then beyond the end. -/
theorem acc_sendLoop_broken (short : body.length < 2 ^ 63) : Acc Next (Handler.sendLoop sock body total, true) := by
  induction total using Nat.strongRecOn with
  | ind total ih =>
    apply acc_round
    intro size more _ _ fails _
    obtain rfl := fails rfl
    have wraps : sizeT (-1) = 2 ^ 64 - 1 := by decide
    rw [wraps]
    cases total with
    | zero =>
      apply acc_round
      intro size more'
      omega
    | succ total =>
      have back : (total + 1 + (2 ^ 64 - 1)) % 2 ^ 64 = total := by omega
      rw [back]
      exact ih total (Nat.lt_succ_self total)

/-- The body loop ends: every round sends something, or is the last, or fails. -/
theorem acc_sendLoop (short : body.length < 2 ^ 63) (broken : Bool) :
    Acc Next (Handler.sendLoop sock body total, broken) := by
  cases broken with
  | true => exact acc_sendLoop_broken sock short
  | false =>
    induction left : body.length - total using Nat.strongRecOn generalizing total with
    | ind n ih =>
      apply acc_round
      intro size more least most _ some
      by_cases fails : size < 0
      · rw [decide_eq_true fails]
        exact acc_sendLoop_broken sock short
      · rw [decide_eq_false fails]
        have value : sizeT size = size.toNat := by
          unfold sizeT
          omega
        have sum : (total + size.toNat) % 2 ^ 64 = total + size.toNat := by omega
        rw [value] at some ⊢
        rw [sum]
        exact ih (body.length - (total + size.toNat)) (by omega) rfl

/-- Where `send` takes a byte and fails in turns, the loop is where it was after two rounds. -/
theorem sendLoop_repeats (sock : Int) {body : Bytes} (two : 2 ≤ body.length) :
    ∃ next₁ next₂, Handler.sendLoop sock body 0 = .call (.send sock body) next₁ ∧
      (next₁ (1 : Int)).resume Handler.goOn = .call (.send sock body.tail) next₂ ∧
      (next₂ (-1 : Int)).resume Handler.goOn = Handler.sendLoop sock body 0 := by
  have first : Handler.sendLoop sock body 0 = .call (.send sock body) _ := if_pos (by omega)
  have second : Handler.sendLoop sock body 1 = .call (.send sock (body.drop 1)) _ := if_pos (by omega)
  rw [List.drop_one] at second
  exact ⟨_, _, first, second, rfl⟩

end Loop

/-! ## The body -/

/-- Programs print what a string can hold. -/
def strings : World Call Call.Answer Unit where
  allows _ c r := steady false c r
  after _ _ _ := ()

/-- A string holds the response body. -/
def Held (ep : EndPoint) : Prop := ep.httpResponse.responseBody.length < 2 ^ 63

/-- Where the program of a handler ends, a string holds the body it has to send. -/
def Stage.Held : Stage → Prop
  | .returned => True
  | .sending _ body _ => body.length < 2 ^ 63

namespace Handler
open Lib.Program (ensures_pure Ensures.after)

theorem held_of_nil {ep : EndPoint} (empty : ep.httpResponse.responseBody = []) : Held ep := by
  unfold Held
  rw [empty, List.length_nil]
  omega

theorem held_cgiParent {in0 in1 out0 out1 : Nat} {ep : EndPoint} (empty : ep.httpResponse.responseBody = []) :
    (cgiParent in0 in1 out0 out1 ep).Ensures strings (fun a _ => Held a.2) () := by
  unfold cgiParent
  apply Ensures.after
  rintro _ ⟨⟩
  apply Ensures.after
  rintro _ ⟨⟩
  apply Ensures.after
  rintro _ ⟨⟩
  rintro (output : Bytes) (printed : output.length < 2 ^ 63)
  apply Ensures.after waitpid
  rintro status ⟨⟩
  apply Ensures.after
  rintro _ ⟨⟩
  apply Ensures.after
  rintro _ ⟨⟩
  apply ensures_pure
  show (ep.httpResponse.responseBody ++ output).length < 2 ^ 63
  rw [empty, List.nil_append]
  exact printed

theorem held_processCgi {ep : EndPoint} (empty : ep.httpResponse.responseBody = []) :
    (processCgi ep).Ensures strings (fun a _ => Held a.2) () := by
  unfold processCgi
  apply Ensures.after
  rintro input ⟨⟩
  cases input with
  | none => exact ensures_pure (held_of_nil empty)
  | some input =>
    apply Ensures.after
    rintro output ⟨⟩
    cases output with
    | none => exact ensures_pure (held_of_nil empty)
    | some output =>
      apply Ensures.after
      rintro ok ⟨⟩
      cases ok with
      | false => exact ensures_pure (held_of_nil empty)
      | true => exact held_cgiParent empty

theorem held_dispatch {ep : EndPoint} (empty : ep.httpResponse.responseBody = []) :
    (dispatch ep).Ensures strings (fun a _ => Held a.2) () := by
  unfold dispatch
  split
  · exact ensures_pure (held_of_nil empty)
  · apply Ensures.after
    rintro found ⟨⟩
    cases found with
    | none => exact ensures_pure (held_of_nil empty)
    | some st =>
      apply Ensures.after
      rintro target ⟨⟩
      simp only
      split
      · exact held_processCgi empty
      · apply Ensures.after
        rintro fd ⟨⟩
        exact ensures_pure (held_of_nil empty)

theorem held_buildHttpResponseHelper (staleStat : Stat) {ep : EndPoint} (held : Held ep) :
    (buildHttpResponseHelper staleStat ep).Ensures strings (fun ep' _ => Held ep') () := by
  unfold buildHttpResponseHelper
  simp only
  split
  · exact ensures_pure held
  · split
    · unfold handlerError
      apply Ensures.after
      rintro fd ⟨⟩
      simp only
      split
      · apply Ensures.after
        rintro st ⟨⟩
        exact ensures_pure held
      · exact ensures_pure held
    · exact ensures_pure held

theorem held_buildHttpResponse (staleStat : Stat) {ep : EndPoint} (empty : ep.httpResponse.responseBody = []) :
    (buildHttpResponse staleStat ep).Ensures strings (fun ep' _ => Held ep') () :=
  (held_dispatch empty).bind fun _ _ held => held_buildHttpResponseHelper staleStat held

theorem held_leave (sock : Int) : (leave sock).Ensures strings (fun stage _ => stage.Held) () := by
  apply Ensures.after
  rintro _ ⟨⟩
  exact ensures_pure trivial

theorem held_sendHttpResponse {ep : EndPoint} (held : Held ep) :
    (sendHttpResponse ep).Ensures strings (fun stage _ => stage.Held) () := by
  unfold sendHttpResponse
  apply Ensures.after
  rintro _ ⟨⟩
  apply Ensures.after
  rintro _ ⟨⟩
  apply Ensures.after
  rintro _ ⟨⟩
  split
  · exact ensures_pure held
  · apply Ensures.after
    rintro _ ⟨⟩
    apply Ensures.after
    rintro _ ⟨⟩
    exact held_leave ep.sock

end Handler

theorem held_handlerRequest (found : Circumstances) (sock : Int) :
    (handlerRequest found sock).Ensures strings (fun stage _ => stage.Held) () := by
  unfold handlerRequest
  apply Program.Ensures.after
  rintro stream ⟨⟩
  simp only
  split
  · exact Handler.held_leave _
  · have empty : (recvHttpRequest (EndPoint.new sock found.staleSize) stream).1.httpResponse.responseBody = [] := by
      rw [(recvHttpRequest_same _ _).httpResponse]
      rfl
    exact (Handler.held_buildHttpResponse found.staleStat empty).bind fun _ _ held => Handler.held_sendHttpResponse held

/-! ## The handler -/

theorem acc_goOn {stage : Stage} (held : stage.Held) (broken : Bool) : Acc Next (Handler.goOn stage, broken) := by
  cases stage with
  | returned => exact acc_returned broken
  | sending sock body total => exact acc_sendLoop sock held broken

/-- A program that ends with a body to send, if with any, leads to the end of the handler. -/
theorem acc_of_held {p : Handler Stage} (ensures : p.Ensures strings (fun stage _ => stage.Held) ()) (broken : Bool) :
    Acc Next (p.resume Handler.goOn, broken) := by
  induction p generalizing broken with
  | ret stage => exact acc_goOn ensures broken
  | call c next ih =>
    apply acc_call
    intro r answered
    refine ih r (ensures r ?_) _
    cases c with
    | send sock data => exact ⟨answered.1, answered.2.1, nofun⟩
    | read fd => exact answered
    | _ => trivial

/-- **A handler returns.** Whatever it is answered, if only its socket is steady and its program
prints what a string can hold, it comes to its end. -/
theorem acc_handlerRequest (found : Circumstances) (sock : Int) (broken : Bool) :
    Acc Next (handlerRequest found sock, broken) :=
  acc_of_held (held_handlerRequest found sock) broken

end HttpServer.Server
