import HttpServer.Protocol.RespondSpec

/-!
# The calls a function makes

Ways to say what a function does to the system without following its branches. A relation
that rows of calls keep is kept by the loops of calls. `Frame` names what every call of
`BuildHttpResponse` has to keep for the whole of it to keep it. `Appends` bounds the calls by
which a function lengthens the trace; the functions that open and send files are `Childless`.
-/

namespace HttpServer.Protocol
open Lib Net

/-! ## The call a function leaves in the trace -/

section Trace
variable {os os' : Os} {call : Syscall}

theorem trace_openRead (env : Env) (path : Bytes) (os : Os) :
    (os.openRead env path).2.trace = os.trace ++ [.openRead path (os.openRead env path).1] := by
  unfold Os.openRead
  split <;> rfl

theorem trace_pipe (ok : Bool) (os : Os) : (os.pipe ok).2.trace = os.trace ++ [.pipe (os.pipe ok).1] := by
  unfold Os.pipe
  split <;> rfl

theorem trace_close (fd : Int) (os : Os) : ∃ ok, (os.close fd).trace = os.trace ++ [.close fd ok] := by
  unfold Os.close
  split
  · exact ⟨true, rfl⟩
  · exact ⟨false, rfl⟩

/-- What one more call adds to what is seen of the trace. -/
theorem filterMap_snoc {β : Type} (see : Syscall → Option β) (trace : os'.trace = os.trace ++ [call]) :
    os'.trace.filterMap see = os.trace.filterMap see ++ (see call).toList := by
  rw [trace, List.filterMap_append]
  cases seen : see call <;> simp [seen]

theorem filterMap_silent {β : Type} {see : Syscall → Option β} (trace : os'.trace = os.trace ++ [call])
    (silent : see call = none) : os'.trace.filterMap see = os.trace.filterMap see := by
  rw [filterMap_snoc see trace, silent]
  exact List.append_nil _

end Trace

/-! ## Loops of calls -/

section Loops
variable {R : Os → Os → Prop} (refl : ∀ os, R os os)
  (trans : ∀ {before between after}, R before between → R between after → R before after)
include refl trans

theorem rel_writeLoop (write : ∀ fd data os, R os (os.write fd data).2) (fd : Int) (body : Bytes) (contentLength : Int)
    (fuel : Nat) (total : Int) (os : Os) : R os (writeLoop fd body contentLength fuel total os) := by
  induction fuel generalizing total os with
  | zero => exact refl os
  | succ fuel ih =>
    unfold writeLoop
    simp only
    split
    · split
      · apply trans (write ..)
        exact ih _ _
      · exact write ..
    · exact refl os

theorem rel_sendLoop (send : ∀ fd data os, R os (os.send fd data).2) (sock : Int) (body : Bytes) (fuel total : Nat)
    (os : Os) : R os (sendLoop sock body fuel total os) := by
  induction fuel generalizing total os with
  | zero => exact refl os
  | succ fuel ih =>
    unfold sendLoop
    simp only
    split
    · split
      · apply trans (send ..)
        exact ih _ _
      · exact send ..
    · exact refl os

theorem rel_headers (send : ∀ fd data os, R os (os.send fd data).2) (sock : Int) (lines : List Bytes) (os : Os) :
    R os (lines.foldl (fun os line => (os.send sock line).2) os) := by
  induction lines generalizing os with
  | nil => exact refl os
  | cons line lines ih =>
    apply trans (send sock line os)
    exact ih _

end Loops

/-! ## Frames of building a response -/

/-- The calls that move bytes to the client. -/
def Syscall.outgoing : Syscall → Bool
  | .send .. | .sendfile .. => true
  | _ => false

/-- A relation between the systems before and after that every call of `BuildHttpResponse`
satisfies, and every row of them. -/
structure Frame (R : Os → Os → Prop) : Prop where
  refl : ∀ os, R os os
  trans : ∀ {before between after}, R before between → R between after → R before after
  emit : ∀ os {call : Syscall}, call.outgoing = false → R os (os.emit call)
  openRead : ∀ env path os, R os (os.openRead env path).2
  pipe : ∀ ok os, R os (os.pipe ok).2
  close : ∀ fd os, R os (os.close fd)
  write : ∀ fd data os, R os (os.write fd data).2

namespace Frame
variable {R : Os → Os → Prop} (frame : Frame R)
include frame

theorem cgiParent (env : Env) (in0 in1 out0 out1 : Int) (ep : EndPoint) (os : Os) :
    R os (cgiParent env in0 in1 out0 out1 ep os).os := by
  have own : R os ((os.close in1).close out0) := frame.trans (frame.close ..) (frame.close ..)
  have written : R os
      (if ep.httpRequest.method = POST then
        Protocol.writeLoop out1 ep.httpRequest.requestBody ep.httpRequest.contentLength
          (ep.httpRequest.requestBody.length + 1) 0 ((os.close in1).close out0)
      else (os.close in1).close out0) := by
    split
    · exact frame.trans own (rel_writeLoop frame.refl frame.trans frame.write ..)
    · exact own
  have output := frame.trans written (@frame.emit _ (.read in0 env.cgiOutput) rfl)
  have waited := frame.trans output (@frame.emit _ .waitpid rfl)
  exact frame.trans (frame.trans waited (frame.close ..)) (frame.close ..)

theorem processCgi (env : Env) (ep : EndPoint) (os : Os) : R os (processCgi env ep os).os := by
  have input := frame.pipe env.pipeInput os
  have both := frame.trans input (frame.pipe env.pipeOutput (os.pipe env.pipeInput).2)
  apply processCgi_cases (motive := fun a => R os a.os)
  case noInput => exact input
  case noOutput => exact both
  case noFork => exact frame.trans both (@frame.emit _ (.fork false) rfl)
  case parent =>
    intro in0 in1 out0 out1
    have forked := frame.trans both (@frame.emit _ (.fork true) rfl)
    have replaced := frame.trans forked
      (@frame.emit _ (.execl (cStr ep.httpRequest.path) (childEnviron ep.httpRequest)) rfl)
    exact frame.trans replaced (frame.cgiParent ..)

theorem processNonCgi (env : Env) (ep : EndPoint) (os : Os) : R os (processNonCgi env ep os).os := by
  unfold Protocol.processNonCgi
  simp only
  split <;> exact frame.openRead ..

theorem content (cgi : Bool) (env : Env) (ep : EndPoint) (os : Os) : R os (content cgi env ep os).os := by
  cases cgi with
  | true => exact frame.processCgi env ep os
  | false => exact frame.processNonCgi env ep os

theorem targeted (os : Os) (req : HttpRequest) (st : Stat) : R os (os.targeted req st) := by
  have located : R os (os.located req) := frame.emit os rfl
  unfold Os.targeted
  split
  · exact frame.trans located (frame.emit _ rfl)
  · exact located

theorem dispatch (env : Env) (ep : EndPoint) (os : Os) : R os (dispatch env ep os).os := by
  apply dispatch_cases (motive := fun a => R os a.os)
  case unknown => exact fun _ => frame.refl os
  case missing => exact fun _ _ => frame.emit os rfl
  case found =>
    intro st _ _
    exact frame.trans (frame.targeted ..) (frame.content ..)

theorem handlerError (env : Env) (page : Bytes) (ep : EndPoint) (os : Os) :
    R os (handlerError env page ep os).2 := by
  apply handlerError_cases (motive := fun r => R os r.2)
  case opened => exact fun _ => frame.trans (frame.openRead ..) (frame.emit _ rfl)
  case closed => exact fun _ => frame.openRead ..

theorem helper (env : Env) (ep : EndPoint) (os : Os) : R os (buildHttpResponseHelper env ep os).2 := by
  apply helper_cases (motive := fun r => R os r.2)
  case ok | other => exact fun _ => frame.refl os
  case error => exact fun _ => frame.handlerError ..

theorem buildHttpResponse (env : Env) (ep : EndPoint) (os : Os) : R os (buildHttpResponse env ep os).2 :=
  frame.trans (frame.dispatch ..) (frame.helper ..)

end Frame

/-- It is enough to look at what one call adds to the trace. -/
theorem frame_of_trace {R : Os → Os → Prop} (refl : ∀ os, R os os)
    (trans : ∀ {before between after}, R before between → R between after → R before after)
    (one : ∀ {os os' : Os} {call : Syscall}, call.outgoing = false → os'.trace = os.trace ++ [call] → R os os') :
    Frame R where
  refl := refl
  trans := trans
  emit := fun _ _ silent => one silent rfl
  openRead := fun env path os => one rfl (trace_openRead env path os)
  pipe := fun ok os => one rfl (trace_pipe ok os)
  close := by
    intro fd os
    obtain ⟨ok, trace⟩ := trace_close fd os
    exact one rfl trace
  write := fun fd data os => @one _ _ (.write fd _) rfl rfl

/-- No call is taken back. -/
theorem frame_grows : Frame fun os os' => os.trace <+: os'.trace := by
  apply frame_of_trace
  case refl => exact fun _ => List.prefix_rfl
  case trans => exact fun first second => first.trans second
  case one =>
    intro os os' call _ trace
    exact ⟨[call], trace.symm⟩

/-! ## The calls a function makes -/

/-- The trace grows by calls that satisfy `p`. -/
def Appends (p : Syscall → Prop) (os os' : Os) : Prop :=
  ∃ calls, os'.trace = os.trace ++ calls ∧ ∀ call ∈ calls, p call

section Appends
variable {p : Syscall → Prop} {os os' os'' : Os}

theorem Appends.refl (os : Os) : Appends p os os :=
  ⟨[], (List.append_nil _).symm, fun _ mem => absurd mem List.not_mem_nil⟩

theorem Appends.trans (first : Appends p os os') (second : Appends p os' os'') : Appends p os os'' := by
  obtain ⟨before, trace, beforeOk⟩ := first
  obtain ⟨after, trace', afterOk⟩ := second
  refine ⟨before ++ after, by rw [trace', trace, List.append_assoc], ?_⟩
  intro call mem
  rcases List.mem_append.mp mem with mem | mem
  · exact beforeOk call mem
  · exact afterOk call mem

theorem Appends.grows (appends : Appends p os os') : os.trace <+: os'.trace := by
  obtain ⟨calls, trace, -⟩ := appends
  exact ⟨calls, trace.symm⟩

theorem appends_one {call : Syscall} (trace : os'.trace = os.trace ++ [call]) (ok : p call) : Appends p os os' := by
  refine ⟨[call], trace, ?_⟩
  intro other mem
  rw [List.mem_singleton.mp mem]
  exact ok

theorem appends_emit (os : Os) {call : Syscall} (ok : p call) : Appends p os (os.emit call) := appends_one rfl ok

end Appends

/-- The calls that concern the CGI child. -/
def Syscall.ofChild : Syscall → Bool
  | .pipe .. | .fork .. | .execl .. | .write .. | .read .. | .waitpid => true
  | _ => false

/-- The function has nothing to do with the child. -/
abbrev Childless (os os' : Os) : Prop := Appends (fun call => call.ofChild = false) os os'

theorem childless_send (fd : Int) (data : Bytes) (os : Os) : Childless os (os.send fd data).2 :=
  @appends_one _ _ _ (.send fd _) rfl rfl

theorem childless_close (fd : Int) (os : Os) : Childless os (os.close fd) := by
  obtain ⟨ok, trace⟩ := trace_close fd os
  exact appends_one trace rfl

theorem childless_openRead (env : Env) (path : Bytes) (os : Os) : Childless os (os.openRead env path).2 :=
  appends_one (trace_openRead env path os) rfl

theorem childless_sendHttpResponse (ep : EndPoint) (os : Os) : Childless os (sendHttpResponse ep os) := by
  have line := childless_send ep.sock ep.httpResponse.statusLine os
  have headers := line.trans (rel_headers .refl .trans childless_send ep.sock ep.httpResponse.responseHeader _)
  have head := headers.trans (childless_send ep.sock ep.httpResponse.blank _)
  unfold sendHttpResponse
  simp only
  split
  · exact head.trans (rel_sendLoop .refl .trans childless_send ..)
  · exact (head.trans (appends_emit _ rfl)).trans (childless_close ..)

theorem childless_handlerError (env : Env) (page : Bytes) (ep : EndPoint) (os : Os) :
    Childless os (handlerError env page ep os).2 := by
  apply handlerError_cases (motive := fun r => Childless os r.2)
  case opened => exact fun _ => (childless_openRead ..).trans (appends_emit _ rfl)
  case closed => exact fun _ => childless_openRead ..

theorem childless_helper (env : Env) (ep : EndPoint) (os : Os) :
    Childless os (buildHttpResponseHelper env ep os).2 := by
  apply helper_cases (motive := fun r => Childless os r.2)
  case ok | other => exact fun _ => .refl os
  case error => exact fun _ => childless_handlerError ..

theorem childless_targeted (os : Os) (req : HttpRequest) (st : Stat) : Childless os (os.targeted req st) := by
  have located : Childless os (os.located req) := appends_emit os rfl
  unfold Os.targeted
  split
  · exact located.trans (appends_emit _ rfl)
  · exact located

end HttpServer.Protocol
