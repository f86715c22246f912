import HttpServer.Protocol.Calls

/-!
# What goes over the wire

The client sees the bytes of `send` and, through `sendfile`, of the files the server has
open. `Wire` reads both off a trace; every `send` and `sendfile` of a connection goes to its
one socket. Building a response is `Mute`, and sending it is a chain of `Sent` steps, one a
call.
-/

namespace HttpServer.Protocol
open Lib Net

/-! ## The client's side of a trace -/

/-- The files the server has open, by descriptor, and the bytes the client has received. -/
structure Wire where
  files : Int → Option Bytes
  sent : Bytes

/-- One call, on a filesystem with these contents: `sendfile` transfers from the start of the
file, at most all of it. -/
def Wire.step (contents : Bytes → Bytes) (wire : Wire) : Syscall → Wire
  | .openRead path fd => if 0 ≤ fd then { wire with files := Function.update wire.files fd (some path) } else wire
  | .close fd _ => { wire with files := Function.update wire.files fd none }
  | .send _ data => { wire with sent := wire.sent ++ data }
  | .sendfile fd count =>
    { wire with sent := wire.sent ++ (((wire.files fd).map contents).getD []).take count }
  | _ => wire

/-- What the trace has done so far. -/
def Os.wire (contents : Bytes → Bytes) (os : Os) : Wire :=
  os.trace.foldl (Wire.step contents) ⟨fun _ => none, []⟩

theorem wire_snoc (contents : Bytes → Bytes) {os os' : Os} {call : Syscall} (trace : os'.trace = os.trace ++ [call]) :
    os'.wire contents = (os.wire contents).step contents call := by
  unfold Os.wire
  rw [trace, List.foldl_append]
  rfl

theorem wire_emit (contents : Bytes → Bytes) (os : Os) (call : Syscall) :
    (os.emit call).wire contents = (os.wire contents).step contents call := wire_snoc contents rfl

theorem wire_send (contents : Bytes → Bytes) (sock : Int) (data : Bytes) (os : Os) :
    (os.send sock data).2.wire contents =
      (os.wire contents).step contents (.send sock (data.take (min (os.sends.headD data.length) data.length).toNat)) :=
  wire_snoc contents rfl

theorem wire_openRead (contents : Bytes → Bytes) (env : Env) (path : Bytes) (os : Os) :
    (os.openRead env path).2.wire contents =
      (os.wire contents).step contents (.openRead path (os.openRead env path).1) :=
  wire_snoc contents (trace_openRead env path os)

theorem sent_step {call : Syscall} (silent : call.outgoing = false) (contents : Bytes → Bytes) (wire : Wire) :
    (wire.step contents call).sent = wire.sent := by
  cases call with
  | openRead path fd =>
    by_cases opened : 0 ≤ fd
    · simp [Wire.step, opened]
    · simp [Wire.step, opened]
  | send fd data => cases silent
  | sendfile fd count => cases silent
  | _ => rfl

/-- Building a response sends nothing. -/
theorem frame_sent (contents : Bytes → Bytes) :
    Frame fun os os' => (os'.wire contents).sent = (os.wire contents).sent := by
  apply frame_of_trace
  case refl => exact fun _ => rfl
  case trans => exact fun first second => second.trans first
  case one =>
    intro os os' call silent trace
    rw [wire_snoc contents trace, sent_step silent]

theorem wire_close (contents : Bytes → Bytes) (fd : Int) (os : Os) :
    ((os.close fd).wire contents).sent = (os.wire contents).sent := (frame_sent contents).close fd os

/-- Nothing is sent, and no result of `send` used up. -/
structure Mute (os os' : Os) : Prop where
  sends : os'.sends = os.sends
  sent : ∀ contents, (os'.wire contents).sent = (os.wire contents).sent

theorem frame_mute : Frame Mute where
  refl := fun _ => ⟨rfl, fun _ => rfl⟩
  trans := fun first second =>
    ⟨second.sends.trans first.sends, fun contents => (second.sent contents).trans (first.sent contents)⟩
  emit := fun os _ silent => ⟨rfl, fun contents => (frame_sent contents).emit os silent⟩
  openRead := by
    intro env path os
    refine ⟨?_, fun contents => (frame_sent contents).openRead env path os⟩
    unfold Os.openRead
    split <;> rfl
  pipe := by
    intro ok os
    refine ⟨?_, fun contents => (frame_sent contents).pipe ok os⟩
    unfold Os.pipe
    split <;> rfl
  close := by
    intro fd os
    refine ⟨?_, fun contents => (frame_sent contents).close fd os⟩
    unfold Os.close
    split <;> rfl
  write := fun fd data os => ⟨rfl, fun contents => (frame_sent contents).write fd data os⟩

/-! ## Sending -/

/-- The client receives `data`, nothing is opened or closed, and `send` still transfers all
it is asked to. -/
structure Sent (contents : Bytes → Bytes) (data : Bytes) (os os' : Os) : Prop where
  script : os'.sends = []
  files : (os'.wire contents).files = (os.wire contents).files
  sent : (os'.wire contents).sent = (os.wire contents).sent ++ data

section Sending
variable {contents : Bytes → Bytes} {os os' os'' : Os} {first second : Bytes}

theorem Sent.trans (left : Sent contents first os os') (right : Sent contents second os' os'') :
    Sent contents (first ++ second) os os'' := by
  constructor
  · exact right.script
  · exact right.files.trans left.files
  · rw [right.sent, left.sent, List.append_assoc]

theorem sent_send (script : os.sends = []) (sock : Int) (data : Bytes) :
    Sent contents data os (os.send sock data).2 := by
  have whole : data.take (min (os.sends.headD data.length) data.length).toNat = data := by simp [script]
  constructor
  · simp [Os.send, script]
  · rw [wire_send]
    rfl
  · rw [wire_send, whole]
    rfl

theorem sent_headers (script : os.sends = []) (sock : Int) (lines : List Bytes) :
    Sent contents lines.flatten os (lines.foldl (fun os line => (os.send sock line).2) os) := by
  induction lines generalizing os with
  | nil => exact ⟨script, rfl, by simp⟩
  | cons line lines ih =>
    have head : Sent contents line os (os.send sock line).2 := sent_send script sock line
    rw [List.foldl_cons, List.flatten_cons]
    exact head.trans (ih head.script)

/-- The first round of the body loop transfers all of a body, and the second ends the loop. -/
theorem sent_sendLoop (script : os.sends = []) (sock : Int) {body : Bytes} (addressable : body.length < 2 ^ 63) :
    Sent contents body os (sendLoop sock body (os.sends.length + 2) 0 os) := by
  have all : (os.send sock (body.drop 0)).1 = body.length := by simp [Os.send, script]
  have size : sizeT (os.send sock (body.drop 0)).1 = body.length := by
    rw [all]
    unfold sizeT
    omega
  rw [script]
  show Sent contents body os (sendLoop sock body 2 0 os)
  unfold sendLoop
  simp only [size]
  split
  · rename_i some
    have total : (0 + body.length) % 2 ^ 64 = body.length := by omega
    rw [total]
    unfold sendLoop
    rw [if_neg (lt_irrefl _)]
    exact sent_send script sock body
  · rename_i none
    have empty : body = [] := List.eq_nil_of_length_eq_zero (by omega)
    subst empty
    exact ⟨script, rfl, by simp⟩

/-- The body the client receives: the CGI response, or what `sendfile` takes of the file. -/
def sentBody (contents : Bytes → Bytes) (ep : EndPoint) (os : Os) : Bytes :=
  if ep.httpRequest.cgi then ep.httpResponse.responseBody
  else ((((os.wire contents).files ep.httpResponse.fd).map contents).getD []).take (sizeT ep.httpRequest.size)

theorem sent_sendHttpResponse (script : os.sends = []) (contents : Bytes → Bytes) (ep : EndPoint)
    (addressable : ep.httpRequest.cgi = true → ep.httpResponse.responseBody.length < 2 ^ 63) :
    ((sendHttpResponse ep os).wire contents).sent =
      (os.wire contents).sent ++ (ep.httpResponse.statusLine ++ ep.httpResponse.responseHeader.flatten ++
        ep.httpResponse.blank ++ sentBody contents ep os) := by
  have line : Sent contents ep.httpResponse.statusLine os (os.send ep.sock ep.httpResponse.statusLine).2 :=
    sent_send script ..
  have headers := line.trans (sent_headers line.script ep.sock ep.httpResponse.responseHeader)
  have head := headers.trans (sent_send headers.script ep.sock ep.httpResponse.blank)
  unfold sendHttpResponse sentBody
  simp only
  split
  · rename_i cgi
    rw [(sent_sendLoop head.script ep.sock (addressable cgi)).sent, head.sent, List.append_assoc]
  · rw [wire_close, wire_emit]
    simp only [Wire.step]
    rw [head.files, head.sent, List.append_assoc]

end Sending

end HttpServer.Protocol
