import HttpServer.Lib.Programs
import HttpServer.Protocol.Respond

/-!
# The request handler as a program of system calls

`HandlerRequest` again, call by call, so that the handlers of several connections can be
interleaved on one descriptor table. Every answer is left to the system, and the indeterminate
variables of the source are parameters. Nothing bounds the loop that sends a CGI response, so
the program of a handler ends where it comes to that loop, and every round is one of its own
(`sendLoop`). Answered by the system of `HttpServer.Protocol.Os` one call after the other, and
with that loop at its end, the program is `handlerRequest` (`run_handlerRequest`).
-/

namespace HttpServer.Server
open Lib Net Protocol

/-- The system calls of a handler. `recv` is all that `RecvHttpRequest` reads, and `read` the
loop up to the end of file; `fork` names the program and the environment of the child. -/
inductive Call where
  | recv (ep : EndPoint)
  | stat (path : Bytes)
  | openRead (path : Bytes)
  | pipeInput
  | pipeOutput
  | fork (path : Bytes) (environ : List Bytes)
  | write (fd : Int) (data : Bytes)
  | read (fd : Int)
  | waitpid
  | send (sock : Int) (data : Bytes)
  | sendfile (sock fd : Int) (count : Nat)
  | close (fd : Int)
  deriving DecidableEq

/-- What the system answers. -/
def Call.Answer : Call → Type
  | recv _ => Sock
  | stat _ => Option Stat
  | openRead _ | write _ _ | send _ _ => Int
  | pipeInput | pipeOutput => Option (Nat × Nat)
  | fork _ _ => Bool
  | read _ => Bytes
  | waitpid => WaitStatus
  | sendfile _ _ _ | close _ => Unit

/-- A part of a handler. -/
abbrev Handler (α : Type) := Program Call Call.Answer α

/-- Where the program of a handler ends: the handler has returned, or is at the condition of the
body loop of `SendHttpResponse`, after `total` bytes. -/
inductive Stage where
  | returned
  | sending (sock : Int) (body : Bytes) (total : Nat)
  deriving DecidableEq

namespace Handler

def recv (ep : EndPoint) : Handler Sock := Program.perform (Call.recv ep)
def stat (path : Bytes) : Handler (Option Stat) := Program.perform (Call.stat path)
def openRead (path : Bytes) : Handler Int := Program.perform (Call.openRead path)
def pipeInput : Handler (Option (Nat × Nat)) := Program.perform Call.pipeInput
def pipeOutput : Handler (Option (Nat × Nat)) := Program.perform Call.pipeOutput
def fork (path : Bytes) (environ : List Bytes) : Handler Bool := Program.perform (Call.fork path environ)
def write (fd : Int) (data : Bytes) : Handler Int := Program.perform (Call.write fd data)
def read (fd : Int) : Handler Bytes := Program.perform (Call.read fd)
def waitpid : Handler WaitStatus := Program.perform Call.waitpid
def send (sock : Int) (data : Bytes) : Handler Int := Program.perform (Call.send sock data)
def sendfile (sock fd : Int) (count : Nat) : Handler Unit := Program.perform (Call.sendfile sock fd count)
def close (fd : Int) : Handler Unit := Program.perform (Call.close fd)

/-- The loop that writes the body, after `total` bytes. -/
def writeLoop (fd : Int) (body : Bytes) (contentLength : Int) : Nat → Int → Handler Unit
  | 0, _ => pure ()
  | fuel + 1, total =>
    if total < contentLength then do
      let size ← write fd (body.drop total.toNat)
      if 0 < size then writeLoop fd body contentLength fuel (total + size) else pure ()
    else pure ()

/-- The body of a `POST` is written. -/
def writeBody (fd : Int) (req : HttpRequest) : Handler Unit :=
  if req.method = POST then writeLoop fd req.requestBody req.contentLength (req.requestBody.length + 1) 0 else pure ()

/-- The parent side of `ProcessCgi`, after the fork. -/
def cgiParent (in0 in1 out0 out1 : Nat) (ep : EndPoint) : Handler (Int × EndPoint) := do
  close in1
  close out0
  writeBody out1 ep.httpRequest
  let output ← read in0
  let status ← waitpid
  close in0
  close out1
  let code :=
    match status with
    | .failed => OK
    | .exited status => if status = 0 then OK else BAD_REQUEST
    | .signaled => SERVER_ERROR
  pure (code, { ep with httpResponse.responseBody := ep.httpResponse.responseBody ++ output })

/-- `ProcessCgi`. -/
def processCgi (ep : EndPoint) : Handler (Int × EndPoint) := do
  match ← pipeInput with
  | none => pure (SERVER_ERROR, ep)
  | some (in0, in1) =>
    match ← pipeOutput with
    | none => pure (SERVER_ERROR, ep)
    | some (out0, out1) =>
      if ← fork (cStr ep.httpRequest.path) (childEnviron ep.httpRequest) then cgiParent in0 in1 out0 out1 ep
      else pure (404, ep)

/-- `ProcessNonCgi`. -/
def processNonCgi (ep : EndPoint) : Handler (Int × EndPoint) := do
  let fd ← openRead (cStr ep.httpRequest.path)
  pure (if 0 ≤ fd then OK else NOT_FOUND, { ep with httpResponse.fd := fd })

/-- The target after a successful first `stat`. -/
def redirect (path : Bytes) (st : Stat) : Handler (Bytes × Stat) :=
  if st.isDir then do
    let index ← stat (cStr (indexPath path))
    pure (indexPath path, index.getD st)
  else pure (path, st)

/-- The part of `BuildHttpResponse` before its `END` label. -/
def dispatch (ep : EndPoint) : Handler (Int × EndPoint) :=
  if ep.httpRequest.method ≠ GET ∧ ep.httpRequest.method ≠ POST then pure (BAD_REQUEST, ep)
  else do
    let req := splitUri ep.httpRequest
    let req := { req with path := webPath req.path }
    match ← stat (cStr req.path) with
    | none => pure (NOT_FOUND, { ep with httpRequest := req })
    | some st =>
      let target ← redirect req.path st
      let req :=
        { req with
          path := target.1
          cgi := req.cgi || target.2.isExec
          size := int32 target.2.size
          suffix := suffixOf target.1 }
      let ep := { ep with httpRequest := req }
      if req.cgi then processCgi ep else processNonCgi ep

/-- `HandlerError(page)`. -/
def handlerError (staleStat : Stat) (page : Bytes) (ep : EndPoint) : Handler EndPoint := do
  let fd ← openRead (cStr page)
  let ep := { ep with httpRequest.cgi := false, httpResponse.fd := fd }
  if 0 < fd then
    let st := (← stat (cStr page)).getD staleStat
    pure
      { ep with
        httpRequest.size := int32 st.size
        httpResponse.responseHeader := ep.httpResponse.responseHeader ++
          [ascii "Content-Type: text/html" ++ LINE_END,
           ascii "Content-Length: " ++ decimalInt st.size ++ LINE_END] }
  else pure ep

/-- `BuildHttpResponseHelper`. -/
def buildHttpResponseHelper (staleStat : Stat) (ep : EndPoint) : Handler EndPoint :=
  let code := ep.httpResponse.statusCode
  let ep :=
    { ep with
      httpResponse.statusLine := ep.httpResponse.statusLine ++ HTTP_VERSION ++ ascii " " ++ decimalInt code ++
        ascii " " ++ code2Desc code ++ LINE_END }
  if code = OK then pure (buildOkResponse ep)
  else if code = NOT_FOUND ∨ code = BAD_REQUEST ∨ code = SERVER_ERROR then handlerError staleStat errorPage ep
  else pure ep

/-- `BuildHttpResponse`. -/
def buildHttpResponse (staleStat : Stat) (ep : EndPoint) : Handler EndPoint := do
  let built ← dispatch ep
  buildHttpResponseHelper staleStat { built.2 with httpResponse.statusCode := built.1 }

/-- The status line and the headers are sent one by one, whatever `send` returns. -/
def sendHeaders (sock : Int) : List Bytes → Handler Unit
  | [] => pure ()
  | line :: rest => do
    let _ ← send sock line
    sendHeaders sock rest

/-- The destructor of the end point, behind which the handler returns. -/
def leave (sock : Int) : Handler Stage := do
  close sock
  pure .returned

/-- A round of the body loop of `SendHttpResponse`. -/
def sendLoop (sock : Int) (body : Bytes) (total : Nat) : Handler Stage :=
  if total < body.length then do
    let size ← send sock (body.drop total)
    if 0 < sizeT size then pure (.sending sock body ((total + sizeT size) % 2 ^ 64)) else leave sock
  else leave sock

/-- `SendHttpResponse`, and what follows it. -/
def sendHttpResponse (ep : EndPoint) : Handler Stage := do
  let _ ← send ep.sock ep.httpResponse.statusLine
  sendHeaders ep.sock ep.httpResponse.responseHeader
  let _ ← send ep.sock ep.httpResponse.blank
  if ep.httpRequest.cgi then pure (.sending ep.sock ep.httpResponse.responseBody 0)
  else do
    sendfile ep.sock ep.httpResponse.fd (sizeT ep.httpRequest.size)
    close ep.httpResponse.fd
    leave ep.sock

/-- What a handler does next where a program of it has ended. -/
def goOn : Stage → Handler Stage
  | .returned => pure .returned
  | .sending sock body total => sendLoop sock body total

/-- A handler that has nothing left to call for has returned. -/
theorem returned_of_resume {p : Handler Stage} {stage : Stage} (ended : p.resume goOn = .ret stage) :
    stage = .returned := by
  cases p with
  | call c next => cases ended
  | ret last =>
    cases last with
    | returned => exact (Program.ret.inj ended).symm
    | sending sock body total =>
      change sendLoop sock body total = .ret stage at ended
      unfold sendLoop at ended
      split at ended <;> cases ended

end Handler

/-- What a request finds in the variables the source leaves uninitialised. -/
structure Circumstances where
  staleSize : Int
  staleStat : Stat

/-- `CallBack::HandlerRequest(sock)`. -/
def handlerRequest (found : Circumstances) (sock : Int) : Handler Stage := do
  let stream ← Handler.recv (EndPoint.new sock found.staleSize)
  let ep := (recvHttpRequest (EndPoint.new sock found.staleSize) stream).1
  if ep.stop then Handler.leave ep.sock
  else do
    let ep ← Handler.buildHttpResponse found.staleStat ep
    Handler.sendHttpResponse ep

/-! ## Answered by one system after the other -/

/-- The answer of the system, and the system it leaves. -/
def answer (env : Env) : (c : Call) → Os → c.Answer × Os
  | .recv ep, os => (os.io, { os with io := (recvHttpRequest ep os.io).2 })
  | .stat path, os => (env.stat path, os.emit (.stat path))
  | .openRead path, os => os.openRead env path
  | .pipeInput, os =>
    ((os.pipe env.pipeInput).1.map fun ends => (ends.1.toNat, ends.2.toNat), (os.pipe env.pipeInput).2)
  | .pipeOutput, os =>
    ((os.pipe env.pipeOutput).1.map fun ends => (ends.1.toNat, ends.2.toNat), (os.pipe env.pipeOutput).2)
  | .fork path environ, os =>
    (env.forkOk, if env.forkOk then (os.emit (.fork true)).emit (.execl path environ) else os.emit (.fork false))
  | .write fd data, os => os.write fd data
  | .read fd, os => (env.cgiOutput, os.emit (.read fd env.cgiOutput))
  | .waitpid, os => (env.wait, os.emit .waitpid)
  | .send sock data, os => os.send sock data
  | .sendfile _ fd count, os => ((), os.emit (.sendfile fd count))
  | .close fd, os => ((), os.close fd)

namespace Handler

section Calls
variable (env : Env) (os : Os)

@[simp] theorem run_recv (ep : EndPoint) :
    (recv ep).run (answer env) os = (os.io, { os with io := (recvHttpRequest ep os.io).2 }) := rfl

@[simp] theorem run_stat (path : Bytes) : (stat path).run (answer env) os = (env.stat path, os.emit (.stat path)) := rfl

@[simp] theorem run_openRead (path : Bytes) : (openRead path).run (answer env) os = os.openRead env path := rfl

@[simp] theorem run_write (fd : Int) (data : Bytes) : (write fd data).run (answer env) os = os.write fd data := rfl

@[simp] theorem run_read (fd : Int) :
    (read fd).run (answer env) os = (env.cgiOutput, os.emit (.read fd env.cgiOutput)) := rfl

@[simp] theorem run_waitpid : waitpid.run (answer env) os = (env.wait, os.emit .waitpid) := rfl

@[simp] theorem run_send (sock : Int) (data : Bytes) : (send sock data).run (answer env) os = os.send sock data := rfl

@[simp] theorem run_sendfile (sock fd : Int) (count : Nat) :
    (sendfile sock fd count).run (answer env) os = ((), os.emit (.sendfile fd count)) := rfl

@[simp] theorem run_close (fd : Int) : (close fd).run (answer env) os = ((), os.close fd) := rfl

end Calls

variable (env : Env)

theorem run_writeLoop (fd : Int) (body : Bytes) (contentLength : Int) (fuel : Nat) (total : Int) (os : Os) :
    (writeLoop fd body contentLength fuel total).run (answer env) os =
      ((), Protocol.writeLoop fd body contentLength fuel total os) := by
  induction fuel generalizing total os with
  | zero => rfl
  | succ fuel ih =>
    unfold writeLoop Protocol.writeLoop
    split
    · rw [Program.run_bind, run_write, Program.run_ite, ih]
      simp only
      split <;> rfl
    · rfl

theorem run_writeBody (fd : Int) (req : HttpRequest) (os : Os) :
    (writeBody fd req).run (answer env) os =
      ((), if req.method = POST then
          Protocol.writeLoop fd req.requestBody req.contentLength (req.requestBody.length + 1) 0 os
        else os) := by
  unfold writeBody
  split
  · exact run_writeLoop ..
  · rfl

theorem run_cgiParent (in0 in1 out0 out1 : Nat) (ep : EndPoint) (os : Os) :
    let a := Protocol.cgiParent env in0 in1 out0 out1 ep os
    (cgiParent in0 in1 out0 out1 ep).run (answer env) os = ((a.code, a.ep), a.os) := by
  simp only [cgiParent, Program.run_bind, run_close, run_writeBody, run_read, run_waitpid, Program.run_pure]
  rfl

/-- The ends of the pipe made next. -/
def pipeEnds (os : Os) : Nat × Nat := (lowestUnused os.fds, lowestUnused (insert (lowestUnused os.fds) os.fds))

theorem run_pipeInput {ok : Bool} (outcome : env.pipeInput = ok) (os : Os) :
    pipeInput.run (answer env) os = (if ok then some (pipeEnds os) else none, (os.pipe ok).2) := by
  show (((os.pipe env.pipeInput).1.map _ : Option (Nat × Nat)), (os.pipe env.pipeInput).2) = _
  rw [outcome]
  cases ok <;> rfl

theorem run_pipeOutput {ok : Bool} (outcome : env.pipeOutput = ok) (os : Os) :
    pipeOutput.run (answer env) os = (if ok then some (pipeEnds os) else none, (os.pipe ok).2) := by
  show (((os.pipe env.pipeOutput).1.map _ : Option (Nat × Nat)), (os.pipe env.pipeOutput).2) = _
  rw [outcome]
  cases ok <;> rfl

theorem run_fork {ok : Bool} (outcome : env.forkOk = ok) (path : Bytes) (environ : List Bytes) (os : Os) :
    (fork path environ).run (answer env) os =
      (ok, if ok then (os.emit (.fork true)).emit (.execl path environ) else os.emit (.fork false)) := by
  show (env.forkOk, if env.forkOk then _ else _) = _
  rw [outcome]

theorem run_processCgi (ep : EndPoint) (os : Os) :
    let a := Protocol.processCgi env ep os
    (processCgi ep).run (answer env) os = ((a.code, a.ep), a.os) := by
  unfold processCgi Protocol.processCgi
  cases input : env.pipeInput with
  | false =>
    rw [Program.run_bind, run_pipeInput env input]
    rfl
  | true =>
    rw [Program.run_bind, run_pipeInput env input]
    cases output : env.pipeOutput with
    | false =>
      simp only [if_true, Program.run_bind, run_pipeOutput env output]
      rfl
    | true =>
      simp only [if_true, Program.run_bind, run_pipeOutput env output]
      cases forked : env.forkOk with
      | false =>
        simp only [run_fork env forked]
        rfl
      | true =>
        simp only [run_fork env forked, if_true]
        exact run_cgiParent ..

theorem run_processNonCgi (ep : EndPoint) (os : Os) :
    let a := Protocol.processNonCgi env ep os
    (processNonCgi ep).run (answer env) os = ((a.code, a.ep), a.os) := by
  unfold processNonCgi Protocol.processNonCgi
  rw [Program.run_bind, run_openRead, Program.run_pure]
  simp only
  split <;> rfl

theorem run_redirect (path : Bytes) (st : Stat) (os : Os) :
    (redirect path st).run (answer env) os =
      (Protocol.redirect env path st, if st.isDir then os.emit (.stat (cStr (indexPath path))) else os) := by
  unfold redirect Protocol.redirect
  split
  · rw [Program.run_bind, run_stat, Program.run_pure]
  · rfl

theorem run_dispatch (ep : EndPoint) (os : Os) :
    let a := Protocol.dispatch env ep os
    (dispatch ep).run (answer env) os = ((a.code, a.ep), a.os) := by
  unfold dispatch Protocol.dispatch
  split
  · rfl
  · rw [Program.run_bind, run_stat]
    cases found : env.stat (cStr (webPath (splitUri ep.httpRequest).path)) with
    | none => simp only [found, Program.run_pure]
    | some st =>
      simp only [found, Program.run_bind, run_redirect, Program.run_ite]
      split
      · exact run_processCgi ..
      · exact run_processNonCgi ..

theorem run_handlerError (page : Bytes) (ep : EndPoint) (os : Os) :
    (handlerError env.staleStat page ep).run (answer env) os = Protocol.handlerError env page ep os := by
  unfold handlerError Protocol.handlerError
  rw [Program.run_bind, run_openRead, Program.run_ite]
  simp only
  split
  · rw [Program.run_bind, run_stat, Program.run_pure]
  · rfl

theorem run_buildHttpResponseHelper (ep : EndPoint) (os : Os) :
    (buildHttpResponseHelper env.staleStat ep).run (answer env) os = Protocol.buildHttpResponseHelper env ep os := by
  unfold buildHttpResponseHelper Protocol.buildHttpResponseHelper
  simp only
  split
  · rfl
  · split
    · exact run_handlerError ..
    · rfl

theorem run_buildHttpResponse (ep : EndPoint) (os : Os) :
    (buildHttpResponse env.staleStat ep).run (answer env) os = Protocol.buildHttpResponse env ep os := by
  unfold buildHttpResponse Protocol.buildHttpResponse
  rw [Program.run_bind, run_dispatch, run_buildHttpResponseHelper]

theorem run_sendHeaders (sock : Int) (lines : List Bytes) (os : Os) :
    (sendHeaders sock lines).run (answer env) os = ((), lines.foldl (fun os line => (os.send sock line).2) os) := by
  induction lines generalizing os with
  | nil => rfl
  | cons line rest ih =>
    unfold sendHeaders
    rw [Program.run_bind, run_send, ih]
    rfl

@[simp] theorem run_leave (sock : Int) (os : Os) :
    (leave sock).run (answer env) os = (.returned, (os.close sock)) := rfl

/-- The system of one connection does what is left where a program has ended. -/
def finish : Stage → Os → Os
  | .returned, os => os
  | .sending sock body total, os => (Protocol.sendLoop sock body (os.sends.length + 2) total os).close sock

theorem run_sendHttpResponse (ep : EndPoint) (os : Os) :
    let ran := (sendHttpResponse ep).run (answer env) os
    finish ran.1 ran.2 = (Protocol.sendHttpResponse ep os).close ep.sock := by
  unfold sendHttpResponse Protocol.sendHttpResponse
  simp only [Program.run_bind, run_send, run_sendHeaders, Program.run_ite, Program.run_pure, run_sendfile, run_close,
    run_leave]
  by_cases cgi : ep.httpRequest.cgi = true
  · simp only [if_pos cgi, finish]
  · simp only [if_neg cgi, finish]

/-! ## The loop ends -/

/-- The body loop ends within so many rounds. -/
def Ends (sock : Int) (body : Bytes) : Nat → Nat → Os → Prop
  | 0, _, _ => False
  | rounds + 1, total, os =>
    total < body.length → 0 < sizeT (os.send sock (body.drop total)).1 →
      Ends sock body rounds ((total + sizeT (os.send sock (body.drop total)).1) % 2 ^ 64)
        (os.send sock (body.drop total)).2

/-- Each round takes one result of the script. Behind it the rest is sent, and all of it is
behind `total` then, or `total` has wrapped and the next result is 0 as a `size_t`. -/
theorem ends (sock : Int) (body : Bytes) {rounds total : Nat} {os : Os} (enough : os.sends.length + 2 ≤ rounds) :
    Ends sock body rounds total os := by
  induction rounds generalizing total os with
  | zero => omega
  | succ rounds ih =>
    intro more some
    have sends : (os.send sock (body.drop total)).2.sends = os.sends.tail := rfl
    cases script : os.sends with
    | cons ret rest =>
      apply ih
      rw [sends, script, List.tail_cons]
      rw [script, List.length_cons] at enough
      omega
    | nil =>
      have result (os : Os) (total : Nat) (script : os.sends = []) (more : total < body.length) :
          sizeT (os.send sock (body.drop total)).1 = (body.length - total) % 2 ^ 64 := by
        show sizeT (min (os.sends.headD (body.drop total).length) (body.drop total).length) = _
        rw [script, List.headD_nil, min_self, List.length_drop]
        unfold sizeT
        omega
      obtain ⟨rounds, rfl⟩ : ∃ k, rounds = k + 1 := ⟨rounds - 1, by omega⟩
      intro more' some'
      rw [result _ _ (by rw [sends, script]; rfl) more', result os total script more] at some'
      rw [result os total script more] at more'
      omega

end Handler

/-- **The program is the handler.** Answered by the system call by call, and with the body loop
where it comes to that, the program does to the system what `handlerRequest` does. -/
theorem run_handlerRequest (env : Env) (sock : Int) (os : Os) :
    let ran := (handlerRequest ⟨env.staleSize, env.staleStat⟩ sock).run (answer env) os
    Handler.finish ran.1 ran.2 = Protocol.handlerRequest env sock os := by
  unfold handlerRequest Protocol.handlerRequest
  simp only [Program.run_bind, Handler.run_recv]
  by_cases stop : (recvHttpRequest (EndPoint.new sock env.staleSize) os.io).1.stop = true
  · simp only [stop, if_true, Handler.run_leave]
    rfl
  · rw [Bool.not_eq_true] at stop
    simp only [stop, Bool.false_eq_true, if_false, Program.run_bind, Handler.run_buildHttpResponse]
    exact Handler.run_sendHttpResponse env _ _

end HttpServer.Server
