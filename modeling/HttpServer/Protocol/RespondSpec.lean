import HttpServer.Protocol.Respond

/-!
# The cases of a response

`BuildHttpResponse` finds the method unknown, the file missing, or a target to serve.
`dispatch_cases` says so once, under names for the end point and the system at each point,
so that what holds of every response is proved case by case without unfolding `dispatch`;
`processCgi_cases`, `helper_cases` and `handlerError_cases` do the same for its parts.
-/

namespace HttpServer.Protocol
open Lib Net

/-- The path `stat` is asked for first. -/
def firstPath (req : HttpRequest) : Bytes := webPath (splitUri req).path

/-- The end point once its path is under the web root. -/
def EndPoint.located (ep : EndPoint) : EndPoint :=
  { ep with httpRequest := { splitUri ep.httpRequest with path := firstPath ep.httpRequest } }

/-- Whether a target that exists is served by `ProcessCgi`. -/
def servesCgi (env : Env) (req : HttpRequest) (st : Stat) : Bool :=
  (splitUri req).cgi || (redirect env (firstPath req) st).2.isExec

/-- The end point once its target is known. -/
def EndPoint.targeted (env : Env) (ep : EndPoint) (st : Stat) : EndPoint :=
  let target := redirect env (firstPath ep.httpRequest) st
  { ep with
    httpRequest :=
      { splitUri ep.httpRequest with
        path := target.1
        cgi := servesCgi env ep.httpRequest st
        size := int32 target.2.size
        suffix := suffixOf target.1 } }

/-- The system after the first `stat`. -/
def Os.located (os : Os) (req : HttpRequest) : Os := os.emit (.stat (cStr (firstPath req)))

/-- The system after the `stat` of the index page, if there is one. -/
def Os.targeted (os : Os) (req : HttpRequest) (st : Stat) : Os :=
  if st.isDir then (os.located req).emit (.stat (cStr (indexPath (firstPath req)))) else os.located req

/-- `ProcessCgi` or `ProcessNonCgi`. -/
def content (cgi : Bool) (env : Env) (ep : EndPoint) (os : Os) : Answer :=
  if cgi then processCgi env ep os else processNonCgi env ep os

theorem dispatch_cases {motive : Answer → Prop} (env : Env) (ep : EndPoint) (os : Os)
    (unknown : ¬ (ep.httpRequest.method = GET ∨ ep.httpRequest.method = POST) → motive ⟨BAD_REQUEST, ep, os⟩)
    (missing : (ep.httpRequest.method = GET ∨ ep.httpRequest.method = POST) →
      env.stat (cStr (firstPath ep.httpRequest)) = none →
      motive ⟨NOT_FOUND, ep.located, os.located ep.httpRequest⟩)
    (found : ∀ st, (ep.httpRequest.method = GET ∨ ep.httpRequest.method = POST) →
      env.stat (cStr (firstPath ep.httpRequest)) = some st →
      motive (content (servesCgi env ep.httpRequest st) env (ep.targeted env st) (os.targeted ep.httpRequest st))) :
    motive (dispatch env ep os) := by
  unfold dispatch
  by_cases known : ep.httpRequest.method = GET ∨ ep.httpRequest.method = POST
  · rw [if_neg (by tauto)]
    simp only
    cases stat : env.stat (cStr (webPath (splitUri ep.httpRequest).path)) with
    | none => exact missing known stat
    | some st => exact found st known stat
  · rw [if_pos (not_or.mp known)]
    exact unknown known

/-- A pipe that fails, a fork that fails, or the parent of a child. -/
theorem processCgi_cases {motive : Answer → Prop} (env : Env) (ep : EndPoint) (os : Os)
    (noInput : motive ⟨SERVER_ERROR, ep, (os.pipe env.pipeInput).2⟩)
    (noOutput : motive ⟨SERVER_ERROR, ep, ((os.pipe env.pipeInput).2.pipe env.pipeOutput).2⟩)
    (noFork : motive ⟨404, ep, ((os.pipe env.pipeInput).2.pipe env.pipeOutput).2.emit (.fork false)⟩)
    (parent : ∀ in0 in1 out0 out1, motive (cgiParent env in0 in1 out0 out1 ep
      ((((os.pipe env.pipeInput).2.pipe env.pipeOutput).2.emit (.fork true)).emit
        (.execl (cStr ep.httpRequest.path) (childEnviron ep.httpRequest))))) :
    motive (processCgi env ep os) := by
  unfold processCgi
  simp only
  split
  · exact noInput
  · split
    · exact noOutput
    · split
      · exact parent ..
      · exact noFork

/-! ## What the response leaves of the end point -/

/-- From `ep` to `ep'` neither the connection nor the kind of content changes. -/
structure SameSource (ep ep' : EndPoint) : Prop where
  sock : ep'.sock = ep.sock
  cgi : ep'.httpRequest.cgi = ep.httpRequest.cgi

theorem content_same (cgi : Bool) (env : Env) (ep : EndPoint) (os : Os) :
    SameSource ep (content cgi env ep os).ep := by
  cases cgi with
  | true =>
    apply processCgi_cases (motive := fun a => SameSource ep a.ep)
    case noInput | noOutput | noFork => exact ⟨rfl, rfl⟩
    case parent => exact fun _ _ _ _ => ⟨rfl, rfl⟩
  | false =>
    show SameSource ep (processNonCgi env ep os).ep
    unfold processNonCgi
    simp only
    split <;> exact ⟨rfl, rfl⟩

/-! ## What a dispatch comes to -/

/-- The mode bits and the size used are those of the target, if it exists. -/
theorem redirect_described {env : Env} {path : Bytes} {st st' : Stat} (found : env.stat (cStr path) = some st)
    (target : env.stat (cStr (redirect env path st).1) = some st') : (redirect env path st).2 = st' := by
  unfold redirect at target ⊢
  split at target
  · rename_i dir
    rw [if_pos dir, target, Option.getD_some]
  · rename_i plain
    rw [if_neg plain]
    exact Option.some.inj (found.symm.trans target)

/-- The codes `BuildHttpResponseHelper` answers with the error page. -/
def ErrorCode (code : Int) : Prop := code = NOT_FOUND ∨ code = BAD_REQUEST ∨ code = SERVER_ERROR

theorem ErrorCode.ne_ok {code : Int} (error : ErrorCode code) : code ≠ OK := by
  rcases error with rfl | rfl | rfl <;> decide

/-- The parts of the response written by `BuildHttpResponseHelper` alone are as they were. -/
structure SameHead (ep ep' : EndPoint) : Prop where
  statusLine : ep'.httpResponse.statusLine = ep.httpResponse.statusLine
  responseHeader : ep'.httpResponse.responseHeader = ep.httpResponse.responseHeader
  blank : ep'.httpResponse.blank = ep.httpResponse.blank

/-- `ProcessCgi` succeeds with the child's output, or fails. -/
theorem processCgi_outcome (env : Env) (ep : EndPoint) (os : Os) :
    (processCgi env ep os).ep.httpRequest = ep.httpRequest ∧ SameHead ep (processCgi env ep os).ep ∧
      (((processCgi env ep os).code = OK ∧ (processCgi env ep os).ep.httpResponse.responseBody =
          ep.httpResponse.responseBody ++ env.cgiOutput) ∨
        ErrorCode (processCgi env ep os).code) := by
  apply processCgi_cases (motive := fun a => a.ep.httpRequest = ep.httpRequest ∧ SameHead ep a.ep ∧
    ((a.code = OK ∧ a.ep.httpResponse.responseBody = ep.httpResponse.responseBody ++ env.cgiOutput) ∨
      ErrorCode a.code))
  case noInput | noOutput => exact ⟨rfl, ⟨rfl, rfl, rfl⟩, .inr (.inr (.inr rfl))⟩
  case noFork => exact ⟨rfl, ⟨rfl, rfl, rfl⟩, .inr (.inl rfl)⟩
  case parent =>
    intro in0 in1 out0 out1
    refine ⟨rfl, ⟨rfl, rfl, rfl⟩, ?_⟩
    unfold cgiParent
    cases env.wait with
    | failed => exact .inl ⟨rfl, rfl⟩
    | exited status =>
      by_cases clean : status = 0
      · exact .inl ⟨if_pos clean, rfl⟩
      · exact .inr (.inr (.inl (if_neg clean)))
    | signaled => exact .inr (.inr (.inr rfl))

/-- `ProcessNonCgi` keeps the result of `open`, and succeeds if it is a descriptor. -/
theorem processNonCgi_outcome (env : Env) (ep : EndPoint) (os : Os) :
    (processNonCgi env ep os).ep =
        { ep with httpResponse.fd := (os.openRead env (cStr ep.httpRequest.path)).1 } ∧
      (processNonCgi env ep os).os = (os.openRead env (cStr ep.httpRequest.path)).2 ∧
      (((processNonCgi env ep os).code = OK ∧ 0 ≤ (os.openRead env (cStr ep.httpRequest.path)).1) ∨
        ErrorCode (processNonCgi env ep os).code) := by
  unfold processNonCgi
  simp only
  split
  · rename_i opened
    exact ⟨rfl, rfl, .inl ⟨rfl, opened⟩⟩
  · exact ⟨rfl, rfl, .inr (.inl rfl)⟩

theorem content_request (cgi : Bool) (env : Env) (ep : EndPoint) (os : Os) :
    (content cgi env ep os).ep.httpRequest = ep.httpRequest := by
  cases cgi with
  | true => exact (processCgi_outcome env ep os).1
  | false =>
    show (processNonCgi env ep os).ep.httpRequest = _
    rw [(processNonCgi_outcome env ep os).1]

/-- What `dispatch` comes to: a failure, the output of a CGI program, or a file opened last. -/
inductive Outcome (env : Env) (ep : EndPoint) : Answer → Prop where
  | failed {a : Answer} (code : ErrorCode a.code) (head : SameHead ep a.ep) : Outcome env ep a
  | cgi {a : Answer} (st : Stat) (method : ep.httpRequest.method = GET ∨ ep.httpRequest.method = POST)
      (found : env.stat (cStr (firstPath ep.httpRequest)) = some st) (serves : servesCgi env ep.httpRequest st = true)
      (code : a.code = OK) (head : SameHead ep a.ep)
      (request : a.ep.httpRequest = (ep.targeted env st).httpRequest)
      (body : a.ep.httpResponse.responseBody = ep.httpResponse.responseBody ++ env.cgiOutput) : Outcome env ep a
  | file {a : Answer} (st : Stat) (method : ep.httpRequest.method = GET ∨ ep.httpRequest.method = POST)
      (found : env.stat (cStr (firstPath ep.httpRequest)) = some st) (serves : servesCgi env ep.httpRequest st = false)
      (code : a.code = OK) (head : SameHead ep a.ep)
      (request : a.ep.httpRequest = (ep.targeted env st).httpRequest) (before : Os)
      (opens : a.os = (before.openRead env (cStr (redirect env (firstPath ep.httpRequest) st).1)).2)
      (fd : a.ep.httpResponse.fd = (before.openRead env (cStr (redirect env (firstPath ep.httpRequest) st).1)).1)
      (opened : 0 ≤ a.ep.httpResponse.fd) : Outcome env ep a

theorem dispatch_outcome (env : Env) (ep : EndPoint) (os : Os) : Outcome env ep (dispatch env ep os) := by
  apply dispatch_cases
  case unknown => exact fun _ => .failed (.inr (.inl rfl)) ⟨rfl, rfl, rfl⟩
  case missing => exact fun _ _ => .failed (.inl rfl) ⟨rfl, rfl, rfl⟩
  case found =>
    intro st method found
    cases serves : servesCgi env ep.httpRequest st with
    | true =>
      obtain ⟨request, head, ⟨code, body⟩ | error⟩ :=
        processCgi_outcome env (ep.targeted env st) (os.targeted ep.httpRequest st)
      · exact .cgi st method found serves code ⟨head.1, head.2, head.3⟩ request body
      · exact .failed error ⟨head.1, head.2, head.3⟩
    | false =>
      obtain ⟨ep', opens, ⟨code, opened⟩ | error⟩ :=
        processNonCgi_outcome env (ep.targeted env st) (os.targeted ep.httpRequest st)
      · apply Outcome.file st method found serves code
        case before => exact os.targeted ep.httpRequest st
        case opens => exact opens
        all_goals rw [ep']
        · exact ⟨rfl, rfl, rfl⟩
        · rfl
        · exact opened
      · apply Outcome.failed error
        rw [ep']
        exact ⟨rfl, rfl, rfl⟩

theorem Outcome.head {env : Env} {ep : EndPoint} {a : Answer} (outcome : Outcome env ep a) : SameHead ep a.ep := by
  cases outcome with
  | failed code head => exact head
  | cgi st method found serves code head => exact head
  | file st method found serves code head => exact head

/-- A success has a target, and the request names it. -/
theorem Outcome.target {env : Env} {ep : EndPoint} {a : Answer} (outcome : Outcome env ep a) (ok : a.code = OK) :
    ∃ st, (ep.httpRequest.method = GET ∨ ep.httpRequest.method = POST) ∧
      env.stat (cStr (firstPath ep.httpRequest)) = some st ∧ a.ep.httpRequest = (ep.targeted env st).httpRequest := by
  cases outcome with
  | failed code => exact absurd ok code.ne_ok
  | cgi st method found serves code head request => exact ⟨st, method, found, request⟩
  | file st method found serves code head request => exact ⟨st, method, found, request⟩

/-! ## The helper -/

/-- The end point once its status line is written. -/
def EndPoint.stated (ep : EndPoint) : EndPoint :=
  { ep with
    httpResponse.statusLine := ep.httpResponse.statusLine ++ HTTP_VERSION ++ ascii " " ++
      decimalInt ep.httpResponse.statusCode ++ ascii " " ++ code2Desc ep.httpResponse.statusCode ++ LINE_END }

theorem helper_ok (env : Env) {ep : EndPoint} (os : Os) (ok : ep.httpResponse.statusCode = OK) :
    buildHttpResponseHelper env ep os = (buildOkResponse ep.stated, os) := if_pos ok

theorem helper_error (env : Env) {ep : EndPoint} (os : Os) (error : ErrorCode ep.httpResponse.statusCode) :
    buildHttpResponseHelper env ep os = handlerError env errorPage ep.stated os := by
  unfold buildHttpResponseHelper
  simp only
  rw [if_neg error.ne_ok]
  exact if_pos error

/-- The end point with an error page of these dimensions open at `fd`. -/
def EndPoint.paged (ep : EndPoint) (fd : Int) (st : Stat) : EndPoint :=
  { ep with
    httpRequest.cgi := false
    httpRequest.size := int32 st.size
    httpResponse.fd := fd
    httpResponse.responseHeader := ep.httpResponse.responseHeader ++
      [ascii "Content-Type: text/html" ++ LINE_END, ascii "Content-Length: " ++ decimalInt st.size ++ LINE_END] }

theorem handlerError_opened (env : Env) (page : Bytes) (ep : EndPoint) {os : Os}
    (opened : 0 < (os.openRead env (cStr page)).1) :
    handlerError env page ep os =
      (ep.paged (os.openRead env (cStr page)).1 ((env.stat (cStr page)).getD env.staleStat),
        (os.openRead env (cStr page)).2.emit (.stat (cStr page))) := if_pos opened

theorem handlerError_closed (env : Env) (page : Bytes) (ep : EndPoint) {os : Os}
    (closed : ¬ 0 < (os.openRead env (cStr page)).1) :
    handlerError env page ep os =
      ({ ep with httpRequest.cgi := false, httpResponse.fd := (os.openRead env (cStr page)).1 },
        (os.openRead env (cStr page)).2) := if_neg closed

/-! ## The connection -/

/-- The end point of a connection once its request is received. -/
def accepted (env : Env) (sock : Int) (os : Os) : EndPoint :=
  (recvHttpRequest (EndPoint.new sock env.staleSize) os.io).1

/-- The system of a connection once its request is received. -/
def Os.accepting (os : Os) (env : Env) (sock : Int) : Os :=
  { os with io := (recvHttpRequest (EndPoint.new sock env.staleSize) os.io).2 }

/-- The response a connection builds. -/
def answered (env : Env) (sock : Int) (os : Os) : EndPoint × Os :=
  buildHttpResponse env (accepted env sock os) (os.accepting env sock)

theorem handlerError_cases {motive : EndPoint × Os → Prop} (env : Env) (page : Bytes) (ep : EndPoint) (os : Os)
    (opened : 0 < (os.openRead env (cStr page)).1 →
      motive (ep.paged (os.openRead env (cStr page)).1 ((env.stat (cStr page)).getD env.staleStat),
        (os.openRead env (cStr page)).2.emit (.stat (cStr page))))
    (closed : ¬ 0 < (os.openRead env (cStr page)).1 →
      motive ({ ep with httpRequest.cgi := false, httpResponse.fd := (os.openRead env (cStr page)).1 },
        (os.openRead env (cStr page)).2)) : motive (handlerError env page ep os) := by
  by_cases positive : 0 < (os.openRead env (cStr page)).1
  · rw [handlerError_opened env page ep positive]
    exact opened positive
  · rw [handlerError_closed env page ep positive]
    exact closed positive

/-- A success, a failure with its page, or a code the helper does not know. -/
theorem helper_cases {motive : EndPoint × Os → Prop} (env : Env) (ep : EndPoint) (os : Os)
    (ok : ep.httpResponse.statusCode = OK → motive (buildOkResponse ep.stated, os))
    (error : ErrorCode ep.httpResponse.statusCode → motive (handlerError env errorPage ep.stated os))
    (other : ep.httpResponse.statusCode ≠ OK → motive (ep.stated, os)) :
    motive (buildHttpResponseHelper env ep os) := by
  unfold buildHttpResponseHelper
  simp only
  split
  · rename_i success
    exact ok success
  · rename_i failure
    split
    · rename_i known
      exact error known
    · exact other failure

/-- The helper changes neither the connection nor the code. -/
theorem helper_same (env : Env) (ep : EndPoint) (os : Os) :
    (buildHttpResponseHelper env ep os).1.sock = ep.sock ∧
      (buildHttpResponseHelper env ep os).1.httpResponse.statusCode = ep.httpResponse.statusCode := by
  apply helper_cases (motive := fun r => r.1.sock = ep.sock ∧
    r.1.httpResponse.statusCode = ep.httpResponse.statusCode)
  case ok => exact fun _ => ⟨rfl, rfl⟩
  case error =>
    intro _
    apply handlerError_cases (motive := fun r => r.1.sock = ep.sock ∧
      r.1.httpResponse.statusCode = ep.httpResponse.statusCode)
    · exact fun _ => ⟨rfl, rfl⟩
    · exact fun _ => ⟨rfl, rfl⟩
  case other => exact fun _ => ⟨rfl, rfl⟩

theorem dispatch_sock (env : Env) (ep : EndPoint) (os : Os) : (dispatch env ep os).ep.sock = ep.sock := by
  apply dispatch_cases (motive := fun a => a.ep.sock = ep.sock)
  case unknown => exact fun _ => rfl
  case missing => exact fun _ _ => rfl
  case found =>
    intro st _ _
    exact (content_same _ env (ep.targeted env st) _).sock

theorem buildHttpResponse_sock (env : Env) (ep : EndPoint) (os : Os) :
    (buildHttpResponse env ep os).1.sock = ep.sock :=
  (helper_same _ _ _).1.trans (dispatch_sock env ep os)

end HttpServer.Protocol
