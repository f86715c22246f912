import HttpServer.Protocol.Os
import HttpServer.Protocol.Recv

/-!
# Building and sending the response

`BuildHttpResponse` with its two content sources `ProcessCgi` and `ProcessNonCgi`,
`HandlerError`, `SendHttpResponse` and `CallBack::HandlerRequest`, on the system of
`HttpServer.Protocol.Os`. The parent side of `ProcessCgi` sees its child through the bytes
read to the end of file and the wait status; what the child is given is the `execl` entry
of the trace and the bytes written.
-/

namespace HttpServer.Protocol
open Lib Net

/-- A status code with the end point and the system it leaves. -/
structure Answer where
  code : Int
  ep : EndPoint
  os : Os
  deriving DecidableEq

/-! ## CGI -/

/-- The entries the child puts into its environment, as C strings. -/
def childEnviron (req : HttpRequest) : List Bytes :=
  if req.method = GET then
    [cStr (ascii "METHOD=" ++ req.method), cStr (ascii "QUERY_STRING=" ++ req.queryString)]
  else if req.method = POST then
    [cStr (ascii "METHOD=" ++ req.method), cStr (ascii "CONTENT_LENGTH=" ++ decimalInt req.contentLength)]
  else [cStr (ascii "METHOD=" ++ req.method)]

/-- The parent's loop that writes the body, after `total` bytes. A round that goes on has
written a byte, so `fuel` above the bytes left is never used up. -/
def writeLoop (fd : Int) (body : Bytes) (contentLength : Int) : Nat → Int → Os → Os
  | 0, _, os => os
  | fuel + 1, total, os =>
    if total < contentLength then
      let w := os.write fd (body.drop total.toNat)
      if 0 < w.1 then writeLoop fd body contentLength fuel (total + w.1) w.2 else w.2
    else os

/-- The parent side of `ProcessCgi`, after the fork. -/
def cgiParent (env : Env) (in0 in1 out0 out1 : Int) (ep : EndPoint) (os : Os) : Answer :=
  let req := ep.httpRequest
  let os := (os.close in1).close out0
  let os :=
    if req.method = POST then
      writeLoop out1 req.requestBody req.contentLength (req.requestBody.length + 1) 0 os
    else os
  let ep := { ep with httpResponse.responseBody := ep.httpResponse.responseBody ++ env.cgiOutput }
  let os := (os.emit (.read in0 env.cgiOutput)).emit .waitpid
  let code :=
    match env.wait with
    | .failed => OK
    | .exited status => if status = 0 then OK else BAD_REQUEST
    | .signaled => SERVER_ERROR
  ⟨code, ep, (os.close in0).close out1⟩

/-- `ProcessCgi`. -/
def processCgi (env : Env) (ep : EndPoint) (os : Os) : Answer :=
  let input := os.pipe env.pipeInput
  match input.1 with
  | none => ⟨SERVER_ERROR, ep, input.2⟩
  | some (in0, in1) =>
    let output := input.2.pipe env.pipeOutput
    match output.1 with
    | none => ⟨SERVER_ERROR, ep, output.2⟩
    | some (out0, out1) =>
      if env.forkOk then
        cgiParent env in0 in1 out0 out1 ep
          ((output.2.emit (.fork true)).emit (.execl (cStr ep.httpRequest.path) (childEnviron ep.httpRequest)))
      else ⟨404, ep, output.2.emit (.fork false)⟩

/-- `ProcessNonCgi`. -/
def processNonCgi (env : Env) (ep : EndPoint) (os : Os) : Answer :=
  let r := os.openRead env (cStr ep.httpRequest.path)
  let ep := { ep with httpResponse.fd := r.1 }
  if 0 ≤ r.1 then ⟨OK, ep, r.2⟩ else ⟨NOT_FOUND, ep, r.2⟩

/-! ## The target of a request -/

/-- The query split: a `GET` is cut at the first `?`, a `POST` keeps its whole URI. -/
def splitUri (req : HttpRequest) : HttpRequest :=
  if req.method = GET then
    if (find (ascii "?") req.uri).isSome then
      let cut := cutString req.uri req.path req.queryString (ascii "?")
      { req with path := cut.sub1, queryString := cut.sub2, cgi := true }
    else { req with path := req.uri }
  else if req.method = POST then { req with cgi := true, path := req.uri }
  else req

/-- The path under the web root, with the index page for a trailing `/`. -/
def webPath (path : Bytes) : Bytes :=
  let full := WEB_ROOT ++ path
  if full.getLast? = some 47 then full ++ HOME_PAGE else full

/-- The path a directory is redirected to. -/
def indexPath (path : Bytes) : Bytes := path ++ ascii "/" ++ HOME_PAGE

/-- The suffix of a path, from its last `.`. -/
def suffixOf (path : Bytes) : Bytes :=
  if 46 ∈ path then 46 :: (path.reverse.takeWhile fun b => b != 46).reverse else ascii ".html"

/-- The target after a successful first `stat`, with the mode bits that decide on it. -/
def redirect (env : Env) (path : Bytes) (st : Stat) : Bytes × Stat :=
  if st.isDir then (indexPath path, (env.stat (cStr (indexPath path))).getD st) else (path, st)

/-- The part of `BuildHttpResponse` before its `END` label. -/
def dispatch (env : Env) (ep : EndPoint) (os : Os) : Answer :=
  if ep.httpRequest.method ≠ GET ∧ ep.httpRequest.method ≠ POST then ⟨BAD_REQUEST, ep, os⟩
  else
    let req := splitUri ep.httpRequest
    let req := { req with path := webPath req.path }
    let os := os.emit (.stat (cStr req.path))
    match env.stat (cStr req.path) with
    | none => ⟨NOT_FOUND, { ep with httpRequest := req }, os⟩
    | some st =>
      let os := if st.isDir then os.emit (.stat (cStr (indexPath req.path))) else os
      let target := redirect env req.path st
      let req :=
        { req with
          path := target.1
          cgi := req.cgi || target.2.isExec
          size := int32 target.2.size
          suffix := suffixOf target.1 }
      let ep := { ep with httpRequest := req }
      if req.cgi then processCgi env ep os else processNonCgi env ep os

/-! ## The response -/

/-- `BuildOkResponse`. -/
def buildOkResponse (ep : EndPoint) : EndPoint :=
  let length :=
    if ep.httpRequest.cgi then decimal ep.httpResponse.responseBody.length else decimalInt ep.httpRequest.size
  { ep with
    httpResponse.responseHeader := ep.httpResponse.responseHeader ++
      [ascii "Content-Type: " ++ suffix2Desc ep.httpRequest.suffix ++ LINE_END,
       ascii "Content-Length: " ++ length ++ LINE_END] }

/-- `HandlerError(page)`. -/
def handlerError (env : Env) (page : Bytes) (ep : EndPoint) (os : Os) : EndPoint × Os :=
  let r := os.openRead env (cStr page)
  let ep := { ep with httpRequest.cgi := false, httpResponse.fd := r.1 }
  if 0 < r.1 then
    let st := (env.stat (cStr page)).getD env.staleStat
    ({ ep with
        httpRequest.size := int32 st.size
        httpResponse.responseHeader := ep.httpResponse.responseHeader ++
          [ascii "Content-Type: text/html" ++ LINE_END,
           ascii "Content-Length: " ++ decimalInt st.size ++ LINE_END] },
      r.2.emit (.stat (cStr page)))
  else (ep, r.2)

/-- `wwwroot/404.html`. -/
def errorPage : Bytes := WEB_ROOT ++ ascii "/" ++ PAGE_404

/-- `BuildHttpResponseHelper`. -/
def buildHttpResponseHelper (env : Env) (ep : EndPoint) (os : Os) : EndPoint × Os :=
  let code := ep.httpResponse.statusCode
  let ep :=
    { ep with
      httpResponse.statusLine := ep.httpResponse.statusLine ++ HTTP_VERSION ++ ascii " " ++ decimalInt code ++
        ascii " " ++ code2Desc code ++ LINE_END }
  if code = OK then (buildOkResponse ep, os)
  else if code = NOT_FOUND ∨ code = BAD_REQUEST ∨ code = SERVER_ERROR then handlerError env errorPage ep os
  else (ep, os)

/-- `BuildHttpResponse`. -/
def buildHttpResponse (env : Env) (ep : EndPoint) (os : Os) : EndPoint × Os :=
  let a := dispatch env ep os
  buildHttpResponseHelper env { a.ep with httpResponse.statusCode := a.code } a.os

/-- The body loop of `SendHttpResponse`: the result of `send` is kept in a `size_t`. Every
round takes one result of the script, and without a script one round is the last. -/
def sendLoop (sock : Int) (body : Bytes) : Nat → Nat → Os → Os
  | 0, _, os => os
  | fuel + 1, total, os =>
    if total < body.length then
      let s := os.send sock (body.drop total)
      if 0 < sizeT s.1 then sendLoop sock body fuel ((total + sizeT s.1) % 2 ^ 64) s.2 else s.2
    else os

/-- `SendHttpResponse`. -/
def sendHttpResponse (ep : EndPoint) (os : Os) : Os :=
  let os := (os.send ep.sock ep.httpResponse.statusLine).2
  let os := ep.httpResponse.responseHeader.foldl (fun os line => (os.send ep.sock line).2) os
  let os := (os.send ep.sock ep.httpResponse.blank).2
  if ep.httpRequest.cgi then sendLoop ep.sock ep.httpResponse.responseBody (os.sends.length + 2) 0 os
  else (os.emit (.sendfile ep.httpResponse.fd (sizeT ep.httpRequest.size))).close ep.httpResponse.fd

/-- `CallBack::HandlerRequest(sock)`, up to the destructor of the end point. -/
def handlerRequest (env : Env) (sock : Int) (os : Os) : Os :=
  let r := recvHttpRequest (EndPoint.new sock env.staleSize) os.io
  let os := { os with io := r.2 }
  if r.1.stop then os.close r.1.sock
  else
    let b := buildHttpResponse env r.1 os
    (sendHttpResponse b.1 b.2).close b.1.sock

end HttpServer.Protocol
