import HttpServer.Service.Site

/-!
# The server answers as its site does

`Shows` relates the system a connection runs on to a site: `stat` and `open` see its nodes, the
resources the server asks for are there, and the child behaves as the site's program does on
what it is given. `handlerRequest_replies` is the refinement: from the bytes of a request to
the bytes of the response, the code computes `reply`.
-/

namespace HttpServer.Service
open Lib Net Protocol Cgi WireRequest

/-! ## A system that shows a site -/

/-- What `stat` and `open` say about a name. -/
inductive Shown (stat : Option Stat) (openOk : Bool) (contents : Bytes) : Option Node → Prop where
  | missing : stat = none → openOk = false → Shown stat openOk contents none
  | folder (st : Stat) : stat = some st → st.isDir = true → st.isExec = true → Shown stat openOk contents (some .folder)
  | unreadable (st : Stat) : stat = some st → st.isDir = false → openOk = false →
      Shown stat openOk contents (some (.file st.isExec none))
  | file (st : Stat) : stat = some st → st.isReg = true → openOk = true → st.size = contents.length →
      Shown stat openOk contents (some (.file st.isExec (some contents)))

/-- The system shows the site, and has pipes, processes and memory to spare. -/
structure Shows (env : Env) (contents : Bytes → Bytes) (site : Site) : Prop where
  nodes : ∀ path, Shown (env.stat path) (env.openOk path) (contents path) (site.node path)
  pipes : env.pipeInput = true ∧ env.pipeOutput = true ∧ env.forkOk = true
  addressable : env.cgiOutput.length < 2 ^ 63

/-- The child a trace has started behaves as the site's program on what the trace gives it. -/
def Conducts (site : Site) (env : Env) (os : Os) : Prop :=
  ∀ input output path environ, os.trace.flatMap pipeEnds = [input, output] →
    os.trace.flatMap program = [(path, environ)] →
    site.run path environ (pipeContents output.2 os) = (env.cgiOutput, env.wait)

theorem Conducts.childless {site : Site} {env : Env} {os os' : Os} (conducts : Conducts site env os')
    (rest : Childless os os') : Conducts site env os := by
  intro input output path environ ends programs
  have ran := conducts input output path environ ((flatMap_childless rest blind_pipeEnds).trans ends)
    ((flatMap_childless rest blind_program).trans programs)
  have given : pipeContents output.2 os' = pipeContents output.2 os := flatMap_childless rest (blind_writtenTo output.2)
  rwa [given] at ran

theorem not_isDir_of_isReg {st : Stat} (reg : st.isReg = true) : st.isDir = false := by
  unfold Stat.isReg at reg
  unfold Stat.isDir
  rw [of_decide_eq_true reg]
  decide

section Shown
variable {env : Env} {contents : Bytes → Bytes} {site : Site} (shows : Shows env contents site)
include shows

/-- A text the site has is that of a regular file. -/
theorem regularFile_of_node {path : Bytes} {executable : Bool} {text : Bytes}
    (node : site.node path = some (.file executable (some text))) :
    RegularFile env contents path ∧ contents path = text ∧ env.openOk path = true := by
  have short := site.textShort path executable text node
  have shown := shows.nodes path
  rw [node] at shown
  cases shown with
  | file st found reg openOk size => exact ⟨⟨⟨st, found, reg, size⟩, short⟩, rfl, openOk⟩

/-- What opens is a folder or has a text. -/
theorem text_of_openOk {path : Bytes} (openOk : env.openOk path = true) (plain : site.node path ≠ some .folder) :
    ∃ executable, site.node path = some (.file executable (some (contents path))) := by
  have shown := shows.nodes path
  generalize site.node path = node at shown plain
  cases shown with
  | missing _ sealed => rw [openOk] at sealed; cases sealed
  | folder => exact absurd rfl plain
  | unreadable st _ _ sealed => rw [openOk] at sealed; cases sealed
  | file st => exact ⟨st.isExec, rfl⟩

theorem regular_errorPage (openOk : env.openOk (cStr errorPage) = true) :
    RegularFile env contents (cStr errorPage) := by
  obtain ⟨executable, node⟩ := text_of_openOk shows openOk site.errorFile
  exact (regularFile_of_node shows node).1

/-- The site fails as the server does. -/
theorem failure_eq (code : Int) : failure site code = errorResponse env contents code := by
  unfold errorResponse
  split
  · rename_i openOk
    obtain ⟨executable, node⟩ := text_of_openOk shows openOk site.errorFile
    simp only [failure, node]
  · rename_i closed
    unfold failure
    split
    · rename_i node
      exact absurd (regularFile_of_node shows node).2.2 closed
    · rfl

/-- The target the server finds is the site's, and so is its permission. -/
theorem target_shown {path : Bytes} {st : Stat} (found : env.stat (cStr path) = some st) :
    ∃ node, site.target path = some ((redirect env path st).1, node) ∧
      (redirect env path st).2.isExec = node.executable ∧
      (node.executable = false → site.node (cStr (redirect env path st).1) = some node) := by
  have shown := shows.nodes (cStr path)
  unfold Site.target redirect
  cases node : site.node (cStr path) with
  | none =>
    rw [node] at shown
    cases shown with
    | missing absent => rw [absent] at found; cases found
  | some top =>
    rw [node] at shown
    cases shown with
    | folder st' found' dir exec =>
      obtain rfl := Option.some.inj (found'.symm.trans found)
      rw [if_pos dir]
      refine ⟨_, rfl, ?_⟩
      have inner := shows.nodes (cStr (indexPath path))
      cases index : site.node (cStr (indexPath path)) with
      | none =>
        rw [index] at inner
        cases inner with
        | missing absent => simp [absent, exec, Node.executable]
      | some node =>
        rw [index] at inner
        cases inner with
        | folder st'' found'' _ exec' => simp [found'', exec', Node.executable]
        | unreadable st'' found'' | file st'' found'' => simp [found'', Node.executable]
    | unreadable st' found' plain =>
      obtain rfl := Option.some.inj (found'.symm.trans found)
      rw [plain]
      exact ⟨_, rfl, rfl, fun _ => node⟩
    | file st' found' reg =>
      obtain rfl := Option.some.inj (found'.symm.trans found)
      rw [not_isDir_of_isReg reg]
      exact ⟨_, rfl, rfl, fun _ => node⟩

theorem target_missing {path : Bytes} (absent : env.stat (cStr path) = none) : site.target path = none := by
  have shown := shows.nodes (cStr path)
  unfold Site.target
  cases node : site.node (cStr path) with
  | none => rfl
  | some top =>
    rw [node] at shown
    cases shown with
    | folder st found | unreadable st found | file st found =>
      rw [absent] at found
      cases found

end Shown

/-! ## The response the server prepares -/

/-- What an accepted end point asks for. -/
def asks (req : HttpRequest) : Request := ⟨req.method, req.uri, req.requestBody⟩

theorem location_asks {req : HttpRequest} (method : req.method = GET ∨ req.method = POST) :
    (asks req).location = firstPath req := by
  unfold firstPath
  rw [splitUri_path method]
  rfl

/-- The query split finds a form where the site does. -/
theorem form_asks {req : HttpRequest} (method : req.method = GET ∨ req.method = POST) (fresh : req.cgi = false) :
    (splitUri req).cgi = (asks req).form := by
  have mark : ascii "?" = [63] := rfl
  unfold splitUri Request.form asks
  rcases method with get | post
  · have notPost : req.method ≠ POST := by
      rw [get]
      decide
    rw [if_pos get, mark, find_byte]
    by_cases query : (63 : UInt8) ∈ req.uri
    · simp [query]
    · simp [query, notPost, fresh]
  · have notGet : req.method ≠ GET := by
      rw [post]
      decide
    rw [if_neg notGet, if_pos post]
    simp [post]

/-- From `req` to `req'` a request keeps what its program is given. -/
structure SameInput (req req' : HttpRequest) : Prop where
  method : req'.method = req.method
  contentLength : req'.contentLength = req.contentLength
  requestBody : req'.requestBody = req.requestBody
  queryString : req'.queryString = (splitUri req).queryString

theorem SameInput.exact {req req' : HttpRequest} (same : SameInput req req') (exactly : Exact req) : Exact req' := by
  rw [Exact, same.contentLength, same.requestBody, exactly]

/-- The program is given what the site gives it. -/
theorem environ_asks {req req' : HttpRequest} (method : req.method = GET ∨ req.method = POST) (exactly : Exact req)
    (noQuery : req.queryString = []) (same : SameInput req req') : childEnviron req' = (asks req).environ := by
  unfold Request.environ asks
  rcases method with get | post
  · rw [if_pos get, environ_get (same.method.trans get), same.queryString, query_splitUri get noQuery]
  · have notGet : req.method ≠ GET := by
      rw [post]
      decide
    have length : req'.contentLength = req.requestBody.length := same.contentLength.trans exactly
    rw [if_neg notGet, environ_post (same.method.trans post), length, decimalInt_natCast, cStr_eq_self decimal_clean]

theorem stdin_asks {req req' : HttpRequest} (same : SameInput req req') : givenBody req' = (asks req).stdin := by
  unfold givenBody
  rw [same.method, same.requestBody]
  rfl

/-- An end point that has received a whole request and has not answered it yet. -/
structure Accepted (ep : EndPoint) : Prop where
  fresh : Fresh ep
  empty : ep.httpResponse.responseBody = []
  closed : ep.httpResponse.fd < 0
  exactly : Exact ep.httpRequest
  noQuery : ep.httpRequest.queryString = []
  noForm : ep.httpRequest.cgi = false

section Prepared
variable {env : Env} {contents : Bytes → Bytes} {site : Site} {ep : EndPoint} {os : Os}

/-- What the program of the target is given, and does. -/
theorem run_asks (accepted : Accepted ep) (begun : os.trace = []) (st : Stat)
    (method : ep.httpRequest.method = GET ∨ ep.httpRequest.method = POST)
    (pipes : env.pipeInput = true ∧ env.pipeOutput = true ∧ env.forkOk = true) (positive : ∀ ret ∈ os.writes, 0 < ret)
    (conducts : Conducts site env (processCgi env (ep.targeted env st) (os.targeted ep.httpRequest st)).os) :
    site.run (cStr (ep.targeted env st).httpRequest.path) (asks ep.httpRequest).environ (asks ep.httpRequest).stdin =
      (env.cgiOutput, env.wait) := by
  have same : SameInput ep.httpRequest (ep.targeted env st).httpRequest := by
    obtain ⟨sameMethod, sameLength, sameBody⟩ := splitUri_keeps ep.httpRequest
    exact ⟨sameMethod, sameLength, sameBody, rfl⟩
  have positive' : ∀ ret ∈ (os.targeted ep.httpRequest st).writes, 0 < ret := by
    unfold Os.targeted
    split <;> exact positive
  obtain ⟨input, output, chunks, c₁, c₂, c₃, c₄, trace, whole⟩ :=
    trace_processCgi env (os.targeted ep.httpRequest st) (same.exact accepted.exactly) pipes positive'
  have childless := childless_targeted os ep.httpRequest st
  have ends : (os.targeted ep.httpRequest st).trace.flatMap pipeEnds = [] := by
    rw [flatMap_childless childless blind_pipeEnds, begun, List.flatMap_nil]
  have programs : (os.targeted ep.httpRequest st).trace.flatMap program = [] := by
    rw [flatMap_childless childless blind_program, begun, List.flatMap_nil]
  have written : (os.targeted ep.httpRequest st).trace.flatMap (writtenTo output.2) = [] := by
    rw [flatMap_childless childless (blind_writtenTo _), begun, List.flatMap_nil]
  have ran := conducts input output (cStr (ep.targeted env st).httpRequest.path) (asks ep.httpRequest).environ
    (by rw [trace]; simp [ends, pipeEnds, List.flatMap_map])
    (by
      rw [trace, environ_asks method accepted.exactly accepted.noQuery same]
      simp [programs, program, List.flatMap_map])
  have stdin : pipeContents output.2 (processCgi env (ep.targeted env st) (os.targeted ep.httpRequest st)).os =
      (asks ep.httpRequest).stdin := by
    unfold pipeContents
    rw [trace, ← stdin_asks same, ← whole]
    simp [written, writtenTo, List.flatMap_map]
  rwa [stdin] at ran

/-- With pipes and a child, `ProcessCgi` is the parent's side of it. -/
theorem processCgi_parent (pipes : env.pipeInput = true ∧ env.pipeOutput = true ∧ env.forkOk = true) (ep : EndPoint)
    (os : Os) : ∃ in0 in1 out0 out1 os', processCgi env ep os = cgiParent env in0 in1 out0 out1 ep os' := by
  unfold processCgi
  simp only [pipes.1, pipes.2.1, pipes.2.2, if_true]
  exact ⟨_, _, _, _, _, rfl⟩

theorem prepared_failure (shows : Shows env contents site) (fresh : Fresh ep)
    (error : ErrorCode ep.httpResponse.statusCode) (inUse : 0 ∈ os.fds) :
    Prepared contents (buildHttpResponseHelper env ep os).1 (buildHttpResponseHelper env ep os).2
      (failure site ep.httpResponse.statusCode) := by
  rw [failure_eq shows]
  exact prepared_errorPage fresh error inUse (regular_errorPage shows)

/-- A dispatch that answers with `r`. -/
def Answers (env : Env) (contents : Bytes → Bytes) (a : Answer) (r : Response) : Prop :=
  Prepared contents (buildHttpResponseHelper env { a.ep with httpResponse.statusCode := a.code } a.os).1
    (buildHttpResponseHelper env { a.ep with httpResponse.statusCode := a.code } a.os).2 r

theorem answers_failure (shows : Shows env contents site) {a : Answer} (fresh : Fresh a.ep) {code : Int}
    (failed : a.code = code) (error : ErrorCode code) (inUse : 0 ∈ a.os.fds) :
    Answers env contents a (failure site code) := by
  subst failed
  exact @prepared_failure _ _ _ { a.ep with httpResponse.statusCode := a.code } _ shows
    (fresh.same ⟨rfl, rfl, rfl⟩) error inUse

/-- The output of a program is sent as a success or dropped, as the program ends. -/
theorem answers_program (shows : Shows env contents site) (fresh : Fresh ep)
    (empty : ep.httpResponse.responseBody = []) (cgi : ep.httpRequest.cgi = true) {ran : Bytes × WaitStatus}
    (same : ran = (env.cgiOutput, env.wait)) (inUse : 0 ∈ (processCgi env ep os).os.fds) :
    Answers env contents (processCgi env ep os) (programReply site (suffix2Desc ep.httpRequest.suffix) ran) := by
  subst same
  obtain ⟨in0, in1, out0, out1, os', parent⟩ := processCgi_parent shows.pipes ep os
  rw [parent] at inUse ⊢
  have fresh' : Fresh (cgiParent env in0 in1 out0 out1 ep os').ep := fresh.same ⟨rfl, rfl, rfl⟩
  have body : (cgiParent env in0 in1 out0 out1 ep os').ep.httpResponse.responseBody = env.cgiOutput := by
    show ep.httpResponse.responseBody ++ env.cgiOutput = _
    rw [empty, List.nil_append]
  have ok (code : (cgiParent env in0 in1 out0 out1 ep os').code = OK) :
      Answers env contents (cgiParent env in0 in1 out0 out1 ep os')
        (described OK (suffix2Desc ep.httpRequest.suffix) env.cgiOutput) := by
    rw [← body]
    exact @prepared_cgi env contents
      { (cgiParent env in0 in1 out0 out1 ep os').ep with
        httpResponse.statusCode := (cgiParent env in0 in1 out0 out1 ep os').code }
      _ (fresh'.same ⟨rfl, rfl, rfl⟩) code cgi (by rw [body]; exact shows.addressable)
  unfold programReply
  cases wait : env.wait with
  | failed => exact ok (by simp [cgiParent, wait])
  | exited status =>
    show Answers env contents _ (if status = 0 then _ else _)
    by_cases clean : status = 0
    · rw [if_pos clean]
      exact ok (by simp [cgiParent, wait, clean])
    · rw [if_neg clean]
      exact answers_failure shows fresh' (by simp [cgiParent, wait, clean]) (.inr (.inl rfl)) inUse
  | signaled => exact answers_failure shows fresh' (by simp [cgiParent, wait]) (.inr (.inr rfl)) inUse

/-- A file that opens is sent, and no other. -/
theorem answers_file (shows : Shows env contents site) (fresh : Fresh ep) (static : ep.httpRequest.cgi = false)
    {node : Node} (named : site.node (cStr ep.httpRequest.path) = some node) (plain : node.executable = false)
    (size : RegularFile env contents (cStr ep.httpRequest.path) →
      ep.httpRequest.size = (contents (cStr ep.httpRequest.path)).length)
    (inUse : 0 ∈ (processNonCgi env ep os).os.fds) :
    Answers env contents (processNonCgi env ep os) (fileReply site (suffix2Desc ep.httpRequest.suffix) node) := by
  cases openOk : env.openOk (cStr ep.httpRequest.path) with
  | true =>
    obtain ⟨executable, found⟩ := text_of_openOk shows openOk (by
      rw [named]
      rintro ⟨⟩
      cases plain)
    obtain rfl := Option.some.inj (named.symm.trans found)
    obtain ⟨regular, -, -⟩ := regularFile_of_node shows found
    have opened : 0 ≤ (os.openRead env (cStr ep.httpRequest.path)).1 := by simp [Os.openRead, openOk]
    have answer : processNonCgi env ep os =
        ⟨OK, { ep with httpResponse.fd := (os.openRead env (cStr ep.httpRequest.path)).1 },
          (os.openRead env (cStr ep.httpRequest.path)).2⟩ := if_pos opened
    rw [answer]
    exact @prepared_file env contents
      { ep with
        httpResponse.fd := (os.openRead env (cStr ep.httpRequest.path)).1
        httpResponse.statusCode := OK }
      _ (fresh.same ⟨rfl, rfl, rfl⟩) rfl static _ (files_openRead opened) (size regular) regular.short
  | false =>
    have closed : ¬ 0 ≤ (os.openRead env (cStr ep.httpRequest.path)).1 := by simp [Os.openRead, openOk]
    have answer : processNonCgi env ep os =
        ⟨NOT_FOUND, { ep with httpResponse.fd := (os.openRead env (cStr ep.httpRequest.path)).1 },
          (os.openRead env (cStr ep.httpRequest.path)).2⟩ := if_neg closed
    have silent : fileReply site (suffix2Desc ep.httpRequest.suffix) node = failure site NOT_FOUND := by
      unfold fileReply
      split
      · have opens := (regularFile_of_node shows named).2.2
        rw [openOk] at opens
        cases opens
      · rfl
    rw [silent]
    apply answers_failure shows _ _ (.inl rfl) inUse
    · rw [answer]
      exact fresh.same ⟨rfl, rfl, rfl⟩
    · rw [answer]

/-- What an accepted request is answered with. -/
theorem prepared_reply (shows : Shows env contents site) (accepted : Accepted ep) (begun : os.trace = [])
    (inUse : 0 ∈ os.fds) (positive : ∀ ret ∈ os.writes, 0 < ret)
    (conducts : Conducts site env (dispatch env ep os).os) :
    Answers env contents (dispatch env ep os) (reply site (asks ep.httpRequest)) := by
  have stays : 0 ∈ (dispatch env ep os).os.fds := zero_mem_dispatch accepted.closed begun inUse
  revert conducts stays
  apply dispatch_cases (motive := fun a => Conducts site env a.os → 0 ∈ a.os.fds →
    Answers env contents a (reply site (asks ep.httpRequest)))
  case unknown =>
    intro unknown _ stays
    have fails : reply site (asks ep.httpRequest) = failure site BAD_REQUEST := if_neg unknown
    rw [fails]
    exact answers_failure shows accepted.fresh rfl (.inr (.inl rfl)) stays
  case missing =>
    intro method absent _ stays
    have known : (asks ep.httpRequest).method = GET ∨ (asks ep.httpRequest).method = POST := method
    have fails : reply site (asks ep.httpRequest) = failure site NOT_FOUND := by
      unfold reply
      rw [if_pos known, location_asks method, target_missing shows absent]
    rw [fails]
    exact answers_failure shows (accepted.fresh.same ⟨rfl, rfl, rfl⟩) rfl (.inl rfl) stays
  case found =>
    intro st method found conducts stays
    obtain ⟨node, target, permission, plain⟩ := target_shown shows found
    have serves : servesCgi env ep.httpRequest st = ((asks ep.httpRequest).form || node.executable) := by
      unfold servesCgi
      rw [form_asks method accepted.noForm, permission]
    have fresh : Fresh (ep.targeted env st) := accepted.fresh.same ⟨rfl, rfl, rfl⟩
    have known : (asks ep.httpRequest).method = GET ∨ (asks ep.httpRequest).method = POST := method
    unfold reply
    rw [if_pos known, location_asks method, target]
    simp only
    rw [← serves]
    cases cgi : servesCgi env ep.httpRequest st with
    | true =>
      rw [cgi] at conducts stays
      rw [if_pos rfl]
      apply answers_program shows fresh accepted.empty cgi _ stays
      exact run_asks accepted begun st method shows.pipes positive conducts
    | false =>
      rw [cgi] at stays serves
      rw [if_neg Bool.false_ne_true]
      have sealed : node.executable = false := by
        cases exec : node.executable with
        | false => rfl
        | true => simp [exec] at serves
      exact answers_file shows fresh cgi (plain sealed) sealed (size_targeted found) stays

/-- The response built for an accepted request, and sent, is the site's. -/
theorem response_replies (shows : Shows env contents site) (accepted : Accepted ep) (begun : os.trace = [])
    (inUse : 0 ∈ os.fds) (positive : ∀ ret ∈ os.writes, 0 < ret) (transfers : os.sends = [])
    (conducts : Conducts site env
      (sendHttpResponse (buildHttpResponse env ep os).1 (buildHttpResponse env ep os).2)) :
    ((sendHttpResponse (buildHttpResponse env ep os).1 (buildHttpResponse env ep os).2).wire contents).sent =
      (reply site (asks ep.httpRequest)).bytes := by
  have rest : Childless (dispatch env ep os).os
      (sendHttpResponse (buildHttpResponse env ep os).1 (buildHttpResponse env ep os).2) :=
    (childless_helper ..).trans (childless_sendHttpResponse ..)
  have prepared : Prepared contents (buildHttpResponse env ep os).1 (buildHttpResponse env ep os).2
      (reply site (asks ep.httpRequest)) :=
    prepared_reply shows accepted begun inUse positive (conducts.childless rest)
  have mute := frame_mute.buildHttpResponse env ep os
  have silent : (os.wire contents).sent = [] := by
    unfold Os.wire
    rw [begun]
    rfl
  rw [sent_sendHttpResponse (mute.sends.trans transfers) contents _ prepared.addressable, mute.sent, silent,
    List.nil_append, prepared.statusLine, prepared.responseHeader, prepared.blank, prepared.body]
  rfl

end Prepared

/-! ## The whole connection -/

/-- An accepted request is whole, and nothing of the response is there yet. -/
theorem accepted_of_going {sock size : Int} {io : Sock} (short : io.unread.length < 2 ^ 31)
    (going : (recvHttpRequest (EndPoint.new sock size) io).1.stop = false) :
    Accepted (recvHttpRequest (EndPoint.new sock size) io).1 := by
  obtain ⟨exactly, -, noQuery⟩ := exact_of_accepted short going
  have same := (recvHttpRequest_same (EndPoint.new sock size) io).httpResponse
  constructor
  case fresh => constructor <;> exact congrArg _ same
  case empty => exact congrArg HttpResponse.responseBody same
  case closed =>
    have fd : (recvHttpRequest (EndPoint.new sock size) io).1.httpResponse.fd = -1 := congrArg HttpResponse.fd same
    omega
  case exactly => exact exactly
  case noQuery => exact noQuery
  case noForm =>
    obtain ⟨line, headers, rest, head, fits⟩ := head_of_recvHttpRequest going
    obtain ⟨unread, fin⟩ := io
    rw [recvHttpRequest_of_head head fits, recvHttpRequestBody_parsedHead]
    rfl

/-- An accepted request is answered as the site answers it. -/
theorem handlerRequest_replies {env : Env} {contents : Bytes → Bytes} {site : Site} (shows : Shows env contents site)
    {start : Finset Nat} {sock : Int} {os : Os} (serving : Serving start os) (transfers : os.sends = [])
    (positive : ∀ ret ∈ os.writes, 0 < ret) (short : os.io.unread.length < 2 ^ 31)
    (going : (accepted env sock os).stop = false)
    (conducts : Conducts site env (handlerRequest env sock { os with trace := [] })) :
    ((handlerRequest env sock { os with trace := [] }).wire contents).sent =
      (reply site (asks (accepted env sock os).httpRequest)).bytes := by
  have whole : Accepted (accepted env sock os) := accepted_of_going short going
  have stop : (recvHttpRequest (EndPoint.new sock env.staleSize) os.io).1.stop = false := going
  unfold handlerRequest at conducts ⊢
  simp only [stop, Bool.false_eq_true, if_false] at conducts ⊢
  rw [wire_close]
  apply response_replies shows whole
  case begun => rfl
  case inUse => exact serving.zero_mem
  case positive => exact positive
  case transfers => exact transfers
  case conducts => exact conducts.childless (childless_close ..)

/-! ## From the wire to the wire -/

/-- The server takes the bytes of a request for what its sender means. -/
theorem asks_encode (sock size : Int) {io : Sock} {r : WireRequest} (arrived : io.unread = r.encode)
    (framed : ∀ value, r.Declares value → value = decimal r.body.length) (short : r.encode.length < 2 ^ 31) :
    (recvHttpRequest (EndPoint.new sock size) io).1.stop = false ∧
      asks (recvHttpRequest (EndPoint.new sock size) io).1.httpRequest = means r := by
  have head := headOf_encode r
  obtain ⟨low, high⟩ := declaredLength_bounds r.requestLine r.headerLines
  -- the bytes wanted are those of the body, if they are declared
  have wants : wanted (declaredLength r.requestLine r.headerLines) = (means r).body.length := by
    unfold means
    by_cases declares : ∃ value, r.Declares value
    · obtain ⟨value, post, declared⟩ := declares
      have length := framed value ⟨post, declared⟩
      subst length
      rw [wanted_encode, declared_of_declares ⟨post, declared⟩]
      simp [post, declared]
    · rw [wanted_encode, declared_of_not_declares (not_exists.mp declares)]
      have silent : ¬ (r.method.map toUpper = POST ∧ (r.headers.lookup Protocol.CONTENT_LENGTH).isSome = true) := by
        rintro ⟨post, declared⟩
        obtain ⟨value, known⟩ := Option.isSome_iff_exists.mp declared
        exact declares ⟨value, post, known⟩
      rw [if_neg silent]
      rfl
  have body : (r.body ++ r.trailing).take (means r).body.length = (means r).body := by
    unfold means
    split <;> simp
  have within : wanted (declaredLength r.requestLine r.headerLines) ≤ (r.body ++ r.trailing).length := by
    rw [wants, ← body, List.length_take]
    omega
  obtain ⟨unread, fin⟩ := io
  obtain rfl : unread = r.encode := arrived
  rw [recvHttpRequest_of_head head (head.fits short), recvHttpRequestBody_parsedHead,
    recvBodyLoop_eq _ low high, if_pos within, parsedHead, parse_requestLine r _ rfl, wants]
  refine ⟨rfl, ?_⟩
  simp only [asks, List.nil_append, body]
  rfl

/-- A connection of a server that shows a site, on which the bytes of a request arrive. `write`
takes the body in pieces, and `send` all it is given. -/
structure Connection (site : Site) (r : WireRequest) where
  env : Env
  contents : Bytes → Bytes
  start : Finset Nat
  sock : Int
  os : Os
  fin : StreamEnd
  shows : Shows env contents site
  serving : Serving start os
  arrived : os.io = ⟨r.encode, fin⟩
  positive : ∀ ret ∈ os.writes, 0 < ret
  transfers : os.sends = []
  conducts : Conducts site env (handlerRequest env sock { os with trace := [] })

/-- The bytes that go back. -/
def Connection.sent {site : Site} {r : WireRequest} (c : Connection site r) : Bytes :=
  ((handlerRequest c.env c.sock { c.os with trace := [] }).wire c.contents).sent

/-- If a request arrives whole, the reply to what the server asks for goes back. -/
theorem Connection.sent_asked {site : Site} {r : WireRequest} (c : Connection site r) (short : r.encode.length < 2 ^ 31)
    (going : (recvHttpRequest (EndPoint.new c.sock c.env.staleSize) c.os.io).1.stop = false) :
    c.sent =
      (reply site (asks (recvHttpRequest (EndPoint.new c.sock c.env.staleSize) c.os.io).1.httpRequest)).bytes := by
  have arrived : c.os.io.unread = r.encode := by rw [c.arrived]
  exact handlerRequest_replies c.shows c.serving c.transfers c.positive (arrived ▸ short) going c.conducts

/-- **The server answers as its site does.** Whatever connection a request arrives on, the bytes
that go back are those of the site's reply to what the request means. -/
theorem server_replies {site : Site} {r : WireRequest} (c : Connection site r)
    (framed : ∀ value, r.Declares value → value = decimal r.body.length) (short : r.encode.length < 2 ^ 31) :
    c.sent = (reply site (means r)).bytes := by
  have arrived : c.os.io.unread = r.encode := by rw [c.arrived]
  obtain ⟨going, asked⟩ := asks_encode c.sock c.env.staleSize arrived framed short
  rw [c.sent_asked short going, asked]

/-- A site where every name is a program that greets. -/
def Site.greeting : Site where
  node := fun _ => some (.file true none)
  run := fun _ _ _ => (ascii "hi", .exited 0)
  textShort := by simp
  errorFile := by simp

/-- A form posted to it. -/
def postedToGreeting : Connection .greeting postedForm where
  env := { Env.programs with cgiOutput := ascii "hi" }
  contents := fun _ => []
  start := {0, 1, 2}
  sock := 5
  os := ⟨⟨postedForm.encode, .closed⟩, {0, 1, 2, 3, 5}, [], [1, 1], []⟩
  fin := .closed
  shows := ⟨fun _ => .unreadable ⟨0o100755, 10⟩ rfl (by decide) rfl, ⟨rfl, rfl, rfl⟩, by decide⟩
  serving := ⟨by decide, by decide⟩
  arrived := rfl
  positive := by simp
  transfers := rfl
  conducts := fun _ _ _ _ _ _ => rfl

theorem server_replies_postedToGreeting : postedToGreeting.sent = (reply .greeting (means postedForm)).bytes := by
  apply server_replies postedToGreeting
  case framed =>
    rintro value ⟨-, declared⟩
    exact (Option.some.inj declared).symm
  case short => decide

end HttpServer.Service
