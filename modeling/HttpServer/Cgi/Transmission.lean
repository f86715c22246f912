import HttpServer.Cgi.Comm
import HttpServer.Protocol.Acceptance
import HttpServer.Protocol.Calls
import HttpServer.Protocol.Descriptors
import HttpServer.Protocol.WebRoot

/-!
# What the CGI program is given

The server and the CGI program implement two halves of one interface: `ProcessCgi` sets the
environment and writes the body into a pipe, `GetQueryString` reads them back. Between the
two the length of the body is printed and parsed again, and the body crosses the pipe in
whatever pieces `write` takes. `cgiInput_exact` is the composition; the fact it rests on is
that an accepted `POST` holds exactly the bytes it declares.
-/

namespace HttpServer.Cgi
open Lib Net Protocol

/-! ## The child's side of a trace -/

/-- The two ends of a pipe made. -/
def pipeEnds : Syscall → List (Int × Int)
  | .pipe (some ends) => [ends]
  | _ => []

/-- The program a child runs, with the entries it has put. -/
def program : Syscall → List (Bytes × List Bytes)
  | .execl path environ => [(path, environ)]
  | _ => []

/-- The bytes written to a descriptor. -/
def writtenTo (fd : Int) : Syscall → Bytes
  | .write fd' data => if fd' = fd then data else []
  | _ => []

/-- What a child reads on a pipe whose write end is `fd`. -/
def pipeContents (fd : Int) (os : Os) : Bytes := os.trace.flatMap (writtenTo fd)

/-- A reading of the trace that sees only the calls of a child. -/
theorem flatMap_childless {α : Type} {os os' : Os} (childless : Childless os os') {see : Syscall → List α}
    (blind : ∀ call, call.ofChild = false → see call = []) : os'.trace.flatMap see = os.trace.flatMap see := by
  obtain ⟨calls, trace, silent⟩ := childless
  have nothing : calls.flatMap see = [] := by
    rw [List.flatMap_eq_nil_iff]
    exact fun call mem => blind call (silent call mem)
  rw [trace, List.flatMap_append, nothing, List.append_nil]

theorem blind_pipeEnds (call : Syscall) (other : call.ofChild = false) : pipeEnds call = [] := by
  cases call with
  | pipe ends => cases other
  | _ => rfl

theorem blind_program (call : Syscall) (other : call.ofChild = false) : program call = [] := by
  cases call with
  | execl path environ => cases other
  | _ => rfl

theorem blind_writtenTo (fd : Int) (call : Syscall) (other : call.ofChild = false) : writtenTo fd call = [] := by
  cases call with
  | write fd' data => cases other
  | _ => rfl

/-! ## The parent -/

section Parent
variable {os : Os} {body : Bytes}

/-- One `write` with a positive result. -/
theorem write_positive (fd : Int) {data : Bytes} (nonempty : 0 < data.length) (positive : ∀ ret ∈ os.writes, 0 < ret) :
    ∃ size : Nat, 0 < size ∧ size ≤ data.length ∧ (os.write fd data).1 = size ∧
      (os.write fd data).2.trace = os.trace ++ [.write fd (data.take size)] ∧
      ∀ ret ∈ (os.write fd data).2.writes, 0 < ret := by
  have first : 0 < os.writes.headD data.length := by
    cases script : os.writes with
    | nil =>
      show (0 : Int) < data.length
      exact_mod_cast nonempty
    | cons ret rest => exact positive ret (by simp [script])
  refine ⟨(min (os.writes.headD data.length) data.length).toNat, by omega, by omega, ?_, rfl, ?_⟩
  · show min (os.writes.headD data.length) data.length = _
    omega
  · exact fun ret mem => positive ret (List.mem_of_mem_tail mem)

/-- Positive results of `write` transfer all of the body, in pieces. -/
theorem trace_writeLoop (fd : Int) {fuel total : Nat} (positive : ∀ ret ∈ os.writes, 0 < ret)
    (within : total ≤ body.length) (enough : body.length - total < fuel) :
    ∃ chunks : List Bytes, (writeLoop fd body body.length fuel total os).trace = os.trace ++ chunks.map (.write fd) ∧
      chunks.flatten = body.drop total := by
  induction fuel generalizing total os with
  | zero => omega
  | succ fuel ih =>
    unfold writeLoop
    by_cases more : total < body.length
    · have nonempty : 0 < (body.drop total).length := by
        rw [List.length_drop]
        omega
      obtain ⟨size, some, small, ret, trace, positive'⟩ := write_positive fd nonempty positive
      rw [List.length_drop] at small
      obtain ⟨chunks, trace', whole⟩ := ih positive' (show total + size ≤ body.length by omega) (by omega)
      refine ⟨(body.drop total).take size :: chunks, ?_, ?_⟩
      · rw [if_pos (by exact_mod_cast more)]
        simp only [Int.toNat_natCast, ret]
        rw [if_pos (by exact_mod_cast some)]
        have sum : (total : Int) + size = (total + size : Nat) := by push_cast; rfl
        rw [sum, trace', trace, List.map_cons, List.append_assoc, List.singleton_append]
      · rw [List.flatten_cons, whole, ← List.drop_drop, List.take_append_drop]
    · have done : body.drop total = [] := List.drop_eq_nil_of_le (by omega)
      rw [if_neg (by exact_mod_cast more)]
      exact ⟨[], by simp, by simp [done]⟩

/-- What the parent puts through the pipe. -/
def givenBody (req : HttpRequest) : Bytes := if req.method = POST then req.requestBody else []

/-- The request holds the bytes it declares. -/
def Exact (req : HttpRequest) : Prop := req.contentLength = req.requestBody.length

/-- The calls of the parent once the body is written. -/
theorem trace_afterBody (env : Env) (in0 out1 : Int) (os : Os) :
    ∃ c₃ c₄, ((((os.emit (.read in0 env.cgiOutput)).emit .waitpid).close in0).close out1).trace =
      os.trace ++ [Syscall.read in0 env.cgiOutput, Syscall.waitpid, Syscall.close in0 c₃, Syscall.close out1 c₄] := by
  obtain ⟨c₃, first⟩ := trace_close in0 ((os.emit (.read in0 env.cgiOutput)).emit .waitpid)
  obtain ⟨c₄, second⟩ := trace_close out1 (((os.emit (.read in0 env.cgiOutput)).emit .waitpid).close in0)
  refine ⟨c₃, c₄, ?_⟩
  rw [second, first]
  simp [Os.emit]

/-- The calls of the parent after the fork. -/
theorem trace_cgiParent (env : Env) (in0 in1 out0 out1 : Int) {ep : EndPoint} (exactly : Exact ep.httpRequest)
    (positive : ∀ ret ∈ os.writes, 0 < ret) :
    ∃ (chunks : List Bytes) (c₁ c₂ c₃ c₄ : Bool),
      (cgiParent env in0 in1 out0 out1 ep os).os.trace =
        os.trace ++ [Syscall.close in1 c₁, Syscall.close out0 c₂] ++ chunks.map (Syscall.write out1) ++
          [Syscall.read in0 env.cgiOutput, Syscall.waitpid, Syscall.close in0 c₃, Syscall.close out1 c₄] ∧
      chunks.flatten = givenBody ep.httpRequest := by
  obtain ⟨c₁, first⟩ := trace_close in1 os
  obtain ⟨c₂, second⟩ := trace_close out0 (os.close in1)
  have script : ((os.close in1).close out0).writes = os.writes := by
    unfold Os.close
    split <;> split <;> rfl
  have written : ∃ chunks : List Bytes,
      (if ep.httpRequest.method = POST then
        writeLoop out1 ep.httpRequest.requestBody ep.httpRequest.contentLength
          (ep.httpRequest.requestBody.length + 1) 0 ((os.close in1).close out0)
      else (os.close in1).close out0).trace = ((os.close in1).close out0).trace ++ chunks.map (.write out1) ∧
      chunks.flatten = givenBody ep.httpRequest := by
    unfold givenBody
    split
    · rw [exactly]
      exact trace_writeLoop out1 (script ▸ positive) (Nat.zero_le _) (by omega)
    · exact ⟨[], by simp, rfl⟩
  unfold cgiParent
  simp only
  generalize (if ep.httpRequest.method = POST then (_ : Os) else _) = wrote at written ⊢
  obtain ⟨chunks, body, whole⟩ := written
  obtain ⟨c₃, c₄, after⟩ := trace_afterBody env in0 out1 wrote
  refine ⟨chunks, c₁, c₂, c₃, c₄, ?_, whole⟩
  rw [after, body, second, first]
  simp only [List.append_assoc, List.cons_append, List.nil_append]

/-- What a child is given by a `ProcessCgi` whose pipes and `fork` succeed. -/
theorem trace_processCgi (env : Env) {ep : EndPoint} (os : Os) (exactly : Exact ep.httpRequest)
    (pipes : env.pipeInput = true ∧ env.pipeOutput = true ∧ env.forkOk = true)
    (positive : ∀ ret ∈ os.writes, 0 < ret) :
    ∃ (input output : Int × Int) (chunks : List Bytes) (c₁ c₂ c₃ c₄ : Bool),
      (processCgi env ep os).os.trace = os.trace ++
        [Syscall.pipe (some input), Syscall.pipe (some output), Syscall.fork true,
          Syscall.execl (cStr ep.httpRequest.path) (childEnviron ep.httpRequest), Syscall.close input.2 c₁,
          Syscall.close output.1 c₂] ++ chunks.map (Syscall.write output.2) ++
        [Syscall.read input.1 env.cgiOutput, Syscall.waitpid, Syscall.close input.1 c₃, Syscall.close output.2 c₄] ∧
      chunks.flatten = givenBody ep.httpRequest := by
  obtain ⟨input, firstEnds, firstTrace, firstWrites⟩ : ∃ input, (os.pipe true).1 = some input ∧
      (os.pipe true).2.trace = os.trace ++ [.pipe (some input)] ∧ (os.pipe true).2.writes = os.writes :=
    ⟨_, rfl, rfl, rfl⟩
  obtain ⟨output, secondEnds, secondTrace, secondWrites⟩ : ∃ output, ((os.pipe true).2.pipe true).1 = some output ∧
      ((os.pipe true).2.pipe true).2.trace = (os.pipe true).2.trace ++ [.pipe (some output)] ∧
      ((os.pipe true).2.pipe true).2.writes = (os.pipe true).2.writes := ⟨_, rfl, rfl, rfl⟩
  obtain ⟨chunks, c₁, c₂, c₃, c₄, parent, whole⟩ := @trace_cgiParent
    ((((os.pipe true).2.pipe true).2.emit (.fork true)).emit
      (.execl (cStr ep.httpRequest.path) (childEnviron ep.httpRequest)))
    env input.1 input.2 output.1 output.2 ep exactly (by
      show ∀ ret ∈ ((os.pipe true).2.pipe true).2.writes, 0 < ret
      rw [secondWrites, firstWrites]
      exact positive)
  refine ⟨input, output, chunks, c₁, c₂, c₃, c₄, ?_, whole⟩
  unfold processCgi
  simp only [pipes.1, pipes.2.1, pipes.2.2, firstEnds, secondEnds, if_true]
  rw [parent]
  simp only [Os.emit]
  rw [secondTrace, firstTrace]
  simp only [List.append_assoc, List.cons_append, List.nil_append]

end Parent

/-! ## The child -/

section Child
variable (base : Environ) {req : HttpRequest} (stdin : Bytes)

theorem cStr_assign {name : Bytes} (clean : (0 : UInt8) ∉ name) (value : Bytes) :
    cStr (name ++ ascii "=" ++ value) = name ++ ascii "=" ++ cStr value := by
  apply cStr_append_of_no_nul
  simp [clean, ascii]

theorem environ_get (get : req.method = GET) :
    childEnviron req = [METHOD ++ ascii "=" ++ GET, QUERY_STRING ++ ascii "=" ++ cStr req.queryString] := by
  unfold childEnviron
  rw [if_pos get, get]
  rw [← cStr_assign (by decide) req.queryString]
  rfl

theorem environ_post (post : req.method = POST) :
    childEnviron req = [METHOD ++ ascii "=" ++ POST,
      Cgi.CONTENT_LENGTH ++ ascii "=" ++ cStr (decimalInt req.contentLength)] := by
  have notGet : req.method ≠ GET := by
    rw [post]
    decide
  unfold childEnviron
  rw [if_neg notGet, if_pos post, post]
  rw [← cStr_assign (by decide) (decimalInt req.contentLength)]
  rfl

/-- The child of a `GET` reads back the query string, up to a NUL. -/
theorem getQueryString_get (get : req.method = GET) :
    getQueryString ((childEnviron req).foldl putenv base) stdin [] = some ⟨true, cStr req.queryString, stdin⟩ := by
  have method : getenv ((childEnviron req).foldl putenv base) METHOD = some GET := by
    rw [environ_get get, List.foldl_cons, List.foldl_cons, List.foldl_nil,
      getenv_putenv_other (by decide) (by decide) (by decide)]
    exact getenv_putenv_self (by decide) GET base
  have query : getenv ((childEnviron req).foldl putenv base) QUERY_STRING = some (cStr req.queryString) := by
    rw [environ_get get, List.foldl_cons, List.foldl_cons, List.foldl_nil]
    exact getenv_putenv_self (by decide) _ _
  unfold getQueryString
  simp only [method, if_true, query, Option.map_some]

/-- The child of a `POST` reads back the body, all of it. -/
theorem getQueryString_post (post : req.method = POST) (exactly : Exact req) (short : req.requestBody.length < 2 ^ 31) :
    getQueryString ((childEnviron req).foldl putenv base) req.requestBody [] = some ⟨true, req.requestBody, []⟩ := by
  have method : getenv ((childEnviron req).foldl putenv base) METHOD = some POST := by
    rw [environ_post post, List.foldl_cons, List.foldl_cons, List.foldl_nil,
      getenv_putenv_other (by decide) (by decide) (by decide)]
    exact getenv_putenv_self (by decide) POST base
  have length : getenv ((childEnviron req).foldl putenv base) Cgi.CONTENT_LENGTH =
      some (cStr (decimalInt req.contentLength)) := by
    rw [environ_post post, List.foldl_cons, List.foldl_cons, List.foldl_nil]
    exact getenv_putenv_self (by decide) _ _
  -- the length printed into the environment parses back to itself
  have count : atoi (cStr (decimalInt req.contentLength)) = req.requestBody.length := by
    rw [exactly, decimalInt_natCast, cStr_eq_self decimal_clean, atoi_decimal short]
  have all : wanted (req.requestBody.length : Int) = req.requestBody.length := by
    rw [wanted_of_nonneg (by omega) (by omega)]
    omega
  have read := readLoop_available (by omega) (by omega) (show wanted (req.requestBody.length : Int) < 2 ^ 32 by omega)
    (le_of_eq all) 0 []
  rw [all, List.take_length, List.drop_length, List.nil_append] at read
  have differ : POST ≠ GET := by decide
  unfold getQueryString
  simp only [method, differ, if_false, if_true, length, Option.map_some, count, read]

end Child

/-! ## End to end -/

/-- The bytes of a URI after its first `?`. -/
def queryOf (uri : Bytes) : Bytes := (uri.dropWhile fun b => b != 63).drop 1

/-- What the program of a request should read: the query up to a NUL, or the body. -/
def cgiInput (req : HttpRequest) : Bytes := if req.method = GET then cStr (queryOf req.uri) else req.requestBody

/-- The query split leaves the query, if the end point started without one. -/
theorem query_splitUri {req : HttpRequest} (get : req.method = GET) (none : req.queryString = []) :
    (splitUri req).queryString = queryOf req.uri := by
  have mark : ascii "?" = [63] := rfl
  unfold splitUri queryOf
  rw [if_pos get, mark, find_byte]
  by_cases query : (63 : UInt8) ∈ req.uri
  · simp [query, Net.cutString, find_byte, ← List.drop_drop, drop_run]
  · simp [query, dropWhile_absent query, none]

/-- The split keeps what the child of a `POST` is given. -/
theorem splitUri_keeps (req : HttpRequest) :
    (splitUri req).method = req.method ∧ (splitUri req).contentLength = req.contentLength ∧
      (splitUri req).requestBody = req.requestBody := by
  unfold splitUri
  split
  · split <;> exact ⟨rfl, rfl, rfl⟩
  · split <;> exact ⟨rfl, rfl, rfl⟩

/-- An accepted request holds exactly the bytes it declares, and no query string yet. -/
theorem exact_of_accepted {sock size : Int} {io : Sock} (short : io.unread.length < 2 ^ 31)
    (accepted : (recvHttpRequest (EndPoint.new sock size) io).1.stop = false) :
    Exact (recvHttpRequest (EndPoint.new sock size) io).1.httpRequest ∧
      (recvHttpRequest (EndPoint.new sock size) io).1.httpRequest.requestBody.length < 2 ^ 31 ∧
      (recvHttpRequest (EndPoint.new sock size) io).1.httpRequest.queryString = [] := by
  obtain ⟨unread, fin⟩ := io
  obtain ⟨line, headers, rest, complete⟩ := complete_of_going short accepted
  have received : Received line headers rest (recvHttpRequest (EndPoint.new sock size) ⟨unread, fin⟩) :=
    received_of_complete sock size fin complete short
  obtain ⟨-, high⟩ := declaredLength_bounds line headers
  have length := received.bodyLength
  refine ⟨?_, by omega, ?_⟩
  · exact received.contentLength.trans received.bodyLength.symm
  · rw [recvHttpRequest_of_head complete.head (complete.head.fits short), recvHttpRequestBody_parsedHead]
    rfl

/-- A request that runs a program is dispatched to `ProcessCgi`. -/
theorem dispatch_runs {env : Env} {ep : EndPoint} (os : Os) (runs : RunsCgi env ep.httpRequest) :
    ∃ st, dispatch env ep os = processCgi env (ep.targeted env st) (os.targeted ep.httpRequest st) := by
  obtain ⟨method, st, found, serves⟩ := runs
  refine ⟨st, ?_⟩
  apply dispatch_cases (motive := fun a => a = processCgi env (ep.targeted env st) (os.targeted ep.httpRequest st))
  case unknown => exact fun unknown => absurd method unknown
  case missing =>
    intro _ missing
    rw [missing] at found
    cases found
  case found =>
    intro st' _ found'
    rw [found] at found'
    obtain rfl := Option.some.inj found'
    rw [serves]
    rfl

/-- What the child of a request is given, as the trace of a whole response has it. -/
theorem trace_response {env : Env} {ep : EndPoint} {os : Os} (begun : os.trace = []) (runs : RunsCgi env ep.httpRequest)
    (exactly : Exact ep.httpRequest) (pipes : env.pipeInput = true ∧ env.pipeOutput = true ∧ env.forkOk = true)
    (positive : ∀ ret ∈ os.writes, 0 < ret) :
    ∃ (st : Stat) (input output : Int × Int),
      (buildHttpResponse env ep os).2.trace.flatMap pipeEnds = [input, output] ∧
      (buildHttpResponse env ep os).2.trace.flatMap program =
        [(cStr (ep.targeted env st).httpRequest.path, childEnviron (ep.targeted env st).httpRequest)] ∧
      pipeContents output.2 (buildHttpResponse env ep os).2 = givenBody ep.httpRequest := by
  obtain ⟨st, dispatched⟩ := dispatch_runs os runs
  obtain ⟨method, contentLength, requestBody⟩ := splitUri_keeps ep.httpRequest
  have exactly' : Exact (ep.targeted env st).httpRequest := by
    show (splitUri ep.httpRequest).contentLength = (splitUri ep.httpRequest).requestBody.length
    rw [contentLength, requestBody, exactly]
  have positive' : ∀ ret ∈ (os.targeted ep.httpRequest st).writes, 0 < ret := by
    unfold Os.targeted
    split <;> exact positive
  obtain ⟨input, output, chunks, c₁, c₂, c₃, c₄, trace, whole⟩ :=
    trace_processCgi env (os.targeted ep.httpRequest st) exactly' pipes positive'
  have before : (os.targeted ep.httpRequest st).trace.flatMap pipeEnds = [] ∧
      (os.targeted ep.httpRequest st).trace.flatMap program = [] ∧
      (os.targeted ep.httpRequest st).trace.flatMap (writtenTo output.2) = [] := by
    have childless := childless_targeted os ep.httpRequest st
    rw [flatMap_childless childless blind_pipeEnds, flatMap_childless childless blind_program,
      flatMap_childless childless (blind_writtenTo _), begun]
    exact ⟨rfl, rfl, rfl⟩
  have after := childless_helper env
    { (dispatch env ep os).ep with httpResponse.statusCode := (dispatch env ep os).code } (dispatch env ep os).os
  refine ⟨st, input, output, ?_, ?_, ?_⟩
  · refine (flatMap_childless after blind_pipeEnds).trans ?_
    rw [dispatched, trace]
    simp [before.1, pipeEnds, List.flatMap_map]
  · refine (flatMap_childless after blind_program).trans ?_
    rw [dispatched, trace]
    simp [before.2.1, program, List.flatMap_map]
  · refine (flatMap_childless after (blind_writtenTo output.2)).trans ?_
    have given : givenBody (ep.targeted env st).httpRequest = givenBody ep.httpRequest := by
      show (if (splitUri ep.httpRequest).method = POST then (splitUri ep.httpRequest).requestBody else []) = _
      rw [method, requestBody]
      rfl
    rw [dispatched, trace, ← given, ← whole]
    simp [before.2.2, writtenTo, List.flatMap_map]

/-- The program of a target reads exactly what its request brings. -/
theorem getQueryString_targeted (env : Env) (base : Environ) {ep : EndPoint} (st : Stat)
    (method : ep.httpRequest.method = GET ∨ ep.httpRequest.method = POST) (exactly : Exact ep.httpRequest)
    (short : ep.httpRequest.requestBody.length < 2 ^ 31) (none : ep.httpRequest.queryString = []) :
    getQueryString ((childEnviron (ep.targeted env st).httpRequest).foldl putenv base) (givenBody ep.httpRequest) [] =
      some ⟨true, cgiInput ep.httpRequest, []⟩ := by
  obtain ⟨sameMethod, contentLength, requestBody⟩ := splitUri_keeps ep.httpRequest
  unfold givenBody cgiInput
  rcases method with get | post
  · have notPost : ep.httpRequest.method ≠ POST := by
      rw [get]
      decide
    rw [if_neg notPost, if_pos get, ← query_splitUri get none]
    exact getQueryString_get base [] (sameMethod.trans get)
  · have notGet : ep.httpRequest.method ≠ GET := by
      rw [post]
      decide
    rw [if_pos post, if_neg notGet, ← requestBody]
    apply getQueryString_post base
    case post => exact sameMethod.trans post
    case exactly =>
      show (splitUri ep.httpRequest).contentLength = (splitUri ep.httpRequest).requestBody.length
      rw [contentLength, requestBody, exactly]
    case short =>
      show (splitUri ep.httpRequest).requestBody.length < 2 ^ 31
      rw [requestBody]
      exact short

/-- **The input of a CGI program is exact.** An accepted request that reaches `ProcessCgi` with
both pipes and `fork` runs one program. Its standard input is the pipe made second, its
environment the server's with the entries the child puts. `GetQueryString` run there returns
true with the query of a `GET` or the body of a `POST`, and leaves no input unread. -/
theorem cgiInput_exact (env : Env) (sock : Int) (os : Os) (base : Environ) (short : os.io.unread.length < 2 ^ 31)
    (accepted : (recvHttpRequest (EndPoint.new sock env.staleSize) os.io).1.stop = false)
    (runs : RunsCgi env (recvHttpRequest (EndPoint.new sock env.staleSize) os.io).1.httpRequest)
    (pipes : env.pipeInput = true ∧ env.pipeOutput = true ∧ env.forkOk = true)
    (positive : ∀ ret ∈ os.writes, 0 < ret) :
    ∃ (input output : Int × Int) (path : Bytes) (environ : List Bytes),
      (handlerRequest env sock { os with trace := [] }).trace.flatMap pipeEnds = [input, output] ∧
      (handlerRequest env sock { os with trace := [] }).trace.flatMap program = [(path, environ)] ∧
      getQueryString (environ.foldl putenv base)
          (pipeContents output.2 (handlerRequest env sock { os with trace := [] })) [] =
        some ⟨true, cgiInput (recvHttpRequest (EndPoint.new sock env.staleSize) os.io).1.httpRequest, []⟩ := by
  obtain ⟨exactly, length, none⟩ := exact_of_accepted short accepted
  obtain ⟨st, input, output, ends, programs, given⟩ := @trace_response env
    (recvHttpRequest (EndPoint.new sock env.staleSize) os.io).1
    { os with io := (recvHttpRequest (EndPoint.new sock env.staleSize) os.io).2, trace := [] }
    rfl runs exactly pipes positive
  have rest : Childless
      (buildHttpResponse env (recvHttpRequest (EndPoint.new sock env.staleSize) os.io).1
        { os with io := (recvHttpRequest (EndPoint.new sock env.staleSize) os.io).2, trace := [] }).2
      (handlerRequest env sock { os with trace := [] }) := by
    unfold handlerRequest
    simp only [accepted, Bool.false_eq_true, if_false]
    exact (childless_sendHttpResponse ..).trans (childless_close ..)
  refine ⟨input, output, _, _, (flatMap_childless rest blind_pipeEnds).trans ends,
    (flatMap_childless rest blind_program).trans programs, ?_⟩
  have stdin := (flatMap_childless rest (blind_writtenTo output.2)).trans given
  unfold pipeContents
  rw [stdin]
  exact getQueryString_targeted env base st runs.1 exactly length none

/-- A connection that posts a form, on which `write` takes one byte at a time at first. -/
def formConnection : Os where
  io := ⟨ascii "POST /calc HTTP/1.0\r\nContent-Length: 3\r\n\r\na=1", .closed⟩
  fds := {0, 1, 2, 3, 5}
  trace := []
  writes := [1, 1]
  sends := []

theorem cgiInput_exact_form :
    ∃ (input output : Int × Int) (path : Bytes) (environ : List Bytes),
      (handlerRequest .programs 5 { formConnection with trace := [] }).trace.flatMap pipeEnds = [input, output] ∧
      (handlerRequest .programs 5 { formConnection with trace := [] }).trace.flatMap program = [(path, environ)] ∧
      getQueryString (environ.foldl putenv [ascii "METHOD=HEAD"])
          (pipeContents output.2 (handlerRequest .programs 5 { formConnection with trace := [] })) [] =
        some ⟨true, cgiInput (recvHttpRequest (EndPoint.new 5 0) formConnection.io).1.httpRequest, []⟩ := by
  apply cgiInput_exact .programs 5 formConnection [ascii "METHOD=HEAD"]
  case short => decide
  case accepted => decide
  case runs => exact ⟨.inr (by decide), ⟨0o100755, 10⟩, rfl, by decide⟩
  case pipes => exact ⟨rfl, rfl, rfl⟩
  case positive => simp [formConnection]

end HttpServer.Cgi
