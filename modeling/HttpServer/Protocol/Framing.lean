import HttpServer.Protocol.Descriptors
import HttpServer.Protocol.RoundTrip
import HttpServer.Protocol.Wire

/-!
# The framing of a response

`Response` is a response as its reader means it: a status line, header fields and a body.
`Framed` says that the fields announce the body, and `OkBody` where the body of a 200 comes
from. `handlerRequest_framed` is the result: the bytes a connection sends are such a
response. The header is written from one of three sources and the body chosen later by
`cgi` and `fd`, so the proof follows the outcomes of `dispatch`.
-/

namespace HttpServer.Protocol
open Lib Net WireRequest

def CONTENT_TYPE : Bytes := ascii "Content-Type"

/-- A response with its header fields. -/
structure Response where
  statusLine : Bytes
  headers : List (Bytes × Bytes)
  body : Bytes

/-- The bytes on the wire. -/
def Response.bytes (r : Response) : Bytes :=
  r.statusLine ++ LINE_END ++ (r.headers.map fun h => headerLine h ++ LINE_END).flatten ++ LINE_END ++ r.body

/-- Every line is one line, and the body is as long as the header says: empty if it says
nothing. -/
structure Framed (r : Response) : Prop where
  statusText : OneLine r.statusLine
  headerTexts : ∀ h ∈ r.headers, OneLine h.1 ∧ OneLine h.2 ∧ (58 : UInt8) ∉ h.1
  declared : ∀ value, (CONTENT_LENGTH, value) ∈ r.headers → value = decimal r.body.length
  undeclared : (∀ value, (CONTENT_LENGTH, value) ∉ r.headers) → r.body = []

/-- The status line without its end. -/
def statusText (code : Int) : Bytes := HTTP_VERSION ++ ascii " " ++ decimalInt code ++ ascii " " ++ code2Desc code

/-- The body of a 200: the output of the CGI program, or the file at the resolved path. -/
inductive OkBody (env : Env) (contents : Bytes → Bytes) (req : HttpRequest) : Bytes → Prop where
  | cgi : RunsCgi env req → OkBody env contents req env.cgiOutput
  | file {st : Stat} : req.method = GET ∨ req.method = POST → env.stat (cStr (firstPath req)) = some st →
      servesCgi env req st = false → OkBody env contents req (contents (cStr (redirect env (firstPath req) st).1))

/-- The body of every other status. -/
def errorBody (env : Env) (contents : Bytes → Bytes) : Bytes :=
  if env.openOk (cStr errorPage) then contents (cStr errorPage) else []

/-- `S_ISREG(st_mode)`. -/
def Stat.isReg (st : Stat) : Bool := st.mode &&& 0o170000 = 0o100000

/-- A regular file of less than 2 GiB with these contents. -/
structure RegularFile (env : Env) (contents : Bytes → Bytes) (path : Bytes) : Prop where
  described : ∃ st, env.stat path = some st ∧ st.isReg = true ∧ st.size = (contents path).length
  short : (contents path).length < 2 ^ 31

/-- The trace opens the file at `path`. -/
def Os.Opens (os : Os) (path : Bytes) : Prop := ∃ fd, 0 ≤ fd ∧ .openRead path fd ∈ os.trace

/-- The process serves connections: the descriptors it was started with are still open, and so
is the listening socket, made before the first connection at the lowest number free then. -/
structure Serving (start : Finset Nat) (os : Os) : Prop where
  inherited : start ⊆ os.fds
  listening : lowestUnused start ∈ os.fds

/-- So no `open` returns zero. -/
theorem Serving.zero_mem {start : Finset Nat} {os : Os} (serving : Serving start os) : 0 ∈ os.fds := by
  by_cases stdin : 0 ∈ start
  · exact serving.inherited stdin
  · have lowest : lowestUnused start = 0 := by
      unfold lowestUnused
      rw [List.range_succ_eq_map, List.find?_cons_of_pos (by simpa using stdin)]
      rfl
    rw [← lowest]
    exact serving.listening

/-! ## The response text -/

section Text

theorem oneLine_suffix2Desc (suffix : Bytes) : OneLine (suffix2Desc suffix) := by
  unfold suffix2Desc
  cases listed : suffixTable.lookup suffix with
  | none => exact ⟨by decide, by decide⟩
  | some desc =>
    have clean : ∀ entry ∈ suffixTable, OneLine entry.2 := by
      unfold OneLine
      decide
    obtain ⟨before, after, split, -⟩ := List.lookup_eq_some_iff.mp listed
    exact clean (suffix, desc) (by simp [split])

theorem oneLine_statusText {code : Int} (known : code = OK ∨ ErrorCode code) : OneLine (statusText code) := by
  unfold OneLine
  rcases known with rfl | rfl | rfl | rfl <;> decide

end Text

/-! ## What is ready to be sent -/

section Prepared
variable {env : Env} {contents : Bytes → Bytes} {ep : EndPoint} {os : Os} {r : Response}

/-- The end point and its open file amount to the response `r`. -/
structure Prepared (contents : Bytes → Bytes) (ep : EndPoint) (os : Os) (r : Response) : Prop where
  statusLine : ep.httpResponse.statusLine = r.statusLine ++ LINE_END
  responseHeader : ep.httpResponse.responseHeader = r.headers.map fun h => headerLine h ++ LINE_END
  blank : ep.httpResponse.blank = LINE_END
  addressable : ep.httpRequest.cgi = true → ep.httpResponse.responseBody.length < 2 ^ 63
  body : sentBody contents ep os = r.body

/-- A response that announces its type and its length. -/
def described (code : Int) (type body : Bytes) : Response :=
  ⟨statusText code, [(CONTENT_TYPE, type), (CONTENT_LENGTH, decimal body.length)], body⟩

theorem framed_described {code : Int} {type : Bytes} (known : code = OK ∨ ErrorCode code) (line : OneLine type)
    (body : Bytes) : Framed (described code type body) := by
  constructor
  case statusText => exact oneLine_statusText known
  case headerTexts =>
    intro h mem
    simp only [described, List.mem_cons, List.not_mem_nil, or_false] at mem
    have typeName : OneLine CONTENT_TYPE ∧ (58 : UInt8) ∉ CONTENT_TYPE := ⟨⟨by decide, by decide⟩, by decide⟩
    have lengthName : OneLine CONTENT_LENGTH ∧ (58 : UInt8) ∉ CONTENT_LENGTH := ⟨⟨by decide, by decide⟩, by decide⟩
    rcases mem with rfl | rfl
    · exact ⟨typeName.1, line, typeName.2⟩
    · exact ⟨lengthName.1, oneLine_decimal _, lengthName.2⟩
  case declared =>
    intro value mem
    have differ : CONTENT_LENGTH ≠ CONTENT_TYPE := by decide
    simpa [described, differ] using mem
  case undeclared =>
    intro silent
    exact absurd (by simp [described]) (silent (decimal body.length))

/-- A response without header fields has no body. -/
theorem framed_bare {code : Int} (error : ErrorCode code) : Framed ⟨statusText code, [], []⟩ := by
  constructor
  case statusText => exact oneLine_statusText (.inr error)
  case headerTexts => exact fun h mem => absurd mem List.not_mem_nil
  case declared => exact fun value mem => absurd mem List.not_mem_nil
  case undeclared => exact fun _ => rfl

theorem opens_openRead {path : Bytes} (opened : 0 ≤ (os.openRead env path).1) :
    (os.openRead env path).2.Opens path := by
  refine ⟨(os.openRead env path).1, opened, ?_⟩
  rw [trace_openRead]
  exact List.mem_append_right _ List.mem_cons_self

/-- `sendfile` with the size of a regular file transfers all of it. -/
theorem sentBody_file {path : Bytes} (static : ep.httpRequest.cgi = false)
    (file : (os.wire contents).files ep.httpResponse.fd = some path)
    (size : ep.httpRequest.size = (contents path).length) (short : (contents path).length < 2 ^ 31) :
    sentBody contents ep os = contents path := by
  have count : sizeT ep.httpRequest.size = (contents path).length := by
    rw [size]
    unfold sizeT
    omega
  unfold sentBody
  rw [static, if_neg Bool.false_ne_true, file, count]
  exact List.take_length

theorem sentBody_none (static : ep.httpRequest.cgi = false)
    (none : (os.wire contents).files ep.httpResponse.fd = none) : sentBody contents ep os = [] := by
  unfold sentBody
  rw [static, if_neg Bool.false_ne_true, none]
  exact List.take_nil

theorem files_openRead {path : Bytes} (opened : 0 ≤ (os.openRead env path).1) :
    ((os.openRead env path).2.wire contents).files (os.openRead env path).1 = some path := by
  rw [wire_openRead]
  simp only [Wire.step, if_pos opened]
  exact Function.update_self ..

/-- No file is open under a negative number. -/
theorem files_neg (contents : Bytes → Bytes) (os : Os) {fd : Int} (neg : fd < 0) :
    (os.wire contents).files fd = none := by
  have run : ∀ (trace : List Syscall) (wire : Wire), wire.files fd = none →
      (trace.foldl (Wire.step contents) wire).files fd = none := by
    intro trace
    induction trace with
    | nil => exact fun _ none => none
    | cons call trace ih =>
      intro wire none
      apply ih
      cases call with
      | openRead path opened =>
        by_cases nonneg : 0 ≤ opened
        · have differ : fd ≠ opened := by omega
          simp [Wire.step, nonneg, Function.update_of_ne differ, none]
        · simp [Wire.step, nonneg, none]
      | close closed ok =>
        by_cases same : fd = closed
        · simp [Wire.step, same]
        · simp [Wire.step, Function.update_of_ne same, none]
      | _ => exact none
  exact run os.trace _ rfl

theorem opens_emit {path : Bytes} (opens : os.Opens path) (call : Syscall) : (os.emit call).Opens path := by
  obtain ⟨fd, opened, mem⟩ := opens
  exact ⟨fd, opened, List.mem_append_left _ mem⟩

/-- The header lines of both branches that write any. -/
theorem described_lines (code : Int) (type body : Bytes) :
    ((described code type body).headers.map fun h => headerLine h ++ LINE_END) =
      [ascii "Content-Type: " ++ type ++ LINE_END, ascii "Content-Length: " ++ decimal body.length ++ LINE_END] := rfl

/-- The texts of the fields of this name, with the end of their line. -/
def fieldTexts (name : Bytes) (header : List Bytes) : List Bytes :=
  header.filterMap fun line => if (name ++ SEP).isPrefixOf line then some (line.drop (name ++ SEP).length) else none

theorem fieldTexts_same (name text : Bytes) (rest : List Bytes) :
    fieldTexts name ((name ++ SEP ++ text) :: rest) = text :: fieldTexts name rest := by
  have named : (name ++ SEP).isPrefixOf (name ++ SEP ++ text) = true :=
    List.isPrefixOf_iff_prefix.mpr (List.prefix_append ..)
  unfold fieldTexts
  rw [List.filterMap_cons_some (by rw [if_pos named]), List.drop_left]

theorem fieldTexts_other {name line : Bytes} (other : (name ++ SEP).isPrefixOf line = false) (rest : List Bytes) :
    fieldTexts name (line :: rest) = fieldTexts name rest := by
  unfold fieldTexts
  rw [List.filterMap_cons_none (by rw [other]; rfl)]

theorem length_texts (type value : Bytes) :
    fieldTexts CONTENT_LENGTH
      [ascii "Content-Type: " ++ type ++ LINE_END, ascii "Content-Length: " ++ value ++ LINE_END] =
      [value ++ LINE_END] := by
  rw [fieldTexts_other rfl, List.append_assoc]
  exact fieldTexts_same CONTENT_LENGTH _ []

theorem type_texts (type value : Bytes) :
    fieldTexts CONTENT_TYPE
      [ascii "Content-Type: " ++ type ++ LINE_END, ascii "Content-Length: " ++ value ++ LINE_END] =
      [type ++ LINE_END] := by
  rw [List.append_assoc]
  refine (fieldTexts_same CONTENT_TYPE _ _).trans ?_
  rw [fieldTexts_other rfl]
  rfl

/-- No part of the response head is written yet but the empty line. -/
structure Fresh (ep : EndPoint) : Prop where
  statusLine : ep.httpResponse.statusLine = []
  responseHeader : ep.httpResponse.responseHeader = []
  blank : ep.httpResponse.blank = LINE_END

theorem fresh_accepted (env : Env) (sock : Int) (os : Os) : Fresh (accepted env sock os) := by
  have same := (recvHttpRequest_same (EndPoint.new sock env.staleSize) os.io).httpResponse
  constructor <;> exact congrArg _ same

theorem Fresh.same {ep' : EndPoint} (fresh : Fresh ep) (head : SameHead ep ep') : Fresh ep' :=
  ⟨head.statusLine.trans fresh.statusLine, head.responseHeader.trans fresh.responseHeader, head.blank.trans fresh.blank⟩

theorem Fresh.stated (fresh : Fresh ep) :
    ep.stated.httpResponse.statusLine = statusText ep.httpResponse.statusCode ++ LINE_END := by
  unfold EndPoint.stated
  rw [fresh.statusLine]
  rfl

/-- The response of a failure: the error page, or nothing if it does not open. -/
def errorResponse (env : Env) (contents : Bytes → Bytes) (code : Int) : Response :=
  if env.openOk (cStr errorPage) then described code (ascii "text/html") (contents (cStr errorPage))
  else ⟨statusText code, [], []⟩

theorem framed_errorResponse {code : Int} (error : ErrorCode code) : Framed (errorResponse env contents code) := by
  unfold errorResponse
  split
  · exact framed_described (.inr error) ⟨by decide, by decide⟩ _
  · exact framed_bare error

theorem statusLine_errorResponse (env : Env) (contents : Bytes → Bytes) (code : Int) :
    (errorResponse env contents code).statusLine = statusText code := by
  unfold errorResponse
  split <;> rfl

theorem body_errorResponse (env : Env) (contents : Bytes → Bytes) (code : Int) :
    (errorResponse env contents code).body = errorBody env contents := by
  unfold errorResponse errorBody
  split <;> rfl

/-- Where the error page opens, it opens at a number that `HandlerError` takes for a success. -/
theorem errorPage_opens (inUse : 0 ∈ os.fds) (openOk : env.openOk (cStr errorPage) = true) :
    0 < (os.openRead env (cStr errorPage)).1 := by
  have fd : (os.openRead env (cStr errorPage)).1 = lowestUnused os.fds := by simp [Os.openRead, openOk]
  have free : lowestUnused os.fds ≠ 0 := fun zero => lowestUnused_notMem os.fds (zero ▸ inUse)
  omega

theorem prepared_errorPage (fresh : Fresh ep) (error : ErrorCode ep.httpResponse.statusCode) (inUse : 0 ∈ os.fds)
    (page : env.openOk (cStr errorPage) = true → RegularFile env contents (cStr errorPage)) :
    Prepared contents (buildHttpResponseHelper env ep os).1 (buildHttpResponseHelper env ep os).2
      (errorResponse env contents ep.httpResponse.statusCode) := by
  rw [helper_error env os error]
  unfold errorResponse
  cases openOk : env.openOk (cStr errorPage) with
  | true =>
    have opened := errorPage_opens inUse openOk
    rw [handlerError_opened env errorPage ep.stated opened]
    obtain ⟨⟨st, found, -, size⟩, short⟩ := page openOk
    rw [found, Option.getD_some]
    constructor
    case statusLine => exact fresh.stated
    case responseHeader =>
      rw [if_pos rfl, described_lines]
      show ep.httpResponse.responseHeader ++ _ = _
      rw [fresh.responseHeader, size, decimalInt_natCast, List.nil_append]
      rfl
    case blank => exact fresh.blank
    case addressable => exact fun cgi => absurd cgi Bool.false_ne_true
    case body =>
      apply sentBody_file rfl _ _ short
      · rw [wire_emit]
        exact files_openRead opened.le
      · show int32 st.size = _
        rw [size]
        exact int32_of_bounds (by omega) (by omega)
  | false =>
    have fd : (os.openRead env (cStr errorPage)).1 = -1 := by simp [Os.openRead, openOk]
    rw [handlerError_closed env errorPage ep.stated (by omega)]
    constructor
    case statusLine => exact fresh.stated
    case responseHeader => exact fresh.responseHeader
    case blank => exact fresh.blank
    case addressable => exact fun cgi => absurd cgi Bool.false_ne_true
    case body =>
      apply sentBody_none rfl
      apply files_neg
      show (os.openRead env (cStr errorPage)).1 < 0
      omega

theorem prepared_error (fresh : Fresh ep) (error : ErrorCode ep.httpResponse.statusCode) (inUse : 0 ∈ os.fds)
    (regular : ∀ path, (buildHttpResponseHelper env ep os).2.Opens path → RegularFile env contents path) :
    Prepared contents (buildHttpResponseHelper env ep os).1 (buildHttpResponseHelper env ep os).2
      (errorResponse env contents ep.httpResponse.statusCode) := by
  apply prepared_errorPage fresh error inUse
  intro openOk
  have opened := errorPage_opens inUse openOk
  apply regular
  rw [helper_error env os error, handlerError_opened env errorPage ep.stated opened]
  exact opens_emit (opens_openRead opened.le) _

/-- The response of a success, if the length announced is that of the body sent. -/
theorem prepared_ok (fresh : Fresh ep) (ok : ep.httpResponse.statusCode = OK) {body : Bytes}
    (length : (if ep.httpRequest.cgi then decimal ep.httpResponse.responseBody.length
      else decimalInt ep.httpRequest.size) = decimal body.length)
    (addressable : ep.httpRequest.cgi = true → ep.httpResponse.responseBody.length < 2 ^ 63)
    (sent : sentBody contents ep os = body) :
    Prepared contents (buildHttpResponseHelper env ep os).1 (buildHttpResponseHelper env ep os).2
      (described OK (suffix2Desc ep.httpRequest.suffix) body) := by
  rw [helper_ok env os ok]
  constructor
  case statusLine =>
    show ep.stated.httpResponse.statusLine = _
    rw [fresh.stated, ok]
    rfl
  case responseHeader =>
    rw [described_lines, ← length]
    show ep.httpResponse.responseHeader ++ _ = _
    rw [fresh.responseHeader]
    rfl
  case blank => exact fresh.blank
  case addressable => exact addressable
  case body => exact sent

theorem framed_ok (suffix body : Bytes) : Framed (described OK (suffix2Desc suffix) body) :=
  framed_described (.inl rfl) (oneLine_suffix2Desc suffix) body

/-- The output of a CGI program is announced by the size of the buffer that holds it. -/
theorem prepared_cgi (fresh : Fresh ep) (ok : ep.httpResponse.statusCode = OK) (cgi : ep.httpRequest.cgi = true)
    (addressable : ep.httpResponse.responseBody.length < 2 ^ 63) :
    Prepared contents (buildHttpResponseHelper env ep os).1 (buildHttpResponseHelper env ep os).2
      (described OK (suffix2Desc ep.httpRequest.suffix) ep.httpResponse.responseBody) := by
  apply prepared_ok fresh ok
  case length => rw [cgi, if_pos rfl]
  case addressable => exact fun _ => addressable
  case sent =>
    unfold sentBody
    rw [cgi, if_pos rfl]

/-- A file is announced by the size that `stat` has given. -/
theorem prepared_file (fresh : Fresh ep) (ok : ep.httpResponse.statusCode = OK) (static : ep.httpRequest.cgi = false)
    {path : Bytes} (file : (os.wire contents).files ep.httpResponse.fd = some path)
    (size : ep.httpRequest.size = (contents path).length) (short : (contents path).length < 2 ^ 31) :
    Prepared contents (buildHttpResponseHelper env ep os).1 (buildHttpResponseHelper env ep os).2
      (described OK (suffix2Desc ep.httpRequest.suffix) (contents path)) := by
  apply prepared_ok fresh ok
  case length => rw [static, if_neg Bool.false_ne_true, size, decimalInt_natCast]
  case addressable => exact fun cgi => absurd (static.symm.trans cgi) Bool.false_ne_true
  case sent => exact sentBody_file static file size short

/-- The size stored is that of the file opened: the second `stat`, if there is one, succeeds. -/
theorem size_targeted {st : Stat} (found : env.stat (cStr (firstPath ep.httpRequest)) = some st)
    (file : RegularFile env contents (cStr (redirect env (firstPath ep.httpRequest) st).1)) :
    (ep.targeted env st).httpRequest.size =
      (contents (cStr (redirect env (firstPath ep.httpRequest) st).1)).length := by
  obtain ⟨⟨st', found', -, size⟩, short⟩ := file
  show int32 (redirect env (firstPath ep.httpRequest) st).2.size = _
  rw [redirect_described found found', size]
  exact int32_of_bounds (by omega) (by omega)

/-- The dispatch closes nothing that was open before it. -/
theorem zero_mem_dispatch (closed : ep.httpResponse.fd < 0) (begun : os.trace = []) (inUse : 0 ∈ os.fds) :
    0 ∈ (dispatch env ep os).os.fds := by
  have held : Held os.fds os.fds.val 0 os := ⟨by simp [Os.account, begun, Ledger.settle], by simp⟩
  obtain ⟨leaked, file, held, -⟩ := held_dispatch env ep closed held
  rw [← Finset.mem_val, held.split]
  exact Multiset.mem_add.mpr (.inl inUse)

/-- The response `BuildHttpResponse` prepares, its code and the source of its body. -/
theorem prepared_response (fresh : Fresh ep) (empty : ep.httpResponse.responseBody = [])
    (closed : ep.httpResponse.fd < 0) (addressable : env.cgiOutput.length < 2 ^ 63) (inUse : 0 ∈ os.fds)
    (begun : os.trace = [])
    (regular : ∀ path, (buildHttpResponse env ep os).2.Opens path → RegularFile env contents path) :
    ∃ code r, Prepared contents (buildHttpResponse env ep os).1 (buildHttpResponse env ep os).2 r ∧ Framed r ∧
      r.statusLine = statusText code ∧ (code = OK → OkBody env contents ep.httpRequest r.body) ∧
      (code ≠ OK → r.body = errorBody env contents) := by
  unfold buildHttpResponse at regular ⊢
  have stays : 0 ∈ (dispatch env ep os).os.fds := zero_mem_dispatch closed begun inUse
  have outcome := dispatch_outcome env ep os
  generalize dispatch env ep os = a at *
  have head := outcome.head
  have answered : Fresh { a.ep with httpResponse.statusCode := a.code } := fresh.same ⟨head.1, head.2, head.3⟩
  cases outcome with
  | failed error =>
    refine ⟨a.code, _, prepared_error answered error stays regular, framed_errorResponse error,
      statusLine_errorResponse .., fun ok => absurd ok error.ne_ok, fun _ => body_errorResponse ..⟩
  | cgi st method found serves code head request body =>
    rw [empty, List.nil_append] at body
    have cgi : a.ep.httpRequest.cgi = true := by
      rw [request]
      exact serves
    have prepared := @prepared_cgi env contents _ a.os answered code cgi (by simpa only [body] using addressable)
    refine ⟨OK, _, prepared, framed_ok .., rfl, fun _ => ?_, fun error => absurd rfl error⟩
    show OkBody env contents ep.httpRequest a.ep.httpResponse.responseBody
    rw [body]
    exact .cgi ⟨method, st, found, serves⟩
  | file st method found serves code head request before opens fd opened =>
    have static : a.ep.httpRequest.cgi = false := by
      rw [request]
      exact serves
    rw [fd] at opened
    have file : RegularFile env contents (cStr (redirect env (firstPath ep.httpRequest) st).1) := by
      apply regular
      rw [helper_ok env _ code, opens]
      exact opens_openRead opened
    have size : a.ep.httpRequest.size = (contents (cStr (redirect env (firstPath ep.httpRequest) st).1)).length := by
      rw [request]
      exact size_targeted found file
    have holds : (a.os.wire contents).files a.ep.httpResponse.fd =
        some (cStr (redirect env (firstPath ep.httpRequest) st).1) := by
      rw [opens, fd]
      exact files_openRead opened
    exact ⟨OK, _, prepared_file answered code static holds size file.short, framed_ok .., rfl,
      fun _ => .file method found serves, fun error => absurd rfl error⟩

end Prepared

/-! ## The whole connection -/

theorem Os.Opens.mono {os os' : Os} {path : Bytes} (opens : os.Opens path) (grows : os.trace <+: os'.trace) :
    os'.Opens path := by
  obtain ⟨fd, opened, mem⟩ := opens
  exact ⟨fd, opened, grows.subset mem⟩

/-- A response built and sent by an end point that has received a request. -/
theorem response_framed {env : Env} {contents : Bytes → Bytes} {ep : EndPoint} {os : Os}
    (response : ep.httpResponse = ⟨[], [], LINE_END, [], OK, -1⟩) (inUse : 0 ∈ os.fds) (begun : os.trace = [])
    (transfers : os.sends = []) (addressable : env.cgiOutput.length < 2 ^ 63)
    (regular : ∀ path, (buildHttpResponse env ep os).2.Opens path → RegularFile env contents path) :
    ∃ code r, ((sendHttpResponse (buildHttpResponse env ep os).1 (buildHttpResponse env ep os).2).wire contents).sent =
        r.bytes ∧ Framed r ∧ r.statusLine = statusText code ∧
      (code = OK → OkBody env contents ep.httpRequest r.body) ∧ (code ≠ OK → r.body = errorBody env contents) := by
  have fresh : Fresh ep := by constructor <;> rw [response]
  have closed : ep.httpResponse.fd < 0 := by
    rw [response]
    decide
  have empty : ep.httpResponse.responseBody = [] := by rw [response]
  obtain ⟨code, r, prepared, rest⟩ := prepared_response fresh empty closed addressable inUse begun regular
  refine ⟨code, r, ?_, rest⟩
  have mute := frame_mute.buildHttpResponse env ep os
  have silent : (os.wire contents).sent = [] := by
    unfold Os.wire
    rw [begun]
    rfl
  rw [sent_sendHttpResponse (mute.sends.trans transfers) contents _ prepared.addressable, mute.sent, silent,
    List.nil_append, prepared.statusLine, prepared.responseHeader, prepared.blank, prepared.body]
  rfl

/-- **Framing.** What a connection sends is one response whose header announces its body. With
status 200 the body is the output of the CGI program or the file at the resolved path, with
any other the error page, or nothing if that does not open. -/
theorem handlerRequest_framed (env : Env) (contents : Bytes → Bytes) (start : Finset Nat) (sock : Int) (os : Os)
    (serving : Serving start os) (transfers : os.sends = []) (addressable : env.cgiOutput.length < 2 ^ 63)
    (received : (recvHttpRequest (EndPoint.new sock env.staleSize) os.io).1.stop = false)
    (regular : ∀ path, (handlerRequest env sock { os with trace := [] }).Opens path → RegularFile env contents path) :
    ∃ code r, ((handlerRequest env sock { os with trace := [] }).wire contents).sent = r.bytes ∧ Framed r ∧
      r.statusLine = statusText code ∧
      (code = OK → OkBody env contents (recvHttpRequest (EndPoint.new sock env.staleSize) os.io).1.httpRequest r.body) ∧
      (code ≠ OK → r.body = errorBody env contents) := by
  have same := recvHttpRequest_same (EndPoint.new sock env.staleSize) os.io
  unfold handlerRequest at regular ⊢
  simp only [received, Bool.false_eq_true, if_false] at regular ⊢
  rw [wire_close]
  apply response_framed same.httpResponse
  case inUse => exact serving.zero_mem
  case begun => rfl
  case transfers => exact transfers
  case addressable => exact addressable
  case regular =>
    intro path opens
    exact regular path (opens.mono ((childless_sendHttpResponse ..).trans (childless_close ..)).grows)

/-- A connection that asks for a page. -/
def pageConnection : Os where
  io := ⟨ascii "GET /a.html HTTP/1.0\r\n\r\n", .closed⟩
  fds := {0, 1, 2, 3, 5}
  trace := []
  writes := []
  sends := []

/-- A machine on which every file is a page of five bytes. -/
def Env.pages : Env := { Env.bare with stat := fun _ => some ⟨0o100644, 5⟩, openOk := fun _ => true }

theorem handlerRequest_framed_page :
    ∃ code r, ((handlerRequest .pages 5 pageConnection).wire fun _ => ascii "hello").sent = r.bytes ∧ Framed r ∧
      r.statusLine = statusText code ∧
      (code = OK → OkBody .pages (fun _ => ascii "hello")
        (recvHttpRequest (EndPoint.new 5 0) pageConnection.io).1.httpRequest r.body) ∧
      (code ≠ OK → r.body = errorBody .pages fun _ => ascii "hello") := by
  apply handlerRequest_framed .pages (fun _ => ascii "hello") {0, 1, 2} 5 pageConnection
  case serving => exact ⟨by decide, by decide⟩
  case transfers => rfl
  case addressable => decide
  case received => decide
  case regular => exact fun path _ => ⟨⟨⟨0o100644, 5⟩, rfl, by decide, by decide⟩, by decide⟩

end HttpServer.Protocol
