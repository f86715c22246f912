import HttpServer.Protocol.Message

/-!
# Receiving a request

`RecvHttpRequest`: the request line, the header lines up to the empty one, the parsing of
both, and for a `POST` with a `Content-Length` the counted body. Each function takes the
end point and the socket and returns them as it leaves them; the `bool` the source returns
is always the `stop` field. The header loop runs with a bound on its rounds, and has no
result if that does not do; the number of unread bytes plus one always does
(`recvHeaderLoop_isSome`), since a round that goes on has consumed a line.
-/

namespace HttpServer.Protocol
open Lib Net

def POST : Bytes := ascii "POST"
def GET : Bytes := ascii "GET"
def CONTENT_LENGTH : Bytes := ascii "Content-Length"

/-- `RecvHttpRequestLine`. -/
def recvHttpRequestLine (ep : EndPoint) (io : Sock) : EndPoint × Sock :=
  let r := readLine io ep.httpRequest.requestLine
  if 0 < r.ret then
    ({ ep with httpRequest.requestLine := r.out.dropLast }, { io with unread := r.unread })
  else
    ({ ep with httpRequest.requestLine := r.out, stop := true }, { io with unread := r.unread })

/-- The loop of `RecvHttpRequestHeader`; `none` if it is not over after so many rounds. -/
def recvHeaderLoop : Nat → EndPoint → Sock → Option (EndPoint × Sock)
  | 0, _, _ => none
  | rounds + 1, ep, io =>
    let r := readLine io []
    let io' := { io with unread := r.unread }
    if r.ret ≤ 0 then some ({ ep with stop := true }, io')
    else if r.out = [LF] then some ({ ep with httpRequest.blank := r.out }, io')
    else
      recvHeaderLoop rounds
        { ep with httpRequest.requestHeader := ep.httpRequest.requestHeader ++ [r.out.dropLast] } io'

theorem readLine_line {fin : StreamEnd} {content : Bytes} {eol : Eol} {rest : Bytes} (line : IsLine content eol rest) :
    readLine ⟨content ++ eol.bytes ++ rest, fin⟩ [] =
      ⟨int32 (content.length + 1), content ++ [LF], rest⟩ := by
  simpa [readLine] using @readLineLoop_line fin content eol rest [] line

theorem StreamEnd.ret_nonpos (fin : StreamEnd) : fin.ret ≤ 0 := by cases fin <;> decide

/-- A call of `ReadLine` that returns a positive value has consumed a line. -/
theorem readLine_shorter {io : Sock} (positive : 0 < (readLine io []).ret) :
    (readLine io []).unread.length < io.unread.length := by
  obtain ⟨unread, fin⟩ := io
  rcases line_or_open unread with ⟨noCR, noLF⟩ | ⟨content, eol, rest, rfl, line⟩
  · have closed := StreamEnd.ret_nonpos fin
    rw [readLine, readLineLoop_open noCR noLF] at positive
    exact absurd positive (Int.not_lt.mpr closed)
  · have some := eol.bytes_length_pos
    rw [readLine_line line]
    simp only [List.length_append]
    omega

/-- The header loop ends by itself. -/
theorem recvHeaderLoop_isSome {rounds : Nat} (ep : EndPoint) {io : Sock} (enough : io.unread.length < rounds) :
    (recvHeaderLoop rounds ep io).isSome := by
  induction rounds generalizing ep io with
  | zero => omega
  | succ rounds ih =>
    unfold recvHeaderLoop
    simp only
    split
    · rfl
    · rename_i positive
      have shorter := readLine_shorter (Int.not_le.mp positive)
      split
      · rfl
      · exact ih _ (by simp only; omega)

/-- `RecvHttpRequestHeader`. -/
def recvHttpRequestHeader (ep : EndPoint) (io : Sock) : EndPoint × Sock :=
  (recvHeaderLoop (io.unread.length + 1) ep io).get (recvHeaderLoop_isSome ep (Nat.lt_succ_self _))

/-- One `ss >> word`: the blanks are skipped, the word ends at a blank. -/
def nextWord (s : Bytes) : Bytes × Bytes :=
  let t := s.dropWhile isSpace
  (t.takeWhile fun b => !isSpace b, t.dropWhile fun b => !isSpace b)

/-- `ParseHttpRequestLine`. -/
def parseHttpRequestLine (ep : EndPoint) : EndPoint :=
  let method := nextWord ep.httpRequest.requestLine
  let uri := nextWord method.2
  let version := nextWord uri.2
  { ep with
    httpRequest.method := method.1.map toUpper
    httpRequest.uri := uri.1
    httpRequest.version := version.1 }

/-- One iteration of `ParseHttpRequestHeader`. -/
def parseHeader (kv : HeaderKv) (header : Bytes) : HeaderKv :=
  let cut := cutString header [] [] SEP
  if cut.found then kv.insert cut.sub1 cut.sub2 else kv

/-- `ParseHttpRequestHeader`. -/
def parseHttpRequestHeader (ep : EndPoint) : EndPoint :=
  { ep with httpRequest.headerKv := ep.httpRequest.requestHeader.foldl parseHeader ep.httpRequest.headerKv }

/-- `IsNeedRecvHttpRequestBody`: the answer, and the end point with `content_length` set. -/
def isNeedRecvHttpRequestBody (ep : EndPoint) : Bool × EndPoint :=
  if ep.httpRequest.method = POST then
    match ep.httpRequest.headerKv.lookup CONTENT_LENGTH with
    | some value => (true, { ep with httpRequest.contentLength := atoi value })
    | none => (false, ep)
  else (false, ep)

/-- What the body loop leaves behind. -/
structure BodyRead where
  stop : Bool
  body : Bytes
  unread : Bytes
  deriving DecidableEq, Repr

/-- The loop of `RecvHttpRequestBody` on the unread bytes, with the bytes still to come. -/
def recvBodyLoop : Bytes → Int → Bytes → BodyRead
  | [], contentLength, body => ⟨contentLength ≠ 0, body, []⟩
  | ch :: rest, contentLength, body =>
    if contentLength = 0 then ⟨false, body, ch :: rest⟩
    else recvBodyLoop rest (int32 (contentLength - 1)) (body ++ [ch])

/-- `RecvHttpRequestBody`. -/
def recvHttpRequestBody (ep : EndPoint) (io : Sock) : EndPoint × Sock :=
  let need := isNeedRecvHttpRequestBody ep
  let ep := need.2
  if need.1 then
    let r := recvBodyLoop io.unread ep.httpRequest.contentLength ep.httpRequest.requestBody
    ({ ep with httpRequest.requestBody := r.body, stop := ep.stop || r.stop }, { io with unread := r.unread })
  else (ep, io)

/-- `RecvHttpRequest`. -/
def recvHttpRequest (ep : EndPoint) (io : Sock) : EndPoint × Sock :=
  let line := recvHttpRequestLine ep io
  if line.1.stop then line
  else
    let header := recvHttpRequestHeader line.1 line.2
    if header.1.stop then header
    else recvHttpRequestBody (parseHttpRequestHeader (parseHttpRequestLine header.1)) header.2

end HttpServer.Protocol
