import HttpServer.Protocol.RecvSpec
import HttpServer.Protocol.Respond

/-!
# Only complete requests are acted on

`Complete s line headers rest` says that the stream `s` begins with a whole request: a
head, and behind it at least the bytes it declares. A stream shorter than `2 ^ 31` bytes
is accepted exactly if it does (`recv_accepts_iff`), in which case the receive leaves
exactly the bytes after the request; otherwise the handler closes the socket and makes no
other call.
-/

namespace HttpServer.Protocol
open Lib Net

/-- A head, a non-negative declared length, and at least that many bytes behind the head. -/
structure Complete (s line : Bytes) (headers : List Bytes) (rest : Bytes) : Prop where
  head : HeadOf s line headers rest
  nonneg : 0 ≤ declaredLength line headers
  enough : declaredLength line headers ≤ rest.length

/-- What an accepted receive holds and leaves unread. -/
structure Received (line : Bytes) (headers : List Bytes) (rest : Bytes) (result : EndPoint × Sock) : Prop where
  going : result.1.stop = false
  requestLine : result.1.httpRequest.requestLine = line
  requestHeader : result.1.httpRequest.requestHeader = headers
  body : result.1.httpRequest.requestBody = rest.take (declaredLength line headers).toNat
  bodyLength : (result.1.httpRequest.requestBody.length : Int) = declaredLength line headers
  contentLength : result.1.httpRequest.contentLength = declaredLength line headers
  unread : result.2.unread = rest.drop (declaredLength line headers).toNat

theorem HeadOf.fits {s line : Bytes} {headers : List Bytes} {rest : Bytes} (head : HeadOf s line headers rest)
    (short : s.length < 2 ^ 31) : ∀ l ∈ line :: headers, LineFits l := by
  intro l mem
  have := head.length.2 l mem
  exact lineFits_of_lt (by omega)

/-- A complete request is received, whatever follows it. -/
theorem received_of_complete {s line : Bytes} {headers : List Bytes} {rest : Bytes} (sock size : Int)
    (fin : StreamEnd) (complete : Complete s line headers rest) (short : s.length < 2 ^ 31) :
    Received line headers rest (recvHttpRequest (EndPoint.new sock size) ⟨s, fin⟩) := by
  obtain ⟨head, nonneg, enough⟩ := complete
  obtain ⟨low, high⟩ := declaredLength_bounds line headers
  have count := wanted_of_nonneg nonneg high
  have within : wanted (declaredLength line headers) ≤ rest.length := by omega
  rw [recvHttpRequest_of_head head (head.fits short), recvHttpRequestBody_parsedHead,
    recvBodyLoop_eq _ low high, if_pos within]
  constructor
  case going => rfl
  case requestLine => rfl
  case requestHeader => rfl
  case body => simp [count]
  case bodyLength =>
    simp only [count, List.nil_append, List.length_take]
    omega
  case contentLength => rfl
  case unread => simp [count]

/-- A receive that does not stop has read a complete request. -/
theorem complete_of_going {sock size : Int} {io : Sock} (short : io.unread.length < 2 ^ 31)
    (going : (recvHttpRequest (EndPoint.new sock size) io).1.stop = false) :
    ∃ line headers rest, Complete io.unread line headers rest := by
  obtain ⟨line, headers, rest, head, fits⟩ := head_of_recvHttpRequest going
  obtain ⟨low, high⟩ := declaredLength_bounds line headers
  have behind := head.length.1
  obtain ⟨unread, fin⟩ := io
  rw [recvHttpRequest_of_head head fits, recvHttpRequestBody_parsedHead, recvBodyLoop_eq _ low high] at going
  have within : wanted (declaredLength line headers) ≤ rest.length := by
    by_contra beyond
    rw [if_neg beyond] at going
    cases going
  -- a negative count would want at least `2 ^ 31` bytes
  have nonneg : 0 ≤ declaredLength line headers := by
    by_contra negative
    have := wanted_of_neg low (Int.not_le.mp negative)
    simp only at short behind
    omega
  rw [wanted_of_nonneg nonneg high] at within
  exact ⟨line, headers, rest, head, nonneg, by omega⟩

/-- **Only complete requests are acted on.** The receive ends, since its header loop is over
after at most as many rounds as there are unread bytes, and one. Of the streams shorter than `2 ^ 31` bytes
it accepts exactly those that begin with a complete request, and consumes exactly that
request; for every other stream the handler's only call is the `close` of the socket. -/
theorem recv_accepts_iff (env : Env) (sock : Int) (os : Os) (short : os.io.unread.length < 2 ^ 31) :
    let result := recvHttpRequest (EndPoint.new sock env.staleSize) os.io
    (∀ ep io rounds, io.unread.length < rounds → recvHeaderLoop rounds ep io = some (recvHttpRequestHeader ep io)) ∧
    (result.1.stop = false ↔ ∃ line headers rest, Complete os.io.unread line headers rest) ∧
    (∀ line headers rest, Complete os.io.unread line headers rest → Received line headers rest result) ∧
    (result.1.stop = true →
      (handlerRequest env sock os).trace = os.trace ++ [.close sock (decide (0 ≤ sock ∧ sock.toNat ∈ os.fds))]) := by
  have accepted : ∀ line headers rest, Complete os.io.unread line headers rest →
      Received line headers rest (recvHttpRequest (EndPoint.new sock env.staleSize) os.io) :=
    fun line headers rest complete => received_of_complete sock env.staleSize os.io.fin complete short
  refine ⟨fun ep io rounds enough => recvHeaderLoop_eq ep enough,
    ⟨complete_of_going short, ?_⟩, accepted, ?_⟩
  · rintro ⟨line, headers, rest, complete⟩
    exact (accepted line headers rest complete).going
  · intro stopped
    have same : (recvHttpRequest (EndPoint.new sock env.staleSize) os.io).1.sock = sock :=
      (recvHttpRequest_same _ _).sock
    simp only [handlerRequest, stopped, if_true, same, Os.close]
    split <;> simp_all [Os.emit]

/-- A connection whose peer sends a declared body of three bytes and closes after two. -/
def cutConnection : Os where
  io := ⟨ascii "POST /a HTTP/1.0\r\nContent-Length: 3\r\n\r\nab", .closed⟩
  fds := {5}
  trace := []
  writes := []
  sends := []

theorem recv_accepts_iff_cutConnection :
    (recvHttpRequest (EndPoint.new 5 0) cutConnection.io).1.stop = true ∧
    (handlerRequest .bare 5 cutConnection).trace = [.close 5 true] := by
  have stopped : (recvHttpRequest (EndPoint.new 5 0) cutConnection.io).1.stop = true := by decide
  have short : cutConnection.io.unread.length < 2 ^ 31 := by simp [cutConnection, ascii]
  exact ⟨stopped, (recv_accepts_iff .bare 5 cutConnection short).2.2.2 stopped⟩

end HttpServer.Protocol
