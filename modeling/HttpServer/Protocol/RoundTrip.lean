import HttpServer.Protocol.RecvSpec

/-!
# Decoding undoes encoding

`WireRequest` is a request as its sender means it, with the side conditions of the wire
format as fields; `encode` writes it, and `Decoded` is what the receiver should make of
the bytes. `recvHttpRequest_encode` is the round trip. It needs the lengths of the lines to
be positive as the `int` that `ReadLine` returns. The head then comes back whatever it
declares; only a `POST` that declares more bytes than follow its head is stopped.
-/

namespace HttpServer.Protocol
open Lib Net

def SP : UInt8 := 32

/-- A non-empty text without blanks. -/
structure IsWord (w : Bytes) : Prop where
  nonempty : w ≠ []
  noSpace : ∀ b ∈ w, isSpace b = false

theorem IsWord.of_all {w : Bytes} (nonempty : w ≠ []) (all : w.all (fun b => !isSpace b) = true) : IsWord w :=
  ⟨nonempty, fun b mem => by simpa using List.all_eq_true.mp all b mem⟩

/-- A text that can stand in one line. -/
def OneLine (s : Bytes) : Prop := CR ∉ s ∧ LF ∉ s

/-- A request with its header fields, one line terminator used throughout, and the bytes
that follow it on the connection. -/
structure WireRequest where
  method : Bytes
  uri : Bytes
  version : Bytes
  headers : List (Bytes × Bytes)
  body : Bytes
  trailing : Bytes
  eol : Eol
  methodWord : IsWord method
  uriWord : IsWord uri
  versionWord : IsWord version
  headerTexts : ∀ h ∈ headers, OneLine h.1 ∧ OneLine h.2
  headerNames : ∀ h ∈ headers, ¬ SEP <:+: h.1
  bodyShort : body.length < 2 ^ 31
  uniform : eol ≠ .cr

namespace WireRequest

def requestLine (r : WireRequest) : Bytes := r.method ++ SP :: (r.uri ++ SP :: r.version)

def headerLine (h : Bytes × Bytes) : Bytes := h.1 ++ SEP ++ h.2

def headerLines (r : WireRequest) : List Bytes := r.headers.map headerLine

/-- Header lines and the empty line, then what follows. -/
def encodeHeaders (eol : Eol) (headers : List (Bytes × Bytes)) (rest : Bytes) : Bytes :=
  headers.foldr (fun h s => headerLine h ++ eol.bytes ++ s) (eol.bytes ++ rest)

/-- The bytes on the wire. -/
def encode (r : WireRequest) : Bytes :=
  r.requestLine ++ r.eol.bytes ++ encodeHeaders r.eol r.headers (r.body ++ r.trailing)

/-- The upper-cased method is `POST` and the first field named `Content-Length` is `value`. -/
def Declares (r : WireRequest) (value : Bytes) : Prop :=
  r.method.map toUpper = POST ∧ r.headers.lookup CONTENT_LENGTH = some value

/-- The number of bytes behind the head that the receiver takes for the body: none unless the
upper-cased method is `POST`, and otherwise what `atoi` gives for the first `Content-Length`. -/
def declared (r : WireRequest) : Nat :=
  wanted (if r.method.map toUpper = POST then (r.headers.lookup CONTENT_LENGTH).elim 0 atoi else 0)

end WireRequest

open WireRequest

/-- What the receiver should hold after the bytes of `r`. -/
structure Decoded (r : WireRequest) (result : EndPoint × Sock) : Prop where
  method : result.1.httpRequest.method = r.method.map toUpper
  uri : result.1.httpRequest.uri = r.uri
  version : result.1.httpRequest.version = r.version
  headers : result.1.httpRequest.requestHeader = r.headerLines
  fields : ∀ name, result.1.httpRequest.headerKv.lookup name = r.headers.lookup name
  going : result.1.stop = false ↔ r.declared ≤ (r.body ++ r.trailing).length
  counted : result.1.stop = false → result.1.httpRequest.requestBody = (r.body ++ r.trailing).take r.declared ∧
    result.2.unread = (r.body ++ r.trailing).drop r.declared
  body : r.Declares (decimal r.body.length) →
    result.1.stop = false ∧ result.1.httpRequest.requestBody = r.body ∧ result.2.unread = r.trailing
  noBody : (∀ value, ¬ r.Declares value) →
    result.1.stop = false ∧ result.1.httpRequest.requestBody = [] ∧ result.2.unread = r.body ++ r.trailing

/-! ## The encoded head -/

theorem IsWord.oneLine {w : Bytes} (word : IsWord w) : OneLine w := by
  constructor <;> intro mem <;> exact absurd (word.noSpace _ mem) (by decide)

theorem OneLine.append {s t : Bytes} (left : OneLine s) (right : OneLine t) : OneLine (s ++ t) :=
  ⟨by simp [left.1, right.1], by simp [left.2, right.2]⟩

theorem OneLine.isLine {s rest : Bytes} {eol : Eol} (one : OneLine s) (uniform : eol ≠ .cr) : IsLine s eol rest :=
  ⟨one.1, one.2, fun cr => absurd cr uniform⟩

theorem oneLine_headerLine {h : Bytes × Bytes} (texts : OneLine h.1 ∧ OneLine h.2) : OneLine (headerLine h) :=
  (texts.1.append ⟨by decide, by decide⟩).append texts.2

theorem headerBlock_encodeHeaders {eol : Eol} (uniform : eol ≠ .cr) {headers : List (Bytes × Bytes)}
    (texts : ∀ h ∈ headers, OneLine h.1 ∧ OneLine h.2) (rest : Bytes) :
    HeaderBlock (encodeHeaders eol headers rest) (headers.map headerLine) rest := by
  induction headers with
  | nil => exact .blank ⟨by simp, by simp, fun cr => absurd cr uniform⟩
  | cons h headers ih =>
    have nonempty : headerLine h ≠ [] := by simp [headerLine, SEP, ascii]
    have line : OneLine (headerLine h) := oneLine_headerLine (texts h (by simp))
    exact .header nonempty (line.isLine uniform) (ih fun h mem => texts h (by simp [mem]))

/-- The encoded bytes begin with the head they were written with. -/
theorem headOf_encode (r : WireRequest) :
    HeadOf r.encode r.requestLine r.headerLines (r.body ++ r.trailing) := by
  have blank : OneLine [SP] := ⟨by decide, by decide⟩
  have line : OneLine r.requestLine := by
    have tail := blank.append r.versionWord.oneLine
    exact r.methodWord.oneLine.append (blank.append (r.uriWord.oneLine.append tail))
  exact ⟨r.eol, _, rfl, line.isLine r.uniform, headerBlock_encodeHeaders r.uniform r.headerTexts _⟩

/-! ## Reading the head back -/

/-- A word up to a blank or the end of the line is the next word. -/
theorem nextWord_word {w rest : Bytes} (word : IsWord w) (ends : ∀ b ∈ rest.head?, isSpace b = true) :
    nextWord (w ++ rest) = (w, rest) := by
  have skip : (w ++ rest).dropWhile isSpace = w ++ rest := by
    obtain ⟨b, t, rfl⟩ := List.exists_cons_of_ne_nil word.nonempty
    simp [word.noSpace b (by simp)]
  have all : ∀ b ∈ w, (!isSpace b) = true := fun b mem => by simp [word.noSpace b mem]
  have stopT : rest.takeWhile (fun b => !isSpace b) = [] := by
    cases rest with
    | nil => rfl
    | cons b t => simp [ends b (by simp)]
  have stopD : rest.dropWhile (fun b => !isSpace b) = rest := by
    cases rest with
    | nil => rfl
    | cons b t => simp [ends b (by simp)]
  unfold nextWord
  simp only [skip, List.takeWhile_append_of_pos all, List.dropWhile_append_of_pos all, stopT, stopD,
    List.append_nil]

theorem nextWord_sp (s : Bytes) : nextWord (SP :: s) = nextWord s := rfl

/-- The three words of the request line are the ones it was written with. -/
theorem parse_requestLine (r : WireRequest) (ep : EndPoint) (line : ep.httpRequest.requestLine = r.requestLine) :
    parseHttpRequestLine ep =
      { ep with
        httpRequest.method := r.method.map toUpper
        httpRequest.uri := r.uri
        httpRequest.version := r.version } := by
  have sp : ∀ s : Bytes, ∀ b ∈ (SP :: s).head?, isSpace b = true := by
    intro s b mem
    cases mem
    rfl
  have first : nextWord r.requestLine = (r.method, SP :: (r.uri ++ SP :: r.version)) :=
    nextWord_word r.methodWord (sp _)
  have second : nextWord (SP :: (r.uri ++ SP :: r.version)) = (r.uri, SP :: r.version) := by
    rw [nextWord_sp]
    exact nextWord_word r.uriWord (sp _)
  have third : nextWord (SP :: r.version) = (r.version, []) := by
    rw [nextWord_sp]
    simpa using @nextWord_word r.version [] r.versionWord (by simp)
  simp only [parseHttpRequestLine, line, first, second, third]

/-- A header line holds the field it was written with. -/
theorem field_headerLine {h : Bytes × Bytes} (name : ¬ SEP <:+: h.1) : field (headerLine h) = some h := by
  have found : find SEP (h.1 ++ SEP ++ h.2) = some h.1.length := find_append_pair (by decide) name h.2
  unfold field headerLine
  rw [found]
  simp

theorem fields_headerLines (r : WireRequest) : r.headerLines.filterMap field = r.headers := by
  have each : ∀ headers : List (Bytes × Bytes), (∀ h ∈ headers, ¬ SEP <:+: h.1) →
      (headers.map headerLine).filterMap field = headers := by
    intro headers names
    induction headers with
    | nil => rfl
    | cons h headers ih =>
      rw [List.map_cons, List.filterMap_cons_some (field_headerLine (names h (by simp))),
        ih fun h mem => names h (by simp [mem])]
  exact each r.headers r.headerNames

/-- The receiver wants what the fields of the request declare. -/
theorem wanted_encode (r : WireRequest) : wanted (declaredLength r.requestLine r.headerLines) = r.declared := by
  have first : (nextWord r.requestLine).1 = r.method := by
    rw [show r.requestLine = r.method ++ SP :: (r.uri ++ SP :: r.version) from rfl,
      nextWord_word r.methodWord]
    intro b mem
    cases mem
    rfl
  rw [declaredLength, first, fields_headerLines, declared]

theorem declared_of_declares {r : WireRequest} (declares : r.Declares (decimal r.body.length)) :
    r.declared = r.body.length := by
  have short : (r.body.length : Int) < 2 ^ 31 := by exact_mod_cast r.bodyShort
  rw [declared, if_pos declares.1, declares.2, Option.elim_some, atoi_decimal r.bodyShort,
    wanted_of_nonneg (by omega) short]
  rfl

theorem declared_of_not_declares {r : WireRequest} (silent : ∀ value, ¬ r.Declares value) : r.declared = 0 := by
  rw [declared]
  split
  · rename_i post
    have absent : r.headers.lookup CONTENT_LENGTH = none := by
      cases known : r.headers.lookup CONTENT_LENGTH with
      | none => rfl
      | some value => exact absurd ⟨post, known⟩ (silent value)
    rw [absent, Option.elim_none]
    rfl
  · rfl

/-! ## The round trip -/

/-- **Decoding undoes encoding**, for a request whose lines have lengths that are positive as an
`int`. -/
theorem recvHttpRequest_encode (r : WireRequest) (sock size : Int) (fin : StreamEnd)
    (fits : ∀ l ∈ r.requestLine :: r.headerLines, LineFits l) :
    Decoded r (recvHttpRequest (EndPoint.new sock size) ⟨r.encode, fin⟩) := by
  obtain ⟨low, high⟩ := declaredLength_bounds r.requestLine r.headerLines
  have parsed : parsedHead sock size r.requestLine r.headerLines =
      parseHttpRequestHeader
        { EndPoint.new sock size with
          httpRequest.requestLine := r.requestLine
          httpRequest.blank := [LF]
          httpRequest.requestHeader := r.headerLines
          httpRequest.method := r.method.map toUpper
          httpRequest.uri := r.uri
          httpRequest.version := r.version } := by
    rw [parsedHead, parse_requestLine r _ rfl]
  rw [recvHttpRequest_of_head (headOf_encode r) fits, recvHttpRequestBody_parsedHead, recvBodyLoop_eq _ low high,
    wanted_encode, parsed]
  constructor
  case method => rfl
  case uri => rfl
  case version => rfl
  case headers => rfl
  case fields =>
    intro name
    change (r.headerLines.foldl parseHeader []).lookup name = _
    rw [lookup_foldl_parseHeader, fields_headerLines, List.lookup_nil, Option.none_or]
  case going =>
    simp only
    split
    case isTrue enough => exact ⟨fun _ => enough, fun _ => rfl⟩
    case isFalse more => exact ⟨nofun, fun enough => absurd enough more⟩
  case counted =>
    simp only
    split
    case isTrue enough => exact fun _ => ⟨rfl, rfl⟩
    case isFalse more => nofun
  case body =>
    intro declares
    have exact := declared_of_declares declares
    have enough : r.declared ≤ (r.body ++ r.trailing).length := by
      rw [exact, List.length_append]
      omega
    simp only [if_pos enough]
    simp [exact]
  case noBody =>
    intro silent
    have none := declared_of_not_declares silent
    have enough : r.declared ≤ (r.body ++ r.trailing).length := by omega
    simp only [if_pos enough]
    simp [none]

/-- A `POST` with two fields of one name, a value with `": "` in it, a body with line ends
and a pipelined byte. -/
def postedForm : WireRequest where
  method := ascii "Post"
  uri := ascii "/test_cgi?x"
  version := ascii "HTTP/1.0"
  headers := [(ascii "Host", ascii "a: b"), (CONTENT_LENGTH, ascii "3"), (CONTENT_LENGTH, ascii "9")]
  body := ascii "\r\nx"
  trailing := ascii "G"
  eol := .crlf
  methodWord := .of_all (by decide) (by decide)
  uriWord := .of_all (by decide) (by decide)
  versionWord := .of_all (by decide) (by decide)
  headerTexts := by unfold OneLine; decide
  headerNames := by simp [ascii, SEP, CONTENT_LENGTH, List.infix_cons_iff]
  bodyShort := by simp [ascii]
  uniform := by decide

theorem oneLine_decimal (n : Nat) : OneLine (decimal n) := by
  constructor <;> intro mem <;> exact absurd (decimal_digits mem) (by decide)

/-- A `POST` that declares `n` bytes, and has three and nothing behind them. -/
def declaring (n : Nat) : WireRequest :=
  { postedForm with
    headers := [(CONTENT_LENGTH, decimal n)]
    trailing := []
    headerTexts := by
      intro h mem
      cases List.mem_singleton.mp mem
      exact ⟨by show OneLine CONTENT_LENGTH; unfold OneLine; decide, oneLine_decimal n⟩
    headerNames := by simp [SEP, ascii, CONTENT_LENGTH, List.infix_cons_iff] }

/-- The first form comes back whole; one that declares two of its three bytes leaves the third. -/
theorem recvHttpRequest_encode_postedForm :
    Decoded postedForm (recvHttpRequest (EndPoint.new 5 0) ⟨postedForm.encode, .closed⟩) ∧
    ∃ result, recvHttpRequest (EndPoint.new 5 0) ⟨(declaring 2).encode, .closed⟩ = result ∧
      result.1.stop = false ∧ result.1.httpRequest.requestBody = ascii "\r\n" ∧ result.2.unread = ascii "x" := by
  constructor
  · exact recvHttpRequest_encode postedForm 5 0 .closed (by unfold LineFits; decide)
  · have decoded := recvHttpRequest_encode (declaring 2) 5 0 .closed (by unfold LineFits; decide)
    have going := decoded.going.mpr (by decide)
    obtain ⟨body, unread⟩ := decoded.counted going
    exact ⟨_, rfl, going, body, unread⟩

/-! ## Where the round trip ends -/

/-- A request whose method has `n` letters. -/
def longMethod (n : Nat) (some : 0 < n) : WireRequest :=
  { postedForm with
    method := List.replicate n 71
    headers := []
    methodWord := ⟨by simp; omega, fun b mem => by rw [List.eq_of_mem_replicate mem]; rfl⟩
    headerTexts := by simp
    headerNames := by simp }

/-- A request line out of the range of an `int` is taken for a failed read. -/
theorem stop_of_long_line {sock size : Int} {fin : StreamEnd} {s line : Bytes} {headers : List Bytes} {rest : Bytes}
    (head : HeadOf s line headers rest) (long : ¬ LineFits line) :
    (recvHttpRequest (EndPoint.new sock size) ⟨s, fin⟩).1.stop = true := by
  obtain ⟨eol, t, rfl, isLine, -⟩ := head
  have failed : (recvHttpRequestLine (EndPoint.new sock size) ⟨line ++ eol.bytes ++ t, fin⟩).1.stop = true := by
    unfold LineFits at long
    simp only [recvHttpRequestLine, EndPoint.new, readLine_line isLine, if_neg long]
  simp only [recvHttpRequest, failed, if_true]

theorem stop_longMethod (n : Nat) (some : 0 < n) (long : int32 (n + 22) ≤ 0) (sock size : Int) (fin : StreamEnd) :
    (recvHttpRequest (EndPoint.new sock size) ⟨(longMethod n some).encode, fin⟩).1.stop = true := by
  have length : ((longMethod n some).requestLine.length : Int) + 1 = n + 22 := by
    simp [longMethod, requestLine, postedForm, ascii]
    omega
  exact stop_of_long_line (headOf_encode (longMethod n some)) (by rw [LineFits, length]; exact Int.not_lt.mpr long)

/-- A `POST` that declares nine bytes and has three stops the receive, and so does a line of
`2 ^ 31` bytes. -/
theorem recvHttpRequest_encode_fails :
    (recvHttpRequest (EndPoint.new 5 0) ⟨(declaring 9).encode, .closed⟩).1.stop = true ∧
    (recvHttpRequest (EndPoint.new 5 0) ⟨(longMethod (2 ^ 31) (by decide)).encode, .closed⟩).1.stop = true :=
  ⟨by decide, stop_longMethod (2 ^ 31) _ (by decide) 5 0 .closed⟩

end HttpServer.Protocol
