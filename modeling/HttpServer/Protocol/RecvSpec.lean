import HttpServer.Protocol.Recv

/-!
# What the receive functions accept

`HeadOf s line headers rest` is the grammar of a request head, stated on the bytes alone:
a first line, non-empty header lines and an empty line, each with its terminator, before
`rest`. On a stream with a head whose lines fit an `int` the receive loops deliver exactly
that line and those headers and leave exactly `rest` (`recvHttpRequest_of_head`); a
receive that does not stop has read such a head (`head_of_recvHttpRequest`). The body loop
consumes the declared count modulo `2 ^ 32` (`recvBodyLoop_eq`).
-/

namespace HttpServer.Protocol
open Lib Net

/-- Header lines up to and including the empty line. -/
inductive HeaderBlock : Bytes → List Bytes → Bytes → Prop where
  | blank {eol : Eol} {rest : Bytes} : IsLine [] eol rest → HeaderBlock (eol.bytes ++ rest) [] rest
  | header {content s : Bytes} {eol : Eol} {headers : List Bytes} {rest : Bytes} :
      content ≠ [] → IsLine content eol s → HeaderBlock s headers rest →
      HeaderBlock (content ++ eol.bytes ++ s) (content :: headers) rest

/-- A request line, header lines and the empty line. -/
def HeadOf (s line : Bytes) (headers : List Bytes) (rest : Bytes) : Prop :=
  ∃ eol t, s = line ++ Eol.bytes eol ++ t ∧ IsLine line eol t ∧ HeaderBlock t headers rest

/-- The length `ReadLine` returns for the line, terminator included, is positive as an `int`. -/
def LineFits (content : Bytes) : Prop := 0 < int32 (content.length + 1)

theorem lineFits_of_lt {content : Bytes} (short : content.length + 1 < 2 ^ 31) : LineFits content := by
  unfold LineFits
  rw [int32_of_bounds (by omega) (by omega)]
  omega

theorem HeaderBlock.length {s : Bytes} {headers : List Bytes} {rest : Bytes} (block : HeaderBlock s headers rest) :
    headers.length + rest.length < s.length ∧ ∀ h ∈ headers, h.length + rest.length + 1 < s.length := by
  induction block with
  | @blank eol rest line =>
    have := eol.bytes_length_pos
    simp only [List.length_append, List.length_nil]
    exact ⟨by omega, by simp⟩
  | @header content s eol headers rest nonempty line block ih =>
    have := eol.bytes_length_pos
    have := List.length_pos_iff.mpr nonempty
    simp only [List.length_append, List.length_cons]
    refine ⟨by omega, fun h mem => ?_⟩
    rcases List.mem_cons.mp mem with rfl | mem
    · omega
    · have := ih.2 h mem
      omega

theorem HeadOf.length {s line : Bytes} {headers : List Bytes} {rest : Bytes} (head : HeadOf s line headers rest) :
    rest.length < s.length ∧ ∀ l ∈ line :: headers, l.length + 1 < s.length := by
  obtain ⟨eol, t, rfl, -, block⟩ := head
  have := eol.bytes_length_pos
  obtain ⟨size, each⟩ := block.length
  simp only [List.length_append]
  refine ⟨by omega, fun l mem => ?_⟩
  rcases List.mem_cons.mp mem with rfl | mem
  · omega
  · have := each l mem
    omega

/-! ## The line and header loops -/

/-- A call of `ReadLine` that returns a positive value has read a line that fits. -/
theorem line_of_readLine {io : Sock} (positive : 0 < (readLine io []).ret) :
    ∃ content eol rest, io.unread = content ++ Eol.bytes eol ++ rest ∧ IsLine content eol rest ∧ LineFits content := by
  obtain ⟨unread, fin⟩ := io
  rcases line_or_open unread with ⟨noCR, noLF⟩ | ⟨content, eol, rest, rfl, line⟩
  · have closed := StreamEnd.ret_nonpos fin
    rw [readLine, readLineLoop_open noCR noLF] at positive
    exact absurd positive (Int.not_lt.mpr closed)
  · rw [readLine_line line] at positive
    exact ⟨content, eol, rest, rfl, line, by simpa only [LineFits] using positive⟩

theorem recvHttpRequestLine_unread (ep : EndPoint) (io : Sock) :
    (recvHttpRequestLine ep io).2.unread = (readLine io ep.httpRequest.requestLine).unread := by
  unfold recvHttpRequestLine
  simp only
  split <;> rfl

/-- The header loop delivers the header lines of a block, and stops right after it. -/
theorem recvHeaderLoop_block {fin : StreamEnd} {s : Bytes} {headers : List Bytes} {rest : Bytes}
    (block : HeaderBlock s headers rest) (fits : ∀ h ∈ headers, LineFits h) :
    ∀ (rounds : Nat) (ep : EndPoint), headers.length < rounds →
      recvHeaderLoop rounds ep ⟨s, fin⟩ =
        some ({ ep with
            httpRequest.blank := [LF]
            httpRequest.requestHeader := ep.httpRequest.requestHeader ++ headers }, ⟨rest, fin⟩) := by
  induction block with
  | @blank eol rest line =>
    intro rounds ep enough
    obtain ⟨rounds, rfl⟩ : ∃ k, rounds = k + 1 := ⟨rounds - 1, by omega⟩
    have read := @readLine_line fin _ _ _ line
    rw [List.nil_append] at read
    have one : ¬ int32 ((([] : Bytes).length : Int) + 1) ≤ 0 := by decide
    simp only [recvHeaderLoop, read, if_neg one, List.nil_append, if_true, List.append_nil]
  | @header content s eol headers rest nonempty line block ih =>
    intro rounds ep enough
    obtain ⟨rounds, rfl⟩ : ∃ k, rounds = k + 1 := ⟨rounds - 1, by omega⟩
    have fit : ¬ int32 ((content.length : Int) + 1) ≤ 0 := Int.not_le.mpr (fits content (by simp))
    have more : content ++ [LF] ≠ [LF] := by simpa using nonempty
    simp only [List.length_cons] at enough
    simp only [recvHeaderLoop, readLine_line line, if_neg fit, if_neg more, List.dropLast_concat]
    rw [ih (fun h mem => fits h (by simp [mem])) rounds _ (by omega)]
    simp

/-- A header loop that ends without a stop has read a block whose lines fit. -/
theorem block_of_recvHeaderLoop {rounds : Nat} {ep : EndPoint} {io : Sock} {result : EndPoint × Sock}
    (ended : recvHeaderLoop rounds ep io = some result) (going : result.1.stop = false) :
    ∃ headers rest, HeaderBlock io.unread headers rest ∧ ∀ h ∈ headers, LineFits h := by
  induction rounds generalizing ep io with
  | zero => cases ended
  | succ rounds ih =>
    unfold recvHeaderLoop at ended
    simp only at ended
    split at ended
    · cases ended
      cases going
    rename_i positive
    obtain ⟨content, eol, rest, split, line, fit⟩ := line_of_readLine (Int.not_le.mp positive)
    have read : readLine io [] = ⟨int32 (content.length + 1), content ++ [LF], rest⟩ := by
      obtain ⟨unread, fin⟩ := io
      simp only at split
      rw [split, readLine_line line]
    rw [read] at ended
    by_cases empty : content = []
    · subst empty
      exact ⟨[], rest, by rw [split]; exact .blank line, by simp⟩
    · rw [if_neg (by simpa using empty)] at ended
      obtain ⟨headers, tail, block, fits⟩ := ih ended
      refine ⟨content :: headers, tail, by rw [split]; exact .header empty line block, ?_⟩
      intro h mem
      rcases List.mem_cons.mp mem with rfl | mem
      · exact fit
      · exact fits h mem

/-- A header loop that is over after some rounds is over after more, with the same result. -/
theorem recvHeaderLoop_more {rounds more : Nat} {ep : EndPoint} {io : Sock} {result : EndPoint × Sock}
    (ended : recvHeaderLoop rounds ep io = some result) (le : rounds ≤ more) :
    recvHeaderLoop more ep io = some result := by
  induction rounds generalizing more ep io with
  | zero => cases ended
  | succ rounds ih =>
    obtain ⟨more, rfl⟩ : ∃ k, more = k + 1 := ⟨more - 1, by omega⟩
    unfold recvHeaderLoop at ended ⊢
    simp only at ended ⊢
    split at ended
    case isTrue failed => rw [if_pos failed, ended]
    case isFalse going =>
      rw [if_neg going]
      split at ended
      case isTrue blank => rw [if_pos blank, ended]
      case isFalse line =>
        rw [if_neg line]
        exact ih ended (by omega)

/-- `RecvHttpRequestHeader` is what its loop comes to. -/
theorem recvHttpRequestHeader_eq {ep : EndPoint} {io : Sock} {result : EndPoint × Sock} :
    recvHttpRequestHeader ep io = result ↔ recvHeaderLoop (io.unread.length + 1) ep io = some result := by
  unfold recvHttpRequestHeader
  constructor
  · rintro rfl
    exact (Option.some_get _).symm
  · intro ended
    exact Option.some.inj ((Option.some_get _).trans ended)

/-- **The header loop ends by itself**: a round that goes on has consumed a line, so any
bound above the number of unread bytes gives the result. -/
theorem recvHeaderLoop_eq {rounds : Nat} (ep : EndPoint) {io : Sock} (enough : io.unread.length < rounds) :
    recvHeaderLoop rounds ep io = some (recvHttpRequestHeader ep io) :=
  recvHeaderLoop_more (recvHttpRequestHeader_eq.mp rfl) enough

/-- The end point after a head has been read and parsed. -/
def parsedHead (sock size : Int) (line : Bytes) (headers : List Bytes) : EndPoint :=
  parseHttpRequestHeader (parseHttpRequestLine
    { EndPoint.new sock size with
      httpRequest.requestLine := line
      httpRequest.blank := [LF]
      httpRequest.requestHeader := headers })

/-- **A head is received exactly**: the rest of the stream is left to the body. -/
theorem recvHttpRequest_of_head {sock size : Int} {fin : StreamEnd} {s line : Bytes} {headers : List Bytes}
    {rest : Bytes} (head : HeadOf s line headers rest) (fits : ∀ l ∈ line :: headers, LineFits l) :
    recvHttpRequest (EndPoint.new sock size) ⟨s, fin⟩ =
      recvHttpRequestBody (parsedHead sock size line headers) ⟨rest, fin⟩ := by
  obtain ⟨eol, t, rfl, isLine, block⟩ := head
  have first : recvHttpRequestLine (EndPoint.new sock size) ⟨line ++ eol.bytes ++ t, fin⟩ =
      ({ EndPoint.new sock size with httpRequest.requestLine := line }, ⟨t, fin⟩) := by
    have fit : 0 < int32 ((line.length : Int) + 1) := fits line (by simp)
    simp only [recvHttpRequestLine, EndPoint.new, readLine_line isLine, if_pos fit, List.dropLast_concat]
  have enough : headers.length < t.length + 1 := by
    have := block.length.1
    omega
  have second := recvHttpRequestHeader_eq.mpr (@recvHeaderLoop_block fin _ _ _ block
    (fun h mem => fits h (by simp [mem])) (t.length + 1)
    { EndPoint.new sock size with httpRequest.requestLine := line } enough)
  simp only [recvHttpRequest, first, second]
  rfl

/-- **A receive that does not stop has read a head** whose lines fit, and its body loop did not stop. -/
theorem head_of_recvHttpRequest {sock size : Int} {io : Sock}
    (going : (recvHttpRequest (EndPoint.new sock size) io).1.stop = false) :
    ∃ line headers rest, HeadOf io.unread line headers rest ∧ ∀ l ∈ line :: headers, LineFits l := by
  unfold recvHttpRequest at going
  simp only at going
  split at going
  · simp_all
  rename_i readLineOk
  split at going
  · simp_all
  rename_i readHeaderOk
  have positive : 0 < (readLine io []).ret := by
    by_contra failed
    apply readLineOk
    unfold recvHttpRequestLine
    exact if_neg failed ▸ rfl
  obtain ⟨line, eol, t, split, isLine, fit⟩ := line_of_readLine positive
  have read : readLine io [] = ⟨int32 (line.length + 1), line ++ [LF], t⟩ := by
    obtain ⟨unread, fin⟩ := io
    simp only at split
    rw [split, readLine_line isLine]
  obtain ⟨headers, rest, block, fits⟩ := block_of_recvHeaderLoop (recvHttpRequestHeader_eq.mp rfl)
    (Bool.not_eq_true _ ▸ readHeaderOk)
  have unread : (recvHttpRequestLine (EndPoint.new sock size) io).2.unread = t := by
    rw [recvHttpRequestLine_unread]
    exact congrArg LineRead.unread read
  rw [unread] at block
  refine ⟨line, headers, rest, ⟨eol, t, split, isLine, block⟩, ?_⟩
  intro l mem
  rcases List.mem_cons.mp mem with rfl | mem
  · exact fit
  · exact fits l mem

/-! ## The body loop -/

/-- The number of bytes the body loop reads for a count: the count modulo `2 ^ 32`. -/
def wanted (count : Int) : Nat := (count % 2 ^ 32).toNat

theorem wanted_of_nonneg {n : Int} (low : 0 ≤ n) (high : n < 2 ^ 31) : wanted n = n.toNat := by
  unfold wanted
  omega

theorem wanted_of_neg {n : Int} (low : -2 ^ 31 ≤ n) (high : n < 0) : 2 ^ 31 ≤ wanted n := by
  unfold wanted
  omega

theorem wanted_eq_zero {n : Int} (low : -2 ^ 31 ≤ n) (high : n < 2 ^ 31) : wanted n = 0 ↔ n = 0 := by
  unfold wanted
  omega

theorem wanted_pred {n : Int} (some : 0 < wanted n) : wanted (int32 (n - 1)) + 1 = wanted n := by
  unfold wanted at some ⊢
  have same : int32 (n - 1) % 2 ^ 32 = (n - 1) % 2 ^ 32 := by exact_mod_cast Int.bmod_emod
  omega

/-- **The body loop is exact**: it stores the bytes wanted, or stops at the end of the stream. -/
theorem recvBodyLoop_eq (unread : Bytes) {n : Int} (low : -2 ^ 31 ≤ n) (high : n < 2 ^ 31) (body : Bytes) :
    recvBodyLoop unread n body =
      if wanted n ≤ unread.length then ⟨false, body ++ unread.take (wanted n), unread.drop (wanted n)⟩
      else ⟨true, body ++ unread, []⟩ := by
  have zero := wanted_eq_zero low high
  induction unread generalizing n body with
  | nil =>
    by_cases done : n = 0
    · simp [recvBodyLoop, done, wanted]
    · have some : ¬ wanted n = 0 := fun eq => done (zero.mp eq)
      simp [recvBodyLoop, done, some]
  | cons ch rest ih =>
    by_cases done : n = 0
    · simp [recvBodyLoop, done, wanted]
    · have some : 0 < wanted n := Nat.pos_of_ne_zero fun eq => done (zero.mp eq)
      have next := wanted_pred some
      obtain ⟨low', high'⟩ := int32_bounds (n - 1)
      rw [recvBodyLoop, if_neg done, ih low' high' _ (wanted_eq_zero low' high'), ← next]
      simp

/-! ## The header fields -/

/-- The field a header line holds: its text cut at the first `": "`. -/
def field (header : Bytes) : Option (Bytes × Bytes) :=
  (find SEP header).map fun pos => (header.take pos, header.drop (pos + SEP.length))

theorem parseHeader_eq (kv : HeaderKv) (header : Bytes) :
    parseHeader kv header = (field header).elim kv fun f => kv.insert f.1 f.2 := by
  unfold parseHeader field cutString
  cases find SEP header <;> rfl

theorem HeaderKv.lookup_insert (kv : HeaderKv) (key value name : Bytes) :
    (kv.insert key value).lookup name = (kv.lookup name).or ([(key, value)].lookup name) := by
  unfold HeaderKv.insert
  split
  · rename_i known
    by_cases same : name = key
    · subst same
      obtain ⟨v, eq⟩ := Option.isSome_iff_exists.mp known
      simp [eq]
    · simp [List.lookup_cons, beq_eq_false_iff_ne.mpr same]
  · rw [List.lookup_append]

/-- The map holds the first field of every name. -/
theorem lookup_foldl_parseHeader (headers : List Bytes) (kv : HeaderKv) (name : Bytes) :
    (headers.foldl parseHeader kv).lookup name = (kv.lookup name).or ((headers.filterMap field).lookup name) := by
  induction headers generalizing kv with
  | nil => simp
  | cons header headers ih =>
    rw [List.foldl_cons, ih, parseHeader_eq]
    cases here : field header with
    | none => simp [here]
    | some f =>
      rw [List.filterMap_cons_some here, Option.elim_some, HeaderKv.lookup_insert, Option.or_assoc,
        ← List.lookup_append]
      rfl

/-- The body length a head declares: what `atoi` gives for the first field named
`Content-Length` of a `POST`, and zero otherwise. -/
def declaredLength (line : Bytes) (headers : List Bytes) : Int :=
  if (nextWord line).1.map toUpper = POST then
    ((headers.filterMap field).lookup CONTENT_LENGTH).elim 0 atoi
  else 0

theorem declaredLength_bounds (line : Bytes) (headers : List Bytes) :
    -2 ^ 31 ≤ declaredLength line headers ∧ declaredLength line headers < 2 ^ 31 := by
  unfold declaredLength
  split
  · cases (headers.filterMap field).lookup CONTENT_LENGTH with
    | none => decide
    | some value => exact atoi_bounds value
  · decide

/-- The body phase after a head is the counted loop over the declared length. -/
theorem recvHttpRequestBody_parsedHead (sock size : Int) (line : Bytes) (headers : List Bytes) (io : Sock) :
    let r := recvBodyLoop io.unread (declaredLength line headers) []
    recvHttpRequestBody (parsedHead sock size line headers) io =
      ({ parsedHead sock size line headers with
          httpRequest.contentLength := declaredLength line headers
          httpRequest.requestBody := r.body
          stop := r.stop }, { io with unread := r.unread }) := by
  have fields : (parsedHead sock size line headers).httpRequest.headerKv.lookup CONTENT_LENGTH =
      (headers.filterMap field).lookup CONTENT_LENGTH := by
    change (headers.foldl parseHeader []).lookup CONTENT_LENGTH = _
    rw [lookup_foldl_parseHeader, List.lookup_nil, Option.none_or]
  have method : (parsedHead sock size line headers).httpRequest.method = (nextWord line).1.map toUpper := rfl
  have idle : ∀ unread, recvBodyLoop unread 0 [] = ⟨false, [], unread⟩ := by
    intro unread
    cases unread <;> simp [recvBodyLoop]
  unfold recvHttpRequestBody isNeedRecvHttpRequestBody declaredLength
  rw [method, fields]
  split
  · cases (headers.filterMap field).lookup CONTENT_LENGTH with
    | none => simp only [Option.elim_none, idle]; rfl
    | some value => rfl
  · simp only [idle]
    rfl

/-! ## What the receive leaves alone -/

/-- From `ep` to `ep'` neither the connection nor the response changes. -/
structure SameConnection (ep ep' : EndPoint) : Prop where
  sock : ep'.sock = ep.sock
  httpResponse : ep'.httpResponse = ep.httpResponse

theorem SameConnection.trans {ep ep' ep'' : EndPoint} (first : SameConnection ep ep')
    (second : SameConnection ep' ep'') : SameConnection ep ep'' :=
  ⟨second.sock.trans first.sock, second.httpResponse.trans first.httpResponse⟩

theorem recvHttpRequestLine_same (ep : EndPoint) (io : Sock) : SameConnection ep (recvHttpRequestLine ep io).1 := by
  unfold recvHttpRequestLine
  simp only
  split <;> exact ⟨rfl, rfl⟩

theorem recvHeaderLoop_same {rounds : Nat} {ep : EndPoint} {io : Sock} {result : EndPoint × Sock}
    (ended : recvHeaderLoop rounds ep io = some result) : SameConnection ep result.1 := by
  induction rounds generalizing ep io with
  | zero => cases ended
  | succ rounds ih =>
    unfold recvHeaderLoop at ended
    simp only at ended
    split at ended
    · cases ended
      exact ⟨rfl, rfl⟩
    · split at ended
      · cases ended
        exact ⟨rfl, rfl⟩
      · refine SameConnection.trans ?_ (ih ended)
        exact ⟨rfl, rfl⟩

theorem recvHttpRequestBody_same (ep : EndPoint) (io : Sock) : SameConnection ep (recvHttpRequestBody ep io).1 := by
  have need : SameConnection ep (isNeedRecvHttpRequestBody ep).2 := by
    unfold isNeedRecvHttpRequestBody
    split
    · split <;> exact ⟨rfl, rfl⟩
    · exact ⟨rfl, rfl⟩
  unfold recvHttpRequestBody
  simp only
  split
  · exact ⟨need.sock, need.httpResponse⟩
  · exact need

theorem recvHttpRequest_same (ep : EndPoint) (io : Sock) : SameConnection ep (recvHttpRequest ep io).1 := by
  have line := recvHttpRequestLine_same ep io
  have header (io' : Sock) : SameConnection ep (recvHttpRequestHeader (recvHttpRequestLine ep io).1 io').1 :=
    line.trans (recvHeaderLoop_same (recvHttpRequestHeader_eq.mp rfl))
  unfold recvHttpRequest
  simp only
  split
  · exact line
  · split
    · exact header _
    · have parsed (ep' : EndPoint) : SameConnection ep' (parseHttpRequestHeader (parseHttpRequestLine ep')) :=
        ⟨rfl, rfl⟩
      exact ((header _).trans (parsed _)).trans (recvHttpRequestBody_same _ _)

end HttpServer.Protocol
