import HttpServer.Protocol.RecvSpec

/-!
# Honouring the declared length

The count of a body goes through `atoi`, a 32-bit `int` and a loop that counts it down to
zero. `Honoured` is what a declared length `n` promises; `bodyLength_honoured_iff` says for
which `n`, and for which streams behind the head, `RecvHttpRequestBody` keeps it. A length
that does not fit is replaced by another one, modulo `2 ^ 32`, and keeps the promise only if
the stream ends first.
-/

namespace HttpServer.Protocol
open Lib Net

/-- No more than the declared bytes are consumed, and a receive that goes on holds them. -/
structure Honoured (n : Int) (rest : Bytes) (result : EndPoint × Sock) : Prop where
  consumed : (rest.length : Int) - result.2.unread.length ≤ max n 0
  stored : result.1.stop = false →
    (result.1.httpRequest.requestBody.length : Int) = n ∧ result.1.httpRequest.contentLength = n

/-- The head is that of a `POST` whose first `Content-Length` is the text of `n`. -/
structure DeclaresLength (line : Bytes) (headers : List Bytes) (n : Int) : Prop where
  post : (nextWord line).1.map toUpper = POST
  first : (headers.filterMap field).lookup CONTENT_LENGTH = some (decimalInt n)

/-- The bytes the body loop wants for a declared length. -/
def wantedFor (n : Int) : Nat := wanted (clampLong n)

theorem wanted_int32 (n : Int) : wanted (int32 n) = wanted n := by
  have same : int32 n % 2 ^ 32 = n % 2 ^ 32 := by exact_mod_cast Int.bmod_emod
  unfold wanted
  rw [same]

section BodyLength
variable {line : Bytes} {headers : List Bytes} {n : Int}

/-- The count the loop starts from. -/
theorem DeclaresLength.declaredLength (declares : DeclaresLength line headers n) :
    declaredLength line headers = int32 (clampLong n) := by
  unfold Protocol.declaredLength
  rw [if_pos declares.post, declares.first, Option.elim_some, atoi_decimalInt]

theorem wantedFor_fits (low : 0 ≤ n) (high : n < 2 ^ 31) : wantedFor n = n.toNat := by
  unfold wantedFor wanted clampLong
  omega

/-- What is wanted never exceeds a length that is not negative. -/
theorem wantedFor_le (low : 0 ≤ n) : (wantedFor n : Int) ≤ n := by
  unfold wantedFor wanted clampLong
  omega

theorem int32_clampLong (low : 0 ≤ n) (high : n < 2 ^ 31) : int32 (clampLong n) = n := by
  have clamp : clampLong n = n := by
    unfold clampLong
    omega
  rw [clamp]
  exact int32_of_bounds (by omega) high

/-- A receive that goes on has honoured a length exactly if that is not negative and fits. -/
theorem honoured_of_going {ep : EndPoint} {rest : Bytes} {fin : StreamEnd} (going : ep.stop = false)
    (body : ep.httpRequest.requestBody = rest.take (wantedFor n))
    (count : ep.httpRequest.contentLength = int32 (clampLong n)) (within : wantedFor n ≤ rest.length) :
    Honoured n rest (ep, ⟨rest.drop (wantedFor n), fin⟩) ↔ 0 ≤ n ∧ n < 2 ^ 31 := by
  have held : ep.httpRequest.requestBody.length = wantedFor n := by
    rw [body, List.length_take, Nat.min_eq_left within]
  constructor
  · rintro ⟨-, stored⟩
    obtain ⟨length, same⟩ := stored going
    have same : int32 (clampLong n) = n := count.symm.trans same
    have bounds := int32_bounds (clampLong n)
    simp only at length
    omega
  · rintro ⟨low, high⟩
    have fits := wantedFor_fits low high
    constructor
    · simp only [List.length_drop]
      omega
    · intro _
      rw [held, fits, count, int32_clampLong low high]
      exact ⟨Int.toNat_of_nonneg low, rfl⟩

/-- A receive that stops has consumed all of the stream, and owes nothing else. -/
theorem honoured_of_stopped {ep : EndPoint} {rest : Bytes} {fin : StreamEnd} (stopped : ep.stop = true) :
    Honoured n rest (ep, ⟨[], fin⟩) ↔ (rest.length : Int) ≤ max n 0 := by
  constructor
  · intro honoured
    simpa using honoured.consumed
  · intro few
    refine ⟨by simpa using few, fun going => ?_⟩
    rw [stopped] at going
    cases going

/-- A stream that ends too early for the bytes wanted is longer than declared only if the length
is negative and a byte comes. -/
theorem short_le_iff {rest : Bytes} (short : rest.length < wantedFor n) :
    (rest.length : Int) ≤ max n 0 ↔ 0 ≤ n ∨ rest = [] := by
  rw [← List.length_eq_zero_iff]
  by_cases low : 0 ≤ n
  · have few := wantedFor_le low
    omega
  · omega

/-- **The declared length, exactly.** For every integer `n` and every stream behind the head, the
declared length is honoured if and only if it fits an `int` and is not negative, or the stream
ends before the bytes wanted in its place have come: and then, if it is negative, at once. -/
theorem bodyLength_honoured_iff (sock size : Int) (rest : Bytes) (fin : StreamEnd)
    (declares : DeclaresLength line headers n) :
    Honoured n rest (recvHttpRequestBody (parsedHead sock size line headers) ⟨rest, fin⟩) ↔
      (0 ≤ n ∧ n < 2 ^ 31) ∨ (rest.length < wantedFor n ∧ (0 ≤ n ∨ rest = [])) := by
  have count := declares.declaredLength
  obtain ⟨low, high⟩ := int32_bounds (clampLong n)
  have want : wanted (int32 (clampLong n)) = wantedFor n := wanted_int32 _
  have result := recvHttpRequestBody_parsedHead sock size line headers ⟨rest, fin⟩
  rw [count, recvBodyLoop_eq rest low high, want] at result
  rw [result]
  by_cases within : wantedFor n ≤ rest.length
  · rw [if_pos within, or_iff_left fun ended => absurd ended.1 (Nat.not_lt.mpr within)]
    exact honoured_of_going rfl rfl rfl within
  · have short := Nat.not_le.mp within
    rw [if_neg within]
    refine (honoured_of_stopped rfl).trans ((short_le_iff short).trans ?_)
    constructor
    · exact fun harmless => .inr ⟨short, harmless⟩
    · rintro (⟨nonneg, -⟩ | ⟨-, harmless⟩)
      · exact .inl nonneg
      · exact harmless

end BodyLength

/-- The lines of a `POST` that declares this length. -/
def postLine : Bytes := ascii "POST /a HTTP/1.0"

theorem bodyLength_honoured_iff_three :
    Honoured 3 (ascii "abcde")
        (recvHttpRequestBody (parsedHead 5 0 postLine [ascii "Content-Length: 3"]) ⟨ascii "abcde", .closed⟩) ↔
      (0 ≤ (3 : Int) ∧ (3 : Int) < 2 ^ 31) ∨
        ((ascii "abcde").length < wantedFor 3 ∧ (0 ≤ (3 : Int) ∨ ascii "abcde" = [])) :=
  bodyLength_honoured_iff 5 0 (ascii "abcde") .closed ⟨by decide, by decide⟩

/-- With `-1` declared the bytes behind the head are swallowed, and of `2 ^ 32 + 3` only three
are waited for. -/
theorem bodyLength_not_honoured :
    DeclaresLength postLine [ascii "Content-Length: -1"] (-1) ∧
    ¬ Honoured (-1) (ascii "abcde")
      (recvHttpRequestBody (parsedHead 5 0 postLine [ascii "Content-Length: -1"]) ⟨ascii "abcde", .closed⟩) ∧
    DeclaresLength postLine [ascii "Content-Length: 4294967299"] 4294967299 ∧
    ¬ Honoured 4294967299 (ascii "abcde")
      (recvHttpRequestBody (parsedHead 5 0 postLine [ascii "Content-Length: 4294967299"]) ⟨ascii "abcde", .closed⟩) := by
  refine ⟨⟨by decide, by decide⟩, ?_, ⟨by decide, by decide⟩, ?_⟩
  · intro honoured
    exact absurd honoured.consumed (by decide)
  · intro honoured
    exact absurd honoured.stored (by decide)

end HttpServer.Protocol
