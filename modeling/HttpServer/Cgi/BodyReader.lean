import HttpServer.Cgi.Comm
import HttpServer.Protocol.BodyLength

/-!
# Reading a body by its length

The `POST` branch of `GetQueryString` counts a 32-bit `int` down to zero and does not look at
what `read` returns. `ReadsLength` is what a length `n` in `CONTENT_LENGTH` asks for: no more
calls than bytes, and of the standard input its first `n` bytes, or all of it.
`readsLength_iff` says for which lengths and inputs the branch does that. For others it
appends the last byte again and again, or, without any byte, a NUL.
-/

namespace HttpServer.Cgi
open Lib Protocol

/-- The calls of `read` in `readLoop`; `none` if it does not end within the fuel. -/
def readCalls : Nat → Int → Option Nat
  | 0, _ => none
  | fuel + 1, contentLength =>
    if contentLength = 0 then some 0 else (readCalls fuel (int32 (contentLength - 1))).map (· + 1)

/-- The branch ends with at most `n` calls, and appends the first `n` bytes there are. -/
structure ReadsLength (n : Int) (stdin queryString : Bytes) (read : QueryRead) : Prop where
  few : ∃ calls : Nat, readCalls (2 ^ 32) (atoi (decimalInt n)) = some calls ∧ (calls : Int) ≤ max n 0
  exactly : read.queryString = queryString ++ stdin.take n.toNat

theorem readCalls_eq {fuel : Nat} {n : Int} (low : -2 ^ 31 ≤ n) (high : n < 2 ^ 31) (enough : wanted n < fuel) :
    readCalls fuel n = some (wanted n) := by
  induction fuel generalizing n with
  | zero => omega
  | succ fuel ih =>
    have zero := wanted_eq_zero low high
    unfold readCalls
    by_cases done : n = 0
    · rw [if_pos done, zero.mpr done]
    · have some : 0 < wanted n := Nat.pos_of_ne_zero fun eq => done (zero.mp eq)
      have next := wanted_pred some
      obtain ⟨low', high'⟩ := int32_bounds (n - 1)
      rw [if_neg done, ih low' high' (by omega), Option.map_some, next]

/-- Which bytes a length that is wanted as `w` yields: the first `m`, if `w` is what `m` asks for. -/
theorem taken_iff {w m : Nat} (stdin : Bytes) (last : UInt8) :
    stdin.take w ++ List.replicate (w - stdin.length) last = stdin.take m ↔ w = min m stdin.length := by
  constructor
  · intro same
    have length := congrArg List.length same
    simp only [List.length_append, List.length_take, List.length_replicate] at length
    omega
  · rintro rfl
    rw [Nat.sub_eq_zero_of_le (Nat.min_le_right m _), List.replicate_zero, List.append_nil,
      ← List.take_eq_take_min]

/-- For which lengths the bytes wanted are those asked for. -/
theorem wantedFor_eq_min_iff (n : Int) (available : Nat) :
    wantedFor n = min n.toNat available ↔
      (0 ≤ n ∧ n < 2 ^ 32 ∧ n ≤ available) ∨ (2 ^ 32 ≤ n ∧ (available : Int) = min n (2 ^ 63 - 1) % 2 ^ 32) ∨
        (n < 0 ∧ (n ≤ -2 ^ 63 ∨ n % 2 ^ 32 = 0)) := by
  unfold wantedFor wanted clampLong
  omega

section Branch
variable {environ : Environ} {n : Int}

/-- What the branch yields for any length. -/
theorem getQueryString_length (method : getenv environ METHOD = some POST)
    (length : getenv environ Cgi.CONTENT_LENGTH = some (decimalInt n)) (stdin queryString : Bytes) :
    getQueryString environ stdin queryString =
      some ⟨true, queryString ++ stdin.take (wantedFor n) ++
        List.replicate (wantedFor n - stdin.length) (stdin.getLastD 0), stdin.drop (wantedFor n)⟩ := by
  have differ : POST ≠ GET := by decide
  obtain ⟨low, high⟩ := int32_bounds (clampLong n)
  have few : wanted (int32 (clampLong n)) < 2 ^ 32 := by
    unfold wanted
    omega
  unfold getQueryString
  simp only [method, differ, if_false, if_true, length, Option.map_some]
  rw [atoi_decimalInt, readLoop_eq low high few, wanted_int32]
  rfl

/-- **The body reader, exactly.** For every length, input and query string so far, the branch returns
and keeps the length if and only if it is not negative, below `2 ^ 32` and not beyond the
input; or the input is just what is left of a longer one modulo `2 ^ 32`; or it is negative and
nothing is left of it. -/
theorem readsLength_iff (method : getenv environ METHOD = some POST)
    (length : getenv environ Cgi.CONTENT_LENGTH = some (decimalInt n)) (stdin queryString : Bytes) :
    ∃ read, getQueryString environ stdin queryString = some read ∧
      (ReadsLength n stdin queryString read ↔
        (0 ≤ n ∧ n < 2 ^ 32 ∧ n ≤ stdin.length) ∨ (2 ^ 32 ≤ n ∧ (stdin.length : Int) = min n (2 ^ 63 - 1) % 2 ^ 32) ∨
          (n < 0 ∧ (n ≤ -2 ^ 63 ∨ n % 2 ^ 32 = 0))) := by
  refine ⟨_, getQueryString_length method length stdin queryString, ?_⟩
  obtain ⟨low, high⟩ := int32_bounds (clampLong n)
  have few : wanted (int32 (clampLong n)) < 2 ^ 32 := by
    unfold wanted
    omega
  have calls : readCalls (2 ^ 32) (atoi (decimalInt n)) = some (wantedFor n) := by
    rw [atoi_decimalInt, readCalls_eq low high few, wanted_int32, wantedFor]
  have bytes := taken_iff (w := wantedFor n) (m := n.toNat) stdin (stdin.getLastD 0)
  rw [← wantedFor_eq_min_iff, ← bytes]
  constructor
  · rintro ⟨-, exactly⟩
    simp only [List.append_assoc] at exactly
    exact List.append_cancel_left exactly
  · intro same
    constructor
    case few =>
      refine ⟨_, calls, ?_⟩
      have least := bytes.mp same
      omega
    case exactly => simp only [List.append_assoc, same]

end Branch

/-- The environment of a `POST` with this `CONTENT_LENGTH`. -/
def posting (n : Int) : Environ :=
  [METHOD ++ ascii "=" ++ POST, Cgi.CONTENT_LENGTH ++ ascii "=" ++ decimalInt n]

theorem readsLength_iff_three :
    ∃ read, getQueryString (posting 3) (ascii "abcd") (ascii "x") = some read ∧
      (ReadsLength 3 (ascii "abcd") (ascii "x") read ↔
        (0 ≤ (3 : Int) ∧ (3 : Int) < 2 ^ 32 ∧ (3 : Int) ≤ (ascii "abcd").length) ∨
          (2 ^ 32 ≤ (3 : Int) ∧ ((ascii "abcd").length : Int) = min 3 (2 ^ 63 - 1) % 2 ^ 32) ∨
          ((3 : Int) < 0 ∧ ((3 : Int) ≤ -2 ^ 63 ∨ (3 : Int) % 2 ^ 32 = 0))) :=
  readsLength_iff (by decide) (by decide) (ascii "abcd") (ascii "x")

/-- Of one byte, a length of three makes three; and a length of `-1` makes 4294967295 of none. -/
theorem readsLength_fabricates :
    getQueryString (posting 3) (ascii "a") [] = some ⟨true, ascii "aaa", []⟩ ∧
    ¬ ReadsLength 3 (ascii "a") [] ⟨true, ascii "aaa", []⟩ ∧
    ∃ read, getQueryString (posting (-1)) [] [] = some read ∧ read.queryString.length = 4294967295 ∧
      ¬ ReadsLength (-1) [] [] read := by
  have three := @getQueryString_length (posting 3) 3 (by decide) (by decide) (ascii "a") []
  have minus := @getQueryString_length (posting (-1)) (-1) (by decide) (by decide) [] []
  have count : wantedFor (-1) = 4294967295 := by decide
  refine ⟨three.trans (by decide), fun reads => absurd reads.exactly (by decide), _, minus, ?_, fun reads => ?_⟩
  · simp only [List.length_append, List.length_take, List.length_replicate, List.length_nil]
    omega
  · have length := congrArg List.length reads.exactly
    simp only [List.length_append, List.length_take, List.length_replicate, List.length_nil] at length
    omega

end HttpServer.Cgi
