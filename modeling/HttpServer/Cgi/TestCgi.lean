import HttpServer.Cgi.Comm
import HttpServer.Protocol.Respond

/-!
# The calculator

`cgi/test_cgi.cc`: the values of two fields go through `atoi`, and the page has their sum,
difference, product and quotient. An `int` operation whose result is no `int` is undefined, and
a division by zero raises `SIGFPE`, of which the server makes an error of its own.
`answersOk_iff` says for which forms all four results exist and the server answers `OK`.
-/

namespace HttpServer.Cgi.Test
open Lib Protocol

/-! ## The program -/

/-- An operation without a result. -/
inductive Fault where
  | overflow
  | divisionByZero
  deriving DecidableEq, Repr

/-- A value of `int`. -/
def FitsInt (n : Int) : Prop := -2 ^ 31 ≤ n ∧ n < 2 ^ 31

instance (n : Int) : Decidable (FitsInt n) := inferInstanceAs (Decidable (_ ∧ _))

/-- The result of a signed operation. -/
def checked (n : Int) : Except Fault Int := if FitsInt n then .ok n else .error .overflow

/-- `x/y`, towards zero. -/
def divide (x y : Int) : Except Fault Int := if y = 0 then .error .divisionByZero else checked (x.tdiv y)

/-- The name and the value of a field, cut at `=`. -/
def field (str : Bytes) : Bytes × Bytes := cutString str (ascii "=") [] []

/-- One line of the page. -/
def row (value1 op value2 : Bytes) (result : Int) : Bytes :=
  ascii "<h3> " ++ value1 ++ op ++ value2 ++ ascii " = " ++ decimalInt result ++ ascii "</h3>"

/-- What `main` prints for a query string. -/
def answer (queryString : Bytes) : Except Fault Bytes := do
  let strs := cutString queryString (ascii "&") [] []
  let field1 := field strs.1
  let field2 := field strs.2
  let x := atoi field1.2
  let y := atoi field2.2
  let sum ← checked (x + y)
  let difference ← checked (x - y)
  let product ← checked (x * y)
  let quotient ← divide x y
  return field1.1 ++ ascii " : " ++ field1.2 ++ ascii "\n" ++ field2.1 ++ ascii " : " ++ field2.2 ++ ascii "\n" ++
    ascii "<html>" ++ ascii "<head><meta charset=\"utf-8\"></head>" ++ ascii "<body>" ++
    row field1.2 (ascii " + ") field2.2 sum ++ row field1.2 (ascii " - ") field2.2 difference ++
    row field1.2 (ascii " * ") field2.2 product ++ row field1.2 (ascii " / ") field2.2 quotient ++
    ascii "</body>" ++ ascii "</html>"

/-- `main`; whether there was a query string makes no difference to it. -/
def main (environ : Environ) (stdin : Bytes) : Option (Except Fault Bytes) :=
  (getQueryString environ stdin []).map fun read => answer read.queryString

/-- How the process ends: with status 0, or by `SIGFPE`. Nothing is known of it after an overflow. -/
def status : Except Fault Bytes → Option WaitStatus
  | .ok _ => some (.exited 0)
  | .error .divisionByZero => some .signaled
  | .error .overflow => none

/-! ## What it takes -/

/-- All four results exist, the program exits with 0, and the server that waited for it answers `OK`. -/
def AnswersOk (queryString : Bytes) : Prop :=
  ∃ page, answer queryString = .ok page ∧ status (answer queryString) = some (.exited 0) ∧
    ∀ (env : Env) (in0 in1 out0 out1 : Int) (ep : EndPoint) (os : Os), status (answer queryString) = some env.wait →
      (cgiParent env in0 in1 out0 out1 ep os).code = OK

theorem checked_ok_iff {n r : Int} : checked n = .ok r ↔ FitsInt n ∧ n = r := by
  unfold checked
  split_ifs with fits <;> simp [fits]

theorem bind_ok_iff {α β : Type} {e : Except Fault α} {f : α → Except Fault β} {r : β} :
    (e >>= f) = .ok r ↔ ∃ a, e = .ok a ∧ f a = .ok r := by
  cases e <;> simp [bind, Except.bind]

/-- A quotient is out of range only if the product is. -/
theorem fits_tdiv {x y : Int} (fits : FitsInt x) (product : FitsInt (x * y)) : FitsInt (x.tdiv y) := by
  have size : (x.tdiv y).natAbs = x.natAbs / y.natAbs := Int.natAbs_tdiv x y
  unfold FitsInt at fits product ⊢
  by_cases small : y.natAbs < 2
  · have unit : y = 0 ∨ y = 1 ∨ y = -1 := by omega
    rcases unit with rfl | rfl | rfl
    · rw [Int.tdiv_zero]
      omega
    · rw [Int.tdiv_one]
      exact fits
    · rw [Int.tdiv_neg, Int.tdiv_one]
      omega
  · have half : x.natAbs / y.natAbs ≤ x.natAbs / 2 := Nat.div_le_div_left (by omega) (by decide)
    omega

theorem divide_ok_iff {x y : Int} (fits : FitsInt x) (product : FitsInt (x * y)) :
    (∃ r, divide x y = .ok r) ↔ y ≠ 0 := by
  unfold divide
  split_ifs with zero
  · simp [zero]
  · simp [zero, checked_ok_iff, fits_tdiv fits product]

theorem answer_ok_iff (queryString : Bytes) :
    (∃ page, answer queryString = .ok page) ↔
      atoi (secondValue queryString) ≠ 0 ∧
      FitsInt (atoi (firstValue queryString) + atoi (secondValue queryString)) ∧
      FitsInt (atoi (firstValue queryString) - atoi (secondValue queryString)) ∧
      FitsInt (atoi (firstValue queryString) * atoi (secondValue queryString)) := by
  have amp : ascii "&" = [38] := rfl
  have equals : ascii "=" = [61] := rfl
  have first : (field (cutString queryString (ascii "&") [] []).1).2 = firstValue queryString := by
    simp only [field, amp, equals, cutString_byte, firstValue]
  have second : (field (cutString queryString (ascii "&") [] []).2).2 = secondValue queryString := by
    simp only [field, amp, equals, cutString_byte, secondValue]
  have fits : FitsInt (atoi (firstValue queryString)) := atoi_bounds _
  unfold answer
  simp only [first, second, bind_ok_iff, checked_ok_iff]
  constructor
  · rintro ⟨page, -, ⟨sum, -⟩, -, ⟨difference, -⟩, -, ⟨product, -⟩, quotient, divided, -⟩
    exact ⟨(divide_ok_iff fits product).mp ⟨quotient, divided⟩, sum, difference, product⟩
  · rintro ⟨nonzero, sum, difference, product⟩
    obtain ⟨quotient, divided⟩ := (divide_ok_iff fits product).mpr nonzero
    exact ⟨_, _, ⟨sum, rfl⟩, _, ⟨difference, rfl⟩, _, ⟨product, rfl⟩, quotient, divided, rfl⟩

/-- The server takes a status of 0 for success. -/
theorem cgiParent_ok {env : Env} (exited : env.wait = .exited 0) (in0 in1 out0 out1 : Int) (ep : EndPoint) (os : Os) :
    (cgiParent env in0 in1 out0 out1 ep os).code = OK := by
  simp [cgiParent, exited]

/-- **The calculator, exactly.** For every query string, the program has its four results, exits with
0 and is answered with `OK` if and only if the second number is not zero and sum, difference and
product are values of `int`. -/
theorem answersOk_iff (queryString : Bytes) :
    AnswersOk queryString ↔
      atoi (secondValue queryString) ≠ 0 ∧
      FitsInt (atoi (firstValue queryString) + atoi (secondValue queryString)) ∧
      FitsInt (atoi (firstValue queryString) - atoi (secondValue queryString)) ∧
      FitsInt (atoi (firstValue queryString) * atoi (secondValue queryString)) := by
  rw [← answer_ok_iff]
  constructor
  · rintro ⟨page, printed, -⟩
    exact ⟨page, printed⟩
  · rintro ⟨page, printed⟩
    have exits : status (answer queryString) = some (.exited 0) := by rw [printed, status]
    refine ⟨page, printed, exits, fun env in0 in1 out0 out1 ep os waited => ?_⟩
    rw [exits] at waited
    exact cgiParent_ok (Option.some.inj waited).symm in0 in1 out0 out1 ep os

/-- A division by zero ends the program by a signal, which the server answers with an error; also
without any field. The square of 65536 is no `int`. -/
theorem answer_faults :
    ¬ AnswersOk (ascii "a=1&b=0") ∧ status (answer (ascii "a=1&b=0")) = some .signaled ∧
    (cgiParent { Env.bare with wait := .signaled } 5 6 7 8 (EndPoint.new 4 0) ⟨⟨[], .closed⟩, ∅, [], [], []⟩).code =
      SERVER_ERROR ∧
    answer [] = .error .divisionByZero ∧ answer (ascii "a=65536&b=65536") = .error .overflow := by
  refine ⟨?_, by decide⟩
  rintro ⟨page, printed, -⟩
  have fault : answer (ascii "a=1&b=0") = .error .divisionByZero := by decide
  rw [fault] at printed
  cases printed

end HttpServer.Cgi.Test
