import HttpServer.Logs.Sink
import Mathlib.Data.Nat.Log

/-!
# What a log file's name tells

The name has the fields of the time one after another, without padding or separators, and
then a counter. It tells the counter, but of the time only the number that the digits of all
fields make up (`packed`): `fileName_differ_iff`. Two times with as many digits in each field
are told apart; the eleventh of January and the first of November are not.
-/

namespace HttpServer.Logs
open Lib

/-! ## Numbers side by side -/

/-- The number of decimal digits. -/
def width (n : Nat) : Nat := Nat.log 10 n + 1

/-- The number that the digits of `n` behind those of `acc` make up. -/
def behind (acc n : Nat) : Nat := acc * 10 ^ width n + n

theorem lt_width (n : Nat) : n < 10 ^ width n := Nat.lt_pow_succ_log_self (by decide) n

theorem behind_injective {acc acc' n n' : Nat} (widths : width n = width n') (same : behind acc n = behind acc' n') :
    acc = acc' ∧ n = n' := by
  have small := lt_width n
  have small' := lt_width n'
  have positive : 0 < 10 ^ width n' := Nat.pow_pos (by decide)
  unfold behind at same
  rw [widths] at same small
  have low : n = n' := by
    have rem := congrArg (· % 10 ^ width n') same
    simpa only [Nat.mul_add_mod_self_right, Nat.mod_eq_of_lt small, Nat.mod_eq_of_lt small'] using rem
  subst low
  exact ⟨Nat.eq_of_mul_eq_mul_right positive (Nat.add_right_cancel same), rfl⟩

theorem decimalAux_length {fuel n : Nat} (enough : n < fuel) : (decimalAux fuel n).length = width n := by
  induction fuel generalizing n with
  | zero => omega
  | succ fuel ih =>
    unfold decimalAux width
    split
    · rename_i small
      simp [Nat.log_of_lt small]
    · rename_i large
      have step : 0 < Nat.log 10 n := Nat.log_pos (by decide) (by omega)
      have rest := ih (n := n / 10) (by omega)
      rw [width, Nat.log_div_base] at rest
      rw [List.length_append, List.length_singleton, rest]
      omega

theorem decimal_length (n : Nat) : (decimal n).length = width n := decimalAux_length (Nat.lt_succ_self n)

theorem digitsValue_behind (s : Bytes) (n : Nat) : digitsValue (s ++ decimal n) = behind (digitsValue s) n := by
  rw [digitsValue_append, decimal_length, digitsValue_decimal, behind]

/-! ## Times -/

namespace LocalTime

/-- The fields of a time read as one number. -/
def packed (lt : LocalTime) : Nat :=
  [lt.mon + 1, lt.mday, lt.hour, lt.min, lt.sec].foldl behind (lt.year + 1900)

/-- Each field has as many digits in one time as in the other. -/
structure SameWidths (lt lt' : LocalTime) : Prop where
  mon : width (lt.mon + 1) = width (lt'.mon + 1)
  mday : width lt.mday = width lt'.mday
  hour : width lt.hour = width lt'.hour
  min : width lt.min = width lt'.min
  sec : width lt.sec = width lt'.sec

theorem packed_injective {lt lt' : LocalTime} (widths : SameWidths lt lt') (same : lt.packed = lt'.packed) :
    lt = lt' := by
  obtain ⟨same, sec⟩ := behind_injective widths.sec same
  obtain ⟨same, min⟩ := behind_injective widths.min same
  obtain ⟨same, hour⟩ := behind_injective widths.hour same
  obtain ⟨same, mday⟩ := behind_injective widths.mday same
  obtain ⟨year, mon⟩ := behind_injective widths.mon same
  cases lt
  cases lt'
  simp only [mk.injEq]
  simp only at sec min hour mday mon year
  omega

theorem stamp_value (lt : LocalTime) : digitsValue lt.stamp = lt.packed := by
  simp only [stamp, packed, digitsValue_behind, digitsValue_decimal, List.foldl_cons, List.foldl_nil]

theorem stamp_digits (lt : LocalTime) : ∀ b ∈ lt.stamp, isDigit b = true := by
  intro b mem
  simp only [stamp, List.mem_append] at mem
  rcases mem with ((((mem | mem) | mem) | mem) | mem) | mem <;> exact decimal_digits mem

theorem stamp_lead (lt : LocalTime) : lt.stamp.head? ≠ some 48 := by
  obtain ⟨b, s, eq⟩ := List.exists_cons_of_ne_nil (decimal_ne_nil (lt.year + 1900))
  have lead := decimal_lead (n := lt.year + 1900) (by omega)
  rw [eq] at lead
  simpa only [stamp, eq, List.cons_append, List.head?_cons] using lead

/-- Two times are written alike when the numbers of their digits are the same. -/
theorem stamp_eq_iff (lt lt' : LocalTime) : lt.stamp = lt'.stamp ↔ lt.packed = lt'.packed := by
  rw [← stamp_value, ← stamp_value]
  constructor
  · exact congrArg digitsValue
  · exact digits_unique lt.stamp_digits lt'.stamp_digits lt.stamp_lead lt'.stamp_lead

end LocalTime

/-! ## Names -/

theorem fileName_eq_iff (basename : Bytes) (lt lt' : LocalTime) (n n' : Int) :
    fileName basename lt n = fileName basename lt' n' ↔ n = n' ∧ lt.packed = lt'.packed := by
  have dash (lt : LocalTime) : (45 : UInt8) ∉ lt.stamp := fun mem => (digit_facts (lt.stamp_digits _ mem)).2.1 rfl
  have text (lt : LocalTime) (n : Int) :
      fileName basename lt n = basename ++ (lt.stamp ++ 45 :: (decimalInt n ++ ascii ".log")) := by
    simp [fileName, ascii]
  constructor
  · intro same
    rw [text, text] at same
    have same := List.append_cancel_left same
    have stamps : lt.stamp = lt'.stamp := by rw [← takeWhile_until (dash lt), same, takeWhile_until (dash lt')]
    rw [stamps] at same
    have counts := List.append_cancel_right (List.cons.inj (List.append_cancel_left same)).2
    exact ⟨decimalInt_injective counts, (lt.stamp_eq_iff lt').mp stamps⟩
  · rintro ⟨rfl, packed⟩
    rw [text, text, (lt.stamp_eq_iff lt').mpr packed]

/-- Different times or counters give different names when the counters differ or the times'
numbers do, and not otherwise; with as many digits in each field they do. -/
theorem fileName_differ_iff (basename : Bytes) (lt lt' : LocalTime) (n n' : Int) :
    (((lt, n) ≠ (lt', n') → fileName basename lt n ≠ fileName basename lt' n') ↔
      n ≠ n' ∨ lt = lt' ∨ lt.packed ≠ lt'.packed) ∧
    (lt.SameWidths lt' → (lt, n) ≠ (lt', n') → fileName basename lt n ≠ fileName basename lt' n') := by
  have exact : ((lt, n) ≠ (lt', n') → fileName basename lt n ≠ fileName basename lt' n') ↔
      n ≠ n' ∨ lt = lt' ∨ lt.packed ≠ lt'.packed := by
    rw [ne_eq (fileName _ _ _), fileName_eq_iff, ne_eq, Prod.mk.injEq]
    constructor
    · intro apart
      by_contra no
      simp only [not_or, not_not] at no
      exact apart (fun both => no.2.1 both.1) ⟨no.1, no.2.2⟩
    · rintro differ other ⟨rfl, packed⟩
      rcases differ with counts | times | numbers
      · exact counts rfl
      · exact other ⟨times, rfl⟩
      · exact numbers packed
  refine ⟨exact, fun widths => exact.mpr ?_⟩
  by_cases packed : lt.packed = lt'.packed
  · exact .inr (.inl (LocalTime.packed_injective widths packed))
  · exact .inr (.inr packed)

/-- The first second of the eleventh of January 2024. -/
def elevenJanuary : LocalTime :=
  ⟨124, 0, 11, 0, 0, 0, by decide, by decide, by decide, by decide, by decide, by decide, by decide, by decide⟩

/-- The first second of the first of November 2024. -/
def firstNovember : LocalTime :=
  ⟨124, 10, 1, 0, 0, 0, by decide, by decide, by decide, by decide, by decide, by decide, by decide, by decide⟩

/-- A server of January writes four bytes, and is shut down; one that starts in November finds
them in its first file, and takes that for empty. -/
theorem fileName_collides :
    elevenJanuary ≠ firstNovember ∧
    fileName (ascii "log-") elevenJanuary 0 = fileName (ascii "log-") firstNovember 0 ∧
    ∃ s, ((Rolling.new (ascii "log-") 4 elevenJanuary fun _ => none).log
        ⟨ascii "old\n", elevenJanuary, 0⟩).bind Rolling.close = some s ∧
      let restarted := Rolling.new (ascii "log-") 4 firstNovember s.disk.files
      restarted.sink.curFsize = 0 ∧ restarted.disk.files restarted.sink.ofs.name = some (ascii "old\n") := by
  refine ⟨by decide, by decide, _, rfl, ?_⟩
  decide

end HttpServer.Logs
