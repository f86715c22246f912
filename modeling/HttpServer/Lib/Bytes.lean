import Mathlib.Data.List.Induction
import Mathlib.Data.List.TakeWhile
import Mathlib.Tactic.Ring

/-!
# Byte strings and the C library on them

A C++ `std::string` is its list of bytes; `cStr` is what a callee of `c_str()` sees of it,
the bytes before the first NUL. The character classes are those of the classic locale
(`isspace`, `toupper`), and `atoi` is glibc's: `strtol` in base ten, saturated at the `long`
limits, truncated to a 32-bit `int`. `decimal` is `std::to_string` of an unsigned value;
`atoi_decimal` is the round trip between the two. The integer conversions `int32` and
`sizeT` are those of a 64-bit target.
-/

namespace HttpServer.Lib

abbrev Bytes := List UInt8

/-- The bytes of an ASCII literal. -/
def ascii (s : String) : Bytes := s.toList.map fun c => c.toNat.toUInt8

/-- The value of `n` converted to a 32-bit `int`. -/
def int32 (n : Int) : Int := n.bmod (2 ^ 32)

/-- The value of `n` converted to a 64-bit `size_t`. -/
def sizeT (n : Int) : Nat := (n % 2 ^ 64).toNat

theorem int32_of_bounds {n : Int} (low : -2 ^ 31 ≤ n) (high : n < 2 ^ 31) : int32 n = n := by
  unfold int32
  exact Int.bmod_eq_of_le (by omega) (by omega)

theorem int32_bounds (n : Int) : -2 ^ 31 ≤ int32 n ∧ int32 n < 2 ^ 31 := by
  have low := @Int.le_bmod n (2 ^ 32) (by decide)
  have high := @Int.bmod_lt n (2 ^ 32) (by decide)
  unfold int32
  omega

/-! ## Runs up to a byte -/

theorem ne_of_absent {x : UInt8} {s : Bytes} (absent : x ∉ s) : ∀ b ∈ s, (b != x) = true := by
  intro b mem
  have other : b ≠ x := fun eq => absent (eq ▸ mem)
  simpa using other

theorem takeWhile_absent {x : UInt8} {s : Bytes} (absent : x ∉ s) : (s.takeWhile fun b => b != x) = s :=
  List.takeWhile_eq_self_iff.mpr (ne_of_absent absent)

/-- A run ends at the first `x`. -/
theorem takeWhile_until {x : UInt8} {s : Bytes} (absent : x ∉ s) (t : Bytes) :
    ((s ++ x :: t).takeWhile fun b => b != x) = s := by
  rw [List.takeWhile_append_of_pos (ne_of_absent absent)]
  simp

theorem dropWhile_until {x : UInt8} {s : Bytes} (absent : x ∉ s) (t : Bytes) :
    ((s ++ x :: t).dropWhile fun b => b != x) = x :: t := by
  rw [List.dropWhile_append_of_pos (ne_of_absent absent)]
  simp

theorem take_run (p : UInt8 → Bool) (s : Bytes) : s.take (s.takeWhile p).length = s.takeWhile p :=
  (List.prefix_iff_eq_take.mp (List.takeWhile_prefix p)).symm

theorem drop_run (p : UInt8 → Bool) (s : Bytes) : s.drop (s.takeWhile p).length = s.dropWhile p := by
  have cut := @List.drop_left _ (s.takeWhile p) (s.dropWhile p)
  rwa [List.takeWhile_append_dropWhile] at cut

theorem dropWhile_absent {x : UInt8} {s : Bytes} (absent : x ∉ s) : (s.dropWhile fun b => b != x) = [] :=
  List.dropWhile_eq_nil_iff.mpr (ne_of_absent absent)

/-! ## C strings and character classes -/

/-- The bytes before the first NUL. -/
def cStr (s : Bytes) : Bytes := s.takeWhile (· != 0)

/-- `isspace` in the classic locale: blank, `\t`, `\n`, `\v`, `\f`, `\r`. -/
def isSpace (b : UInt8) : Bool := b == 32 || (9 ≤ b && b ≤ 13)

/-- `toupper` in the classic locale; bytes outside `a`..`z` are unchanged. -/
def toUpper (b : UInt8) : UInt8 := if 97 ≤ b ∧ b ≤ 122 then b - 32 else b

def isDigit (b : UInt8) : Bool := 48 ≤ b && b ≤ 57

theorem cStr_append_of_nul {s : Bytes} (nul : 0 ∈ s) (t : Bytes) : cStr (s ++ t) = cStr s := by
  unfold cStr
  induction s with
  | nil => cases nul
  | cons b s ih =>
    by_cases zero : b = 0
    · simp [zero]
    · have rest : 0 ∈ s := by simpa [Ne.symm zero] using nul
      simp [zero, ih rest]

theorem cStr_append_of_no_nul {s : Bytes} (clean : 0 ∉ s) (t : Bytes) : cStr (s ++ t) = s ++ cStr t := by
  unfold cStr
  rw [List.takeWhile_append_of_pos (ne_of_absent clean)]

theorem cStr_eq_self {s : Bytes} (clean : 0 ∉ s) : cStr s = s := takeWhile_absent clean

/-! ## Searching -/

/-- `s.find(sep)`: the position of the first occurrence. -/
def find (sep : Bytes) : Bytes → Option Nat
  | [] => if sep = [] then some 0 else none
  | b :: s => if sep.isPrefixOf (b :: s) then some 0 else (find sep s).map (· + 1)

theorem find_split {sep s : Bytes} {pos : Nat} (found : find sep s = some pos) :
    s = s.take pos ++ sep ++ s.drop (pos + sep.length) := by
  induction s generalizing pos with
  | nil =>
    unfold find at found
    split at found
    · rename_i empty
      simp [empty]
    · cases found
  | cons b s ih =>
    unfold find at found
    split at found
    · rename_i prefixed
      obtain rfl : 0 = pos := Option.some.inj found
      obtain ⟨rest, split⟩ := List.isPrefixOf_iff_prefix.mp prefixed
      simp [← split]
    · obtain ⟨pos', found', rfl⟩ := Option.map_eq_some_iff.mp found
      have rest := ih found'
      have shift : pos' + 1 + sep.length = pos' + sep.length + 1 := by omega
      rw [shift, List.take_succ_cons, List.drop_succ_cons, List.cons_append, List.cons_append, ← rest]

/-- What is found is the first occurrence: up to its end there is no other. -/
theorem find_first {sep s : Bytes} {pos : Nat} (found : find sep s = some pos) {a b : Bytes}
    (again : s.take pos ++ sep = a ++ sep ++ b) : b = [] := by
  induction s generalizing pos a with
  | nil =>
    unfold find at found
    split at found
    · rename_i empty
      rw [empty] at again
      simp only [List.take_nil, List.append_nil, List.nil_eq, List.append_eq_nil_iff] at again
      exact again.2
    · cases found
  | cons c s ih =>
    unfold find at found
    split at found
    · obtain rfl : 0 = pos := Option.some.inj found
      have length := congrArg List.length again
      simp only [List.take_zero, List.nil_append, List.length_append] at length
      exact List.eq_nil_of_length_eq_zero (by omega)
    · rename_i here
      obtain ⟨pos', found', rfl⟩ := Option.map_eq_some_iff.mp found
      rw [List.take_succ_cons, List.cons_append] at again
      cases a with
      | nil =>
        -- an occurrence at the very beginning would have been found first
        have whole := find_split found'
        rw [List.nil_append] at again
        refine absurd (List.isPrefixOf_iff_prefix.mpr ⟨b ++ s.drop (pos' + sep.length), ?_⟩) here
        rw [← List.append_assoc, ← again, List.cons_append, ← whole]
      | cons d a =>
        rw [List.cons_append, List.cons_append] at again
        exact ih found' (List.cons.inj again).2

theorem find_none_iff {sep s : Bytes} : find sep s = none ↔ ¬ sep <:+: s := by
  constructor
  · intro absent within
    induction s with
    | nil => simp [find, List.infix_nil.mp within] at absent
    | cons b s ih =>
      unfold find at absent
      split at absent
      · cases absent
      · rename_i here
        rcases List.infix_cons_iff.mp within with first | later
        · exact here (List.isPrefixOf_iff_prefix.mpr first)
        · exact ih (Option.map_eq_none_iff.mp absent) later
  · intro absent
    by_contra other
    obtain ⟨pos, found⟩ := Option.ne_none_iff_exists'.mp other
    exact absent ⟨s.take pos, s.drop (pos + sep.length), (find_split found).symm⟩

/-- A byte is found where the run of other bytes ends. -/
theorem find_byte (x : UInt8) (s : Bytes) :
    find [x] s = if x ∈ s then some (s.takeWhile fun b => b != x).length else none := by
  induction s with
  | nil => simp [find]
  | cons b s ih =>
    by_cases here : b = x
    · subst here
      simp [find]
    · have prefixed : [x].isPrefixOf (b :: s) = false := by simpa [List.isPrefixOf] using Ne.symm here
      rw [find, prefixed, if_neg Bool.false_ne_true, ih]
      simp only [List.mem_cons, Ne.symm here, false_or]
      split <;> simp [here]

/-- A separator of two different bytes is found right after a text that does not contain it. -/
theorem find_append_pair {x y : UInt8} (differ : x ≠ y) {a : Bytes} (absent : ¬ [x, y] <:+: a) (t : Bytes) :
    find [x, y] (a ++ [x, y] ++ t) = some a.length := by
  induction a with
  | nil => simp [find]
  | cons b a ih =>
    have rest : ¬ [x, y] <:+: a := fun sub => absent (sub.trans (List.suffix_cons b a).isInfix)
    have here : [x, y].isPrefixOf (b :: a ++ [x, y] ++ t) = false := by
      by_contra prefixed
      cases a with
      | nil =>
        simp only [List.cons_append, List.nil_append, List.isPrefixOf, Bool.and_true, Bool.not_eq_false,
          Bool.and_eq_true, beq_iff_eq] at prefixed
        exact differ prefixed.2.symm
      | cons c a =>
        simp only [List.cons_append, List.isPrefixOf, Bool.and_true, Bool.not_eq_false,
          Bool.and_eq_true, beq_iff_eq] at prefixed
        obtain ⟨rfl, rfl⟩ := prefixed
        exact absent ⟨[], a, rfl⟩
    rw [List.cons_append, List.cons_append] at here ⊢
    rw [find, here, if_neg Bool.false_ne_true, ih rest]
    rfl

/-! ## Text to integer and back -/

/-- The value of a string of decimal digits. -/
def digitsValue (s : Bytes) : Nat := s.foldl (fun n d => 10 * n + (d.toNat - 48)) 0

/-- `long` saturation. -/
def clampLong (n : Int) : Int := max (-2 ^ 63) (min n (2 ^ 63 - 1))

/-- `strtol(s, nullptr, 10)`. -/
def strtol (s : Bytes) : Int :=
  match s.dropWhile isSpace with
  | 45 :: t => clampLong (-(digitsValue (t.takeWhile isDigit) : Int))
  | 43 :: t => clampLong (digitsValue (t.takeWhile isDigit))
  | t => clampLong (digitsValue (t.takeWhile isDigit))

/-- `atoi(s.c_str())`. -/
def atoi (s : Bytes) : Int := int32 (strtol (cStr s))

theorem atoi_bounds (s : Bytes) : -2 ^ 31 ≤ atoi s ∧ atoi s < 2 ^ 31 := int32_bounds _

/-- The decimal digits of `n`, with `fuel` more than the number of digits left. -/
def decimalAux : Nat → Nat → Bytes
  | 0, _ => []
  | fuel + 1, n =>
    if n < 10 then [(48 + n).toUInt8] else decimalAux fuel (n / 10) ++ [(48 + n % 10).toUInt8]

/-- `std::to_string` of an unsigned integer. -/
def decimal (n : Nat) : Bytes := decimalAux (n + 1) n

/-- `std::to_string` of a signed integer. -/
def decimalInt (n : Int) : Bytes :=
  if n < 0 then 45 :: decimal n.natAbs else decimal n.natAbs

theorem toNat_digit {d : Nat} (small : d < 10) : (48 + d).toUInt8.toNat = 48 + d := by
  simp only [Nat.toUInt8_eq, UInt8.toNat_ofNat']
  omega

theorem isDigit_digit {d : Nat} (small : d < 10) : isDigit (48 + d).toUInt8 = true := by
  have value := toNat_digit small
  simp only [isDigit, Bool.and_eq_true, decide_eq_true_eq, UInt8.le_iff_toNat_le, value]
  exact ⟨by decide +revert, by change 48 + d ≤ 57; omega⟩

theorem digitsValue_snoc (s : Bytes) (b : UInt8) :
    digitsValue (s ++ [b]) = 10 * digitsValue s + (b.toNat - 48) := by
  simp [digitsValue]

theorem decimalAux_digits {fuel n : Nat} {b : UInt8} (mem : b ∈ decimalAux fuel n) : isDigit b = true := by
  induction fuel generalizing n with
  | zero => cases mem
  | succ fuel ih =>
    unfold decimalAux at mem
    split at mem
    · rw [List.mem_singleton.mp mem]
      exact isDigit_digit ‹_›
    · rcases List.mem_append.mp mem with mem | mem
      · exact ih mem
      · rw [List.mem_singleton.mp mem]
        exact isDigit_digit (Nat.mod_lt _ (by decide))

theorem digitsValue_decimalAux {fuel n : Nat} (enough : n < fuel) :
    digitsValue (decimalAux fuel n) = n := by
  induction fuel generalizing n with
  | zero => omega
  | succ fuel ih =>
    unfold decimalAux
    split
    · rename_i small
      simp only [digitsValue, List.foldl_cons, List.foldl_nil, toNat_digit small]
      omega
    · rw [digitsValue_snoc, ih (by omega), toNat_digit (Nat.mod_lt _ (by decide))]
      omega

theorem decimal_digits {n : Nat} {b : UInt8} (mem : b ∈ decimal n) : isDigit b = true :=
  decimalAux_digits mem

theorem digitsValue_decimal (n : Nat) : digitsValue (decimal n) = n :=
  digitsValue_decimalAux (Nat.lt_succ_self n)

theorem decimal_injective {n m : Nat} (same : decimal n = decimal m) : n = m := by
  rw [← digitsValue_decimal n, same, digitsValue_decimal]

theorem digitsValue_append (s t : Bytes) :
    digitsValue (s ++ t) = digitsValue s * 10 ^ t.length + digitsValue t := by
  induction t using List.reverseRecOn with
  | nil => simp [digitsValue]
  | append_singleton t b ih =>
    rw [← List.append_assoc, digitsValue_snoc, ih, digitsValue_snoc, List.length_append, List.length_singleton]
    ring

theorem digit_bounds {b : UInt8} (digit : isDigit b = true) : 48 ≤ b.toNat ∧ b.toNat ≤ 57 := by
  simpa only [isDigit, Bool.and_eq_true, decide_eq_true_eq, UInt8.le_iff_toNat_le, UInt8.reduceToNat] using digit

/-- Without a leading zero the value of digits is positive. -/
theorem digitsValue_pos {s : Bytes} (digits : ∀ b ∈ s, isDigit b = true) (nonempty : s ≠ [])
    (lead : s.head? ≠ some 48) : 0 < digitsValue s := by
  obtain ⟨b, t, rfl⟩ := List.exists_cons_of_ne_nil nonempty
  have low := (digit_bounds (digits b (by simp))).1
  have other : b.toNat ≠ 48 := by
    intro eq
    have zero : b = 48 := UInt8.toNat_inj.mp eq
    exact lead (by rw [zero, List.head?_cons])
  have first : 0 < digitsValue [b] := by
    simp only [digitsValue, List.foldl_cons, List.foldl_nil]
    omega
  rw [← List.singleton_append, digitsValue_append]
  have := Nat.mul_pos first (Nat.pow_pos (n := t.length) (by decide : 0 < 10))
  omega

theorem head?_init {s : Bytes} {b : UInt8} (lead : (s ++ [b]).head? ≠ some 48) : s.head? ≠ some 48 := by
  cases s with
  | nil => simp
  | cons c s => simpa using lead

/-- Digits without a leading zero are told by their value. -/
theorem digits_unique {s t : Bytes} (digits : ∀ b ∈ s, isDigit b = true) (digits' : ∀ b ∈ t, isDigit b = true)
    (lead : s.head? ≠ some 48) (lead' : t.head? ≠ some 48) (same : digitsValue s = digitsValue t) : s = t := by
  induction s using List.reverseRecOn generalizing t with
  | nil =>
    by_contra more
    have positive := digitsValue_pos digits' (Ne.symm more) lead'
    rw [← same] at positive
    exact absurd positive (lt_irrefl 0)
  | append_singleton s b ih =>
    have positive := digitsValue_pos digits (by simp) lead
    cases t using List.reverseRecOn with
    | nil =>
      rw [same] at positive
      exact absurd positive (lt_irrefl 0)
    | append_singleton t c =>
      have bounds := digit_bounds (digits b (by simp))
      have bounds' := digit_bounds (digits' c (by simp))
      rw [digitsValue_snoc, digitsValue_snoc] at same
      have last : b = c := UInt8.toNat_inj.mp (by omega)
      have init : s = t := by
        apply ih (fun d mem => digits d (List.mem_append_left _ mem))
          (fun d mem => digits' d (List.mem_append_left _ mem)) (head?_init lead) (head?_init lead')
        omega
      rw [init, last]

theorem decimal_ne_nil (n : Nat) : decimal n ≠ [] := by
  unfold decimal decimalAux
  split <;> simp

/-- The text of a positive number has no leading zero. -/
theorem decimalAux_lead {fuel n : Nat} (enough : n < fuel) (positive : 0 < n) :
    (decimalAux fuel n).head? ≠ some 48 := by
  induction fuel generalizing n with
  | zero => omega
  | succ fuel ih =>
    unfold decimalAux
    split
    · rename_i small
      intro zero
      have value := toNat_digit small
      rw [Option.some.inj zero] at value
      simp only [UInt8.reduceToNat] at value
      omega
    · have rest := ih (n := n / 10) (by omega) (by omega)
      have nonempty : decimalAux fuel (n / 10) ≠ [] := by
        intro empty
        have value : digitsValue (decimalAux fuel (n / 10)) = n / 10 := digitsValue_decimalAux (by omega)
        rw [empty] at value
        simp only [digitsValue, List.foldl_nil] at value
        omega
      obtain ⟨b, s, eq⟩ := List.exists_cons_of_ne_nil nonempty
      rw [eq] at rest ⊢
      simpa using rest

theorem decimal_lead {n : Nat} (positive : 0 < n) : (decimal n).head? ≠ some 48 :=
  decimalAux_lead (Nat.lt_succ_self n) positive

/-- A digit is neither a blank, a sign nor a NUL. -/
theorem digit_facts {b : UInt8} (digit : isDigit b = true) :
    isSpace b = false ∧ b ≠ 45 ∧ b ≠ 43 ∧ b ≠ 0 := by
  simp only [isDigit, Bool.and_eq_true, decide_eq_true_eq, UInt8.le_iff_toNat_le, UInt8.reduceToNat] at digit
  simp only [isSpace, Bool.or_eq_false_iff, Bool.and_eq_false_iff, beq_eq_false_iff_ne, decide_eq_false_iff_not,
    ne_eq, UInt8.le_iff_toNat_le, ← UInt8.toNat_inj, UInt8.reduceToNat]
  omega

theorem decimalInt_natCast (n : Nat) : decimalInt n = decimal n := by
  unfold decimalInt
  rw [if_neg (by omega), Int.natAbs_natCast]

theorem decimalInt_injective {n m : Int} (same : decimalInt n = decimalInt m) : n = m := by
  have minus (k : Nat) (t : Bytes) : decimal k ≠ 45 :: t :=
    fun eq => (digit_facts (decimal_digits (n := k) (b := 45) (by simp [eq]))).2.1 rfl
  unfold decimalInt at same
  split at same <;> split at same
  · have abs := decimal_injective (List.cons.inj same).2
    omega
  · exact absurd same.symm (minus _ _)
  · exact absurd same (minus _ _)
  · have abs := decimal_injective same
    omega

theorem decimal_clean {n : Nat} : (0 : UInt8) ∉ decimal n :=
  fun mem => (digit_facts (decimal_digits mem)).2.2.2 rfl

/-- `strtol` of a string of digits is its value, saturated. -/
theorem strtol_digits {s : Bytes} (digits : ∀ b ∈ s, isDigit b = true) :
    strtol s = clampLong (digitsValue s) := by
  cases s with
  | nil => rfl
  | cons b s =>
    obtain ⟨space, minus, plus, -⟩ := digit_facts (digits b (by simp))
    have all : (b :: s).takeWhile isDigit = b :: s := List.takeWhile_eq_self_iff.mpr digits
    unfold strtol
    rw [List.dropWhile_cons_of_neg (by simp [space])]
    split
    · rename_i eq; cases eq; exact absurd rfl minus
    · rename_i eq; cases eq; exact absurd rfl plus
    · rw [all]

/-- `atoi` of the text of any integer: saturated, then truncated. -/
theorem atoi_decimalInt (n : Int) : atoi (decimalInt n) = int32 (clampLong n) := by
  unfold atoi decimalInt
  by_cases negative : n < 0
  · have clean : (0 : UInt8) ∉ 45 :: decimal n.natAbs := by simp [decimal_clean]
    have all : (decimal n.natAbs).takeWhile isDigit = decimal n.natAbs :=
      List.takeWhile_eq_self_iff.mpr fun b mem => decimal_digits mem
    have value : -((n.natAbs : Nat) : Int) = n := by omega
    rw [if_pos negative, cStr_eq_self clean]
    unfold strtol
    rw [List.dropWhile_cons_of_neg (by decide)]
    simp only
    rw [all, digitsValue_decimal, value]
  · have value : ((n.natAbs : Nat) : Int) = n := by omega
    rw [if_neg negative, cStr_eq_self decimal_clean, strtol_digits fun b mem => decimal_digits mem,
      digitsValue_decimal, value]

/-- `atoi` reads back what `std::to_string` wrote, below `2 ^ 31`. -/
theorem atoi_decimal {n : Nat} (bound : n < 2 ^ 31) : atoi (decimal n) = n := by
  have clamp : clampLong (n : Int) = n := by unfold clampLong; omega
  rw [← decimalInt_natCast, atoi_decimalInt, clamp, int32_of_bounds (by omega) (by omega)]

end HttpServer.Lib
