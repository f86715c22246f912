import Mathlib.Logic.Function.Basic

/-!
# Maps in which the first value wins

`insertNew` binds a key that is free and leaves a bound one alone, as `insert` of a C++ map
does. So a map only grows (`Extends`), and after an insertion its key is bound for good:
to the new value, or to the one that was there first.
-/

namespace HttpServer.Lib

section FirstWins
variable {K V : Type*}

/-- What is bound in the first map is bound to the same value in the second. -/
def Extends (m m' : K → Option V) : Prop := ∀ k v, m k = some v → m' k = some v

theorem Extends.refl (m : K → Option V) : Extends m m := fun _ _ bound => bound

theorem Extends.trans {m m' m'' : K → Option V} (first : Extends m m') (second : Extends m' m'') : Extends m m'' :=
  fun k v bound => second k v (first k v bound)

theorem Extends.isSome {m m' : K → Option V} (grown : Extends m m') {k : K} (bound : (m k).isSome) : (m' k).isSome := by
  obtain ⟨v, eq⟩ := Option.isSome_iff_exists.mp bound
  rw [grown k v eq]
  rfl

variable [DecidableEq K] {m : K → Option V} {k : K} {v : V}

/-- `m.insert(make_pair(k, v))`. -/
def insertNew (m : K → Option V) (k : K) (v : V) : K → Option V :=
  if (m k).isSome then m else Function.update m k (some v)

theorem insertNew_free (free : m k = none) : insertNew m k v = Function.update m k (some v) :=
  if_neg (by simp [free])

theorem extends_insertNew (m : K → Option V) (k : K) (v : V) : Extends m (insertNew m k v) := by
  intro k' v' bound
  unfold insertNew
  split
  · exact bound
  · rename_i free
    have other : k' ≠ k := fun same => free (by simp [← same, bound])
    rwa [Function.update_of_ne other]

theorem isSome_insertNew (m : K → Option V) (k : K) (v : V) : (insertNew m k v k).isSome := by
  unfold insertNew
  split
  · assumption
  · simp

end FirstWins

end HttpServer.Lib
