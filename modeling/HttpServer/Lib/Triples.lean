import HttpServer.Lib.Programs

/-!
# What programs ensure

A `World` says which answers a call may get, and what is the case after it. A program
`Ensures` a postcondition from a state of the world if it holds wherever the program returns,
whatever answers it got of those the world allows. Programs are trees and so end; where every
call has an allowed answer, `Ensures.reaches` finds a run that returns.
-/

namespace HttpServer.Lib

/-- The answers calls may get, and what they do to the world. -/
structure World (C : Type) (R : C → Type) (S : Type) where
  allows : S → (c : C) → R c → Prop
  after : S → (c : C) → R c → S

namespace Program
variable {C : Type} {R : C → Type} {S α β : Type}

/-- Whatever the answers, the program returns with `post`. -/
def Ensures (W : World C R S) (post : α → S → Prop) : Program C R α → S → Prop
  | ret a, s => post a s
  | call c next, s => ∀ r, W.allows s c r → (next r).Ensures W post (W.after s c r)

variable {W : World C R S} {post : α → S → Prop} {s : S}

theorem ensures_pure {a : α} (done : post a s) : (pure a : Program C R α).Ensures W post s := done

theorem ensures_true (p : Program C R α) : p.Ensures W (fun _ _ => True) s := by
  induction p generalizing s with
  | ret a => trivial
  | call c next ih => exact fun r _ => ih r

/-- Two programs, one after the other. -/
theorem Ensures.bind {between : β → S → Prop} {p : Program C R β} {f : β → Program C R α}
    (first : p.Ensures W between s) (second : ∀ b s', between b s' → (f b).Ensures W post s') :
    (p >>= f).Ensures W post s := by
  induction p generalizing s with
  | ret b => exact second b s first
  | call c next ih => exact fun r allowed => ih r (first r allowed)

/-- Nothing need be known of the first. -/
theorem Ensures.after (p : Program C R β) {f : β → Program C R α} (second : ∀ b s, (f b).Ensures W post s) :
    (p >>= f).Ensures W post s :=
  (ensures_true p).bind fun b s' _ => second b s'

theorem Ensures.mono {post' : α → S → Prop} {p : Program C R α} (ensures : p.Ensures W post s)
    (imp : ∀ a s, post a s → post' a s) : p.Ensures W post' s := by
  induction p generalizing s with
  | ret a => exact imp a s ensures
  | call c next ih => exact fun r allowed => ih r (ensures r allowed)

/-- What a program ends with is what the next one has. -/
theorem Ensures.resume {p : Program C R α} {f : α → Program C R α} (ensures : p.Ensures W post s)
    (next : ∀ a s, post a s → (f a).Ensures W post s) : (p.resume f).Ensures W post s := by
  cases p with
  | ret a => exact next a s ensures
  | call c rest => exact ensures

/-- Where every call can be answered, the program comes to return, and what each call keeps is kept. -/
theorem Ensures.reaches {rel : S → S → Prop} (refl : ∀ s, rel s s)
    (trans : ∀ {s s' s''}, rel s s' → rel s' s'' → rel s s'') (keeps : ∀ s c r, rel s (W.after s c r))
    (answerable : ∀ s c, ∃ r, W.allows s c r) {p : Program C R α} (ensures : p.Ensures W post s) :
    ∃ a s', post a s' ∧ rel s s' := by
  induction p generalizing s with
  | ret a => exact ⟨a, s, ensures, refl s⟩
  | call c next ih =>
    obtain ⟨r, allowed⟩ := answerable s c
    obtain ⟨a, s', done, later⟩ := ih r (ensures r allowed)
    exact ⟨a, s', done, trans (keeps s c r) later⟩

end Program

end HttpServer.Lib
