import Mathlib.Logic.ExistsUnique

/-!
# A token and its holder

A token is either free or held by exactly one of any number of parties. `Conserved` is
kept by the three things that a step may do: take the token, give it back, or leave
the holders alone.
-/

namespace Libusby.Foundations

universe u

namespace Token

variable {κ : Type u} {free : Bool} {holds holds' : κ → Prop} {k x y : κ}

def Conserved (free : Bool) (holds : κ → Prop) : Prop :=
  free = true ∧ (∀ x, ¬holds x) ∨ free = false ∧ ∃! x, holds x

theorem Conserved.unique (h : Conserved free holds) (hx : holds x) (hy : holds y) : x = y := by
  rcases h with ⟨-, none⟩ | ⟨-, one⟩
  · exact absurd hx (none x)
  · exact one.unique hx hy

theorem Conserved.congr (h : Conserved free holds) (same : ∀ x, holds' x ↔ holds x) :
    Conserved free holds' := by
  have : holds' = holds := funext fun x => propext (same x)
  rwa [this]

theorem Conserved.take (h : Conserved true holds) (hk : ∀ x, holds' x ↔ x = k ∨ holds x) :
    Conserved false holds' := by
  rcases h with ⟨-, none⟩ | ⟨contra, -⟩
  · refine .inr ⟨rfl, k, (hk k).2 (.inl rfl), fun x hx => ?_⟩
    rcases (hk x).1 hx with rfl | hx
    · rfl
    · exact absurd hx (none x)
  · cases contra

theorem Conserved.give (h : Conserved free holds) (held : holds k)
    (hk : ∀ x, holds' x ↔ x ≠ k ∧ holds x) : Conserved true holds' := by
  refine .inl ⟨rfl, fun x hx => ?_⟩
  obtain ⟨ne, hx⟩ := (hk x).1 hx
  exact ne (h.unique hx held)

end Token

end Libusby.Foundations
