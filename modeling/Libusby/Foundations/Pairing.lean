import Libusby.Foundations.Machine

/-!
# Steps that come in pairs

Steps of one kind start something and steps of another kind end it, one after the other.
`Moves` is what one step may do to such a pair, and `Pending` what the numbers of both
kinds say about a run.
-/

namespace Libusby.Foundations

universe u v

/-- One step: it starts what was not under way, or ends what was, or does neither. -/
inductive Moves (starts ends : Bool) (before after : Prop) : Prop
  | start (starts : starts = true) (ends : ends = false) (idle : ¬before) (busy : after)
  | finish (starts : starts = false) (ends : ends = true) (busy : before) (idle : ¬after)
  | rest (starts : starts = false) (ends : ends = false) (same : after ↔ before)

/-- What was started is ended, but for one if something is under way. -/
def Pending (busy : Prop) (started ended : Nat) : Prop :=
  busy ∧ started = ended + 1 ∨ ¬busy ∧ started = ended

variable {busy busy' : Prop} {starts ends : Bool} {m n : Nat}

theorem Pending.idle (h : Pending busy m n) (idle : ¬busy) : m = n := by
  rcases h with ⟨b, -⟩ | ⟨-, h⟩
  · exact absurd b idle
  · exact h

theorem Pending.step (h : Pending busy m n) (moves : Moves starts ends busy busy') :
    Pending busy' (m + starts.toNat) (n + ends.toNat) := by
  cases moves with
  | start hs he idle b =>
    subst hs he
    exact .inl ⟨b, congrArg (· + 1) (h.idle idle)⟩
  | finish hs he b idle =>
    subst hs he
    rcases h with ⟨-, h⟩ | ⟨idle', -⟩
    · exact .inr ⟨idle, h⟩
    · exact absurd b idle'
  | rest hs he same =>
    subst hs he
    unfold Pending
    rw [same]
    exact h

theorem Moves.of_idle (h : Moves starts ends busy busy') (idle : ¬busy) :
    ends = false ∧ (busy' ↔ starts = true) := by
  cases h with
  | start hs he _ b => exact ⟨he, iff_of_true b hs⟩
  | finish _ _ b => exact absurd b idle
  | rest hs he same => exact ⟨he, by simp [same, idle, hs]⟩

theorem Moves.of_busy (h : Moves starts ends busy busy') (b : busy) :
    starts = false ∧ (busy' ↔ ends = false) := by
  cases h with
  | start _ _ idle => exact absurd b idle
  | finish hs he _ idle => exact ⟨hs, by simp [idle, he]⟩
  | rest hs he same => exact ⟨hs, iff_of_true (same.2 b) he⟩

namespace Machine

variable {σ : Type u} {ε : Type v} {M : Machine σ ε} {I P : σ → Prop} {p q : σ → ε → Bool}
  {s t : σ} {es : List ε}

/-- The rule for a whole run: `I` is an invariant that the steps rely on. -/
theorem pending (h : M.exec s es = some t) (hs : I s) (idle : ¬P s)
    (inv : ∀ s e t, I s → M.step s e = some t → I t)
    (moves : ∀ s e t, I s → M.step s e = some t → Moves (p s e) (q s e) (P s) (P t)) :
    Pending (P t) (M.occurrences p s es) (M.occurrences q s es) := by
  refine (exec_induction
    (motive := fun es t => I t ∧ Pending (P t) (M.occurrences p s es) (M.occurrences q s es))
    ⟨hs, .inr ⟨idle, rfl⟩⟩ ?_ h).2
  rintro es u e t hu ⟨hI, ih⟩ ht
  refine ⟨inv u e t hI ht, ?_⟩
  rw [occurrences_snoc hu ht, occurrences_snoc hu ht]
  exact ih.step (moves u e t hI ht)

/-- An invariant of the state and of the number of steps of the kind `p`. -/
theorem counted {J : σ → Nat → Prop} {n : Nat} (h : M.exec s es = some t) (hs : J s n)
    (step : ∀ s e t n, e ∈ es → J s n → M.step s e = some t → J t (n + (p s e).toNat)) :
    J t (n + M.occurrences p s es) := by
  refine exec_induction
    (motive := fun fs t => fs ⊆ es → J t (n + M.occurrences p s fs)) (fun _ => hs) ?_ h
    (List.Subset.refl es)
  intro fs u e t hu ih ht sub
  obtain ⟨before, last⟩ := List.append_subset.1 sub
  rw [occurrences_snoc hu ht, ← Nat.add_assoc]
  exact step u e t _ (last (List.mem_singleton_self e)) (ih before) ht

/-- Steps of two kinds that exclude each other are counted apart. -/
theorem occurrences_or (h : M.exec s es = some t) (apart : ∀ s e, p s e = true → q s e = false) :
    M.occurrences (fun s e => p s e || q s e) s es =
      M.occurrences p s es + M.occurrences q s es := by
  refine exec_induction (motive := fun es _ => M.occurrences (fun s e => p s e || q s e) s es =
    M.occurrences p s es + M.occurrences q s es) rfl ?_ h
  intro es u e t hu ih ht
  rw [occurrences_snoc hu ht, occurrences_snoc hu ht, occurrences_snoc hu ht, ih]
  cases hp : p u e with
  | false => simp [Nat.add_assoc]
  | true =>
    simp only [apart u e hp, Bool.or_false, Bool.toNat_true, Bool.toNat_false]
    omega

end Machine

end Libusby.Foundations
