import Mathlib.Data.List.Induction

/-!
# Machines driven by schedules

A `Machine` is a partial step function: the state changes only through events,
and an event carries every choice that the scheduler or the environment makes.
An event that is not enabled has no successor, so a schedule (a list of events)
runs up to its first event that is not enabled.

`Always` and `Steps` say that a property holds in every state, respectively at
every step, of the run of a schedule. The rules at the end reduce both to one
step: an invariant may use a condition that the steps of the run meet, and a
property that holds throughout may force such a condition back. `Before` is for
conditions that keep a schedule enabled: its rules relate the events that are left
to the state. `occurrences` counts the steps of one kind in a run, and `log` collects what the
steps write.
-/

namespace Libusby.Foundations

universe u v w

structure Machine (σ : Type u) (ε : Type v) where
  init : σ
  step : σ → ε → Option σ

namespace Machine

variable {σ : Type u} {ε : Type v} (M : Machine σ ε)

/-- The state at the end of a schedule whose events are all enabled. -/
def exec (s : σ) : List ε → Option σ
  | [] => some s
  | e :: es => (M.step s e).bind fun t => exec t es

/-- `P` holds in every state that the run of the schedule visits. -/
def Always (P : σ → Prop) (s : σ) : List ε → Prop
  | [] => P s
  | e :: es => P s ∧ ∀ t, M.step s e = some t → Always P t es

/-- `Q` relates the state before, the event and the state after at every step
of the run of the schedule. -/
def Steps (Q : σ → ε → σ → Prop) (s : σ) : List ε → Prop
  | [] => True
  | e :: es => ∀ t, M.step s e = some t → Q s e t ∧ Steps Q t es

/-- `D` holds of the state and the event before every step of the run of the schedule, also of
the one that is not enabled. -/
def Before (D : σ → ε → Prop) (s : σ) : List ε → Prop
  | [] => True
  | e :: es => D s e ∧ ∀ t, M.step s e = some t → Before D t es

def Reachable (s : σ) : Prop := ∃ es, M.exec M.init es = some s

/-- How many steps of the run of the schedule are of the kind `p`. -/
def occurrences (p : σ → ε → Bool) (s : σ) : List ε → Nat
  | [] => 0
  | e :: es => ((M.step s e).map fun t => (p s e).toNat + occurrences p t es).getD 0

variable {M} {P I : σ → Prop} {C Q : σ → ε → σ → Prop} {s t : σ} {e : ε} {es fs : List ε}

@[simp] theorem exec_nil : M.exec s [] = some s := rfl

theorem exec_cons : M.exec s (e :: es) = some t ↔ ∃ u, M.step s e = some u ∧ M.exec u es = some t := by
  simp [exec, Option.bind_eq_some_iff]

theorem exec_append : M.exec s (es ++ fs) = some t ↔
    ∃ u, M.exec s es = some u ∧ M.exec u fs = some t := by
  induction es generalizing s with
  | nil => simp
  | cons e es ih =>
    simp only [List.cons_append, exec_cons, ih]
    constructor
    · rintro ⟨u, hu, v, hv, ht⟩
      exact ⟨v, ⟨u, hu, hv⟩, ht⟩
    · rintro ⟨v, ⟨u, hu, hv⟩, ht⟩
      exact ⟨u, hu, v, hv, ht⟩

theorem exec_snoc : M.exec s (es ++ [e]) = some t ↔
    ∃ u, M.exec s es = some u ∧ M.step u e = some t := by
  simp [exec_append, exec_cons]

@[simp] theorem occurrences_nil {p : σ → ε → Bool} : M.occurrences p s [] = 0 := rfl

theorem occurrences_snoc {p : σ → ε → Bool} {u : σ} (h : M.exec s es = some u)
    (ht : M.step u e = some t) :
    M.occurrences p s (es ++ [e]) = M.occurrences p s es + (p u e).toNat := by
  induction es generalizing s with
  | nil =>
    cases h
    simp [occurrences, ht]
  | cons f es ih =>
    obtain ⟨v, hv, h⟩ := exec_cons.1 h
    simp [occurrences, hv, ih h, Nat.add_assoc]

/-- Induction over the run that leads to a state, the last event last. -/
theorem exec_induction {motive : List ε → σ → Prop} (nil : motive [] s)
    (snoc : ∀ es u e t, M.exec s es = some u → motive es u → M.step u e = some t →
      motive (es ++ [e]) t) (h : M.exec s es = some t) : motive es t := by
  induction es using List.reverseRecOn generalizing t with
  | nil => cases h; exact nil
  | append_singleton es e ih =>
    obtain ⟨u, hu, ht⟩ := exec_snoc.1 h
    exact snoc es u e t hu (ih hu) ht

theorem Reachable.invariant (init : I M.init)
    (step : ∀ s e t, I s → M.step s e = some t → I t) (h : M.Reachable s) : I s := by
  obtain ⟨es, h⟩ := h
  exact exec_induction (motive := fun _ t => I t) init (fun _ u e t _ hu => step u e t hu) h

theorem Always.here (h : M.Always P s es) : P s := by
  cases es with
  | nil => exact h
  | cons => exact h.1

theorem Always.exec (h : M.Always P s es) (hx : M.exec s es = some t) : P t := by
  induction es generalizing s with
  | nil => cases hx; exact h
  | cons e es ih =>
    obtain ⟨u, hu, hx⟩ := exec_cons.1 hx
    exact ih (h.2 u hu) hx

theorem Always.snoc {u : σ} (h : M.Always P s es) (hx : M.exec s es = some t)
    (hu : M.step t e = some u) (hp : P u) : M.Always P s (es ++ [e]) := by
  induction es generalizing s with
  | nil =>
    cases hx
    refine ⟨h, fun v hv => ?_⟩
    cases hu.symm.trans hv
    exact hp
  | cons f es ih =>
    obtain ⟨v, hv, hx⟩ := exec_cons.1 hx
    refine ⟨h.1, fun v' hv' => ?_⟩
    cases hv.symm.trans hv'
    exact ih (h.2 v hv) hx

theorem Always.mono (hP : ∀ s, P s → I s) (h : M.Always P s es) : M.Always I s es := by
  induction es generalizing s with
  | nil => exact hP s h
  | cons e es ih => exact ⟨hP s h.1, fun t ht => ih (h.2 t ht)⟩

theorem Steps.cons (ht : M.step s e = some t) (hq : Q s e t) (h : M.Steps Q t es) :
    M.Steps Q s (e :: es) := by
  intro u hu
  cases ht.symm.trans hu
  exact ⟨hq, h⟩

theorem Steps.of_step (h : ∀ s e t, M.step s e = some t → Q s e t) : M.Steps Q s es := by
  induction es generalizing s with
  | nil => trivial
  | cons e es ih => exact fun t ht => ⟨h s e t ht, ih⟩

theorem Steps.mono (h : ∀ s e t, M.step s e = some t → C s e t → Q s e t)
    (hC : M.Steps C s es) : M.Steps Q s es := by
  induction es generalizing s with
  | nil => trivial
  | cons e es ih => exact fun t ht => ⟨h s e t ht (hC t ht).1, ih (hC t ht).2⟩

theorem Steps.congr (h : ∀ s e t, M.step s e = some t → (C s e t ↔ Q s e t)) :
    M.Steps C s es ↔ M.Steps Q s es :=
  ⟨.mono fun s e t ht => (h s e t ht).1, .mono fun s e t ht => (h s e t ht).2⟩

theorem Steps.of_forall {P : ε → Prop} (h : ∀ e ∈ es, P e) : M.Steps (fun _ e _ => P e) s es := by
  induction es generalizing s with
  | nil => trivial
  | cons e es ih =>
    exact fun t _ => ⟨h e (List.mem_cons_self ..), ih fun f hf => h f (List.mem_cons_of_mem _ hf)⟩

theorem Steps.and (hC : M.Steps C s es) (hQ : M.Steps Q s es) :
    M.Steps (fun s e t => C s e t ∧ Q s e t) s es := by
  induction es generalizing s with
  | nil => trivial
  | cons e es ih =>
    exact fun t ht => ⟨⟨(hC t ht).1, (hQ t ht).1⟩, ih (hC t ht).2 (hQ t ht).2⟩

theorem Steps.of_snoc (h : M.Steps Q s (es ++ [e])) (hx : M.exec s es = some t) :
    M.Steps Q s es ∧ ∀ u, M.step t e = some u → Q t e u := by
  induction es generalizing s with
  | nil => cases hx; exact ⟨trivial, fun u hu => (h u hu).1⟩
  | cons f es ih =>
    obtain ⟨u, hu, hx⟩ := exec_cons.1 hx
    obtain ⟨hs, hq⟩ := ih (h u hu).2 hx
    refine ⟨fun v hv => ?_, hq⟩
    cases hu.symm.trans hv
    exact ⟨(h _ hu).1, hs⟩

/-- An invariant whose steps rely on `C` holds along every run that meets `C`,
and whatever a step from it establishes holds at every step. -/
theorem Steps.invariant (step : ∀ s e t, I s → C s e t → M.step s e = some t → I t ∧ Q s e t)
    (hC : M.Steps C s es) (hs : I s) : M.Always I s es ∧ M.Steps Q s es := by
  induction es generalizing s with
  | nil => exact ⟨hs, trivial⟩
  | cons e es ih =>
    refine ⟨⟨hs, fun t ht => ?_⟩, fun t ht => ?_⟩
    · exact (ih (hC t ht).2 (step s e t hs (hC t ht).1 ht).1).1
    · have next := step s e t hs (hC t ht).1 ht
      exact ⟨next.2, (ih (hC t ht).2 next.1).2⟩

/-- If `P` holds before and after every step then each step meets what `P`
before and after it forces. -/
theorem Always.steps (inv : ∀ s e t, I s → M.step s e = some t → I t)
    (force : ∀ s e t, I s → P s → M.step s e = some t → P t → Q s e t)
    (hP : M.Always P s es) (hs : I s) : M.Steps Q s es := by
  induction es generalizing s with
  | nil => trivial
  | cons e es ih =>
    intro t ht
    exact ⟨force s e t hs hP.1 ht (hP.2 t ht).here, ih (hP.2 t ht) (inv s e t hs ht)⟩

variable {D : σ → ε → Prop} {J : σ → List ε → Prop}

/-- If `D` enables each event and keeps `J` then a schedule that meets `D` runs to its end. -/
theorem Before.exec (step : ∀ s e es, J s (e :: es) → D s e →
    ∃ t, M.step s e = some t ∧ J t es ∧ Q s e t) (hD : M.Before D s es) (hs : J s es) :
    ∃ t, M.exec s es = some t ∧ J t [] ∧ M.Steps Q s es := by
  induction es generalizing s with
  | nil => exact ⟨s, rfl, hs, trivial⟩
  | cons e es ih =>
    obtain ⟨u, hu, hj, hq⟩ := step s e es hs hD.1
    obtain ⟨t, ht, last, steps⟩ := ih (hD.2 u hu) hj
    exact ⟨t, exec_cons.2 ⟨u, hu, ht⟩, last, .cons hu hq steps⟩

/-- A property of the run that is left forces `D` if it forces `D` of the next event and `D`
hands it on. -/
theorem Before.of_forces (force : ∀ s e es, J s (e :: es) → D s e)
    (next : ∀ s e es t, J s (e :: es) → D s e → M.step s e = some t → J t es) (hs : J s es) :
    M.Before D s es := by
  induction es generalizing s with
  | nil => trivial
  | cons e es ih =>
    have now := force s e es hs
    exact ⟨now, fun t ht => ih (next s e es t hs now ht)⟩

/-- If `N` answers each step that meets `C` by a run that restores `R`, it answers a whole run. -/
theorem Steps.simulates {τ φ : Type*} {N : Machine τ φ} {R : σ → τ → Prop}
    (answer : ∀ s e t u, R s u → C s e t → M.step s e = some t →
      ∃ fs v, N.exec u fs = some v ∧ R t v)
    (hC : M.Steps C s es) (hx : M.exec s es = some t) {u : τ} (hr : R s u) :
    ∃ fs v, N.exec u fs = some v ∧ R t v := by
  induction es generalizing s u with
  | nil =>
    cases hx
    exact ⟨[], u, rfl, hr⟩
  | cons e es ih =>
    obtain ⟨s', hs', hx⟩ := exec_cons.1 hx
    obtain ⟨fs, v, hv, hr⟩ := answer s e s' u hr (hC s' hs').1 hs'
    obtain ⟨gs, w, hw, hr⟩ := ih (hC s' hs').2 hx hr
    exact ⟨fs ++ gs, w, exec_append.2 ⟨v, hv, hw⟩, hr⟩

/-! ## What a run writes -/

section
variable {α : Type w} {f : σ → ε → List α} {u : σ}

/-- What the steps of a run write, one step after the other. An event that is not enabled ends the
run and writes nothing. -/
def log (M : Machine σ ε) (f : σ → ε → List α) (s : σ) : List ε → List α
  | [] => []
  | e :: es => ((M.step s e).map fun t => f s e ++ log M f t es).getD []

@[simp] theorem log_nil : M.log f s [] = [] := rfl

theorem log_of_nil (h : ∀ s e, f s e = []) : M.log f s es = [] := by
  induction es generalizing s with
  | nil => rfl
  | cons e es ih => cases hs : M.step s e <;> simp [log, hs, h, ih]

theorem log_snoc (h : M.exec s es = some t) (hu : M.step t e = some u) :
    M.log f s (es ++ [e]) = M.log f s es ++ f t e := by
  induction es generalizing s with
  | nil =>
    cases h
    simp [log, hu]
  | cons g es ih =>
    obtain ⟨v, hv, h⟩ := exec_cons.1 h
    simp [log, hv, ih h]

end

end Machine

end Libusby.Foundations
