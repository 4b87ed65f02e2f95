import Mathlib.Logic.Function.Basic
import Libusby.Foundations.Machine

/-!
# Objects recognised by name

An environment attaches objects to names and detaches them, while a program keeps records of
the objects that it has met, each under its name. The program renews a record only from what is
attached, and knows an object again by its name alone. So a record differs from what is attached
under its name exactly if this was attached while the program remembered another object there,
and neither the object nor the record has gone since (`Supplanted`).
-/

namespace Libusby.Foundations.Namesakes

section
variable {κ δ ι : Type*}

/-- Every record was there before or shows what is attached under its name. -/
def Renewed (shown : κ → Option δ) (before after : ι → Option (κ × δ)) : Prop :=
  ∀ i k x, after i = some (k, x) → before i = some (k, x) ∨ shown k = some x

variable {shown : κ → Option δ} {before after other : ι → Option (κ × δ)}

theorem Renewed.of_kept (h : ∀ i v, after i = some v → before i = some v) :
    Renewed shown before after := fun i k x hi => .inl (h i (k, x) hi)

theorem Renewed.trans (h : Renewed shown before after) (h' : Renewed shown after other) :
    Renewed shown before other := by
  intro i k x hi
  rcases h' i k x hi with old | new
  · exact h i k x old
  · exact .inr new

/-- Records made from what is in memory: a change at one name, to a value with the same record or
to none, adds no record. -/
theorem record_update {α β : Type*} [DecidableEq ι] {heap : ι → Option α} {record : α → β} {d : ι}
    {v : Option α} (same : ∀ a ∈ v, (heap d).map record = some (record a)) {i : ι} {r : β}
    (h : (Function.update heap d v i).map record = some r) : (heap i).map record = some r := by
  by_cases hi : i = d
  · subst hi
    rw [Function.update_self] at h
    obtain ⟨a, ha, rfl⟩ := Option.map_eq_some_iff.1 h
    exact same a ha
  · rwa [Function.update_of_ne hi] at h

end

/-! ## The program in its environment -/

structure World (κ φ σ : Type*) where
  attached : κ → Option φ := fun _ => none
  program : σ

inductive Event (κ φ ε : Type*) where
  /-- An object is attached under a name that is free. -/
  | attach (k : κ) (content : φ)
  | detach (k : κ)
  /-- An event of the program. -/
  | act (e : ε)

section
variable {κ φ δ ι σ ε : Type*} [DecidableEq κ]

/-- `admits a e` says whether the program can meet `e` while `a` is attached. -/
def world (M : Machine σ ε) (admits : (κ → Option φ) → ε → Prop) [∀ a, DecidablePred (admits a)] :
    Machine (World κ φ σ) (Event κ φ ε) where
  init := { program := M.init }
  step w
    | .attach k content =>
      if (w.attached k).isNone then
        some { w with attached := Function.update w.attached k (some content) }
      else none
    | .detach k => some { w with attached := Function.update w.attached k none }
    | .act e =>
      if admits w.attached e then (M.step w.program e).map fun program => { w with program }
      else none

/-- What can be read from the objects that are attached. -/
def shown (readable : φ → Option δ) (attached : κ → Option φ) (k : κ) : Option δ :=
  (attached k).bind readable

theorem shown_update {readable : φ → Option δ} {attached : κ → Option φ} {k : κ}
    {content : Option φ} :
    shown readable (Function.update attached k content) =
      Function.update (shown readable attached) k (content.bind readable) := by
  funext x
  by_cases hx : x = k
  · rw [hx, shown, Function.update_self, Function.update_self]
  · rw [shown, Function.update_of_ne hx, Function.update_of_ne hx, shown]

section
variable (M : Machine σ ε) (admits : (κ → Option φ) → ε → Prop) [∀ a, DecidablePred (admits a)]
  (readable : φ → Option δ) (records : σ → ι → Option (κ × δ))

/-- An object has been attached under the name `k` while the record `i` showed a different one,
`x`, and neither the object nor the record has gone since. -/
def SupplantedAt (k : κ) (i : ι) (x : δ) (es : List (Event κ φ ε)) : Prop :=
  ∃ before content after u v y, es = before ++ .attach k content :: after ∧
    (world M admits).exec (world M admits).init before = some u ∧
    (world M admits).step u (.attach k content) = some v ∧
    records u.program i = some (k, x) ∧ readable content = some y ∧ x ≠ y ∧
    (∀ e ∈ after, e ≠ .detach k) ∧
    (world M admits).Always (fun w => records w.program i = some (k, x)) v after

def Supplanted (k : κ) (es : List (Event κ φ ε)) : Prop :=
  ∃ i x, SupplantedAt M admits readable records k i x es

/-- While `I` holds, the program makes its records from what is attached. -/
structure Remembers (I : σ → Prop) : Prop where
  init : I M.init
  empty : ∀ i, records M.init i = none
  renews : ∀ a s e t, I s → admits a e → M.step s e = some t →
    I t ∧ Renewed (shown readable a) (records s) (records t)

end

variable {M : Machine σ ε} {admits : (κ → Option φ) → ε → Prop} [∀ a, DecidablePred (admits a)]
  {readable : φ → Option δ} {records : σ → ι → Option (κ × δ)} {I : σ → Prop}
  {w w' : World κ φ σ} {e : Event κ φ ε} {es : List (Event κ φ ε)} {k : κ} {i : ι} {x y z : δ}
  {content : φ} {after : ι → Option (κ × δ)}

theorem attached_step (hs : (world M admits).step w e = some w') (stays : e ≠ .detach k)
    (h : w.attached k = some content) : w'.attached k = some content := by
  cases e with
  | attach k' content' =>
    simp only [world, Option.ite_none_right_eq_some, Option.some.injEq] at hs
    obtain ⟨free, rfl⟩ := hs
    have other : k ≠ k' := by
      rintro rfl
      rw [h] at free
      cases free
    exact (Function.update_of_ne other ..).trans h
  | detach k' =>
    cases hs
    have other : k ≠ k' := by
      rintro rfl
      exact stays rfl
    exact (Function.update_of_ne other ..).trans h
  | act e =>
    simp only [world, Option.ite_none_right_eq_some, Option.map_eq_some_iff] at hs
    obtain ⟨-, t, -, rfl⟩ := hs
    exact h

/-- An object that is not detached stays. -/
theorem attached_exec (hx : (world M admits).exec w es = some w') (stays : ∀ e ∈ es, e ≠ .detach k)
    (h : w.attached k = some content) : w'.attached k = some content := by
  induction es generalizing w with
  | nil =>
    cases hx
    exact h
  | cons e es ih =>
    obtain ⟨u, hu, hx⟩ := Machine.exec_cons.1 hx
    obtain ⟨first, others⟩ := List.forall_mem_cons.1 stays
    exact ih hx others (attached_step hu first h)

namespace Remembers

theorem step (h : Remembers M admits readable records I) (inv : I w.program)
    (hs : (world M admits).step w e = some w') : I w'.program := by
  cases e with
  | attach k content =>
    simp only [world, Option.ite_none_right_eq_some, Option.some.injEq] at hs
    obtain ⟨-, rfl⟩ := hs
    exact inv
  | detach k =>
    cases hs
    exact inv
  | act e =>
    simp only [world, Option.ite_none_right_eq_some, Option.map_eq_some_iff] at hs
    obtain ⟨admitted, t, ht, rfl⟩ := hs
    exact (h.renews _ _ _ _ inv admitted ht).1

theorem exec (h : Remembers M admits readable records I)
    (hx : (world M admits).exec (world M admits).init es = some w) : I w.program :=
  Machine.exec_induction (motive := fun _ w => I w.program) h.init
    (fun _ _ _ _ _ inv hs => h.step inv hs) hx

/-- A record that differs from what is attached under its name did so before, or the object has
just been attached. -/
theorem differs_step (h : Remembers M admits readable records I) (inv : I w.program)
    (hs : (world M admits).step w e = some w') (hi : records w'.program i = some (k, x))
    (hy : shown readable w'.attached k = some y) (differs : x ≠ y) :
    records w.program i = some (k, x) ∧
      (e ≠ .detach k ∧ shown readable w.attached k = some y ∨
        ∃ content, e = .attach k content ∧ readable content = some y) := by
  cases e with
  | attach k' content =>
    simp only [world, Option.ite_none_right_eq_some, Option.some.injEq] at hs
    obtain ⟨-, rfl⟩ := hs
    refine ⟨hi, ?_⟩
    rw [shown_update] at hy
    by_cases same : k = k'
    · subst same
      rw [Function.update_self] at hy
      exact .inr ⟨content, rfl, hy⟩
    · rw [Function.update_of_ne same] at hy
      exact .inl ⟨by simp, hy⟩
  | detach k' =>
    cases hs
    refine ⟨hi, .inl ?_⟩
    rw [shown_update] at hy
    by_cases same : k = k'
    · subst same
      rw [Function.update_self] at hy
      cases hy
    · rw [Function.update_of_ne same] at hy
      exact ⟨fun h => same (Event.detach.inj h).symm, hy⟩
  | act e =>
    simp only [world, Option.ite_none_right_eq_some, Option.map_eq_some_iff] at hs
    obtain ⟨admitted, t, ht, rfl⟩ := hs
    rcases (h.renews _ _ _ _ inv admitted ht).2 i k x hi with old | new
    · exact ⟨old, .inl ⟨by simp, hy⟩⟩
    · exact absurd (Option.some.inj (new.symm.trans hy)) differs

/-- A record differs from what is attached under its name exactly if it has been supplanted. -/
theorem supplantedAt_iff (h : Remembers M admits readable records I)
    (hx : (world M admits).exec (world M admits).init es = some w) :
    SupplantedAt M admits readable records k i x es ↔
      records w.program i = some (k, x) ∧ ∃ y, shown readable w.attached k = some y ∧ x ≠ y := by
  constructor
  · rintro ⟨before, content, after, u, v, y, rfl, hbefore, hattach, -, hy, differs, stays, kept⟩
    obtain ⟨u', hu', hafter⟩ := Machine.exec_append.1 hx
    cases hbefore.symm.trans hu'
    obtain ⟨v', hv', hafter⟩ := Machine.exec_cons.1 hafter
    cases hattach.symm.trans hv'
    have now : v.attached k = some content := by
      simp only [world, Option.ite_none_right_eq_some, Option.some.injEq] at hattach
      rw [← hattach.2]
      exact Function.update_self ..
    refine ⟨kept.exec hafter, y, ?_, differs⟩
    rw [shown, attached_exec hafter stays now]
    exact hy
  · rintro ⟨hi, y, hy, differs⟩
    refine Machine.exec_induction (M := world M admits) (s := (world M admits).init)
      (motive := fun es w => ∀ y, records w.program i = some (k, x) →
        shown readable w.attached k = some y → x ≠ y →
        SupplantedAt M admits readable records k i x es)
      (fun y hi _ _ => ?_) ?_ hx y hi hy differs
    · cases (h.empty i).symm.trans hi
    · intro es u e t hes ih ht y hi hy differs
      obtain ⟨old, ⟨stays, hy⟩ | ⟨content, rfl, hy⟩⟩ := h.differs_step (h.exec hes) ht hi hy differs
      · obtain ⟨before, content, after, u', v, z, rfl, hbefore, hattach, hrecord, hz, other, rest,
          kept⟩ := ih y old hy differs
        obtain ⟨u'', hu'', hafter⟩ := Machine.exec_append.1 hes
        cases hbefore.symm.trans hu''
        obtain ⟨v', hv', hafter⟩ := Machine.exec_cons.1 hafter
        cases hattach.symm.trans hv'
        refine ⟨before, content, after ++ [e], u', v, z, by simp, hbefore, hattach, hrecord, hz,
          other, ?_, kept.snoc hafter ht hi⟩
        intro e' he'
        rcases List.mem_append.1 he' with old | last
        · exact rest e' old
        · exact List.mem_singleton.1 last ▸ stays
      · exact ⟨es, content, [], u, t, y, rfl, hes, ht, old, hy, differs, by simp, hi⟩

/-- Where the records are renewed once more and none goes, the one under a name shows what is
attached there exactly if none under this name has been supplanted. -/
theorem current_iff (h : Remembers M admits readable records I)
    (hx : (world M admits).exec (world M admits).init es = some w)
    (renewed : Renewed (shown readable w.attached) (records w.program) after)
    (kept : ∀ i r, records w.program i = some r → after i = some r)
    (unique : ∀ i j y z, after i = some (k, y) → after j = some (k, z) → i = j)
    (present : after i = some (k, z)) (now : shown readable w.attached k = some x) :
    after i = some (k, x) ↔ ¬Supplanted M admits readable records k es := by
  constructor
  · rintro current ⟨j, x', supplanted⟩
    obtain ⟨hj, y, hy, differs⟩ := (h.supplantedAt_iff hx).1 supplanted
    cases now.symm.trans hy
    obtain rfl := unique i j x x' current (kept j _ hj)
    cases current.symm.trans (kept i _ hj)
    exact differs rfl
  · intro none
    rcases renewed i k z present with old | new
    · by_contra differs
      refine none ⟨i, z, (h.supplantedAt_iff hx).2 ⟨old, x, now, ?_⟩⟩
      rintro rfl
      exact differs present
    · rw [present, Option.some.inj (new.symm.trans now)]

end Remembers

end

end Libusby.Foundations.Namesakes
