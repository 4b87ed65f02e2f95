import Mathlib.Data.List.Nodup
import Mathlib.Data.List.Perm.Basic
import Mathlib.Logic.Function.Basic

/-!
# What the things of a store own

Things are kept in a store under names, and a list links the names of those that are there. Each
thing owns one resource. The laws follow what is owned while things are changed, removed and
added.
-/

namespace Libusby.Foundations

universe u v w

variable {ν : Type u} {α : Type v} {ρ : Type w}

/-- The resources of the things that are linked. -/
def owned (heap : ν → Option α) (f : α → ρ) (names : List ν) : List ρ :=
  names.filterMap fun n => (heap n).map f

variable {heap heap' : ν → Option α} {f : α → ρ} {names : List ν} {n m : ν} {a b : α} {r : ρ}

theorem mem_owned : r ∈ owned heap f names ↔ ∃ n ∈ names, ∃ a, heap n = some a ∧ f a = r := by
  simp [owned]

theorem owned_congr (same : ∀ n ∈ names, heap n = heap' n) :
    owned heap f names = owned heap' f names :=
  List.filterMap_congr fun n hn => by rw [same n hn]

/-- Things that are all there own one resource each. -/
theorem length_owned (h : ∀ n ∈ names, ∃ a, heap n = some a) :
    (owned heap f names).length = names.length := by
  apply List.filterMap_length_eq_length.2
  intro n hn
  obtain ⟨a, ha⟩ := h n hn
  rw [ha]
  rfl

section
variable [DecidableEq ν]

/-- A thing changes and keeps its resource. -/
theorem owned_update (ha : heap n = some a) (kept : f b = f a) :
    owned (Function.update heap n (some b)) f names = owned heap f names := by
  apply List.filterMap_congr
  intro m _
  by_cases same : m = n
  · simp [same, ha, kept]
  · simp [same]

/-- A thing that is not linked owns nothing that counts. -/
theorem owned_update_of_not_mem {v : Option α} (unlinked : n ∉ names) :
    owned (Function.update heap n v) f names = owned heap f names := by
  apply owned_congr
  intro m hm
  rw [Function.update_of_ne]
  rintro rfl
  exact unlinked hm

theorem owned_perm_cons_erase (hn : n ∈ names) (ha : heap n = some a) :
    (owned heap f names).Perm (f a :: owned heap f (names.erase n)) := by
  have split := (List.perm_cons_erase hn).filterMap fun m => (heap m).map f
  rwa [List.filterMap_cons_some (by rw [ha]; rfl)] at split

/-- Nothing is owned by two things. -/
theorem owner_unique (h : (owned heap f names).Nodup) (hn : n ∈ names) (hm : m ∈ names)
    (ha : heap n = some a) (hb : heap m = some b) (shared : f a = f b) : n = m := by
  by_contra apart
  have split : (f a :: owned heap f (names.erase n)).Nodup :=
    (owned_perm_cons_erase hn ha).nodup_iff.1 h
  have linked : m ∈ names.erase n := (List.mem_erase_of_ne (Ne.symm apart)).2 hm
  exact (List.nodup_cons.1 split).1 (mem_owned.2 ⟨m, linked, b, hb, shared.symm⟩)

/-- A thing is removed, and its resource is nobody's. -/
theorem owned_remove (nodup : names.Nodup) (hn : n ∈ names) (ha : heap n = some a) :
    (owned heap f names).Perm
      (f a :: owned (Function.update heap n none) f (names.erase n)) := by
  rw [owned_update_of_not_mem nodup.not_mem_erase]
  exact owned_perm_cons_erase hn ha

/-- A thing is added with its resource. -/
theorem owned_add (unlinked : n ∉ names) :
    owned (Function.update heap n (some a)) f (names ++ [n]) = owned heap f names ++ [f a] := by
  have old : owned (Function.update heap n (some a)) f names = owned heap f names :=
    owned_update_of_not_mem unlinked
  unfold owned at old ⊢
  rw [List.filterMap_append, old]
  simp

end

end Libusby.Foundations
