import Libusby.Core.DeviceList

/-!
# What an enumeration is for

An enumeration visits the attached devices by number. A device that is in memory is listed as it
is, one that is not is taken into memory and listed if it can be read, and nothing else depends
on one that cannot be read.
-/

namespace Libusby.Core

/-- The numbers of the devices in memory and of those listed. -/
structure Catalogue (κ : Type) where
  known : List κ
  listed : List κ := []

namespace Catalogue

section
variable {κ : Type} [DecidableEq κ]

/-- The visit of a device that can be read or cannot. -/
def visit (c : Catalogue κ) (a : κ × Bool) : Catalogue κ :=
  if a.1 ∈ c.known then { c with listed := c.listed ++ [a.1] }
  else if a.2 then { known := c.known ++ [a.1], listed := c.listed ++ [a.1] }
  else c

def visits (c : Catalogue κ) (attached : List (κ × Bool)) : Catalogue κ := attached.foldl visit c

variable {c : Catalogue κ} {a : κ × Bool} {k : κ} {readable : Bool} {attached : List (κ × Bool)}

theorem visit_known (h : k ∈ c.known) : c.visit (k, readable) = { c with listed := c.listed ++ [k] } :=
  if_pos h

theorem visit_new (h : k ∉ c.known) :
    c.visit (k, true) = { known := c.known ++ [k], listed := c.listed ++ [k] } := if_neg h

theorem visit_unreadable (h : k ∉ c.known) : c.visit (k, false) = c := if_neg h

theorem mem_known_visit : k ∈ (c.visit a).known → k ∈ c.known ∨ k = a.1 := by
  unfold visit
  split_ifs
  · exact Or.inl
  · intro hk
    rwa [List.mem_append, List.mem_singleton] at hk
  · exact Or.inl

theorem known_visit (h : k ∈ c.known) : k ∈ (c.visit a).known := by
  unfold visit
  split_ifs
  · exact h
  · exact List.mem_append_left _ h
  · exact h

theorem visits_filterMap_cons {α : Type*} (f : α → Option (κ × Bool)) (x : α) (xs : List α) :
    c.visits ((x :: xs).filterMap f) = (c.visits (f x).toList).visits (xs.filterMap f) := by
  rw [List.filterMap_cons]
  cases f x <;> rfl

/-- Where no number comes twice, the devices that were in memory before and those that can be
read are listed in order. -/
theorem visits_listed (h : (attached.map Prod.fst).Nodup) :
    (c.visits attached).listed =
      c.listed ++ (attached.filter fun a => a.1 ∈ c.known ∨ a.2 = true).map Prod.fst := by
  induction attached generalizing c with
  | nil => simp [visits]
  | cons a attached ih =>
    obtain ⟨k, readable⟩ := a
    obtain ⟨first, others⟩ := List.nodup_cons.1 h
    rw [visits, List.foldl_cons, ← visits, ih others]
    by_cases known : k ∈ c.known
    · rw [visit_known known]
      simp [known]
    · cases readable with
      | false =>
        rw [visit_unreadable known]
        simp [known]
      | true =>
        have later : ∀ a ∈ attached, a.1 ≠ k := fun a ha same =>
          first (List.mem_map.2 ⟨a, ha, same⟩)
        have same : attached.filter (fun a => a.1 ∈ c.known ++ [k] ∨ a.2 = true) =
            attached.filter fun a => a.1 ∈ c.known ∨ a.2 = true := by
          apply List.filter_congr
          intro a ha
          simp [later a ha]
        rw [visit_new known]
        change c.listed ++ [k] ++ (attached.filter fun a => a.1 ∈ c.known ++ [k] ∨ a.2 = true).map _ = _
        rw [same]
        simp

end

/-! ## Representation -/

/-- The devices of the context's list and of the list that is built have these numbers. -/
structure Represents {κ : Type} (c : Catalogue κ) (number : DeviceId → Option κ)
    (devlist ds : List DeviceId) : Prop where
  known : devlist.map number = c.known.map some
  listed : ds.map number = c.listed.map some

section
variable {κ : Type} {c : Catalogue κ} {number number' : DeviceId → Option κ}
  {devlist ds : List DeviceId} {d : DeviceId} {k : κ} {readable : Bool}

theorem Represents.init (h : ∀ d ∈ devlist, ∃ k, number d = some k) :
    Represents { known := devlist.filterMap number } number devlist [] := by
  refine ⟨?_, rfl⟩
  induction devlist with
  | nil => rfl
  | cons d devlist ih =>
    obtain ⟨⟨k, hk⟩, rest⟩ := List.forall_mem_cons.1 h
    rw [List.map_cons, ih rest, List.filterMap_cons_some hk, hk]
    rfl

theorem Represents.mem_known (h : c.Represents number devlist ds) :
    k ∈ c.known ↔ ∃ d ∈ devlist, number d = some k := by
  have mem : some k ∈ c.known.map some ↔ k ∈ c.known := by simp
  rw [← mem, ← h.known, List.mem_map]

theorem Represents.congr (h : c.Represents number devlist ds)
    (same : ∀ d ∈ devlist ++ ds, number' d = number d) : c.Represents number' devlist ds := by
  constructor
  · rw [← h.known]
    exact List.map_congr_left fun d hd => same d (List.mem_append_left _ hd)
  · rw [← h.listed]
    exact List.map_congr_left fun d hd => same d (List.mem_append_right _ hd)

theorem Represents.ne_none (h : c.Represents number devlist ds) (hd : d ∈ devlist ++ ds) :
    number d ≠ none := by
  intro hnone
  have all : (devlist ++ ds).map number = (c.known ++ c.listed).map some := by
    rw [List.map_append, List.map_append, h.known, h.listed]
  have mem := List.mem_map_of_mem (f := number) hd
  rw [all, hnone] at mem
  simp at mem

variable [DecidableEq κ]

/-- Where no number comes twice, the list that is built has the numbers of the devices that were
in memory before and of those that can be read, in order. -/
theorem Represents.numbers {known : List κ} {attached : List (κ × Bool)}
    (h : (({ known } : Catalogue κ).visits attached).Represents number devlist ds)
    (once : (attached.map Prod.fst).Nodup) :
    ds.map number =
      ((attached.filter fun a => a.1 ∈ known ∨ a.2 = true).map Prod.fst).map some := by
  rw [h.listed, visits_listed once, List.nil_append]

/-- A device in memory is listed. -/
theorem Represents.found (h : c.Represents number devlist ds) (mem : d ∈ devlist)
    (hd : number d = some k) : (c.visit (k, readable)).Represents number devlist (ds ++ [d]) := by
  rw [visit_known (h.mem_known.2 ⟨d, mem, hd⟩)]
  refine ⟨h.known, ?_⟩
  rw [List.map_append, List.map_append, h.listed]
  simp [hd]

/-- A device is taken into memory and listed. -/
theorem Represents.insert (h : c.Represents number devlist ds)
    (missing : ∀ x ∈ devlist, number x ≠ some k) (fresh : number d = none) :
    (c.visit (k, true)).Represents (Function.update number d (some k)) (devlist ++ [d])
      (ds ++ [d]) := by
  have unknown : k ∉ c.known := fun hk => by
    obtain ⟨x, hx, same⟩ := h.mem_known.1 hk
    exact missing x hx same
  have kept : ∀ x ∈ devlist ++ ds, Function.update number d (some k) x = number x := by
    intro x hx
    rw [Function.update_of_ne]
    rintro rfl
    exact h.ne_none hx fresh
  have := h.congr kept
  rw [visit_new unknown]
  constructor
  · rw [List.map_append, List.map_append, this.known]
    simp
  · rw [List.map_append, List.map_append, this.listed]
    simp

/-- A device that cannot be read leaves everything as it was. -/
theorem Represents.passed (h : c.Represents number devlist ds)
    (missing : ∀ x ∈ devlist, number x ≠ some k) :
    (c.visit (k, false)).Represents number devlist ds := by
  rw [visit_unreadable]
  · exact h
  · intro hk
    obtain ⟨x, hx, same⟩ := h.mem_known.1 hk
    exact missing x hx same

end

end Catalogue

end Libusby.Core
