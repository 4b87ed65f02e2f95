import Mathlib.Data.List.Nodup
import Mathlib.Data.List.Perm.Basic
import Mathlib.Algebra.Ring.Int.Defs
import Mathlib.Algebra.Group.Pi.Basic

/-!
# Ledgers and tallies

A `Ledger` hands out names that are never reused and records what is given back.
It balances against a list of owned names if every name handed out is owned once
or was given back once, and never both. A `tally` counts the occurrences of a
name, for comparing lists of references with reference counts.
-/

namespace Libusby.Foundations

structure Ledger where
  next : Nat := 0
  released : List Nat := []
  deriving DecidableEq, Repr

namespace Ledger

/-- The new name is `l.next`. -/
def acquire (l : Ledger) : Ledger := { l with next := l.next + 1 }

def release (l : Ledger) (n : Nat) : Ledger := { l with released := n :: l.released }

def Balanced (l : Ledger) (owned : List Nat) : Prop :=
  (owned ++ l.released).Perm (List.range l.next)

variable {l : Ledger} {owned other : List Nat} {n : Nat}

theorem Balanced.perm (h : l.Balanced owned) (hp : owned.Perm other) : l.Balanced other :=
  (hp.symm.append_right _).trans h

theorem Balanced.acquire (h : l.Balanced owned) : l.acquire.Balanced (l.next :: owned) := by
  unfold Balanced Ledger.acquire
  rw [List.range_succ]
  exact (h.cons l.next).trans (List.perm_append_singleton l.next _).symm

theorem Balanced.release (h : l.Balanced (n :: owned)) : (l.release n).Balanced owned :=
  List.perm_middle.trans h

theorem Balanced.nodup (h : l.Balanced owned) : (owned ++ l.released).Nodup :=
  h.nodup_iff.2 List.nodup_range

theorem Balanced.owned_nodup (h : l.Balanced owned) : owned.Nodup :=
  h.nodup.of_append_left

theorem Balanced.length_eq (h : l.Balanced owned) : owned.length + l.released.length = l.next := by
  rw [← List.length_append, List.Perm.length_eq h, List.length_range]

theorem Balanced.lt (h : l.Balanced owned) (hn : n ∈ owned) : n < l.next :=
  List.mem_range.1 (h.mem_iff.1 (List.mem_append_left _ hn))

/-- Owned and not given back, or given back once and not owned. -/
theorem Balanced.once (h : l.Balanced owned) (hn : n < l.next) :
    owned.count n = 1 ∧ l.released.count n = 0 ∨ owned.count n = 0 ∧ l.released.count n = 1 := by
  have hcount : owned.count n + l.released.count n = 1 := by
    rw [← List.count_append, h.count_eq]
    exact List.count_eq_one_of_mem List.nodup_range (List.mem_range.2 hn)
  omega

theorem Balanced.released_once (h : l.Balanced owned) (hn : n < l.next) (hno : n ∉ owned) :
    l.released.count n = 1 := by
  have := h.once hn
  have := List.count_eq_zero_of_not_mem hno
  omega

theorem Balanced.not_released (h : l.Balanced owned) (hn : n ∈ owned) : l.released.count n = 0 := by
  have := h.once (h.lt hn)
  have := List.count_pos_iff.2 hn
  omega

/-- A name that is out and not given back. -/
def Held (l : Ledger) (n : Nat) : Prop := n < l.next ∧ n ∉ l.released

theorem Balanced.held_iff (h : l.Balanced owned) : l.Held n ↔ n ∈ owned := by
  constructor
  · rintro ⟨handed, kept⟩
    have once := h.once handed
    have := List.count_eq_zero_of_not_mem kept
    exact List.count_pos_iff.1 (by omega)
  · intro hn
    exact ⟨h.lt hn, List.count_eq_zero.1 (h.not_released hn)⟩

end Ledger

/-- How often a name occurs in a list. -/
def tally (names : List Nat) (n : Nat) : Int := names.count n

section
variable {xs ys : List Nat} {x n : Nat}

@[simp] theorem tally_nil : tally [] = 0 := rfl

theorem tally_append : tally (xs ++ ys) = tally xs + tally ys := by
  funext n
  simp [tally]

theorem tally_cons (x : Nat) (xs : List Nat) : tally (x :: xs) = tally [x] + tally xs := by
  rw [← tally_append]
  rfl

theorem tally_self : tally [x] x = 1 := by simp [tally]

theorem tally_ne (h : n ≠ x) : tally [x] n = 0 := by
  simp [tally, h.symm]

theorem tally_nonneg : 0 ≤ tally xs n := Int.natCast_nonneg _

theorem tally_pos (h : n ∈ xs) : 0 < tally xs n := Int.natCast_pos.2 (List.count_pos_iff.2 h)

theorem tally_perm (h : xs.Perm ys) : tally xs = tally ys := by
  funext n
  simp [tally, h.count_eq n]

theorem tally_of_not_mem (h : n ∉ xs) : tally xs n = 0 :=
  congrArg Int.ofNat (List.count_eq_zero_of_not_mem h)

/-- Of several lists of names one is taken out. -/
theorem tally_flatMap_eraseIdx {α : Type*} {f : α → List Nat} {lists : List α} {k : Nat} {list : α}
    (h : lists[k]? = some list) :
    tally (lists.flatMap f) = tally (f list) + tally ((lists.eraseIdx k).flatMap f) := by
  obtain ⟨hk, rfl⟩ := List.getElem?_eq_some_iff.1 h
  rw [← tally_append, tally_perm ((List.getElem_cons_eraseIdx_perm hk).symm.flatMap_right _)]
  rfl

end

end Libusby.Foundations
