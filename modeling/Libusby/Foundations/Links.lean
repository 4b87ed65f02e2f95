import Mathlib.Data.List.Nodup
import Mathlib.Data.List.Induction
import Mathlib.Logic.Function.Basic

/-!
# Doubly linked lists

An intrusive list: every element has a `next` and a `prev`, and the list knows its
`first` and its `last`. A missing pointer is `none`. A ring through a list head is the
same thing, with `none` for the head.

`Chain` says which sequence of elements a list represents. The operations work on any
pointers at all; that they represent anything is what the lemmas about `Chain` say.
-/

namespace Libusby.Foundations

universe u

variable {ι : Type u}

/-- From the pointer `p`, the links `succ` lead through `xs` to the pointer `q`. -/
def Seg (succ : ι → Option ι) (p : Option ι) : List ι → Option ι → Prop
  | [], q => p = q
  | x :: xs, q => p = some x ∧ Seg succ (succ x) xs q

namespace Seg

variable {succ succ' : ι → Option ι} {p q m : Option ι} {x : ι} {xs ys : List ι}

@[simp] theorem nil : Seg succ p [] q ↔ p = q := Iff.rfl

@[simp] theorem cons : Seg succ p (x :: xs) q ↔ p = some x ∧ Seg succ (succ x) xs q := Iff.rfl

theorem append : Seg succ p (xs ++ ys) q ↔ ∃ m, Seg succ p xs m ∧ Seg succ m ys q := by
  induction xs generalizing p with
  | nil => simp
  | cons x xs ih => simp [ih, and_assoc]

theorem congr (h : ∀ x ∈ xs, succ x = succ' x) (hs : Seg succ p xs q) : Seg succ' p xs q := by
  induction xs generalizing p with
  | nil => exact hs
  | cons x xs ih =>
    refine ⟨hs.1, ?_⟩
    rw [← h x (List.mem_cons_self ..)]
    exact ih (fun y hy => h y (List.mem_cons_of_mem _ hy)) hs.2

/-- A walk to the end starts at the first element. -/
theorem head (h : Seg succ p xs none) : p = xs.head? := by
  cases xs with
  | nil => exact h
  | cons x xs => exact h.1

end Seg

structure Links (ι : Type u) where
  first : Option ι := none
  last : Option ι := none
  next : ι → Option ι := fun _ => none
  prev : ι → Option ι := fun _ => none

namespace Links

/-- The same list from its other end. -/
def flip (l : Links ι) : Links ι where
  first := l.last
  last := l.first
  next := l.prev
  prev := l.next

/-- `next` from `first` and `prev` from `last` walk through `xs` in opposite directions. -/
structure Chain (l : Links ι) (xs : List ι) : Prop where
  forward : Seg l.next l.first xs none
  backward : Seg l.prev l.last xs.reverse none
  nodup : xs.Nodup

variable {l : Links ι} {x : ι} {p q m : Option ι} {xs ys : List ι}

namespace Chain

theorem flip (h : l.Chain xs) : l.flip.Chain xs.reverse where
  forward := h.backward
  backward := by
    rw [List.reverse_reverse]
    exact h.forward
  nodup := List.nodup_reverse.2 h.nodup

theorem empty : ({} : Links ι).Chain [] := ⟨rfl, rfl, List.nodup_nil⟩

theorem first (h : l.Chain xs) : l.first = xs.head? := h.forward.head

theorem last (h : l.Chain xs) : l.last = xs.getLast? := by
  rw [h.backward.head, List.head?_reverse]

theorem next (h : l.Chain (xs ++ x :: ys)) : l.next x = ys.head? := by
  obtain ⟨_, -, -, hs⟩ := Seg.append.1 h.forward
  exact hs.head

theorem prev (h : l.Chain (xs ++ x :: ys)) : l.prev x = xs.getLast? := by
  have reversed : l.flip.Chain (ys.reverse ++ x :: xs.reverse) := by simpa using h.flip
  rw [← List.head?_reverse]
  exact reversed.next

end Chain

variable [DecidableEq ι]

/-- Let the element at `p`, or the list itself, be followed by `q`. -/
def setNext (l : Links ι) (p q : Option ι) : Links ι :=
  match p with
  | none => { l with first := q }
  | some x => { l with next := Function.update l.next x q }

/-- Let the element at `p`, or the list itself, be preceded by `q`. -/
def setPrev (l : Links ι) (p q : Option ι) : Links ι :=
  match p with
  | none => { l with last := q }
  | some x => { l with prev := Function.update l.prev x q }

def pushBack (l : Links ι) (x : ι) : Links ι :=
  let linked :=
    { l with next := Function.update l.next x none, prev := Function.update l.prev x l.last }
  (linked.setNext l.last (some x)).setPrev none (some x)

def unlink (l : Links ι) (x : ι) : Links ι :=
  let l := (l.setPrev (l.next x) (l.prev x)).setNext (l.prev x) (l.next x)
  { l with next := Function.update l.next x none, prev := Function.update l.prev x none }

@[simp] theorem setPrev_first : (l.setPrev p q).first = l.first := by cases p <;> rfl
@[simp] theorem setPrev_next : (l.setPrev p q).next = l.next := by cases p <;> rfl
@[simp] theorem setNext_prev : (l.setNext p q).prev = l.prev := by cases p <;> rfl

theorem setNext_setPrev_comm (p' q' : Option ι) :
    (l.setPrev p q).setNext p' q' = (l.setNext p' q').setPrev p q := by
  cases p <;> cases p' <;> rfl

theorem flip_unlink : (l.unlink x).flip = l.flip.unlink x := by
  simp only [unlink]
  rw [setNext_setPrev_comm, setNext_setPrev_comm]
  cases h : l.next x <;> cases h' : l.prev x <;> simp [flip, setNext, setPrev, h, h']

/-- Redirecting the last pointer of a walk redirects the walk. -/
theorem redirect (h : Seg l.next l.first xs m) (nodup : xs.Nodup) :
    Seg (l.setNext xs.getLast? q).next (l.setNext xs.getLast? q).first xs q := by
  induction xs using List.reverseRecOn with
  | nil => rfl
  | append_singleton xs y =>
    obtain ⟨p, hs, rfl, -⟩ := Seg.append.1 h
    rw [List.getLast?_concat]
    refine Seg.append.2 ⟨some y, ?_, rfl, ?_⟩
    · apply hs.congr
      intro z hz
      have : z ≠ y := by
        rintro rfl
        simp [List.nodup_append] at nodup
        exact nodup.2 _ hz rfl
      simp [setNext, this]
    · simp [setNext]

/-- A walk past other elements is not affected. -/
theorem elsewhere (h : Seg l.next m ys q) {r : Option ι} (hp : ∀ y ∈ ys, p ≠ some y) :
    Seg (l.setNext p r).next m ys q := by
  apply h.congr
  intro y hy
  cases p with
  | none => rfl
  | some x =>
    have : y ≠ x := fun e => hp y hy (e ▸ rfl)
    simp [setNext, this]

namespace Chain

theorem pushBack (h : l.Chain xs) (hx : x ∉ xs) : (l.pushBack x).Chain (xs ++ [x]) := by
  set linked : Links ι :=
    { l with next := Function.update l.next x none, prev := Function.update l.prev x l.last }
  have unlinked (f : ι → Option ι) (v : Option ι) : ∀ y ∈ xs, f y = Function.update f x v y := by
    intro y hy
    have : y ≠ x := fun e => hx (e ▸ hy)
    simp [this]
  have forward : Seg linked.next linked.first xs none := h.forward.congr (unlinked _ _)
  constructor
  · refine Seg.append.2 ⟨some x, ?_, rfl, ?_⟩
    · have := redirect (q := some x) forward h.nodup
      rw [← h.last] at this
      simpa only [Links.pushBack, setPrev_next, setPrev_first] using this
    · have : l.last ≠ some x := by
        rw [h.last]
        exact fun e => hx (List.mem_of_getLast? e)
      have : (linked.setNext l.last (some x)).next x = none := by
        cases hl : l.last with
        | none => simp [setNext, linked]
        | some y =>
          have : x ≠ y := fun e => this (e ▸ hl)
          simp [setNext, linked, this]
      simpa only [Links.pushBack, setPrev_next, Seg.nil] using this
  · rw [List.reverse_append]
    refine ⟨rfl, ?_⟩
    have backward : Seg linked.prev l.last xs.reverse none :=
      h.backward.congr fun y hy => unlinked _ _ y (List.mem_reverse.1 hy)
    simpa [Links.pushBack, setPrev, linked] using backward
  · rw [List.nodup_append]
    refine ⟨h.nodup, List.nodup_singleton x, ?_⟩
    rintro a ha b hb rfl
    exact hx (List.mem_singleton.1 hb ▸ ha)

/-- One direction of `unlink`; the other is the same from the other end. -/
theorem unlink_forward (h : l.Chain (xs ++ x :: ys)) :
    Seg (l.unlink x).next (l.unlink x).first (xs ++ ys) none := by
  obtain ⟨m, hxs, -, hys⟩ := Seg.append.1 h.forward
  have nodup := List.nodup_append.1 h.nodup
  have notin : x ∉ xs ++ ys := (List.nodup_middle.1 h.nodup).notMem
  have walk : Seg (l.setNext (l.prev x) (l.next x)).next (l.setNext (l.prev x) (l.next x)).first
      (xs ++ ys) none := by
    refine Seg.append.2 ⟨l.next x, ?_, ?_⟩
    · rw [h.prev]
      exact redirect hxs nodup.1
    · rw [h.prev]
      apply elsewhere hys
      intro y hy e
      exact nodup.2.2 y (List.mem_of_getLast? e) y (List.mem_cons_of_mem _ hy) rfl
  simp only [Links.unlink, setNext_setPrev_comm, setPrev_first, setPrev_next]
  apply walk.congr
  intro y hy
  have : y ≠ x := fun e => notin (e ▸ hy)
  simp [this]

theorem unlink (h : l.Chain xs) (hx : x ∈ xs) : (l.unlink x).Chain (xs.erase x) := by
  obtain ⟨as, bs, -, rfl, erased⟩ := List.exists_erase_eq hx
  rw [erased]
  constructor
  · exact h.unlink_forward
  · have reversed : l.flip.Chain (bs.reverse ++ x :: as.reverse) := by simpa using h.flip
    have := reversed.unlink_forward
    rw [← flip_unlink] at this
    rw [List.reverse_append]
    exact this
  · exact (List.nodup_middle.1 h.nodup).of_cons

end Chain

end Links

end Libusby.Foundations
