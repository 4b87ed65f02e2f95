import Mathlib.Data.List.Nodup
import Mathlib.Logic.Function.Basic
import Mathlib.Order.Basic

/-!
# Rings of linked nodes

A heap of nodes, each with a `next` and a `prev` that point to nodes. `Path` follows one
kind of link, and `Ring` says that from the node `head` both kinds lead once around the same
nodes, in opposite directions. The lemmas about `Ring` say what writing to single links does
to it; `search` is a loop that follows links until it is back at a node or breaks.
-/

namespace Libusby.Foundations

universe u

variable {ι : Type u}

/-- From the node `a`, the links `succ` lead through `xs` to the node `b`. -/
def Path (succ : ι → ι) (a : ι) : List ι → ι → Prop
  | [], b => succ a = b
  | x :: xs, b => succ a = x ∧ Path succ x xs b

/-- The loop `for (x = succ a; x != stop; x = succ x) if (p x) break;` from its first `x`, cut
off after `n` tests: the nodes whose `p` it asks for, and `x` after it. -/
def search [DecidableEq ι] (succ : ι → ι) (stop : ι) (p : ι → Bool) : Nat → ι → Option (List ι × ι)
  | 0, _ => none
  | n + 1, x =>
    if x = stop then some ([], stop)
    else if p x then some ([x], x)
    else (search succ stop p n (succ x)).map fun r => (x :: r.1, r.2)

namespace Path

variable {succ succ' : ι → ι} {a b x : ι} {xs ys : List ι}

@[simp] theorem nil : Path succ a [] b ↔ succ a = b := Iff.rfl

@[simp] theorem cons : Path succ a (x :: xs) b ↔ succ a = x ∧ Path succ x xs b := Iff.rfl

theorem append : Path succ a (xs ++ x :: ys) b ↔ Path succ a xs x ∧ Path succ x ys b := by
  induction xs generalizing a with
  | nil => simp
  | cons y xs ih => simp [ih, and_assoc]

theorem head (h : Path succ a xs b) : succ a = xs.headD b := by
  cases xs with
  | nil => exact h
  | cons x xs => exact h.1

/-- A path may start at another node that has the same link. -/
theorem transfer {a' : ι} (first : succ' a' = succ a) (same : ∀ y ∈ xs, succ' y = succ y)
    (h : Path succ a xs b) : Path succ' a' xs b := by
  induction xs generalizing a a' with
  | nil => exact first.trans h
  | cons x xs ih =>
    have next : succ' x = succ x := same x (List.mem_cons_self ..)
    exact ⟨first.trans h.1, ih next (fun y hy => same y (List.mem_cons_of_mem _ hy)) h.2⟩

/-- Two paths in opposite directions undo each other. -/
theorem undo {pred : ι → ι} (h : Path succ a xs b) (back : Path pred b xs.reverse a) :
    ∀ y ∈ a :: xs, pred (succ y) = y := by
  induction xs generalizing a with
  | nil =>
    intro y hy
    rw [List.mem_singleton.1 hy, nil.1 h]
    exact back
  | cons x xs ih =>
    rw [List.reverse_cons, append] at back
    intro y hy
    rcases List.mem_cons.1 hy with rfl | hy
    · rw [h.1]
      exact back.2
    · exact ih h.2 back.1 y hy

/-- What a loop visits is the beginning of the path. -/
theorem visited_prefix (xs : List ι) (p : ι → Bool) :
    xs.takeWhile (fun x => !p x) ++ (xs.find? p).toList <+: xs := by
  induction xs with
  | nil => exact List.prefix_rfl
  | cons x xs ih =>
    cases found : p x with
    | true => simp [found]
    | false => simpa [found] using ih

variable [DecidableEq ι]

/-- A loop along a path stops, at the latest where the path ends; it has visited every node
before the one where it breaks. -/
theorem search (h : Path succ a xs b) (notin : b ∉ xs) (p : ι → Bool) {n : Nat}
    (fuel : xs.length < n) :
    search succ b p n (succ a) =
      some (xs.takeWhile (fun x => !p x) ++ (xs.find? p).toList, (xs.find? p).getD b) := by
  induction xs generalizing a n with
  | nil =>
    obtain ⟨n, rfl⟩ := Nat.exists_eq_succ_of_ne_zero (Nat.ne_of_gt fuel)
    simp [Foundations.search, nil.1 h]
  | cons x xs ih =>
    obtain ⟨n, rfl⟩ := Nat.exists_eq_succ_of_ne_zero (Nat.ne_of_gt (Nat.zero_lt_of_lt fuel))
    have other : x ≠ b := (List.ne_of_not_mem_cons notin).symm
    rw [h.1, Foundations.search, if_neg other]
    cases found : p x with
    | true => simp [found]
    | false =>
      have rest := ih h.2 (List.not_mem_of_not_mem_cons notin) (n := n)
        (Nat.lt_of_succ_lt_succ fuel)
      simp [found, rest]

/-- Redirecting the last link of a path redirects the path. -/
theorem redirect (h : Path succ a xs b) (nodup : (a :: xs).Nodup) (c : ι) :
    Path (Function.update succ (xs.getLastD a) c) a xs c := by
  induction xs generalizing a with
  | nil => exact Function.update_self ..
  | cons x xs ih =>
    obtain ⟨notin, rest⟩ := List.nodup_cons.1 nodup
    have ne : a ≠ xs.getLastD x := fun e => notin (e ▸ List.getLastD_mem_cons)
    refine ⟨?_, ?_⟩
    · rw [List.getLastD_cons, Function.update_of_ne ne]
      exact h.1
    · rw [List.getLastD_cons]
      exact ih h.2 rest

end Path

structure RingLinks (ι : Type u) where
  next : ι → ι
  prev : ι → ι

namespace RingLinks

/-- From `head` and back to it, `next` leads through `xs` and `prev` through the reverse. -/
structure Ring (l : RingLinks ι) (head : ι) (xs : List ι) : Prop where
  forward : Path l.next head xs head
  backward : Path l.prev head xs.reverse head
  nodup : (head :: xs).Nodup

variable {l l' : RingLinks ι} {head x : ι} {xs ys : List ι}

namespace Ring

theorem next_head (h : l.Ring head xs) : l.next head = xs.headD head := h.forward.head

theorem prev_head (h : l.Ring head xs) : l.prev head = xs.getLastD head := by
  rw [h.backward.head, List.headD_eq_head?_getD, List.head?_reverse, List.getLastD_eq_getLast?]

theorem prev_next (h : l.Ring head xs) : ∀ y ∈ head :: xs, l.prev (l.next y) = y :=
  h.forward.undo h.backward

theorem next_prev (h : l.Ring head xs) : ∀ y ∈ head :: xs, l.next (l.prev y) = y := by
  intro y hy
  have forward : Path l.next head xs.reverse.reverse head := by
    rw [List.reverse_reverse]
    exact h.forward
  apply h.backward.undo forward
  simpa using hy

/-- A ring may be entered at any of its nodes. -/
theorem rotate (h : l.Ring head (xs ++ x :: ys)) : l.Ring x (ys ++ head :: xs) := by
  obtain ⟨before, after⟩ := Path.append.1 h.forward
  have backward := h.backward
  rw [List.reverse_append, List.reverse_cons, List.append_assoc, List.singleton_append] at backward
  obtain ⟨after', before'⟩ := Path.append.1 backward
  constructor
  · exact Path.append.2 ⟨after, before⟩
  · rw [List.reverse_append, List.reverse_cons, List.append_assoc, List.singleton_append]
    exact Path.append.2 ⟨before', after'⟩
  · have perm : (x :: ys ++ head :: xs).Perm (head :: xs ++ x :: ys) := List.perm_append_comm
    exact perm.nodup_iff.2 h.nodup

/-- The node after `x`. -/
theorem next (h : l.Ring head (xs ++ x :: ys)) : l.next x = ys.headD head := by
  rw [h.rotate.next_head]
  cases ys <;> rfl

theorem empty (next : l.next head = head) (prev : l.prev head = head) : l.Ring head [] :=
  ⟨next, prev, List.nodup_singleton head⟩

/-- A node of a ring that is not alone has other neighbours than itself. -/
theorem next_ne (h : l.Ring head (xs ++ x :: ys)) : l.next x ≠ x := by
  have nodup := h.rotate.nodup
  rw [h.next]
  cases ys with
  | nil => exact (List.ne_of_not_mem_cons (List.nodup_cons.1 nodup).1).symm
  | cons y ys => exact (List.ne_of_not_mem_cons (List.nodup_cons.1 nodup).1).symm

/-- The node before `x`. -/
theorem prev (h : l.Ring head (xs ++ x :: ys)) : l.prev x = xs.getLastD head := by
  rw [h.rotate.prev_head, List.getLastD_eq_getLast?, List.getLastD_eq_getLast?,
    List.getLast?_append_of_ne_nil _ (List.cons_ne_nil head xs), List.getLast?_cons,
    Option.getD_some]

variable [DecidableEq ι]

/-- Linking a new node in before `head`. -/
theorem insert (h : l.Ring head xs) (fresh : x ∉ head :: xs)
    (next : l'.next = Function.update (Function.update l.next x head) (l.prev head) x)
    (prev : l'.prev = Function.update (Function.update l.prev x (l.prev head)) head x) :
    l'.Ring head (xs ++ [x]) := by
  have notin : ∀ y ∈ head :: xs, y ≠ x := fun y hy e => fresh (e ▸ hy)
  have linked : l.prev head ∈ head :: xs := by
    rw [h.prev_head]
    exact List.getLastD_mem_cons
  constructor
  · rw [next]
    refine Path.append.2 ⟨?_, ?_⟩
    · rw [h.prev_head]
      apply Path.redirect (b := head) _ h.nodup
      apply h.forward.transfer
      · exact Function.update_of_ne (notin head (List.mem_cons_self ..)) ..
      · intro y hy
        exact Function.update_of_ne (notin y (List.mem_cons_of_mem _ hy)) ..
    · rw [Path.nil, Function.update_of_ne (notin _ linked).symm, Function.update_self]
  · rw [prev, List.reverse_append]
    refine ⟨Function.update_self .., ?_⟩
    apply h.backward.transfer
    · rw [Function.update_of_ne (notin head (List.mem_cons_self ..)).symm, Function.update_self]
    · intro y hy
      have hy := List.mem_reverse.1 hy
      have other : y ≠ head := fun e => (List.nodup_cons.1 h.nodup).1 (e ▸ hy)
      rw [Function.update_of_ne other, Function.update_of_ne (notin y (List.mem_cons_of_mem _ hy))]
  · have perm : (head :: (xs ++ [x])).Perm (x :: head :: xs) := by
      rw [← List.cons_append]
      exact List.perm_append_singleton x (head :: xs)
    exact perm.nodup_iff.2 (List.nodup_cons.2 ⟨fresh, h.nodup⟩)

/-- Letting the neighbours of the node where a ring is entered point to each other. -/
theorem bypass {z : ι} (h : l.Ring x (z :: xs))
    (next : l'.next = Function.update l.next (l.prev x) (l.next x))
    (prev : l'.prev = Function.update l.prev (l.next x) (l.prev x)) : l'.Ring z xs := by
  have rest := (List.nodup_cons.1 h.nodup).2
  have backward := h.backward
  rw [List.reverse_cons] at backward
  constructor
  · rw [next, h.prev_head, h.next_head, List.getLastD_cons]
    exact Path.redirect h.forward.2 rest z
  · rw [prev, h.next_head]
    apply (Path.append.1 backward).1.transfer
    · exact Function.update_self ..
    · intro y hy
      apply Function.update_of_ne
      rintro rfl
      exact (List.nodup_cons.1 rest).1 (List.mem_reverse.1 hy)
  · exact rest

/-- Letting the neighbours of a node point to each other takes it out of the ring. -/
theorem remove (h : l.Ring head (xs ++ x :: ys))
    (next : l'.next = Function.update l.next (l.prev x) (l.next x))
    (prev : l'.prev = Function.update l.prev (l.next x) (l.prev x)) : l'.Ring head (xs ++ ys) := by
  have entered := h.rotate
  cases ys with
  | nil =>
    rw [List.append_nil]
    exact entered.bypass next prev
  | cons y ys => exact (entered.bypass next prev).rotate

end Ring

end RingLinks

end Libusby.Foundations
