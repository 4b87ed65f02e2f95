import Libusby.Foundations.Machine
import Libusby.Foundations.Ring

/-!
# The ring of devices

`usbyi_device_list_node` and its three functions, write by write. The `devnode`s of the live
devices and the list head of the context are nodes of one heap; `ringMachine` lets a caller
put fresh nodes before the head and take members out, and remembers the order in which the
members came.
-/

namespace Libusby.Core

open Foundations

universe u

variable {ι : Type u} [DecidableEq ι]

abbrev DevlistNodes (ι : Type u) := RingLinks ι

namespace DevlistNodes

/-- `node->next = next`. -/
def setNext (h : DevlistNodes ι) (node next : ι) : DevlistNodes ι :=
  { h with next := Function.update h.next node next }

/-- `node->prev = prev`. -/
def setPrev (h : DevlistNodes ι) (node prev : ι) : DevlistNodes ι :=
  { h with prev := Function.update h.prev node prev }

end DevlistNodes

open DevlistNodes

def usbyiInitDevlistHead (h : DevlistNodes ι) (head : ι) : DevlistNodes ι :=
  let h := setNext h head head
  setPrev h head head

def usbyiRemoveDevlistNode (h : DevlistNodes ι) (devNode : ι) : ι × DevlistNodes ι :=
  let next := h.next devNode
  let h := setPrev h (h.next devNode) (h.prev devNode)
  let h := setNext h (h.prev devNode) (h.next devNode)
  (next, h)

def usbyiInsertBeforeDevlistNode (h : DevlistNodes ι) (node next : ι) : DevlistNodes ι :=
  let h := setNext h node next
  let h := setPrev h node (h.prev next)
  let h := setPrev h next node
  setNext h (h.prev node) node

section
variable {h : DevlistNodes ι} {head node : ι} {xs ys : List ι}

theorem usbyiInitDevlistHead_ring (h : DevlistNodes ι) (head : ι) :
    (usbyiInitDevlistHead h head).Ring head [] :=
  .empty (Function.update_self ..) (Function.update_self ..)

theorem usbyiInsertBeforeDevlistNode_links (other : node ≠ head) :
    usbyiInsertBeforeDevlistNode h node head =
      { next := Function.update (Function.update h.next node head) (h.prev head) node
        prev := Function.update (Function.update h.prev node (h.prev head)) head node } := by
  have last : (setPrev (setPrev (setNext h node head) node (h.prev head)) head node).prev node =
      h.prev head := by
    simp [setPrev, setNext, other]
  have before : (setNext h node head).prev head = h.prev head := rfl
  simp only [usbyiInsertBeforeDevlistNode, before, last]
  rfl

theorem usbyiInsertBeforeDevlistNode_ring (ring : h.Ring head xs) (fresh : node ∉ head :: xs) :
    (usbyiInsertBeforeDevlistNode h node head).Ring head (xs ++ [node]) := by
  rw [usbyiInsertBeforeDevlistNode_links (List.ne_of_not_mem_cons fresh)]
  exact ring.insert fresh rfl rfl

/-- With other neighbours than itself, a node has them point to each other. -/
theorem usbyiRemoveDevlistNode_links (linked : h.next node ≠ node) :
    (usbyiRemoveDevlistNode h node).2 =
      { next := Function.update h.next (h.prev node) (h.next node)
        prev := Function.update h.prev (h.next node) (h.prev node) } := by
  have same : (setPrev h (h.next node) (h.prev node)).prev node = h.prev node :=
    Function.update_of_ne linked.symm ..
  simp only [usbyiRemoveDevlistNode, same]
  rfl

theorem usbyiRemoveDevlistNode_ring (ring : h.Ring head (xs ++ node :: ys)) :
    (usbyiRemoveDevlistNode h node).1 = ys.headD head ∧
      (usbyiRemoveDevlistNode h node).2.Ring head (xs ++ ys) := by
  refine ⟨ring.next, ?_⟩
  rw [usbyiRemoveDevlistNode_links (ring.next_ne)]
  exact ring.remove rfl rfl

end

/-- `live` are the members, in the order in which they came. -/
structure DevlistState (ι : Type u) where
  nodes : DevlistNodes ι
  live : List ι

inductive DevlistCall (ι : Type u) where
  | insert (node : ι)
  | remove (node : ι)

/-- A fresh node comes in before the head, a member is taken out. `h` is the heap before the
head is initialised. -/
def ringMachine (h : DevlistNodes ι) (head : ι) : Machine (DevlistState ι) (DevlistCall ι) where
  init := { nodes := usbyiInitDevlistHead h head, live := [] }
  step s
    | .insert node =>
      if node ∈ head :: s.live then none
      else some
        { nodes := usbyiInsertBeforeDevlistNode s.nodes node head, live := s.live ++ [node] }
    | .remove node =>
      if node ∈ s.live then
        some { nodes := (usbyiRemoveDevlistNode s.nodes node).2, live := s.live.erase node }
      else none

section
variable {h : DevlistNodes ι} {head node : ι} {s t : DevlistState ι} {call : DevlistCall ι}

theorem ringMachine_insert (hstep : (ringMachine h head).step s (.insert node) = some t) :
    node ∉ head :: s.live ∧ t =
      { nodes := usbyiInsertBeforeDevlistNode s.nodes node head, live := s.live ++ [node] } := by
  simp only [ringMachine] at hstep
  split_ifs at hstep with fresh
  exact ⟨fresh, (Option.some.inj hstep).symm⟩

theorem ringMachine_remove (hstep : (ringMachine h head).step s (.remove node) = some t) :
    node ∈ s.live ∧ t =
      { nodes := (usbyiRemoveDevlistNode s.nodes node).2, live := s.live.erase node } := by
  simp only [ringMachine] at hstep
  split_ifs at hstep with member
  exact ⟨member, (Option.some.inj hstep).symm⟩

theorem ringMachine_ring (ring : s.nodes.Ring head s.live)
    (hstep : (ringMachine h head).step s call = some t) : t.nodes.Ring head t.live := by
  cases call with
  | insert node =>
    obtain ⟨fresh, rfl⟩ := ringMachine_insert hstep
    exact usbyiInsertBeforeDevlistNode_ring ring fresh
  | remove node =>
    obtain ⟨member, rfl⟩ := ringMachine_remove hstep
    obtain ⟨as, bs, -, split, erased⟩ := List.exists_erase_eq member
    simp only
    rw [erased]
    rw [split] at ring
    exact (usbyiRemoveDevlistNode_ring ring).2

/-- What the links say about the members. -/
structure Circular (head : ι) (s : DevlistState ι) : Prop where
  forward : Path s.nodes.next head s.live head
  backward : Path s.nodes.prev head s.live.reverse head
  once : (head :: s.live).Nodup
  inverse : ∀ x ∈ head :: s.live,
    s.nodes.prev (s.nodes.next x) = x ∧ s.nodes.next (s.nodes.prev x) = x
  search : ∀ p n, s.live.length < n → search s.nodes.next head p n (s.nodes.next head) =
    some (s.live.takeWhile (fun x => !p x) ++ (s.live.find? p).toList, (s.live.find? p).getD head)

/-- What a call writes and returns. -/
structure Confined (head : ι) (s : DevlistState ι) (call : DevlistCall ι) (t : DevlistState ι) :
    Prop where
  outside : ∀ x ∉ head :: t.live,
    t.nodes.next x = s.nodes.next x ∧ t.nodes.prev x = s.nodes.prev x
  returns : ∀ node as bs, call = .remove node → s.live = as ++ node :: bs →
    (usbyiRemoveDevlistNode s.nodes node).1 = bs.headD head

theorem circular_of_ring (ring : s.nodes.Ring head s.live) : Circular head s where
  forward := ring.forward
  backward := ring.backward
  once := ring.nodup
  inverse := fun x hx => ⟨ring.prev_next x hx, ring.next_prev x hx⟩
  search := fun p _ fuel => ring.forward.search (List.nodup_cons.1 ring.nodup).1 p fuel

theorem confined_of_ring (ring : s.nodes.Ring head s.live)
    (hstep : (ringMachine h head).step s call = some t) : Confined head s call t := by
  constructor
  · intro x outside
    cases call with
    | insert node =>
      obtain ⟨fresh, rfl⟩ := ringMachine_insert hstep
      have last : s.nodes.prev head ∈ head :: s.live := by
        rw [ring.prev_head]
        exact List.getLastD_mem_cons
      simp only [List.mem_cons, List.mem_append, List.not_mem_nil, or_false, not_or] at outside last
      obtain ⟨notHead, notLive, notNode⟩ := outside
      have notLast : x ≠ s.nodes.prev head := by
        rintro rfl
        exact last.elim notHead notLive
      simp only [usbyiInsertBeforeDevlistNode_links (List.ne_of_not_mem_cons fresh)]
      rw [Function.update_of_ne notLast, Function.update_of_ne notNode,
        Function.update_of_ne notHead, Function.update_of_ne notNode]
      exact ⟨rfl, rfl⟩
    | remove node =>
      obtain ⟨member, rfl⟩ := ringMachine_remove hstep
      obtain ⟨as, bs, -, split, erased⟩ := List.exists_erase_eq member
      rw [split] at ring
      have notNext : x ≠ s.nodes.next node := by
        rintro rfl
        apply outside
        rw [erased, ring.next, ← List.cons_append, List.mem_append]
        cases bs <;> simp
      have notPrev : x ≠ s.nodes.prev node := by
        rintro rfl
        apply outside
        rw [erased, ring.prev, ← List.cons_append, List.mem_append]
        exact .inl List.getLastD_mem_cons
      simp only [usbyiRemoveDevlistNode_links (ring.next_ne)]
      rw [Function.update_of_ne notPrev, Function.update_of_ne notNext]
      exact ⟨rfl, rfl⟩
  · rintro node as bs rfl split
    rw [split] at ring
    exact (usbyiRemoveDevlistNode_ring ring).1

/-- After every call the links lead once around the members, from the head and back to it, and
a call writes to the links of members only. -/
theorem devlist_ring (h : DevlistNodes ι) (head : ι) (calls : List (DevlistCall ι)) :
    (∀ x, x ≠ head → (usbyiInitDevlistHead h head).next x = h.next x ∧
      (usbyiInitDevlistHead h head).prev x = h.prev x) ∧
    (ringMachine h head).Always (Circular head) (ringMachine h head).init calls ∧
      (ringMachine h head).Steps (Confined head) (ringMachine h head).init calls := by
  have start : (ringMachine h head).init.nodes.Ring head (ringMachine h head).init.live :=
    usbyiInitDevlistHead_ring h head
  have free : (ringMachine h head).Steps (fun _ _ _ => True) (ringMachine h head).init calls :=
    .of_step fun _ _ _ _ => trivial
  have run := free.invariant (I := fun s => s.nodes.Ring head s.live) (Q := Confined head)
    (fun _ _ _ ring _ hstep => ⟨ringMachine_ring ring hstep, confined_of_ring ring hstep⟩) start
  refine ⟨fun x hx => ?_, run.1.mono fun _ => circular_of_ring, run.2⟩
  exact ⟨Function.update_of_ne hx .., Function.update_of_ne hx ..⟩

end

end Libusby.Core
