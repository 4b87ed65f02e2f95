import Mathlib.Data.List.Perm.Basic
import Libusby.Foundations.Buffer

/-!
# Resources that are acquired and released

A `Pool` knows what is held, each thing under a kind and a number that is never used again. A
program on a pool faults if it releases what is not held. `Triple P m Q` says that `m` needs the
resources `P` and turns them into `Q`, whatever else is held: nothing of it is lost and nothing
is released twice.
-/

namespace Libusby.Foundations

structure Resource (κ : Type) where
  kind : κ
  id : Nat
  deriving DecidableEq, Repr

structure Pool (κ : Type) where
  next : Nat := 0
  held : List (Resource κ) := []
  fresh : ∀ r ∈ held, r.id < next := by simp
  nodup : held.Nodup := by simp

/-- A program that holds and gives back resources. -/
abbrev Manages (κ α : Type) := StateT (Pool κ) (Except Fault) α

section
variable {κ α β : Type}

theorem Pool.fresh_cons (p : Pool κ) (kind : κ) :
    ∀ r ∈ (⟨kind, p.next⟩ : Resource κ) :: p.held, r.id < p.next + 1 := by
  intro r hr
  obtain rfl | hr := List.mem_cons.1 hr
  · exact Nat.lt_succ_self _
  · exact Nat.lt_succ_of_lt (p.fresh r hr)

theorem Pool.nodup_cons (p : Pool κ) (kind : κ) :
    ((⟨kind, p.next⟩ : Resource κ) :: p.held).Nodup :=
  List.nodup_cons.2 ⟨fun hr => Nat.lt_irrefl _ (p.fresh _ hr), p.nodup⟩

/-- A new resource. -/
def make (kind : κ) : Manages κ Nat := fun p =>
  .ok (p.next, ⟨p.next + 1, ⟨kind, p.next⟩ :: p.held, p.fresh_cons kind, p.nodup_cons kind⟩)

/-- A new resource, if there is one to be had. -/
def acquire (kind : κ) (ok : Bool) : Manages κ (Option Nat) :=
  if ok then some <$> make kind else pure none

/-- `m` turns `P` into `Q`, and leaves alone what else is held. -/
def Triple (P : List (Resource κ)) (m : Manages κ α) (Q : α → List (Resource κ)) : Prop :=
  ∀ p frame, p.held.Perm (P ++ frame) →
    ∃ a p', m p = .ok (a, p') ∧ p'.held.Perm (Q a ++ frame)

/-- What `m` returns, if it returns. -/
def Returns (m : Manages κ α) (V : α → Prop) : Prop := ∀ p a p', m p = .ok (a, p') → V a

theorem Returns.bind {V : α → Prop} {W : β → Prop} {m : Manages κ α} {f : α → Manages κ β}
    (hm : Returns m V) (hf : ∀ a, V a → Returns (f a) W) : Returns (m >>= f) W := by
  intro p b p' h
  obtain ⟨⟨a, q⟩, ha, hb⟩ := bind_eq_ok.1 h
  exact hf a (hm p a q ha) q b p' hb

theorem acquire_returns (kind : κ) (ok : Bool) : Returns (acquire kind ok) (·.isSome = ok) := by
  intro p a p' h
  cases ok <;> cases h <;> rfl

namespace Triple

variable {P P' F : List (Resource κ)} {Q Q' : α → List (Resource κ)} {R : β → List (Resource κ)}
  {V : α → Prop} {m : Manages κ α} {f : α → Manages κ β}

theorem pure (a : α) (h : P.Perm (Q a)) : Triple P (Pure.pure a : Manages κ α) Q :=
  fun p _ hp => ⟨a, p, rfl, hp.trans (h.append_right _)⟩

theorem bind_of (h : Triple P m Q) (hV : Returns m V) (hf : ∀ a, V a → Triple (Q a) (f a) R) :
    Triple P (m >>= f) R := by
  intro p frame hp
  obtain ⟨a, p', hm, hp'⟩ := h p frame hp
  obtain ⟨b, p'', hb, hp''⟩ := hf a (hV p a p' hm) p' frame hp'
  refine ⟨b, p'', ?_, hp''⟩
  change (m p >>= fun x => f x.1 x.2) = _
  rw [hm]
  exact hb

theorem bind (h : Triple P m Q) (hf : ∀ a, Triple (Q a) (f a) R) : Triple P (m >>= f) R :=
  h.bind_of (V := fun _ => True) (fun _ _ _ _ => trivial) fun a _ => hf a

theorem perm (h : Triple P m Q) (hP : P.Perm P') (hQ : ∀ a, (Q a).Perm (Q' a)) :
    Triple P' m Q' := by
  intro p frame hp
  obtain ⟨a, p', hm, hp'⟩ := h p frame (hp.trans (hP.symm.append_right _))
  exact ⟨a, p', hm, hp'.trans ((hQ a).append_right _)⟩

theorem frame (h : Triple P m Q) (F : List (Resource κ)) :
    Triple (P ++ F) m fun a => Q a ++ F := by
  intro p frame hp
  obtain ⟨a, p', hm, hp'⟩ := h p (F ++ frame) (by simpa using hp)
  exact ⟨a, p', hm, by simpa using hp'⟩

/-- The part `P` of what is held is worked on first. -/
theorem first_of (h : Triple P m Q) (hV : Returns m V) (hP : P'.Perm (P ++ F))
    (hf : ∀ a, V a → Triple (Q a ++ F) (f a) R) : Triple P' (m >>= f) R :=
  ((h.frame F).perm hP.symm fun _ => .refl _).bind_of hV hf

theorem first (h : Triple P m Q) (hP : P'.Perm (P ++ F))
    (hf : ∀ a, Triple (Q a ++ F) (f a) R) : Triple P' (m >>= f) R :=
  ((h.frame F).perm hP.symm fun _ => .refl _).bind hf

theorem make (kind : κ) : Triple [] (Foundations.make kind) fun id => [⟨kind, id⟩] :=
  fun _ _ hp => ⟨_, _, rfl, hp.cons _⟩

theorem acquire (kind : κ) (ok : Bool) :
    Triple [] (Foundations.acquire kind ok) fun id => id.toList.map (⟨kind, ·⟩) := by
  intro p frame hp
  cases ok with
  | true => exact ⟨_, _, rfl, hp.cons _⟩
  | false => exact ⟨none, p, rfl, hp⟩

end Triple

variable [DecidableEq κ]

def release (kind : κ) (id : Nat) : Manages κ Unit := fun p =>
  if ⟨kind, id⟩ ∈ p.held then
    .ok ((), ⟨p.next, p.held.erase ⟨kind, id⟩, fun r hr => p.fresh r (List.mem_of_mem_erase hr),
      p.nodup.erase _⟩)
  else .error .free

/-- `free(NULL)` does nothing. -/
def releaseIf (kind : κ) (id : Option Nat) : Manages κ Unit :=
  match id with
  | none => pure ()
  | some id => release kind id

/-- `realloc`: the old block is gone if there is a new one. -/
def reacquire (kind : κ) (id : Option Nat) (ok : Bool) : Manages κ (Option Nat) := do
  let new ← acquire kind ok
  if new.isSome then releaseIf kind id
  return new

theorem reacquire_returns (kind : κ) (id : Option Nat) (ok : Bool) :
    Returns (reacquire kind id ok) (·.isSome = ok) := by
  refine (acquire_returns kind ok).bind fun new hnew => ?_
  intro p a p' h
  split_ifs at h
  · obtain ⟨⟨_, q⟩, -, hq⟩ := bind_eq_ok.1 h
    cases hq
    exact hnew
  · cases h
    exact hnew

namespace Triple

theorem release (kind : κ) (id : Nat) :
    Triple [⟨kind, id⟩] (Foundations.release kind id) fun _ => [] := by
  intro p frame hp
  have held : ⟨kind, id⟩ ∈ p.held := hp.mem_iff.2 (List.mem_cons_self ..)
  refine ⟨(), _, if_pos held, ?_⟩
  simpa using hp.erase ⟨kind, id⟩

theorem releaseIf (kind : κ) (id : Option Nat) :
    Triple (id.toList.map (⟨kind, ·⟩)) (Foundations.releaseIf kind id) fun _ => [] := by
  cases id with
  | none => exact .pure () (.refl _)
  | some id => exact release kind id

/-- Of the two blocks one is held afterwards. -/
theorem reacquire (kind : κ) (id : Option Nat) (ok : Bool) :
    Triple (id.toList.map (⟨kind, ·⟩)) (Foundations.reacquire kind id ok) fun new =>
      (new.or id).toList.map (⟨kind, ·⟩) := by
  refine (acquire kind ok).first (.refl _) fun new => ?_
  cases new with
  | none => exact .pure none (.refl _)
  | some n => exact (releaseIf kind id).first (List.perm_append_comm) fun _ => .pure _ (.refl _)

end Triple

end

end Libusby.Foundations
