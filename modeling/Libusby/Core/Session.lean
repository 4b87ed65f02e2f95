import Libusby.Foundations.Machine
import Libusby.Foundations.Resources
import Libusby.Types

/-!
# Contexts and transfers, made and destroyed

`libusby_init`, `libusby_exit`, `libusby_alloc_transfer` and `libusby_free_transfer` over any
backend, and a client that calls them in any order. A call fails as a whole or not at all: with
a backend that `Owns` what its objects hold, after every run the resources of the contexts and
transfers that are left are held, and what the contexts that are gone have left behind.
-/

namespace Libusby.Core

open Foundations

/-- The functions of a backend, over what the calls to the outside return. The last one is the
`realloc` of the array that a context keeps for its event loop. -/
structure Usbyb (κ Ctx Tran InitCalls TranCalls : Type) where
  block : κ
  init : InitCalls → Manages κ (Except Error Ctx)
  exit : Ctx → Manages κ Unit
  initTransfer : TranCalls → Manages κ (Except Error Tran)
  clearTransfer : Tran → Manages κ Unit
  grow : Ctx → Bool → Manages κ Ctx

/-- An object in a block of its own. -/
structure Allocated (α : Type) where
  res : Nat
  obj : α
  deriving DecidableEq, Repr

/-- The objects that a client has. -/
structure Session (κ Ctx Tran : Type) where
  pool : Pool κ := {}
  contexts : List (Allocated Ctx) := []
  transfers : List (Allocated Tran) := []

/-- A call of the client, on the object at a position of its list. -/
inductive Call (InitCalls TranCalls : Type) where
  | init (mallocOk : Bool) (calls : InitCalls)
  | exit (i : Nat)
  | allocTransfer (mallocOk : Bool) (calls : TranCalls)
  | freeTransfer (i : Nat)
  | grow (i : Nat) (reallocOk : Bool)

variable {κ Ctx Tran InitCalls TranCalls : Type} [DecidableEq κ]

namespace Usbyb

variable (usbyb : Usbyb κ Ctx Tran InitCalls TranCalls)

def libusbyInit (mallocOk : Bool) (calls : InitCalls) :
    Manages κ (Except Error (Allocated Ctx)) := do
  match ← acquire usbyb.block mallocOk with
  | none => return .error .noMem
  | some res =>
    match ← usbyb.init calls with
    | .error r => do
      release usbyb.block res
      return .error r
    | .ok ctx => return .ok ⟨res, ctx⟩

def libusbyExit (ctx : Allocated Ctx) : Manages κ Unit := do
  usbyb.exit ctx.obj
  release usbyb.block ctx.res

def libusbyAllocTransfer (mallocOk : Bool) (calls : TranCalls) :
    Manages κ (Option (Allocated Tran)) := do
  match ← acquire usbyb.block mallocOk with
  | none => return none
  | some res =>
    match ← usbyb.initTransfer calls with
    | .error _ => do
      release usbyb.block res
      return none
    | .ok tran => return some ⟨res, tran⟩

def libusbyFreeTransfer (tran : Allocated Tran) : Manages κ Unit := do
  usbyb.clearTransfer tran.obj
  release usbyb.block tran.res

def call (s : Session κ Ctx Tran) :
    Call InitCalls TranCalls → Option (Except Fault (Session κ Ctx Tran))
  | .init mallocOk calls => some do
    let (r, pool) ← usbyb.libusbyInit mallocOk calls s.pool
    return { s with pool, contexts := r.toOption.toList ++ s.contexts }
  | .exit i => s.contexts[i]?.map fun ctx => do
    let (_, pool) ← usbyb.libusbyExit ctx s.pool
    return { s with pool, contexts := s.contexts.eraseIdx i }
  | .allocTransfer mallocOk calls => some do
    let (r, pool) ← usbyb.libusbyAllocTransfer mallocOk calls s.pool
    return { s with pool, transfers := r.toList ++ s.transfers }
  | .freeTransfer i => s.transfers[i]?.map fun tran => do
    let (_, pool) ← usbyb.libusbyFreeTransfer tran s.pool
    return { s with pool, transfers := s.transfers.eraseIdx i }
  | .grow i reallocOk => s.contexts[i]?.map fun ctx => do
    let (obj, pool) ← usbyb.grow ctx.obj reallocOk s.pool
    return { s with pool, contexts := s.contexts.set i { ctx with obj } }

/-- A fault ends the run. -/
def session : Machine (Except Fault (Session κ Ctx Tran)) (Call InitCalls TranCalls) where
  init := .ok {}
  step s e := s.toOption.bind fun s => usbyb.call s e

/-- The resources of an object and its block. -/
def resources {α : Type} (own : α → List (Resource κ)) (a : Allocated α) : List (Resource κ) :=
  ⟨usbyb.block, a.res⟩ :: own a.obj

/-- What is held: the resources of the contexts and transfers that are left, and `others`. -/
def Holds (ctx : Ctx → List (Resource κ)) (tran : Tran → List (Resource κ))
    (s : Session κ Ctx Tran) (others : List (Resource κ)) : Prop :=
  s.pool.held.Perm (s.contexts.flatMap (usbyb.resources ctx) ++
    (s.transfers.flatMap (usbyb.resources tran) ++ others))

/-- What the functions of the backend turn into what; `rest` is what a context leaves behind. Only
`Sound` calls lead out of an initialisation, only out of a context that is `Whole` leads its exit,
and only a `realloc` that `Grows` the array leads out of that. -/
structure Owns (ctx rest : Ctx → List (Resource κ)) (tran : Tran → List (Resource κ))
    (Sound : InitCalls → Prop) (Whole : Ctx → Prop) (Grows : Bool → Prop) : Prop where
  init : ∀ calls, Sound calls → Triple [] (usbyb.init calls) fun r =>
    r.toOption.toList.flatMap ctx
  unsound : ∀ calls, ¬ Sound calls → Returns (usbyb.init calls) fun _ => False
  exit : ∀ c, Whole c → Triple (ctx c) (usbyb.exit c) fun _ => rest c
  broken : ∀ c, ¬ Whole c → Returns (usbyb.exit c) fun _ => False
  initTransfer : ∀ calls, Triple [] (usbyb.initTransfer calls) fun r =>
    r.toOption.toList.flatMap tran
  clearTransfer : ∀ t, Triple (tran t) (usbyb.clearTransfer t) fun _ => []
  grow : ∀ c ok, Grows ok → Triple (ctx c) (usbyb.grow c ok) ctx
  stuck : ∀ c ok, ¬ Grows ok → Returns (usbyb.grow c ok) fun _ => False

/-- A context is destroyed that is not `Whole`, or initialised with calls that are not `Sound`, or
its array cannot grow. -/
def Breaks (Sound : InitCalls → Prop) (Whole : Ctx → Prop) (Grows : Bool → Prop)
    (x : Except Fault (Session κ Ctx Tran)) (e : Call InitCalls TranCalls) : Prop :=
  (∃ s i c, x = .ok s ∧ e = .exit i ∧ s.contexts[i]? = some c ∧ ¬ Whole c.obj) ∨
    (∃ s calls, x = .ok s ∧ e = .init true calls ∧ ¬ Sound calls) ∨
    ∃ s i c ok, x = .ok s ∧ e = .grow i ok ∧ s.contexts[i]? = some c ∧ ¬ Grows ok

/-- What the context that a call destroys leaves behind. -/
def leaves (rest : Ctx → List (Resource κ)) (x : Except Fault (Session κ Ctx Tran)) :
    Call InitCalls TranCalls → List (Resource κ)
  | .exit i => x.toOption.toList.flatMap fun s => s.contexts[i]?.toList.flatMap fun c => rest c.obj
  | _ => []

variable {usbyb} {ctx rest : Ctx → List (Resource κ)} {tran : Tran → List (Resource κ)}
  {Sound : InitCalls → Prop} {Whole : Ctx → Prop} {Grows : Bool → Prop}

namespace Owns

theorem libusbyInit (h : usbyb.Owns ctx rest tran Sound Whole Grows) {mallocOk : Bool}
    {calls : InitCalls} (sound : mallocOk = true → Sound calls) :
    Triple [] (usbyb.libusbyInit mallocOk calls) fun r =>
      r.toOption.toList.flatMap (usbyb.resources ctx) := by
  cases mallocOk with
  | false => exact fun p _ hp => ⟨.error .noMem, p, rfl, hp⟩
  | true =>
    refine (Triple.acquire _ _).bind fun res => ?_
    cases res with
    | none => exact .pure _ (.refl _)
    | some res =>
      refine (h.init calls (sound rfl)).first (.refl _) fun r => ?_
      cases r with
      | error r => exact (Triple.release _ _).bind fun _ => .pure _ (.refl _)
      | ok c => exact .pure _ (by simp [resources, Except.toOption])

theorem libusbyExit (h : usbyb.Owns ctx rest tran Sound Whole Grows) {c : Allocated Ctx}
    (whole : Whole c.obj) :
    Triple (usbyb.resources ctx c) (usbyb.libusbyExit c) fun _ => rest c.obj := by
  refine (h.exit c.obj whole).first (List.perm_append_singleton _ _).symm fun _ => ?_
  exact ((Triple.release _ _).frame _).perm List.perm_append_comm fun _ => .refl _

theorem libusbyAllocTransfer (h : usbyb.Owns ctx rest tran Sound Whole Grows) (mallocOk : Bool)
    (calls : TranCalls) : Triple [] (usbyb.libusbyAllocTransfer mallocOk calls) fun r =>
      r.toList.flatMap (usbyb.resources tran) := by
  refine (Triple.acquire _ _).bind fun res => ?_
  cases res with
  | none => exact .pure _ (.refl _)
  | some res =>
    refine (h.initTransfer calls).first (.refl _) fun r => ?_
    cases r with
    | error r => exact (Triple.release _ _).bind fun _ => .pure _ (.refl _)
    | ok t => exact .pure _ (by simp [resources, Except.toOption])

theorem libusbyFreeTransfer (h : usbyb.Owns ctx rest tran Sound Whole Grows) (t : Allocated Tran) :
    Triple (usbyb.resources tran t) (usbyb.libusbyFreeTransfer t) fun _ => [] :=
  (h.clearTransfer t.obj).first (List.perm_append_singleton _ _).symm fun _ => .release _ _

omit [DecidableEq κ] in
/-- The array of a context, next to its block. -/
theorem growContext (h : usbyb.Owns ctx rest tran Sound Whole Grows) (c : Allocated Ctx) {ok : Bool}
    (grows : Grows ok) : Triple (usbyb.resources ctx c) (usbyb.grow c.obj ok) fun obj =>
      usbyb.resources ctx { c with obj } :=
  ((h.grow c.obj ok grows).frame [⟨usbyb.block, c.res⟩]).perm (List.perm_append_singleton _ _)
    fun _ => List.perm_append_singleton _ _

end Owns

/-- An element is taken out of a list, or replaced. -/
theorem flatMap_eraseIdx {α β : Type} {l : List α} {a : α} {i : Nat} (f : α → List β)
    (h : l[i]? = some a) : (l.flatMap f).Perm (f a ++ (l.eraseIdx i).flatMap f) ∧
      ∀ b, ((l.set i b).flatMap f).Perm (f b ++ (l.eraseIdx i).flatMap f) := by
  obtain ⟨hi, rfl⟩ := List.getElem?_eq_some_iff.1 h
  exact ⟨(List.getElem_cons_eraseIdx_perm hi).symm.flatMap_right f,
    fun b => (List.set_perm_cons_eraseIdx hi b).flatMap_right f⟩

variable {s : Session κ Ctx Tran} {x y : Except Fault (Session κ Ctx Tran)}
  {e : Call InitCalls TranCalls} {others : List (Resource κ)}

/-- One call. -/
theorem Owns.holds_call (h : usbyb.Owns ctx rest tran Sound Whole Grows)
    (held : usbyb.Holds ctx tran s others) (he : ¬ Breaks Sound Whole Grows (.ok s) e)
    (hs : usbyb.session.step (.ok s) e = some y) :
    ∃ s', y = .ok s' ∧ usbyb.Holds ctx tran s' (others ++ leaves rest (.ok s) e) := by
  simp only [session, Except.toOption, Option.bind_some] at hs
  unfold Holds at held ⊢
  cases e with
  | init mallocOk calls =>
    have sound (ok : mallocOk = true) : Sound calls := by
      by_contra unsound
      exact he (.inr (.inl ⟨s, calls, rfl, by rw [ok], unsound⟩))
    obtain ⟨r, pool, hr, hp⟩ := h.libusbyInit sound s.pool _ held
    simp only [call, hr, ok_bind, Option.some.injEq] at hs
    subst hs
    exact ⟨_, rfl, by simpa [leaves] using hp⟩
  | exit i =>
    obtain ⟨c, hc, hs⟩ := Option.map_eq_some_iff.1 hs
    have whole : Whole c.obj := by
      by_contra broken
      exact he (.inl ⟨s, i, c, rfl, rfl, hc, broken⟩)
    have split := (flatMap_eraseIdx (usbyb.resources ctx) hc).1
    have before := held.trans (split.append_right _)
    rw [List.append_assoc] at before
    obtain ⟨_, pool, hr, hp⟩ := h.libusbyExit whole s.pool _ before
    rw [hr, ok_bind] at hs
    subst hs
    have left : leaves rest (.ok s) (Call.exit i : Call InitCalls TranCalls) = rest c.obj := by
      simp [leaves, hc, Except.toOption]
    refine ⟨_, rfl, hp.trans (List.perm_append_comm.trans ?_)⟩
    simp [left]
  | allocTransfer mallocOk calls =>
    obtain ⟨r, pool, hr, hp⟩ := h.libusbyAllocTransfer mallocOk calls s.pool _ held
    simp only [call, hr, ok_bind, Option.some.injEq] at hs
    subst hs
    refine ⟨_, rfl, hp.trans ((List.perm_append_comm_assoc ..).trans ?_)⟩
    simp [leaves]
  | freeTransfer i =>
    obtain ⟨t, ht, hs⟩ := Option.map_eq_some_iff.1 hs
    have split := (flatMap_eraseIdx (usbyb.resources tran) ht).1
    have before := held.trans ((split.append_right others).append_left _)
    rw [List.append_assoc] at before
    obtain ⟨_, pool, hr, hp⟩ := h.libusbyFreeTransfer t s.pool _
      (before.trans (List.perm_append_comm_assoc ..))
    rw [hr, ok_bind] at hs
    subst hs
    exact ⟨_, rfl, by simpa [leaves] using hp⟩
  | grow i reallocOk =>
    obtain ⟨c, hc, hs⟩ := Option.map_eq_some_iff.1 hs
    have split := flatMap_eraseIdx (usbyb.resources ctx) hc
    have before := held.trans (split.1.append_right _)
    rw [List.append_assoc] at before
    have grows : Grows reallocOk := by
      by_contra stuck
      exact he (.inr (.inr ⟨s, i, c, reallocOk, rfl, rfl, hc, stuck⟩))
    obtain ⟨obj, pool, hr, hp⟩ := h.growContext c grows s.pool _ before
    rw [hr, ok_bind] at hs
    subst hs
    rw [← List.append_assoc] at hp
    refine ⟨_, rfl, hp.trans (((split.2 _).symm.append_right _).trans ?_)⟩
    simp [leaves]

/-- A context that is not whole is not destroyed, nor one initialised by unsound calls, nor does
an array that cannot grow. -/
theorem Owns.breaks_faults (h : usbyb.Owns ctx rest tran Sound Whole Grows)
    (he : Breaks Sound Whole Grows x e) (hs : usbyb.session.step x e = some y) : ¬∃ s, y = .ok s := by
  rintro ⟨s', rfl⟩
  obtain ⟨s, i, c, rfl, rfl, hc, broken⟩ | ⟨s, calls, rfl, rfl, unsound⟩ |
    ⟨s, i, c, ok, rfl, rfl, hc, stuck⟩ := he
  · simp only [session, Except.toOption, Option.bind_some, call, hc, Option.map_some,
      Option.some.injEq] at hs
    obtain ⟨out, exits, -⟩ := bind_eq_ok.1 hs
    obtain ⟨⟨_, pool⟩, exited, -⟩ := bind_eq_ok.1 exits
    exact h.broken c.obj broken _ _ pool exited
  · simp only [session, Except.toOption, Option.bind_some, call, Option.some.injEq] at hs
    obtain ⟨out, inits, -⟩ := bind_eq_ok.1 hs
    obtain ⟨⟨r, pool⟩, called, -⟩ := bind_eq_ok.1 inits
    exact h.unsound calls unsound _ r pool called
  · simp only [session, Except.toOption, Option.bind_some, call, hc, Option.map_some,
      Option.some.injEq] at hs
    obtain ⟨⟨obj, pool⟩, grown, -⟩ := bind_eq_ok.1 hs
    exact h.stuck c.obj ok stuck _ obj pool grown

/-- A run goes without a fault exactly if none of its calls breaks anything, and then the
resources of what is left are held, and what was left behind. -/
theorem Owns.session_holds (h : usbyb.Owns ctx rest tran Sound Whole Grows)
    (es : List (Call InitCalls TranCalls)) :
    (usbyb.session.Always (∃ s, · = .ok s) usbyb.session.init es ↔
      usbyb.session.Steps (fun x e _ => ¬ Breaks Sound Whole Grows x e) usbyb.session.init es) ∧
    ∀ s, usbyb.session.exec usbyb.session.init es = some (.ok s) →
      usbyb.Holds ctx tran s (usbyb.session.log (leaves rest) usbyb.session.init es) := by
  have initial : usbyb.Holds ctx tran {} [] := .refl _
  refine ⟨⟨fun always => ?_, fun steps => ?_⟩, fun s run => ?_⟩
  · refine Machine.Always.steps (I := fun _ => True) (fun _ _ _ _ _ => trivial) ?_ always trivial
    exact fun x e y _ _ hs hy broken => h.breaks_faults broken hs hy
  · have kept := (Machine.Steps.invariant (Q := fun _ _ _ => True)
      (I := fun x => ∃ s others, x = .ok s ∧ usbyb.Holds ctx tran s others) ?_ steps
      ⟨{}, [], rfl, initial⟩).1
    · exact kept.mono fun x ⟨s, _, hx, _⟩ => ⟨s, hx⟩
    · rintro _ e y ⟨s, others, rfl, held⟩ he hs
      obtain ⟨s', hy, held'⟩ := h.holds_call held he hs
      exact ⟨⟨s', _, hy, held'⟩, trivial⟩
  · refine Machine.exec_induction (motive := fun es x => ∀ s, x = .ok s →
      usbyb.Holds ctx tran s (usbyb.session.log (leaves rest) usbyb.session.init es)) ?_ ?_ run s rfl
    · rintro s ⟨⟩
      exact initial
    · rintro es u e _ hx ih hs s ⟨⟩
      cases u with
      | error f => cases hs
      | ok u =>
        have sound : ¬ Breaks Sound Whole Grows (.ok u) e := fun broken =>
          h.breaks_faults broken hs ⟨s, rfl⟩
        obtain ⟨s', ⟨⟩, held⟩ := h.holds_call (ih u rfl) sound hs
        rw [Machine.log_snoc hx hs]
        exact held

end Usbyb

end Libusby.Core
