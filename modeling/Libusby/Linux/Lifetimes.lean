import Libusby.Core.Session

/-!
# Contexts and transfers on usbfs

The `pthread` functions return 0 or a positive error number. `usbyb_init_transfer` looks for
anything but 0, `usbyb_init` for what is negative, so it goes on without the mutex or the
condition variable, and `usbyb_exit` destroys what was never made. `usbyb_submit_transfer` stores
a null pointer over the table that `realloc` could not enlarge, and then a record through it.
-/

namespace Libusby.Linux.Lifetimes

open Foundations Libusby.Core

inductive Kind where
  | block | mutex | cond | file
  deriving DecidableEq, Repr

/-- The members of `usbyb_context` that have to be given back; `none` for a mutex or a condition
variable that could not be initialised. -/
structure Ctx where
  ctxMutex : Option Nat
  ctxCond : Option Nat
  pipe : Nat × Nat
  watchedFds : Option Nat := none
  deriving DecidableEq, Repr

/-- What the calls of `usbyb_init` return; `pipe` is whether there are two descriptors. -/
structure InitCalls where
  mutexInit : Nat := 0
  condInit : Nat := 0
  pipe : Bool := true
  deriving DecidableEq, Repr

/-- To destroy what is not initialised is a fault. -/
def pthreadDestroy (kind : Kind) : Option Nat → Manages Kind Unit
  | none => fun _ => .error .free
  | some object => release kind object

def pipe (ok : Bool) : Manages Kind (Option (Nat × Nat)) := do
  let readEnd ← acquire .file ok
  let writeEnd ← acquire .file ok
  return readEnd.bind fun r => writeEnd.map fun w => (r, w)

/-- A `pthread` object is usable if the function that initialises it returns 0. -/
def usbybInit (calls : InitCalls) : Manages Kind (Except Error Ctx) := do
  let ctxMutex ← acquire .mutex (calls.mutexInit = 0)
  if (calls.mutexInit : Int) < 0 then return .error .noMem
  else do
    let ctxCond ← acquire .cond (calls.condInit = 0)
    if (calls.condInit : Int) < 0 then do
      pthreadDestroy .mutex ctxMutex
      return .error .noMem
    else do
      match ← pipe calls.pipe with
      | none => do
        pthreadDestroy .cond ctxCond
        pthreadDestroy .mutex ctxMutex
        return .error .noMem
      | some pipe => return .ok { ctxMutex, ctxCond, pipe }

def usbybExit (ctx : Ctx) : Manages Kind Unit := do
  releaseIf .block ctx.watchedFds
  release .file ctx.pipe.1
  release .file ctx.pipe.2
  pthreadDestroy .cond ctx.ctxCond
  pthreadDestroy .mutex ctx.ctxMutex

/-- The condition variable of a transfer. -/
structure Tran where
  cond : Nat
  deriving DecidableEq, Repr

/-- `condInit` is what `pthread_cond_init` returns. -/
def usbybInitTransfer (condInit : Nat) : Manages Kind (Except Error Tran) := do
  match ← acquire .cond (condInit = 0) with
  | none => return .error .noMem
  | some cond => return .ok ⟨cond⟩

def usbybClearTransfer (tran : Tran) : Manages Kind Unit := release .cond tran.cond

/-- The `realloc` of `usbyb_submit_transfer` and the store of the new record. When `realloc`
fails nothing points to the old block any more, and the store is a fault. -/
def growWatchedFds (ctx : Ctx) (reallocOk : Bool) : Manages Kind Ctx := do
  let newfds ← reacquire .block ctx.watchedFds reallocOk
  let ctx := { ctx with watchedFds := newfds }
  match ctx.watchedFds with
  | none => fun _ => .error .store
  | some _ => return ctx

def usbfs : Usbyb Kind Ctx Tran InitCalls Nat where
  block := .block
  init := usbybInit
  exit := usbybExit
  initTransfer := usbybInitTransfer
  clearTransfer := usbybClearTransfer
  grow := growWatchedFds

/-- The resources of a context. -/
def Ctx.owns (ctx : Ctx) : List (Resource Kind) :=
  ctx.watchedFds.toList.map (⟨.block, ·⟩) ++ ⟨.file, ctx.pipe.1⟩ :: ⟨.file, ctx.pipe.2⟩ ::
    (ctx.ctxCond.toList.map (⟨.cond, ·⟩) ++ ctx.ctxMutex.toList.map (⟨.mutex, ·⟩))

def Tran.owns (tran : Tran) : List (Resource Kind) := [⟨.cond, tran.cond⟩]

/-- Both `pthread` objects could be initialised. -/
def Ctx.Whole (ctx : Ctx) : Prop := ctx.ctxMutex.isSome ∧ ctx.ctxCond.isSome

/-- Where the initialisation fails, there is nothing to destroy that was not made. -/
def InitCalls.Sound (calls : InitCalls) : Prop :=
  calls.pipe = true ∨ calls.mutexInit = 0 ∧ calls.condInit = 0

theorem pthreadDestroy_triple (kind : Kind) {object : Option Nat} (h : object.isSome) :
    Triple (object.toList.map (⟨kind, ·⟩)) (pthreadDestroy kind object) fun _ => [] := by
  cases object with
  | none => cases h
  | some object => exact .release kind object

theorem pthreadDestroy_returns (kind : Kind) (object : Option Nat) :
    Returns (pthreadDestroy kind object) fun _ => object.isSome := by
  intro p a p' h
  cases object with
  | none => cases h
  | some object => rfl

theorem pipe_triple (ok : Bool) :
    Triple [] (pipe ok) fun ends => ends.toList.flatMap fun e => [⟨.file, e.1⟩, ⟨.file, e.2⟩] := by
  intro p frame hp
  cases ok with
  | true => exact ⟨_, _, rfl, ((hp.cons _).cons _).trans (.swap ..)⟩
  | false => exact ⟨_, _, rfl, hp⟩

theorem pipe_returns (ok : Bool) : Returns (pipe ok) (·.isSome = ok) := by
  intro p a p' h
  cases ok <;> cases h <;> rfl

theorem usbybInit_triple {calls : InitCalls} (sound : calls.Sound) :
    Triple [] (usbybInit calls) fun r => r.toOption.toList.flatMap Ctx.owns := by
  refine (Triple.acquire _ _).bind_of (acquire_returns _ _) fun mutex hmutex => ?_
  rw [if_neg (by omega)]
  refine (Triple.acquire _ _).first_of (acquire_returns _ _) (.refl _) fun cond hcond => ?_
  rw [if_neg (by omega)]
  refine (pipe_triple _).first_of (pipe_returns _) (.refl _) fun ends hends => ?_
  cases ends with
  | some ends => exact .pure _ (by simp [Ctx.owns, Except.toOption])
  | none =>
    have made : calls.mutexInit = 0 ∧ calls.condInit = 0 := by
      obtain pipe | made := sound
      · cases hends.trans pipe
      · exact made
    refine (pthreadDestroy_triple .cond (by simp [hcond, made])).first (.refl _) fun _ => ?_
    refine (pthreadDestroy_triple .mutex (by simp [hmutex, made])).bind fun _ => ?_
    exact .pure _ (.refl _)

theorem usbybInit_returns {calls : InitCalls} (unsound : ¬ calls.Sound) :
    Returns (usbybInit calls) fun _ => False := by
  refine (acquire_returns _ _).bind fun mutex hmutex => ?_
  rw [if_neg (by omega)]
  refine (acquire_returns _ _).bind fun cond hcond => ?_
  rw [if_neg (by omega)]
  refine (pipe_returns _).bind fun ends hends => ?_
  cases ends with
  | some ends => exact absurd (Or.inl hends.symm) unsound
  | none =>
    refine (pthreadDestroy_returns .cond cond).bind fun _ condMade => ?_
    refine (pthreadDestroy_returns .mutex mutex).bind fun _ mutexMade => ?_
    rw [condMade] at hcond
    rw [mutexMade] at hmutex
    exact absurd (Or.inr ⟨of_decide_eq_true hmutex.symm, of_decide_eq_true hcond.symm⟩) unsound

theorem usbybExit_triple {ctx : Ctx} (whole : ctx.Whole) :
    Triple ctx.owns (usbybExit ctx) fun _ => [] := by
  refine (Triple.releaseIf Kind.block ctx.watchedFds).first (.refl _) fun _ => ?_
  refine (Triple.release Kind.file ctx.pipe.1).first (.refl _) fun _ => ?_
  refine (Triple.release Kind.file ctx.pipe.2).first (.refl _) fun _ => ?_
  refine (pthreadDestroy_triple .cond whole.2).first (.refl _) fun _ => ?_
  exact pthreadDestroy_triple .mutex whole.1

theorem growWatchedFds_triple (ctx : Ctx) : Triple ctx.owns (growWatchedFds ctx true) Ctx.owns := by
  refine (Triple.reacquire Kind.block ctx.watchedFds true).first_of (reacquire_returns _ _ _)
    (.refl _) fun newfds grown => ?_
  cases newfds with
  | none => cases grown
  | some newfds => exact .pure _ (.refl _)

theorem growWatchedFds_returns (ctx : Ctx) :
    Returns (growWatchedFds ctx false) fun _ => False := by
  refine (reacquire_returns _ _ _).bind fun newfds kept => ?_
  cases newfds with
  | none =>
    rintro p a p' ⟨⟩
  | some newfds => cases kept

theorem usbybExit_returns {ctx : Ctx} (broken : ¬ ctx.Whole) :
    Returns (usbybExit ctx) fun _ => False := by
  have any {α : Type} (m : Manages Kind α) : Returns m fun _ => True := fun _ _ _ _ => trivial
  refine (any _).bind fun _ _ => (any _).bind fun _ _ => (any _).bind fun _ _ => ?_
  refine (pthreadDestroy_returns .cond ctx.ctxCond).bind fun _ cond => ?_
  intro p a p' h
  exact broken ⟨pthreadDestroy_returns .mutex ctx.ctxMutex p a p' h, cond⟩

theorem usbfs_owns :
    usbfs.Owns Ctx.owns (fun _ => []) Tran.owns InitCalls.Sound Ctx.Whole (· = true) where
  init _ := usbybInit_triple
  unsound _ := usbybInit_returns
  exit _ := usbybExit_triple
  broken _ := usbybExit_returns
  initTransfer condInit := by
    refine (Triple.acquire Kind.cond _).bind fun cond => ?_
    cases cond <;> exact .pure _ (.refl _)
  clearTransfer tran := .release Kind.cond tran.cond
  grow ctx _ grows := grows ▸ growWatchedFds_triple ctx
  stuck ctx _ stuck := Bool.eq_false_iff.2 stuck ▸ growWatchedFds_returns ctx

/-- Contexts and transfers come and go, whatever the calls to the outside return. There is no
fault as long as no context is destroyed whose mutex or condition variable could not be
initialised, neither of them is missing when the pipe cannot be made, and there is memory for the
table of descriptors, and then nothing is held but what the contexts and transfers that are left
hold. -/
theorem usbfs_holds (es : List (Call InitCalls Nat)) :
    (usbfs.session.Always (∃ s, · = .ok s) usbfs.session.init es ↔
      usbfs.session.Steps (fun x e _ => ¬ Usbyb.Breaks InitCalls.Sound Ctx.Whole (· = true) x e)
        usbfs.session.init es) ∧
    ∀ s, usbfs.session.exec usbfs.session.init es = some (.ok s) →
      usbfs.Holds Ctx.owns Tran.owns s [] := by
  have session := usbfs_owns.session_holds es
  refine ⟨session.1, fun s run => ?_⟩
  have none : usbfs.session.log (Usbyb.leaves fun _ => []) usbfs.session.init es = [] := by
    apply Machine.log_of_nil
    rintro x (_ | _ | _ | _ | _) <;> simp [Usbyb.leaves]
  rw [← none]
  exact session.2 s run

end Libusby.Linux.Lifetimes
