import Libusby.Core.Session

/-!
# Contexts and transfers on libusb0

`usbyb_init` and `usbyb_init_transfer` close what they opened where one of their calls fails.
`usbyb_exit` does not call `usbyi_free_handle_list`, so the array of handles of the reaper
outlives its context.
-/

namespace Libusby.Win32.Lifetimes

open Foundations Libusby.Core

inductive Kind where
  | block | library | event | criticalSection
  deriving DecidableEq, Repr

/-- The members of `usbyb_context` that have to be given back. -/
structure Ctx where
  hKernel32 : Nat
  ctxMutex : Nat
  handles : Option Nat := none
  hReaperLock : Nat
  hEventLoopStopped : Nat
  hTransferListUpdated : Nat
  deriving DecidableEq, Repr

/-- Whether `LoadLibraryW` and the calls of `CreateEvent` succeed. -/
structure InitCalls where
  loadLibrary : Bool := true
  reaperLock : Bool := true
  eventLoopStopped : Bool := true
  transferListUpdated : Bool := true
  deriving DecidableEq, Repr

/-- Behind the label `error`; the context was cleared before. -/
def initError (hKernel32 : Nat) (hReaperLock hEventLoopStopped hTransferListUpdated : Option Nat) :
    Manages Kind (Except Error Ctx) := do
  releaseIf .event hTransferListUpdated
  releaseIf .event hEventLoopStopped
  releaseIf .event hReaperLock
  release .library hKernel32
  return .error .noMem

def usbybInit (calls : InitCalls) : Manages Kind (Except Error Ctx) := do
  match ← acquire .library calls.loadLibrary with
  | none => return .error .invalidParam
  | some hKernel32 => do
    match ← acquire .event calls.reaperLock with
    | none => initError hKernel32 none none none
    | some hReaperLock => do
      match ← acquire .event calls.eventLoopStopped with
      | none => initError hKernel32 hReaperLock none none
      | some hEventLoopStopped => do
        match ← acquire .event calls.transferListUpdated with
        | none => initError hKernel32 hReaperLock hEventLoopStopped none
        | some hTransferListUpdated => do
          let ctxMutex ← make .criticalSection
          return .ok { hKernel32, ctxMutex, hReaperLock, hEventLoopStopped, hTransferListUpdated }

def usbybExit (ctx : Ctx) : Manages Kind Unit := do
  release .criticalSection ctx.ctxMutex
  release .event ctx.hTransferListUpdated
  release .event ctx.hEventLoopStopped
  release .event ctx.hReaperLock
  release .library ctx.hKernel32

/-- The events of a transfer. -/
structure Tran where
  hCompletionEvent : Nat
  hEvent : Nat
  deriving DecidableEq, Repr

/-- Whether the two calls of `CreateEvent` succeed. -/
structure TranCalls where
  completionEvent : Bool := true
  event : Bool := true
  deriving DecidableEq, Repr

def usbybInitTransfer (calls : TranCalls) : Manages Kind (Except Error Tran) := do
  match ← acquire .event calls.completionEvent with
  | none => return .error .noMem
  | some hCompletionEvent => do
    match ← acquire .event calls.event with
    | none => do
      release .event hCompletionEvent
      return .error .noMem
    | some hEvent => return .ok { hCompletionEvent, hEvent }

def usbybClearTransfer (tran : Tran) : Manages Kind Unit := do
  release .event tran.hEvent
  release .event tran.hCompletionEvent

/-- The `realloc` of `usbyi_reserve_handle_list`. -/
def growHandles (ctx : Ctx) (reallocOk : Bool) : Manages Kind Ctx := do
  let newHandles ← reacquire .block ctx.handles reallocOk
  return { ctx with handles := newHandles.or ctx.handles }

def libusb0 : Usbyb Kind Ctx Tran InitCalls TranCalls where
  block := .block
  init := usbybInit
  exit := usbybExit
  initTransfer := usbybInitTransfer
  clearTransfer := usbybClearTransfer
  grow := growHandles

def Ctx.owns (ctx : Ctx) : List (Resource Kind) :=
  ctx.handles.toList.map (⟨.block, ·⟩) ++
    [⟨.criticalSection, ctx.ctxMutex⟩, ⟨.event, ctx.hTransferListUpdated⟩,
      ⟨.event, ctx.hEventLoopStopped⟩, ⟨.event, ctx.hReaperLock⟩, ⟨.library, ctx.hKernel32⟩]

def Tran.owns (tran : Tran) : List (Resource Kind) :=
  [⟨.event, tran.hEvent⟩, ⟨.event, tran.hCompletionEvent⟩]

theorem initError_triple (hKernel32 : Nat)
    (hReaperLock hEventLoopStopped hTransferListUpdated : Option Nat) :
    Triple (hTransferListUpdated.toList.map (⟨.event, ·⟩) ++
        (hEventLoopStopped.toList.map (⟨.event, ·⟩) ++
          (hReaperLock.toList.map (⟨.event, ·⟩) ++ [⟨.library, hKernel32⟩])))
      (initError hKernel32 hReaperLock hEventLoopStopped hTransferListUpdated)
      fun r => r.toOption.toList.flatMap Ctx.owns := by
  refine (Triple.releaseIf Kind.event _).first (.refl _) fun _ => ?_
  refine (Triple.releaseIf Kind.event _).first (.refl _) fun _ => ?_
  refine (Triple.releaseIf Kind.event _).first (.refl _) fun _ => ?_
  exact (Triple.release Kind.library _).bind fun _ => .pure _ (.refl _)

/-- With the resources in the order in which they were acquired. -/
theorem usbybInit_triple (calls : InitCalls) :
    Triple [] (usbybInit calls) fun r => r.toOption.toList.flatMap Ctx.owns := by
  refine (Triple.acquire _ _).bind fun library => ?_
  cases library with
  | none => exact .pure _ (.refl _)
  | some library =>
  refine (Triple.acquire _ _).first (.refl _) fun lock => ?_
  cases lock with
  | none => exact initError_triple library none none none
  | some lock =>
  refine (Triple.acquire _ _).first (.refl _) fun stopped => ?_
  cases stopped with
  | none => exact initError_triple library (some lock) none none
  | some stopped =>
  refine (Triple.acquire _ _).first (.refl _) fun updated => ?_
  cases updated with
  | none => exact initError_triple library (some lock) (some stopped) none
  | some updated =>
  exact (Triple.make _).first (.refl _) fun _ => .pure _ (.refl _)

theorem usbybExit_triple (ctx : Ctx) :
    Triple ctx.owns (usbybExit ctx) fun _ => ctx.handles.toList.map (⟨.block, ·⟩) := by
  refine (Triple.release Kind.criticalSection _).first List.perm_append_comm fun _ => ?_
  refine (Triple.release Kind.event _).first (.refl _) fun _ => ?_
  refine (Triple.release Kind.event _).first (.refl _) fun _ => ?_
  refine (Triple.release Kind.event _).first (.refl _) fun _ => ?_
  exact (Triple.release Kind.library _).frame _

theorem libusb0_owns : libusb0.Owns Ctx.owns (fun ctx => ctx.handles.toList.map (⟨.block, ·⟩))
    Tran.owns (fun _ => True) (fun _ => True) fun _ => True where
  init calls _ := usbybInit_triple calls
  unsound _ unsound := absurd trivial unsound
  exit ctx _ := usbybExit_triple ctx
  broken _ broken := absurd trivial broken
  initTransfer calls := by
    refine (Triple.acquire Kind.event _).bind fun completion => ?_
    cases completion with
    | none => exact .pure _ (.refl _)
    | some completion =>
      refine (Triple.acquire Kind.event _).first (.refl _) fun event => ?_
      cases event with
      | none => exact (Triple.release Kind.event _).bind fun _ => .pure _ (.refl _)
      | some event => exact .pure _ (.refl _)
  clearTransfer tran :=
    (Triple.release Kind.event tran.hEvent).first (.refl _) fun _ => .release Kind.event _
  grow ctx reallocOk _ :=
    (Triple.reacquire Kind.block ctx.handles reallocOk).first (.refl _) fun _ => .pure _ (.refl _)
  stuck _ _ stuck := absurd trivial stuck

/-- Contexts and transfers come and go without a fault, whatever the calls to the outside return.
What is held is what the contexts and transfers that are left hold, and the array of each
context that is gone and had one. -/
theorem libusb0_holds (es : List (Call InitCalls TranCalls)) :
    libusb0.session.Always (∃ s, · = .ok s) libusb0.session.init es ∧
    ∀ s, libusb0.session.exec libusb0.session.init es = some (.ok s) →
      libusb0.Holds Ctx.owns Tran.owns s (libusb0.session.log
        (Usbyb.leaves fun ctx => ctx.handles.toList.map (⟨.block, ·⟩)) libusb0.session.init es) := by
  have session := libusb0_owns.session_holds es
  refine ⟨session.1.2 (.of_step fun x e y _ => ?_), session.2⟩
  rintro (⟨_, _, _, _, _, _, broken⟩ | ⟨_, _, _, _, unsound⟩ | ⟨_, _, _, _, _, _, _, stuck⟩)
  · exact broken trivial
  · exact unsound trivial
  · exact stuck trivial

end Libusby.Win32.Lifetimes
