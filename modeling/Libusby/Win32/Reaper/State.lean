import Libusby.Foundations.Links
import Libusby.Win32.Transfer

/-!
# State of the libusb0 reaper

The context, the transfers and the program point of every call that waits for
transfers. All critical sections on `ctx_mutex` are one step each, so the mutex is free
in every state.

A `Tid` stands for one call in progress. A call made from inside a transfer callback has
a `Tid` of its own while the frame of the callback stays where it is. Counters are
unbounded integers: every transfer holds two handles of the process, far fewer than
`INT_MAX` of which exist.
-/

namespace Libusby.Win32.Reaper

open Foundations Libusby.Core

abbrev Tid := Nat
abbrev TranId := Nat

/-- The event objects that the backend waits for. -/
inductive Handle where
  | completion (t : TranId)
  | overlapped (t : TranId)
  | eventLoopStopped
  | transferListUpdated
  | reaperLock
  deriving DecidableEq, Repr

/-- `usbyi_handle_list`. A cell of the array that was never stored is `none`. -/
structure HandleList where
  capacity : Int := 0
  handles : List (Option Handle) := []
  deriving DecidableEq, Repr

/-- `result` is what `GetOverlappedResult` reports once the request is done: the error,
if it failed, and the number of bytes. -/
structure Overlapped where
  hEvent : Bool := true
  result : Option (Option Win32Error × Nat) := none
  deriving DecidableEq, Repr

/-- `struct usbyb_transfer` less the links. An event is `true` when it is signalled. -/
structure UsbybTransfer where
  pub : Transfer := {}
  submitted : Bool := false
  hCompletionEvent : Bool := true
  overlapped : Overlapped := {}
  deriving DecidableEq, Repr

/-- `trani` are `trani_first`, `trani_last` and the `intrn.next` and `intrn.prev` of all
transfers. -/
structure Context where
  trani : Links TranId := {}
  tranCount : Int := 0
  handleList : HandleList := {}
  hReaperLock : Bool := true
  hEventLoopStopped : Bool := false
  hTransferListUpdated : Bool := false

/-- The program point of a call of `usbyi_win32_reap_until` with the target `hTarget`. -/
inductive Pc where
  | idle
  /-- In its wait for the target or the lock. -/
  | calling (hTarget : Handle)
  /-- At the head of the loop of `usbyi_win32_reap_until_locked`. -/
  | arming (hTarget : Handle)
  /-- In the wait for the first `handleCount` handles. -/
  | waiting (hTarget : Handle) (handleCount : Nat)
  /-- Looking for the transfer whose request signals `h`. -/
  | searching (hTarget h : Handle) (i : Nat) (traniCur : Option TranId)
  /-- At the head of `usbyb_reap_transfer`. -/
  | reaping (hTarget : Handle) (t : TranId)
  /-- The outcome is stored; before the lock. -/
  | finished (hTarget : Handle) (t : TranId)
  /-- The transfer is off the list; before the test for a callback. -/
  | unlinked (hTarget : Handle) (t : TranId)
  | inCallback (hTarget : Handle) (t : TranId)
  /-- The callback, if any, has returned; before the second lock. -/
  | called (hTarget : Handle) (t : TranId)
  /-- `usbyi_win32_reap_until_locked` has returned `r`. -/
  | leaving (hTarget : Handle) (r : Int)
  | returned (hTarget : Handle) (r : Int)
  deriving DecidableEq, Repr

/-- Inside the reaping section: past the wait that took the lock and not yet past
`SetEvent(ctx->hReaperLock)`. -/
def Pc.inside : Pc → Bool
  | .idle | .calling _ | .returned .. => false
  | _ => true

/-- A transfer that the reaper knows to be on the list. -/
def Pc.listed : Pc → Option TranId
  | .searching _ _ _ traniCur => traniCur
  | .reaping _ t | .finished _ t => some t
  | _ => none

/-- A transfer that the reaper took off the list and is not finished with. -/
def Pc.reaped : Pc → Option TranId
  | .unlinked _ t | .inCallback _ t | .called _ t => some t
  | _ => none

structure Sys where
  ctx : Context := {}
  trans : TranId → UsbybTransfer := fun _ => {}
  pc : Tid → Pc := fun _ => .idle

namespace Sys

def setPc (s : Sys) (th : Tid) (p : Pc) : Sys := { s with pc := Function.update s.pc th p }

def setTran (s : Sys) (t : TranId) (tr : UsbybTransfer) : Sys :=
  { s with trans := Function.update s.trans t tr }

section
variable (s : Sys) (th x : Tid) (p : Pc) (t u : TranId) (tr : UsbybTransfer)

@[simp, grind =] theorem setPc_pc : (s.setPc th p).pc x = if x = th then p else s.pc x := by
  simp [setPc, Function.update_apply]

@[simp, grind =] theorem setPc_ctx : (s.setPc th p).ctx = s.ctx := rfl
@[simp, grind =] theorem setPc_trans : (s.setPc th p).trans = s.trans := rfl

@[simp, grind =] theorem setTran_trans :
    (s.setTran t tr).trans u = if u = t then tr else s.trans u := by
  simp [setTran, Function.update_apply]

/-- A field that the new value of transfer `t` leaves alone. -/
theorem setTran_keeps {α : Type} (f : UsbybTransfer → α) (keeps : f tr = f (s.trans t)) :
    f ((s.setTran t tr).trans u) = f (s.trans u) := by
  rw [setTran_trans]
  split_ifs with same
  · rw [keeps, same]
  · rfl

@[simp, grind =] theorem setTran_ctx : (s.setTran t tr).ctx = s.ctx := rfl
@[simp, grind =] theorem setTran_pc : (s.setTran t tr).pc = s.pc := rfl

end

def Reaping (s : Sys) (th : Tid) : Prop := (s.pc th).inside = true

theorem reaping_of {s : Sys} {th : Tid} {p : Pc} (pc : s.pc th = p) (inside : p.inside = true) :
    s.Reaping th := by
  rw [Reaping, pc, inside]

/-- The state of an event object. -/
def signalled (s : Sys) : Handle → Bool
  | .completion t => (s.trans t).hCompletionEvent
  | .overlapped t => (s.trans t).overlapped.hEvent
  | .eventLoopStopped => s.ctx.hEventLoopStopped
  | .transferListUpdated => s.ctx.hTransferListUpdated
  | .reaperLock => s.ctx.hReaperLock

/-- The event whose handle is in a cell of the array. -/
def signalledAt (s : Sys) (k : Nat) : Bool :=
  match s.ctx.handleList.handles[k]? with
  | some (some h) => s.signalled h
  | _ => false

/-- A reap has taken the transfer off the list and not yet reached its second lock. -/
def BeingReaped (s : Sys) (t : TranId) : Prop := ∃ th, (s.pc th).reaped = some t

end Sys

end Libusby.Win32.Reaper
