import Libusby.Foundations.Machine
import Libusby.Win32.Reaper.State

/-!
# Steps of the libusb0 reaper

`step` runs one event of one call: a critical section, a wait or another system call,
one iteration of the unlocked search, or the driver completing a request. Line numbers
are those of `libusb0_win32.c`. The results of `DeviceIoControl`, `realloc` and
`WaitForMultipleObjects`, and the order of everything, are in the events. A section that
runs into a `Fault` is the end of the process and has no successor.
-/

namespace Libusby.Win32.Reaper

open Foundations Libusby.Core

/-- The tests for a failure in `usbyi_win32_reap_until_locked`, on the `DWORD` that holds
the result of `usbyi_reserve_handle_list` and later that of the wait. -/
structure Checks where
  reserve : UInt32 → Bool
  wait : UInt32 → Nat → Bool
  reserve_success : reserve 0 = false

/-- Lines 572 and 592; `WAIT_OBJECT_0` is the `DWORD` 0. -/
def Checks.source : Checks where
  reserve res := res < 0
  wait res handleCount := res < 0 && UInt32.ofNat handleCount ≤ res
  reserve_success := rfl

/-- `MAXIMUM_WAIT_OBJECTS`. -/
def maximumWaitObjects : Nat := 64

/-- An error code stored in a `DWORD`. -/
def dword (e : Error) : UInt32 := UInt32.ofInt e.code

/-- A `DWORD` returned as an `int`. -/
def asInt (res : UInt32) : Int := res.toInt32.toInt

/-- The array after a `realloc` that succeeds. -/
def resize (handles : List (Option Handle)) (capacity : Nat) : List (Option Handle) :=
  handles.take capacity ++ List.replicate (capacity - handles.length) none

def usbyiReserveHandleList (handleList : HandleList) (newCapacity : Int) (reallocOk : Bool) :
    Error × HandleList :=
  let newCapacity := if newCapacity < 4 then 4 else newCapacity
  if handleList.capacity / 4 > newCapacity ∨ handleList.capacity < newCapacity then
    let newCapacity := newCapacity * 3 / 2
    if reallocOk then
      (.success, { capacity := newCapacity, handles := resize handleList.handles newCapacity.toNat })
    else (.noMem, handleList)
  else (.success, handleList)

def storeHandle (handles : List (Option Handle)) (k : Nat) (h : Handle) :
    Except Fault (List (Option Handle)) :=
  if k < handles.length then .ok (handles.set k (some h)) else .error .store

/-- Lines 418 to 424. -/
def enqueue (trani : Links TranId) (t : TranId) : Links TranId :=
  let trani := { trani with
    next := Function.update trani.next t none
    prev := Function.update trani.prev t trani.last }
  let trani := match trani.last with
    | some u => { trani with next := Function.update trani.next u (some t) }
    | none => trani
  let trani := { trani with last := some t }
  if trani.first = none then { trani with first := some t } else trani

/-- Lines 472 to 483. -/
def dequeue (trani : Links TranId) (t : TranId) : Links TranId :=
  let trani := match trani.next t with
    | some u => { trani with prev := Function.update trani.prev u (trani.prev t) }
    | none => { trani with last := trani.prev t }
  let trani := match trani.prev t with
    | some u => { trani with next := Function.update trani.next u (trani.next t) }
    | none => { trani with first := trani.next t }
  { trani with
    next := Function.update trani.next t none
    prev := Function.update trani.prev t none }

namespace Sys

/-- Lines 416 to 427, once the driver has the request. -/
def enqueued (s : Sys) (t : TranId) (overlapped : Overlapped) : Sys :=
  { s.setTran t { s.trans t with overlapped, hCompletionEvent := false, submitted := true } with
    ctx := { s.ctx with
      trani := enqueue s.ctx.trani t
      tranCount := s.ctx.tranCount + 1
      hTransferListUpdated := true } }

/-- Lines 472 to 486. -/
def dequeued (s : Sys) (t : TranId) : Sys :=
  { s.setTran t { s.trans t with submitted := false } with
    ctx := { s.ctx with
      trani := dequeue s.ctx.trani t
      tranCount := s.ctx.tranCount - 1 } }

/-- The state of the request after `DeviceIoControl`. -/
def issued (res : Option Win32Error) (dwTransferred : Nat) : Overlapped :=
  match res with
  | none => { hEvent := true, result := some (none, dwTransferred) }
  | some _ => { hEvent := false, result := none }

/-- `usbyb_submit_transfer`; `res` is the error of `DeviceIoControl`, if it fails. -/
def submit (s : Sys) (t : TranId) (res : Option Win32Error) (dwTransferred : Nat) :
    Option (Error × Sys) :=
  match usbybPrepareTransferSubmission (s.trans t).pub with
  | .error _ => none
  | .ok (.error e) => some (e, s)
  | .ok (.ok _) =>
    if res ≠ none ∧ res ≠ some .ioPending then
      some (.io, s.setTran t { s.trans t with overlapped := issued res dwTransferred })
    else some (.success, s.enqueued t (issued res dwTransferred))

/-- Lines 582 to 586: the loop over the list, `n` iterations at most. -/
def collect (s : Sys) (hTarget : Handle) :
    Nat → Option TranId → List (Option Handle) → Nat → Except Fault (List (Option Handle) × Nat)
  | 0, _, handles, handleCount => .ok (handles, handleCount)
  | _ + 1, none, handles, handleCount => .ok (handles, handleCount)
  | n + 1, some t, handles, handleCount =>
    if Handle.overlapped t ≠ hTarget then do
      let handles ← storeHandle handles handleCount (.overlapped t)
      s.collect hTarget n (s.ctx.trani.next t) handles (handleCount + 1)
    else s.collect hTarget n (s.ctx.trani.next t) handles handleCount

/-- Lines 571 to 588: a result that is returned, or the context and `handle_count` for
the wait. -/
def arm (c : Checks) (s : Sys) (hTarget : Handle) (reallocOk : Bool) :
    Except Fault (Except Int (Context × Nat)) :=
  let (e, handleList) :=
    usbyiReserveHandleList s.ctx.handleList (2 + s.ctx.tranCount) reallocOk
  if c.reserve (dword e) then .ok (.error (asInt (dword e)))
  else do
    let handles ← storeHandle handleList.handles 0 hTarget
    let handles ← storeHandle handles 1 .transferListUpdated
    let (handles, handleCount) ←
      s.collect hTarget s.ctx.tranCount.toNat s.ctx.trani.first handles 2
    .ok (.ok ({ s.ctx with
      handleList := { handleList with handles }
      hTransferListUpdated := false }, handleCount))

/-- What `WaitForMultipleObjects` may return: the index of the first of its handles that
is signalled, or any other value when it fails, as it does for more than
`MAXIMUM_WAIT_OBJECTS` handles. -/
def WaitReturns (s : Sys) (handleCount : Nat) (res : UInt32) : Prop :=
  res.toNat < handleCount → handleCount ≤ maximumWaitObjects ∧
    s.signalledAt res.toNat = true ∧ ∀ k < res.toNat, s.signalledAt k = false

instance (s : Sys) (handleCount : Nat) (res : UInt32) : Decidable (s.WaitReturns handleCount res) :=
  inferInstanceAs (Decidable (_ → _))

end Sys

/-- Lines 592 to 602: where the result of the wait leads. -/
def Context.react (c : Checks) (ctx : Context) (hTarget : Handle) (handleCount : Nat)
    (res : UInt32) : Except Fault Pc :=
  if c.wait res handleCount then .ok (.leaving hTarget Error.io.code)
  else if res = 0 then .ok (.leaving hTarget Error.success.code)
  else if res = 1 then .ok (.arming hTarget)
  else match ctx.handleList.handles[res.toNat]? with
    | some (some h) => .ok (.searching hTarget h 0 ctx.trani.first)
    | _ => .error .read

inductive Event where
  | fill (t : TranId) (pub : Transfer)
  | submit (t : TranId) (res : Option Win32Error) (dwTransferred : Nat)
  | complete (t : TranId) (res : Option Win32Error) (dwTransferred : Nat)
  | stop
  | reset
  | callWait (th : Tid) (t : TranId)
  | callRun (th : Tid)
  | wait (th : Tid) (res : UInt32)
  | arm (th : Tid) (reallocOk : Bool)
  | waitMultiple (th : Tid) (res : UInt32)
  | search (th : Tid)
  | getResult (th : Tid)
  | unlink (th : Tid)
  | callback (th : Tid)
  | callbackReturn (th : Tid)
  | signal (th : Tid)
  | leave (th : Tid)
  | ret (th : Tid)
  deriving DecidableEq, Repr

def step (c : Checks) (s : Sys) : Event → Option Sys
  | .fill t pub =>
    if (s.trans t).submitted = false then some (s.setTran t { s.trans t with pub }) else none
  | .submit t res dwTransferred =>
    if (s.trans t).submitted = false then (s.submit t res dwTransferred).map Prod.snd else none
  | .complete t res dwTransferred =>
    if (s.trans t).submitted = true ∧ (s.trans t).overlapped.result = none then
      some (s.setTran t { s.trans t with
        overlapped := { hEvent := true, result := some (res, dwTransferred) } })
    else none
  | .stop => some { s with ctx := { s.ctx with hEventLoopStopped := true } }
  | .reset => some { s with ctx := { s.ctx with hEventLoopStopped := false } }
  | .callWait th t => if s.pc th = .idle then some (s.setPc th (.calling (.completion t))) else none
  | .callRun th => if s.pc th = .idle then some (s.setPc th (.calling .eventLoopStopped)) else none
  | .wait th res =>
    match s.pc th with
    | .calling hTarget =>
      if res = 0 then
        if s.signalled hTarget then some (s.setPc th (.returned hTarget Error.success.code)) else none
      else if res = 1 then
        if s.signalled hTarget = false ∧ s.ctx.hReaperLock = true then
          some { s.setPc th (.arming hTarget) with ctx := { s.ctx with hReaperLock := false } }
        else none
      else some (s.setPc th (.returned hTarget Error.io.code))
    | _ => none
  | .arm th reallocOk =>
    match s.pc th with
    | .arming hTarget =>
      match s.arm c hTarget reallocOk with
      | .error _ => none
      | .ok (.error r) => some (s.setPc th (.leaving hTarget r))
      | .ok (.ok (ctx, handleCount)) =>
        some { s.setPc th (.waiting hTarget handleCount) with ctx }
    | _ => none
  | .waitMultiple th res =>
    match s.pc th with
    | .waiting hTarget handleCount =>
      if s.WaitReturns handleCount res then
        (s.ctx.react c hTarget handleCount res).toOption.map (s.setPc th)
      else none
    | _ => none
  | .search th =>
    match s.pc th with
    | .searching hTarget h i (some t) =>
      if (i : Int) < s.ctx.tranCount then
        if Handle.overlapped t = h then some (s.setPc th (.reaping hTarget t))
        else some (s.setPc th (.searching hTarget h (i + 1) (s.ctx.trani.next t)))
      else some (s.setPc th (.arming hTarget))
    | .searching hTarget _ _ none => some (s.setPc th (.arming hTarget))
    | _ => none
  | .getResult th =>
    match s.pc th with
    | .reaping hTarget t =>
      (s.trans t).overlapped.result.map fun (res, dwTransferred) =>
        (s.setTran t { s.trans t with
          pub := usbybUpdateFinishedTransfer (s.trans t).pub (res.getD .success) dwTransferred
        }).setPc th (.finished hTarget t)
    | _ => none
  | .unlink th =>
    match s.pc th with
    | .finished hTarget t => some ((s.dequeued t).setPc th (.unlinked hTarget t))
    | _ => none
  | .callback th =>
    match s.pc th with
    | .unlinked hTarget t =>
      if (s.trans t).pub.callback then some (s.setPc th (.inCallback hTarget t))
      else some (s.setPc th (.called hTarget t))
    | _ => none
  | .callbackReturn th =>
    match s.pc th with
    | .inCallback hTarget t => some (s.setPc th (.called hTarget t))
    | _ => none
  | .signal th =>
    match s.pc th with
    | .called hTarget t =>
      if (s.trans t).submitted = false then
        some ((s.setTran t { s.trans t with hCompletionEvent := true }).setPc th (.arming hTarget))
      else some (s.setPc th (.arming hTarget))
    | _ => none
  | .leave th =>
    match s.pc th with
    | .leaving hTarget r =>
      some { s.setPc th (.returned hTarget r) with ctx := { s.ctx with hReaperLock := true } }
    | _ => none
  | .ret th =>
    match s.pc th with
    | .returned .. => some (s.setPc th .idle)
    | _ => none

/-- The libusb0 reaper with any number of threads. -/
def reaper (c : Checks) : Machine Sys Event := ⟨{}, step c⟩

end Libusby.Win32.Reaper
