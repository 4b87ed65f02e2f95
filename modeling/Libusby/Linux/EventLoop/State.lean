import Mathlib.Logic.Function.Basic
import Libusby.Linux.WatchTable

/-!
# State of the Linux event loop

The context, the transfers, the URBs and the program point of every call into
the library that is in progress. `ctx_mutex` is explicit: a thread holds it
between two steps only at the head of the polling loop (`Pc.loopHead`), every
other critical section is one step from `pthread_mutex_lock` to
`pthread_mutex_unlock` or `pthread_cond_wait`.

A `Tid` stands for one call in progress. A call made from inside a transfer
callback has a `Tid` of its own while the frame of the callback stays where it
is, so a thread with nested calls is several `Tid`s.
-/

namespace Libusby.Linux.EventLoop

abbrev Tid := Nat
abbrev TranId := Nat
abbrev HandleId := Nat

/-- The values of `errno` that the backend tells apart. -/
inductive Errno where
  | enodev | ebusy | epipe | enoent | econnreset | other
  deriving DecidableEq, Repr

/-- `usbfs_error`. -/
def usbfsError : Errno → Error
  | .enodev => .noDevice
  | .ebusy => .busy
  | _ => .io

/-- The fields of `struct libusb_transfer` that the backend reads or writes;
`callback` says whether one is set. -/
structure PubTransfer where
  devHandle : HandleId := 0
  endpoint : UInt8 := 0
  type : TransferType := .control
  status : Int := 0
  length : Int := 0
  actualLength : Int := 0
  callback : Bool := false
  deriving DecidableEq, Repr

/-- Who may use a transfer: nobody before it is allocated and after it is
freed, or the client, or the `libusby_bulk_transfer` that allocated it. -/
inductive Owner where
  | free
  | client
  | bulk (th : Tid)
  deriving DecidableEq, Repr

/-- `struct usbyb_transfer`: `active` is 0, 1 (submitted) or 2 (completing). -/
structure Transfer where
  pub : PubTransfer := {}
  active : Nat := 0
  owner : Owner := .free
  deriving DecidableEq, Repr

/-- The request of a `struct usbdevfs_urb`. -/
structure Request where
  type : TransferType
  endpoint : UInt8
  bufferLength : Int
  deriving DecidableEq, Repr

/-- Where an accepted URB is: with the kernel and not done, with the kernel and
completed, or reaped by the event loop, which is not finished with it. -/
inductive Stage where
  | pending
  | completed (status actualLength : Int)
  | reaped
  deriving DecidableEq, Repr

structure Urb where
  id : Nat
  tran : TranId
  fd : Int
  req : Request
  stage : Stage
  deriving DecidableEq, Repr

/-- The kernel still has the URB. -/
def Urb.outstanding (u : Urb) : Bool := u.stage ≠ .reaped

/-- The event loop fields of `struct libusby_context`; `pipe` is the number of
unread bytes of the wake-up pipe. -/
structure Context where
  loopEnabled : Bool := true
  loopLocked : Bool := false
  watchedFds : WatchTable := .empty
  pipe : Nat := 0

/-- A call of `usbyb_wait_for_transfer`, made by the client (or by
`libusby_perform_transfer`) or by `libusby_bulk_transfer`. -/
structure Waiter where
  tran : TranId
  bulk : Bool
  deriving DecidableEq, Repr

/-- The locals of `usbfs_run_event_loop_impl` that live across iterations. -/
structure Frame where
  watchTran : Option Waiter
  pollfdsCap : Nat
  deriving DecidableEq, Repr

/-- One iteration after `poll` returned: the polled descriptors, the loop
counter and whether the pipe is readable. -/
structure Round where
  frame : Frame
  pollfds : List Int
  i : Nat
  pollin : Bool
  deriving DecidableEq, Repr

/-- The program point of a call. -/
inductive Pc where
  | idle
  /-- `libusby_bulk_transfer` before its submit. -/
  | bulkSubmit (t : TranId)
  /-- `usbyb_run_event_loop` before its lock. -/
  | runCall
  /-- `usbyb_wait_for_transfer` before its lock. -/
  | waitCall (w : Waiter)
  /-- In `pthread_cond_wait` on `ctx_cond`. -/
  | parkedCtx (watch : Option Waiter) (signalled : Bool)
  /-- At the test of the polling loop, with `ctx_mutex`. -/
  | loopHead (f : Frame) (r : Error)
  /-- About to call `poll`, or blocked in it. -/
  | polling (f : Frame) (pollfds : List Int)
  /-- At the head of the `for` loop over the polled descriptors. -/
  | reaping (d : Round)
  /-- A URB was reaped and its result stored; before the lock. -/
  | reaped (d : Round) (urb : Nat) (t : TranId)
  /-- In the transfer's callback. -/
  | inCallback (d : Round) (urb : Nat) (t : TranId)
  /-- At the end of an iteration, before the lock. -/
  | relock (f : Frame) (r : Error)
  /-- In `pthread_cond_wait` on the transfer's `cond`. -/
  | parkedTran (w : Waiter) (r : Error) (signalled : Bool)
  | runReturned (r : Error)
  | waitReturned (w : Waiter) (r : Error)
  deriving DecidableEq, Repr

/-- Inside the polling loop: past the acquisition of `loop_locked` and not yet
past its release. -/
def Pc.inside : Pc → Bool
  | .loopHead .. | .polling .. | .reaping .. | .reaped .. | .inCallback .. | .relock .. => true
  | _ => false

/-- A broadcast on `ctx_cond`. -/
def Pc.wakeCtx : Pc → Pc
  | .parkedCtx watch _ => .parkedCtx watch true
  | p => p

/-- A broadcast on the `cond` of transfer `t`. -/
def Pc.wakeTran (t : TranId) : Pc → Pc
  | .parkedTran w r b => .parkedTran w r (b || decide (w.tran = t))
  | p => p

@[simp] theorem Pc.inside_wakeCtx (p : Pc) : p.wakeCtx.inside = p.inside := by cases p <;> rfl

@[simp] theorem Pc.inside_wakeTran (p : Pc) (t : TranId) : (p.wakeTran t).inside = p.inside := by
  cases p <;> rfl

theorem Pc.wakeCtx_cases (p : Pc) :
    p.wakeCtx = p ∧ (∀ watch b, p ≠ .parkedCtx watch b) ∨
      ∃ watch b, p = .parkedCtx watch b ∧ p.wakeCtx = .parkedCtx watch true := by
  cases p <;> simp [wakeCtx]

theorem Pc.wakeTran_cases (p : Pc) (t : TranId) :
    p.wakeTran t = p ∧ (∀ w r b, p ≠ .parkedTran w r b) ∨
      ∃ w r b, p = .parkedTran w r b ∧ p.wakeTran t = .parkedTran w r (b || decide (w.tran = t)) := by
  cases p with
  | parkedTran w r b => exact .inr ⟨w, r, b, rfl, rfl⟩
  | _ => simp [wakeTran]

grind_pattern Pc.wakeCtx_cases => p.wakeCtx
grind_pattern Pc.wakeTran_cases => p.wakeTran t

structure Sys where
  ctx : Context
  mutex : Option Tid
  pc : Tid → Pc
  trans : TranId → Transfer
  /-- The URBs that the kernel accepted and the event loop has not finished with. -/
  urbs : List Urb
  nextUrb : Nat
  /-- `wrfd` of every handle, `-1` when the handle is not open. -/
  wrfd : HandleId → Int
  openFds : List Int

/-- After `usbyb_init`: `loop_enabled = 1` and `loop_locked = 0`. -/
def Sys.initial : Sys where
  ctx := {}
  mutex := none
  pc _ := .idle
  trans _ := {}
  urbs := []
  nextUrb := 0
  wrfd _ := -1
  openFds := []

namespace Sys

def setPc (s : Sys) (th : Tid) (p : Pc) : Sys := { s with pc := Function.update s.pc th p }

def setTran (s : Sys) (t : TranId) (tr : Transfer) : Sys :=
  { s with trans := Function.update s.trans t tr }

section
variable (s : Sys) (th x : Tid) (p : Pc) (t u : TranId) (tr : Transfer)

@[simp, grind =] theorem setPc_pc : (s.setPc th p).pc x = if x = th then p else s.pc x := by
  simp [setPc, Function.update_apply]

@[simp, grind =] theorem setPc_ctx : (s.setPc th p).ctx = s.ctx := rfl
@[simp, grind =] theorem setPc_mutex : (s.setPc th p).mutex = s.mutex := rfl
@[simp, grind =] theorem setPc_trans : (s.setPc th p).trans t = s.trans t := rfl
@[simp, grind =] theorem setPc_urbs : (s.setPc th p).urbs = s.urbs := rfl

@[simp, grind =] theorem setTran_trans :
    (s.setTran t tr).trans u = if u = t then tr else s.trans u := by
  simp [setTran, Function.update_apply]

@[simp, grind =] theorem setTran_ctx : (s.setTran t tr).ctx = s.ctx := rfl
@[simp, grind =] theorem setTran_mutex : (s.setTran t tr).mutex = s.mutex := rfl
@[simp, grind =] theorem setTran_pc : (s.setTran t tr).pc x = s.pc x := rfl
@[simp, grind =] theorem setTran_urbs : (s.setTran t tr).urbs = s.urbs := rfl

end

@[grind =] def setActive (s : Sys) (t : TranId) (n : Nat) : Sys :=
  s.setTran t { s.trans t with active := n }

@[grind =] def setOwner (s : Sys) (t : TranId) (o : Owner) : Sys :=
  s.setTran t { s.trans t with owner := o }

@[grind =] def setPub (s : Sys) (t : TranId) (p : PubTransfer) : Sys :=
  s.setTran t { s.trans t with pub := p }

/-- A URB of transfer `t` is still in the kernel. -/
def Outstanding (s : Sys) (t : TranId) : Prop := ∃ u ∈ s.urbs, u.tran = t ∧ u.outstanding = true

/-- A URB of transfer `t` was reaped and `active` is not set to 2 yet. -/
def JustReaped (s : Sys) (t : TranId) : Prop := ∃ th d k, s.pc th = .reaped d k t

/-- The callback of transfer `t` is running. -/
def CallbackRunning (s : Sys) (t : TranId) : Prop := ∃ th d k, s.pc th = .inCallback d k t

def Inside (s : Sys) (th : Tid) : Prop := (s.pc th).inside = true

end Sys

end Libusby.Linux.EventLoop
