import Libusby.Foundations.Machine
import Libusby.Linux.EventLoop.State

/-!
# Steps of the Linux event loop

`step` runs one event of one call: an atomic section under `ctx_mutex`, a
system call, or the kernel completing a URB. Line numbers are those of
`linux_usbfs.c`. The outcome of `realloc`, `poll` and the `ioctl`s, and the
order of everything, are in the events. An event that is not enabled has no
successor; a section that runs into a fault (see `WatchTable`) is the end of the
process and has no successor either. A use of freed memory is not a fault here: a
freed block is taken to keep its contents until it is allocated again, so that a
reap whose transfer was freed or cleared goes on.
-/

namespace Libusby.Linux.EventLoop

/-- What `usbyb_submit_transfer` meets: whether `realloc` succeeds and the
`errno` of `USBDEVFS_SUBMITURB`, if it fails. -/
structure SubmitChoice where
  reallocOk : Bool
  rejected : Option Errno
  deriving DecidableEq, Repr

/-- Lines 511 to 524: the `ioctl` for the record at index `i` and its outcome. -/
def submitUrb (ctx : Context) (tran : Transfer) (table : WatchTable) (i : Nat) :
    Option Errno → Option (Error × Context × Transfer)
  | some errno => (usbfsUnwatchFd table i).map fun table =>
      (usbfsError errno, { ctx with watchedFds := table }, tran)
  | none =>
    if ctx.loopLocked then
      some (.success, { ctx with watchedFds := table, pipe := ctx.pipe + 1 },
        { tran with active := 1 })
    else some (.success, { ctx with watchedFds := table }, tran)

/-- `usbyb_submit_transfer`: the result, the context and the transfer after the
call, or none when the call faults. -/
def usbybSubmitTransfer (ctx : Context) (tran : Transfer) (wrfd : Int) (k : SubmitChoice) :
    Option (Error × Context × Transfer) :=
  if tran.pub.type = .isochronous then some (.notSupported, ctx, tran)
  else (ctx.watchedFds.watch wrfd k.reallocOk).bind fun (table, i) =>
    submitUrb ctx tran table i k.rejected

/-- `libusby_fill_bulk_transfer`. -/
def libusbyFillBulkTransfer (h : HandleId) (endpoint : UInt8) (length : Int) (callback : Bool) :
    PubTransfer where
  devHandle := h
  endpoint := endpoint
  type := .bulk
  status := TransferStatus.completed.code
  length := length
  actualLength := 0
  callback := callback

/-- Lines 163 to 168: the result of a reaped URB is stored in the transfer. -/
def PubTransfer.store (p : PubTransfer) (status actualLength : Int) : PubTransfer :=
  { p with
    actualLength := if p.type = .control then actualLength + 8 else actualLength
    status := if status ≠ 0 then Error.io.code else p.status }

inductive Event where
  | alloc (t : TranId)
  | fill (t : TranId) (p : PubTransfer)
  | openHandle (h : HandleId) (fd : Int)
  | closeHandle (h : HandleId)
  | submit (t : TranId) (k : SubmitChoice)
  | stop
  | reset
  | callRun (th : Tid)
  | callWait (th : Tid) (t : TranId)
  | callBulk (th : Tid) (t : TranId) (h : HandleId) (endpoint : UInt8) (length : Int)
  | bulkSubmit (th : Tid) (k : SubmitChoice)
  | enter (th : Tid)
  | head (th : Tid) (reallocOk : Bool)
  | pollReturn (th : Tid) (pollin : Option Bool)
  | reap (th : Tid) (urb : Option Nat)
  | lockReaped (th : Tid)
  | callbackReturn (th : Tid)
  | drain (th : Tid) (readOk : Bool)
  | relock (th : Tid)
  | recheck (th : Tid)
  | leave (th : Tid)
  | complete (urb : Nat) (status actualLength : Int)
  deriving DecidableEq, Repr

namespace Sys

/-- The descriptor that a submission of transfer `t` goes to. -/
def tranFd (s : Sys) (t : TranId) : Int := s.wrfd (s.trans t).pub.devHandle

/-- The URB that a submission of transfer `t` queues in the kernel. -/
def newUrb (s : Sys) (t : TranId) : Urb where
  id := s.nextUrb
  tran := t
  fd := s.tranFd t
  req := ⟨(s.trans t).pub.type, (s.trans t).pub.endpoint, (s.trans t).pub.length⟩
  stage := .pending

/-- The call gets the lock, and the kernel accepts no URB on a closed handle.
An unsupported transfer is refused before the lock. -/
def MaySubmit (s : Sys) (t : TranId) (k : SubmitChoice) : Prop :=
  (s.trans t).pub.type = .isochronous ∨
    s.mutex = none ∧ (k.rejected = none → s.tranFd t ∈ s.openFds)

instance (s : Sys) (t : TranId) (k : SubmitChoice) : Decidable (s.MaySubmit t k) :=
  inferInstanceAs (Decidable (_ ∨ _ ∧ _))

/-- A call of `usbyb_submit_transfer` as one step. -/
def submit (s : Sys) (t : TranId) (k : SubmitChoice) : Option (Error × Sys) :=
  if s.MaySubmit t k then
    (usbybSubmitTransfer s.ctx (s.trans t) (s.tranFd t) k).map fun (r, ctx, tr) =>
      let s' := { s.setTran t tr with ctx }
      (r, if r = .success then { s' with urbs := s.urbs ++ [s.newUrb t], nextUrb := s.nextUrb + 1 }
        else s')
  else none

/-- Line 224, with `ctx_mutex`: wait for the transfer, or return `r`. -/
def waitActive (s : Sys) (th : Tid) (w : Waiter) (r : Error) : Sys :=
  { s.setPc th (if (s.trans w.tran).active ≠ 0 then .parkedTran w r false else .waitReturned w r)
    with mutex := none }

/-- Line 109, with `ctx_mutex`: wait for the loop, or become its owner. -/
def enterLoop (s : Sys) (th : Tid) (watch : Option Waiter) : Sys :=
  if s.ctx.loopEnabled ∧ s.ctx.loopLocked then s.setPc th (.parkedCtx watch false)
  else { s.setPc th (.loopHead ⟨watch, 0⟩ .success) with
    ctx := { s.ctx with loopLocked := true }, mutex := some th }

/-- Line 202 and the rest of the caller. -/
def leaveLoop (s : Sys) (th : Tid) (watch : Option Waiter) (r : Error) : Sys :=
  let s := { s with ctx := { s.ctx with loopLocked := false } }
  match watch with
  | none => { s.setPc th (.runReturned r) with mutex := none }
  | some w => s.waitActive th w r

/-- The condition of line 113. -/
def keepsPolling (s : Sys) (f : Frame) (r : Error) : Prop :=
  (∀ w ∈ f.watchTran, (s.trans w.tran).active ≠ 0) ∧ 0 ≤ r.code ∧ s.ctx.loopEnabled = true

instance (s : Sys) (f : Frame) (r : Error) : Decidable (s.keepsPolling f r) :=
  inferInstanceAs (Decidable (_ ∧ _ ∧ _))

/-- Lines 180 to 187, with `ctx_mutex`, after the callback (if any). -/
def finishUrb (s : Sys) (th : Tid) (d : Round) (urb : Nat) (t : TranId) : Option Sys :=
  let s1 := if (s.trans t).active = 2 then
      let s0 := s.setActive t 0
      { s0 with pc := fun x => (s.pc x).wakeTran t }
    else s
  (usbfsUnwatchFd s.ctx.watchedFds d.i).map fun table =>
    { s1.setPc th (.reaping { d with i := d.i + 1 }) with
      ctx := { s.ctx with watchedFds := table }
      urbs := s.urbs.filter (·.id ≠ urb) }

end Sys

def setStage (urb : Nat) (g : Stage) (us : List Urb) : List Urb :=
  us.map fun u => if u.id = urb then { u with stage := g } else u

def step (s : Sys) : Event → Option Sys
  | .alloc t =>
    if (s.trans t).owner = .free then some (s.setTran t { owner := .client }) else none
  | .fill t p => if (s.trans t).owner = .client then some (s.setPub t p) else none
  | .openHandle h fd =>
    if s.wrfd h = -1 ∧ 0 ≤ fd ∧ fd ∉ s.openFds then
      some { s with wrfd := Function.update s.wrfd h fd, openFds := fd :: s.openFds }
    else none
  | .closeHandle h =>
    if s.wrfd h ≠ -1 ∧ ∀ u ∈ s.urbs, u.fd = s.wrfd h → u.outstanding = false then
      some { s with wrfd := Function.update s.wrfd h (-1), openFds := s.openFds.erase (s.wrfd h) }
    else none
  | .submit t k => if (s.trans t).owner = .client then (s.submit t k).map Prod.snd else none
  | .stop =>
    if s.mutex = none then
      some { s with
        ctx := { s.ctx with
          loopEnabled := false
          pipe := if s.ctx.loopLocked then s.ctx.pipe + 1 else s.ctx.pipe }
        pc := fun x => (s.pc x).wakeCtx }
    else none
  | .reset =>
    if s.mutex = none then some { s with ctx := { s.ctx with loopEnabled := true } } else none
  | .callRun th => if s.pc th = .idle then some (s.setPc th .runCall) else none
  | .callWait th t =>
    if s.pc th = .idle ∧ (s.trans t).owner = .client then
      some (s.setPc th (.waitCall ⟨t, false⟩))
    else none
  | .callBulk th t h endpoint length =>
    if s.pc th = .idle ∧ (s.trans t).owner = .free then
      some ((s.setTran t ⟨libusbyFillBulkTransfer h endpoint length false, 0, .bulk th⟩).setPc th
        (.bulkSubmit t))
    else none
  | .bulkSubmit th k =>
    match s.pc th with
    | .bulkSubmit t => (s.submit t k).map fun (r, s') =>
      if r = .success then s'.setPc th (.waitCall ⟨t, true⟩)
      else (s'.setOwner t .free).setPc th .idle
    | _ => none
  | .enter th =>
    if s.mutex = none then
      match s.pc th with
      | .runCall => some (s.enterLoop th none)
      | .waitCall w =>
        if s.ctx.loopLocked then some (s.waitActive th w .success)
        else some (s.enterLoop th (some w))
      | .parkedCtx watch _ => some (s.enterLoop th watch)
      | _ => none
    else none
  | .head th reallocOk =>
    match s.pc th with
    | .loopHead f r =>
      if s.keepsPolling f r then
        let fds := s.ctx.watchedFds.live.map (·.fd)
        if f.pollfdsCap < fds.length + 1 ∧ reallocOk = false then
          some (s.leaveLoop th f.watchTran .noMem)
        else
          some { s.setPc th (.polling { f with pollfdsCap := max f.pollfdsCap (fds.length + 1) } fds)
            with mutex := none }
      else some (s.leaveLoop th f.watchTran r)
    | _ => none
  | .pollReturn th pollin =>
    match s.pc th, pollin with
    | .polling f _, none => some (s.setPc th (.relock f .io))
    | .polling f fds, some b =>
      if b = true → s.ctx.pipe ≠ 0 then some (s.setPc th (.reaping ⟨f, fds, 0, b⟩)) else none
    | _, _ => none
  | .reap th urb =>
    match s.pc th with
    | .reaping d =>
      match d.pollfds[d.i]?, urb with
      | some _, none => some (s.setPc th (.reaping { d with i := d.i + 1 }))
      | some fd, some k =>
        match s.urbs.find? (·.id = k) with
        | some ⟨_, t, ufd, _, .completed status actualLength⟩ =>
          if ufd = fd then
            some { (s.setPub t ((s.trans t).pub.store status actualLength)).setPc th
              (.reaped d k t) with urbs := setStage k .reaped s.urbs }
          else none
        | _ => none
      | none, _ => none
    | _ => none
  | .lockReaped th =>
    match s.pc th with
    | .reaped d k t =>
      if s.mutex = none then
        let s' := s.setActive t 2
        if (s.trans t).pub.callback then some (s'.setPc th (.inCallback d k t))
        else s'.finishUrb th d k t
      else none
    | _ => none
  | .callbackReturn th =>
    match s.pc th with
    | .inCallback d k t => if s.mutex = none then s.finishUrb th d k t else none
    | _ => none
  | .drain th readOk =>
    match s.pc th with
    | .reaping d =>
      if d.i < d.pollfds.length then none
      else if d.pollin = false then some (s.setPc th (.relock d.frame .success))
      else if readOk = false then some (s.setPc th (.relock d.frame .io))
      else if s.ctx.pipe = 0 then none
      else some { s.setPc th (.relock d.frame .success) with
        ctx := { s.ctx with pipe := s.ctx.pipe - 1 } }
    | _ => none
  | .relock th =>
    match s.pc th with
    | .relock f r =>
      if s.mutex = none then some { s.setPc th (.loopHead f r) with mutex := some th } else none
    | _ => none
  | .recheck th =>
    match s.pc th with
    | .parkedTran w r _ => if s.mutex = none then some (s.waitActive th w r) else none
    | _ => none
  | .leave th =>
    match s.pc th with
    | .runReturned _ => some (s.setPc th .idle)
    | .waitReturned w _ =>
      if w.bulk then some ((s.setOwner w.tran .free).setPc th .idle) else some (s.setPc th .idle)
    | _ => none
  | .complete urb status actualLength =>
    match s.urbs.find? (·.id = urb) with
    | some ⟨_, _, _, _, .pending⟩ =>
      some { s with urbs := setStage urb (.completed status actualLength) s.urbs }
    | _ => none

/-- The Linux event loop with any number of threads. -/
def eventLoop : Foundations.Machine Sys Event := ⟨.initial, step⟩

end Libusby.Linux.EventLoop
