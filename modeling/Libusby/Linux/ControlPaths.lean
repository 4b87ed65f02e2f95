import Libusby.Linux.EventLoop.Lifecycle
import Libusby.Linux.EventLoop.Reported
import Libusby.Linux.Transfer

/-!
# The two paths of a control transfer

`usbyb_perform_transfer` carries a control transfer out with one ioctl,
`usbyb_submit_transfer` leaves it to the event loop. Each has its own translation of what
the kernel reports, and only the second one calls the callback. So the paths agree
exactly on successes of transfers without a callback that are completed already.
-/

namespace Libusby.Linux

open Foundations Libusby.Core EventLoop

/-- What the kernel makes of a control transfer: the bytes of the data stage, or the
failure as `USBDEVFS_CONTROL` and as the URB reports it. -/
inductive ControlOutcome where
  | transferred (n : Nat)
  | failed (errno : Errno) (status : { status : Int // status < 0 }) (actualLength : Int)

namespace ControlOutcome

/-- What `USBDEVFS_CONTROL` returns; `data` is what it leaves in the data stage. -/
def ctrlResult (data : List UInt8) : ControlOutcome → CtrlResult
  | transferred n => .ok n data
  | failed errno _ _ => .error errno

/-- `status` of the URB. -/
def status : ControlOutcome → UrbStatus
  | transferred _ => 0
  | failed _ status _ => status

/-- `actual_length` of the URB. -/
def actualLength : ControlOutcome → Int
  | transferred n => n
  | failed _ _ actualLength => actualLength

end ControlOutcome

/-- The public fields that the event loop sees. -/
def pubTransfer (tran : Core.Transfer) (status : Int) : PubTransfer where
  devHandle := tran.devHandle
  endpoint := tran.endpoint
  type := tran.type
  status := status
  length := tran.length
  actualLength := tran.actualLength
  callback := tran.callback

/-- A run in which the URB of `t` is submitted, ends with the outcome `o`, and is done with
in the event loop. Other calls do what they like, and the client leaves `t` alone. -/
structure SlowPath (s : Sys) (t : TranId) (k : SubmitChoice) (es : List Event)
    (o : ControlOutcome) (s' : Sys) : Prop where
  run : eventLoop.exec s (.submit t k :: es) = some s'
  accepted : k.rejected = none
  leaves : ∀ e ∈ es, e.leaves t
  outcome : ∀ status len, .complete s.nextUrb status len ∈ es →
    status = o.status ∧ len = o.actualLength
  done : ∀ u ∈ s'.urbs, u.id ≠ s.nextUrb

/-- The same status, the same length and as many calls of the callback. -/
structure Agree {Req : Type} (p : Performed Req) (pub : PubTransfer) (callbacks : Nat) : Prop where
  status : p.tran.status.code = pub.status
  actualLength : p.tran.actualLength = pub.actualLength
  callbacks : p.callbacks = callbacks

section
variable {n : Nat} {data : List UInt8} {errno : Errno} {tran : Core.Transfer}
  {p : Performed CtrlTransfer}

theorem usbybPerformTransfer_transferred (control : tran.type = .control)
    (h : usbybPerformTransfer (fun _ => .ok n data) tran = .ok p) :
    p.tran.status = .completed ∧ p.tran.actualLength = n + 8 ∧ p.callbacks = 0 := by
  simp only [usbybPerformTransfer, if_pos control, bind_eq_ok] at h
  obtain ⟨_, -, _, -, _, -, _, -, _, -, _, -, _, -, _, -, _, -, h⟩ := h
  cases h
  exact ⟨rfl, rfl, rfl⟩

theorem usbybPerformTransfer_failed (control : tran.type = .control)
    (h : usbybPerformTransfer (fun _ => .error errno) tran = .ok p) :
    p.tran.status = controlStatus errno ∧ p.tran.actualLength = tran.actualLength ∧
      p.callbacks = 0 := by
  simp only [usbybPerformTransfer, if_pos control, bind_eq_ok] at h
  obtain ⟨_, -, _, -, _, -, _, -, _, -, _, -, _, -, _, -, _, -, h⟩ := h
  cases h
  exact ⟨rfl, rfl, rfl⟩

end

section
variable {s s' : Sys} {t : TranId} {k : SubmitChoice} {es : List Event} {o : ControlOutcome}

theorem SlowPath.stored (slow : SlowPath s t k es o s') (reach : eventLoop.Reachable s)
    (idle : ¬ s.Outstanding t) (supported : (s.trans t).pub.type ≠ .isochronous) :
    (s'.trans t).pub = (s.trans t).pub.store o.status o.actualLength ∧
      callbacks s.nextUrb s (.submit t k :: es) = if (s.trans t).pub.callback then 1 else 0 := by
  obtain ⟨s₁, hsubmit, hrun⟩ := Machine.exec_cons.1 slow.run
  have start : Underway s₁ t s.nextUrb (s.trans t).pub o.status o.actualLength 0 :=
    underway_submit reach idle supported slow.accepted hsubmit
  have count : callbacks s.nextUrb s (.submit t k :: es) = 0 + callbacks s.nextUrb s₁ es := by
    rw [callbacks, show step s (.submit t k) = some s₁ from hsubmit]
    rfl
  rw [count]
  exact (underway_run start hrun slow.leaves slow.outcome).finished slow.done

/-- The paths agree exactly on successes of transfers without a callback whose status is
`LIBUSBY_TRANSFER_COMPLETED` beforehand. -/
theorem paths_agree_iff {tran : Core.Transfer} {status : Int} {data : List UInt8}
    {p : Performed CtrlTransfer} (reach : eventLoop.Reachable s) (idle : ¬ s.Outstanding t)
    (control : tran.type = .control) (same : (s.trans t).pub = pubTransfer tran status)
    (direct : usbybPerformTransfer (fun _ => o.ctrlResult data) tran = .ok p)
    (slow : SlowPath s t k es o s') :
    Agree p (s'.trans t).pub (callbacks s.nextUrb s (.submit t k :: es)) ↔
      (∃ n, o = .transferred n) ∧ status = TransferStatus.completed.code ∧
        tran.callback = false := by
  obtain ⟨stored, count⟩ := slow.stored reach idle (by rw [same, pubTransfer, control]; simp)
  rw [stored, count, same]
  cases o with
  | transferred n =>
    obtain ⟨hstatus, hlength, hcallbacks⟩ := usbybPerformTransfer_transferred control direct
    constructor
    · intro agree
      have status := agree.status
      have callback := agree.callbacks
      rw [hstatus] at status
      rw [hcallbacks] at callback
      refine ⟨⟨n, rfl⟩, status.symm, ?_⟩
      by_contra set
      rw [pubTransfer, if_pos (by simpa using set)] at callback
      cases callback
    · rintro ⟨-, completed, unset⟩
      constructor
      · rw [hstatus, ← completed]
        rfl
      · rw [hlength]
        simp [PubTransfer.store, pubTransfer, control, ControlOutcome.actualLength]
      · rw [hcallbacks, pubTransfer, if_neg (by simpa using unset)]
  | failed errno st len =>
    obtain ⟨hstatus, -, -⟩ := usbybPerformTransfer_failed control direct
    have negative : (st : Int) ≠ 0 := fun h => absurd st.2 (by simp [h])
    have io : ((pubTransfer tran status).store st len).status = Error.io.code := if_pos negative
    constructor
    · intro agree
      have status := agree.status
      rw [ControlOutcome.status, ControlOutcome.actualLength, io, hstatus] at status
      have := TransferStatus.code_nonneg (controlStatus errno)
      rw [status] at this
      exact absurd this (by decide)
    · rintro ⟨⟨n, h⟩, -⟩
      cases h

end

/-- `GET_STATUS`, for two bytes. -/
def getStatus : Core.Transfer where
  length := 10
  buffer := [0x80, 0, 0, 0, 0, 0, 2, 0, 0, 0]

/-- The transfer is filled with `pub` and nobody is in the loop. -/
def filled (pub : PubTransfer) : List Event := [.openHandle 0 5, .alloc 0, .fill 0 pub]

/-- Call 0 runs the loop, and the URB ends. -/
def reapedOnce (status len : Int) : List Event :=
  [.callRun 0, .enter 0, .head 0 true, .complete 0 status len, .pollReturn 0 (some false),
    .reap 0 (some 0), .lockReaped 0]

theorem reapedOnce_slowPath {s s' : Sys} {o : ControlOutcome}
    (run : eventLoop.exec s (.submit 0 ⟨true, none⟩ :: reapedOnce o.status o.actualLength) = some s')
    (hs : s.nextUrb = 0) (done : s'.urbs = []) :
    SlowPath s 0 ⟨true, none⟩ (reapedOnce o.status o.actualLength) o s' where
  run := run
  accepted := rfl
  leaves := by simp [reapedOnce, Event.leaves]
  outcome status len h := by simpa [reapedOnce, hs] using h
  done u hu := by
    rw [done] at hu
    cases hu

theorem paths_agree_getStatus : ∃ (s s' : Sys) (p : Performed CtrlTransfer),
    Agree p (s'.trans 0).pub (callbacks 0 s (.submit 0 ⟨true, none⟩ :: reapedOnce 0 2)) ∧
    p.tran.actualLength = 10 ∧ (s'.trans 0).pub.actualLength = 10 := by
  have idle {s : Sys} (h : s.urbs = []) : ¬ s.Outstanding 0 := by
    rintro ⟨u, hu, -⟩
    rw [h] at hu
    cases hu
  refine ⟨_, _, _, (@paths_agree_iff _ _ _ _ _ (.transferred 2) getStatus 0
    [1, 0] _ ⟨filled (pubTransfer getStatus 0), rfl⟩ (idle rfl) rfl rfl rfl
    (reapedOnce_slowPath rfl rfl rfl)).2 ⟨⟨2, rfl⟩, rfl, rfl⟩, rfl, rfl⟩

/-- A stall is `LIBUSBY_TRANSFER_STALL` on the one path and -1 on the other. -/
theorem paths_agree_fails : ¬ ∀ (s s' : Sys) (t : TranId) (k : SubmitChoice) (es : List Event)
    (o : ControlOutcome) (tran : Core.Transfer) (status : Int) (data : List UInt8)
    (p : Performed CtrlTransfer), eventLoop.Reachable s → ¬ s.Outstanding t →
    tran.type = .control → (s.trans t).pub = pubTransfer tran status →
    usbybPerformTransfer (fun _ => o.ctrlResult data) tran = .ok p → SlowPath s t k es o s' →
    Agree p (s'.trans t).pub (callbacks s.nextUrb s (.submit t k :: es)) := by
  intro h
  have agree := h _ _ 0 ⟨true, none⟩ _ (.failed .epipe ⟨-32, by decide⟩ 0)
    getStatus 0 [] _ ⟨filled (pubTransfer getStatus 0), rfl⟩ (by rintro ⟨u, hu, -⟩; cases hu) rfl rfl
    rfl (reapedOnce_slowPath rfl rfl rfl)
  exact absurd agree.status (by decide)

end Libusby.Linux
