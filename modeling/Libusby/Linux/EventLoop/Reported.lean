import Libusby.Core.Transfer
import Libusby.Linux.EventLoop.Completion

/-!
# What the event loop reports

The event loop stores `LIBUSBY_ERROR_IO` where a transfer status belongs, and stores
nothing for a URB that succeeded. So what a transfer reports is right exactly for the
URBs that succeed with a status field that says so already.
-/

namespace Libusby.Linux.EventLoop

open Foundations Libusby.Core

/-- `status` of a URB that the kernel completed. -/
abbrev UrbStatus := Int

def UrbStatus.Success (status : UrbStatus) : Prop := status = 0

/-- `-ENOENT` or `-ECONNRESET`. -/
def UrbStatus.Discarded (status : UrbStatus) : Prop := status = -2 ∨ status = -104

/-- The transfer whose URB is reaped by the event, with the outcome. -/
def Sys.reaped (s : Sys) : Event → Option (TranId × UrbStatus × Int)
  | .reap _ (some k) =>
    match s.urbs.find? (·.id = k) with
    | some ⟨_, t, _, _, .completed status actualLength⟩ => some (t, status, actualLength)
    | _ => none
  | _ => none

/-- A transfer whose URB is reaped in this step reports what `f` makes of the outcome. -/
def Reports (f : UrbStatus → TransferStatus) (s : Sys) (e : Event) (s' : Sys) : Prop :=
  ∀ t status len, s.reaped e = some (t, status, len) → (s'.trans t).pub.status = (f status).code

/-- A URB that is reaped in this step succeeded, and its transfer is completed already. -/
def ReapsCompleted (s : Sys) (e : Event) : Prop :=
  ∀ t status len, s.reaped e = some (t, status, len) →
    status = 0 ∧ (s.trans t).pub.status = TransferStatus.completed.code

section
variable {s s' : Sys} {e : Event} {t : TranId} {status : UrbStatus} {len : Int}
  {f : UrbStatus → TransferStatus}

theorem reaped_store (h : step s e = some s') (hr : s.reaped e = some (t, status, len)) :
    (s'.trans t).pub = (s.trans t).pub.store status len := by
  cases e with
  | reap th urb =>
    cases urb with
    | none => cases hr
    | some k =>
      simp only [Sys.reaped] at hr
      split at hr
      case h_2 => cases hr
      case h_1 id t ufd req status len hfind =>
        cases hr
        simp only [step] at h
        split at h
        case h_2 => cases h
        case h_1 d hpc =>
          cases hd : d.pollfds[d.i]? with
          | none => simp [hd] at h
          | some fd =>
            simp only [hd, hfind] at h
            split at h <;> cases h
            simp [Sys.setPub]
  | _ => cases hr

theorem reports_iff (hf : StatusOf UrbStatus.Success UrbStatus.Discarded f)
    (h : step s e = some s') : Reports f s e s' ↔ ReapsCompleted s e := by
  refine forall_congr' fun t => forall_congr' fun status => forall_congr' fun len =>
    forall_congr' fun hr => ?_
  rw [reaped_store h hr, PubTransfer.store]
  by_cases success : status = 0
  · simp [success, (hf.completed 0).2 rfl]
  · have := TransferStatus.code_nonneg (f status)
    simp only [success, ne_eq, not_false_eq_true, if_true, false_and, iff_false, Error.code]
    omega

/-- What the event loop reports is right throughout a run exactly when every URB of the
run succeeds for a transfer that is completed already. -/
theorem steps_reports_iff (hf : StatusOf UrbStatus.Success UrbStatus.Discarded f) (s : Sys)
    (es : List Event) :
    eventLoop.Steps (Reports f) s es ↔ eventLoop.Steps (fun s e _ => ReapsCompleted s e) s es :=
  Machine.Steps.congr fun _ _ _ h => reports_iff hf h

end

end Libusby.Linux.EventLoop
