import Libusby.Foundations.Machine
import Libusby.Win32.Transfer

/-!
# Transfers of libusb0 used again and again

One transfer object, which its owner fills, submits and, often from its own callback,
submits again. `usbyb_update_finished_transfer` translates every error.
-/

namespace Libusby.Win32

open Foundations Libusby.Core

/-- The part of `struct usbyb_transfer` that a completion is about. -/
structure Object where
  tran : Transfer := {}
  submitted : Bool := false
  deriving DecidableEq, Repr

/-- `res` is the error of `DeviceIoControl`, if it fails. -/
def usbybSubmitTransfer (o : Object) (res : Option Win32Error) : Except Fault (Error × Object) := do
  let prepared ← usbybPrepareTransferSubmission o.tran
  match prepared with
  | .error e => .ok (e, o)
  | .ok _ =>
    if res ≠ none ∧ res ≠ some .ioPending then .ok (.io, o)
    else .ok (.success, { o with submitted := true })

/-- `res` is the error of `GetOverlappedResult`, if it fails. -/
def usbybReapTransfer (o : Object) (res : Option Win32Error) (dwTransferred : Nat) : Object where
  tran := usbybUpdateFinishedTransfer o.tran (res.getD .success) dwTransferred
  submitted := false

inductive Use where
  | fill (tran : Transfer)
  | submit (res : Option Win32Error)
  | reap (res : Option Win32Error) (dwTransferred : Nat)
  deriving DecidableEq, Repr

/-- The owner leaves a submitted transfer alone, and only a submitted one is reaped. -/
def use (o : Object) : Use → Option Object
  | .fill tran => if o.submitted = false then some { o with tran } else none
  | .submit res =>
    if o.submitted = false then (usbybSubmitTransfer o res).toOption.map Prod.snd else none
  | .reap res dwTransferred =>
    if o.submitted = true then some (usbybReapTransfer o res dwTransferred) else none

/-- The uses of one transfer object. -/
def transferObject : Machine Object Use := ⟨{}, use⟩

def Win32Error.Success (dwError : Win32Error) : Prop := dwError = .success

def Win32Error.Discarded (dwError : Win32Error) : Prop := dwError = .operationAborted

/-- What `usbyb_update_finished_transfer` makes of an error. -/
def Win32Error.status : Win32Error → TransferStatus
  | .success => .completed
  | .operationAborted => .cancelled
  | _ => .error

theorem Win32Error.statusOf_status :
    StatusOf Win32Error.Success Win32Error.Discarded Win32Error.status where
  completed dwError := by cases dwError <;> simp [Win32Error.status, Win32Error.Success]
  cancelled dwError := by cases dwError <;> simp [Win32Error.status, Win32Error.Discarded]

theorem usbybUpdateFinishedTransfer_status (tran : Transfer) (dwError : Win32Error)
    (dwTransferred : Nat) :
    (usbybUpdateFinishedTransfer tran dwError dwTransferred).status = dwError.status := by
  cases dwError with
  | success =>
    unfold usbybUpdateFinishedTransfer
    split_ifs <;> rfl
  | _ => rfl

/-- A transfer that is reaped in this step reports what `f` makes of the outcome. -/
def Reports (f : Win32Error → TransferStatus) (_ : Object) (e : Use) (o' : Object) : Prop :=
  ∀ res dwTransferred, e = .reap res dwTransferred → o'.tran.status = f (res.getD .success)

theorem reports_status {o o' : Object} {e : Use} (h : use o e = some o') :
    Reports Win32Error.status o e o' := by
  rintro res dwTransferred rfl
  simp only [use] at h
  split at h
  case isTrue =>
    cases h
    exact usbybUpdateFinishedTransfer_status ..
  case isFalse => cases h

/-- Every completion of a transfer object is reported right. -/
theorem steps_reports (o : Object) (es : List Use) :
    transferObject.Steps (Reports Win32Error.status) o es :=
  Machine.Steps.of_step (fun _ _ _ h => reports_status h)

end Libusby.Win32
