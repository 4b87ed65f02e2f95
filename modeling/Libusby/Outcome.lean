import Libusby.Linux.EventLoop.BulkReturn
import Libusby.Linux.EventLoop.Reported
import Libusby.Win32.Bulk
import Libusby.Wire

/-!
# What a transfer reports

The status that the event loops leave in a transfer, and the result of the synchronous
wrappers, on both backends. The libusb0 backend translates every outcome, the event loop
of the usbfs backend none, and `libusby_bulk_transfer` never asks.
-/

namespace Libusby

open Foundations Libusby.Core Linux.EventLoop

/-! ## The status of a transfer -/

/-- What the usbfs event loop reports is a function of the kernel's outcome exactly if every
URB of the run succeeds for a transfer that is completed already; what the libusb0 backend
reports always is. -/
theorem status_reported (es : List Event) (uses : List Win32.Use) :
    (∀ f, StatusOf UrbStatus.Success UrbStatus.Discarded f →
      (eventLoop.Steps (Reports f) .initial es ↔
        eventLoop.Steps (fun s e _ => ReapsCompleted s e) .initial es)) ∧
    StatusOf Win32.Win32Error.Success Win32.Win32Error.Discarded Win32.Win32Error.status ∧
      Win32.transferObject.Steps (Win32.Reports Win32.Win32Error.status) {} uses :=
  ⟨fun _ hf => steps_reports_iff hf .initial es,
    Win32.Win32Error.statusOf_status, Win32.steps_reports {} uses⟩

/-- What the kernel's outcome says. -/
def urbStatus (status : UrbStatus) : TransferStatus :=
  if status = 0 then .completed else if status = -2 ∨ status = -104 then .cancelled else .error

theorem statusOf_urbStatus : StatusOf UrbStatus.Success UrbStatus.Discarded urbStatus where
  completed status := by
    unfold urbStatus UrbStatus.Success
    split_ifs <;> simp [*]
  cancelled status := by
    unfold urbStatus UrbStatus.Discarded
    split_ifs <;> simp [*]

theorem status_reported_served : eventLoop.Steps (Reports urbStatus) .initial served := by
  apply ((status_reported served []).1 urbStatus statusOf_urbStatus).2
  have other {s e t es} (ht : step s e = some t) (hr : s.reaped e = none)
      (h : eventLoop.Steps (fun s e _ => ReapsCompleted s e) t es) :
      eventLoop.Steps (fun s e _ => ReapsCompleted s e) s (e :: es) :=
    .cons ht (fun t status len h => by simp [hr] at h) h
  refine other rfl rfl (other rfl rfl (other rfl rfl (other rfl rfl (other rfl rfl ?_))))
  refine other rfl rfl (other rfl rfl (other rfl rfl (other rfl rfl (other rfl rfl ?_))))
  refine other rfl rfl (other rfl rfl (other rfl rfl ?_))
  refine .cons rfl ?_ (other rfl rfl (other rfl rfl trivial))
  rintro t status len ⟨⟩
  exact ⟨rfl, rfl⟩

/-- The device stalls, and the transfer reports -1, which is no status at all. -/
theorem status_reported_fails : ¬ ((∃ f, StatusOf UrbStatus.Success UrbStatus.Discarded f ∧
      ∀ es, eventLoop.Steps (Reports f) .initial es) ∧
    ∃ f, StatusOf Win32.Win32Error.Success Win32.Win32Error.Discarded f ∧ ∀ es,
      Win32.transferObject.Steps (Win32.Reports f) {} es) := by
  rintro ⟨⟨f, hf, h⟩, -⟩
  have run : eventLoop.Steps (fun s e _ => ReapsCompleted s e) .initial
      (stalled.take 13 ++ [.reap 0 (some 0)]) := (steps_reports_iff hf .initial _).1 (h _)
  have success := (Machine.Steps.of_snoc run rfl).2 _ rfl 0 (-32) 0 rfl
  exact absurd success.1 (by decide)

/-! ## The result of the synchronous wrappers -/

/-- `libusby_control_transfer` tells the outcome of every transfer, on both backends.
`libusby_bulk_transfer` does so on libusb0 exactly when the request succeeds, and on usbfs
in the runs whose bulk transfers succeed and are waited for in order. -/
theorem wrappers_tell (s : Setup) (endpoint : UInt8) (data : List UInt8) (length : Nat)
    (es : List Event) :
    (∀ ioctl, Linux.Usbdevfs ioctl → s.wLength.toNat ≤ data.length →
      ControlTells (Linux.usbybPerformTransfer ioctl) s data) ∧
    (∀ deviceIoControl, Win32.Libusb0 deviceIoControl → s.wLength.toNat ≤ data.length →
      ControlTells (Win32.usbybPerformTransfer deviceIoControl) s data) ∧
    (∀ deviceIoControl, length ≤ data.length →
      (Core.BulkTells (Win32.usbybPerformTransfer deviceIoControl) endpoint data length ↔
        (deviceIoControl (Win32.bulkRequest endpoint (data.take length))).dwError = .success)) ∧
    eventLoop.Steps RefusalTells .initial es ∧
      (eventLoop.Steps (fun s e _ => BulkSucceeds s e) .initial es →
        eventLoop.Always Linux.EventLoop.BulkTells .initial es) := by
  refine ⟨?_, ?_, ?_, steps_refusalTells .initial es, always_bulkTells es⟩
  · exact fun _ h hdata => (Linux.usbybPerformTransfer_conveys h).controlTells hdata
  · exact fun _ h hdata => (Win32.usbybPerformTransfer_conveys h).controlTells hdata
  · exact fun _ hn => Win32.bulkTells_iff hn

theorem bulkSucceeds_served : eventLoop.Steps (fun s e _ => BulkSucceeds s e) .initial served := by
  have listed : eventLoop.Steps (fun _ e _ => e ∈ served) .initial served := .of_forall fun _ h => h
  apply (orderly_served.and listed).mono
  rintro s e t - ⟨orderly, he⟩
  refine ⟨orderly, ?_, fun th w hfails => ?_⟩
  · rintro k status len th rfl u - - -
    simp [served] at he
    exact he.2.1
  · have : ∀ e ∈ served, e.fails = none := by decide
    rw [this e he] at hfails
    cases hfails

theorem wrappers_tell_served :
    ControlTells (Linux.usbybPerformTransfer fun _ => .error .enodev) getDescriptor
      (List.replicate 18 0) ∧ eventLoop.Always Linux.EventLoop.BulkTells .initial served :=
  ⟨(wrappers_tell getDescriptor 0 (List.replicate 18 0) 18 []).1 _ (fun _ _ _ h => by cases h)
      (by decide),
    (wrappers_tell getDescriptor 0 [] 0 served).2.2.2.2 bulkSucceeds_served⟩

/-- The device is gone. -/
def gone (_ : Win32.DeviceIo) : Win32.DeviceIoResult where
  deviceIoControl := some .other
  getOverlappedResult := none
  dwTransferred := 0
  data := []

/-- On both backends `libusby_bulk_transfer` can succeed for a transfer that failed. -/
theorem wrappers_tell_fails :
    ¬ Core.BulkTells (Win32.usbybPerformTransfer gone) 0x81 [0, 0, 0, 0] 4 ∧
    ∃ s, eventLoop.exec .initial stalled = some s ∧ ¬ Linux.EventLoop.BulkTells s := by
  refine ⟨fun h => ?_, stalled_untold⟩
  exact absurd ((Win32.bulkTells_iff (n := 4) (Nat.le_refl _)).1 h) (by decide)

end Libusby
