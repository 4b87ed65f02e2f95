import Libusby.Core.BulkTransfer
import Libusby.Win32.Reuse

/-!
# What `libusby_bulk_transfer` returns on libusb0

`usbyb_perform_transfer` returns `LIBUSBY_SUCCESS` for every request that it issues, and
leaves the outcome to the status of the transfer, which `libusby_bulk_transfer` never reads.
-/

namespace Libusby.Win32

open Foundations Libusby.Core

/-- The request of a bulk transfer. -/
def bulkRequest (endpoint : UInt8) (data : List UInt8) : DeviceIo where
  dwControlCode := if endpoint &&& 0x80 ≠ 0 then .interruptOrBulkRead else .interruptOrBulkWrite
  timeout := defaultTimeout
  req := .endpoint endpoint.toUInt32
  data := data

section
variable {deviceIoControl : DeviceIo → DeviceIoResult} {tran : Transfer} {n : Nat}

theorem usbybPerformTransfer_bulk (bulk : tran.type = .bulk) (length : tran.length = n)
    (hn : n ≤ tran.buffer.length) :
    ∃ p, usbybPerformTransfer deviceIoControl tran = .ok p ∧ p.r = Error.success.code ∧
      p.tran.status = (deviceIoControl (bulkRequest tran.endpoint (tran.buffer.take n))).dwError.status
    := by
  have prepared : usbybPrepareTransferSubmission tran = .ok (.ok
      { dwControlCode := (bulkRequest tran.endpoint []).dwControlCode
        req := (bulkRequest tran.endpoint []).req, dataPtr := 0, dataLen := n }) := by
    rw [usbybPrepareTransferSubmission, bulk, ← length]
    rfl
  have area : readBytes (tran.buffer.drop 0) n = .ok (tran.buffer.take n) := by
    rw [List.drop_zero, readBytes_of_le hn]
  rw [usbybPerformTransfer, prepared]
  simp only [ok_bind, Int.toNat_natCast, area]
  exact ⟨_, rfl, rfl, usbybUpdateFinishedTransfer_status ..⟩

/-- The result tells the outcome exactly of the transfers that succeed. -/
theorem bulkTells_iff {endpoint : UInt8} {data : List UInt8} (hn : n ≤ data.length) :
    BulkTells (usbybPerformTransfer deviceIoControl) endpoint data n ↔
      (deviceIoControl (bulkRequest endpoint (data.take n))).dwError = .success := by
  have performed (submitAndWait : Transfer → Except Fault (Performed DeviceIo)) (t : Transfer)
      (devHandle : Nat) (timeout : Int) :
      ∃ p, libusbyPerformTransfer (usbybPerformTransfer deviceIoControl) submitAndWait
          (libusbyFillBulkTransfer t devHandle endpoint data n false timeout) = .ok p ∧
        0 ≤ p.r ∧
        p.tran.status = (deviceIoControl (bulkRequest endpoint (data.take n))).dwError.status := by
    obtain ⟨p, hp, hr, hstatus⟩ := @usbybPerformTransfer_bulk deviceIoControl
      (libusbyFillBulkTransfer t devHandle endpoint data n false timeout) n rfl rfl hn
    refine ⟨p, ?_, ?_, hstatus⟩
    · rw [libusbyPerformTransfer, hp, ok_bind, hr, if_neg (by decide)]
    · rw [hr]
      decide
  constructor
  · intro tells
    obtain ⟨p, hp, hr, hstatus⟩ := performed (fun tran => .ok { r := 0, tran }) {} 0 0
    obtain ⟨res, hres, told⟩ := tells (fun tran => .ok { r := 0, tran }) (some {}) 0 0
    rw [libusbyBulkTransfer, hp, ok_bind] at hres
    cases hres
    obtain ⟨t, ht, q, hq, -, completed⟩ := told.r.1 hr
    cases ht
    cases hp.symm.trans hq
    exact (Win32Error.statusOf_status.completed _).1 (hstatus ▸ completed)
  · intro success submitAndWait tran devHandle timeout
    cases tran with
    | none =>
      refine ⟨_, rfl, ?_, ?_⟩
      · simp [Error.code]
      · simp
    | some t =>
      obtain ⟨p, hp, hr, hstatus⟩ := performed submitAndWait t devHandle timeout
      have completed : p.tran.status = .completed :=
        hstatus.trans ((Win32Error.statusOf_status.completed _).2 success)
      refine ⟨bulkResult p.r p.tran.actualLength, by rw [libusbyBulkTransfer, hp]; rfl, ?_⟩
      rw [bulkResult_tells_iff]
      exact ⟨fun _ => ⟨t, rfl, p, hp, hr, completed⟩, fun _ => hr⟩

end

end Libusby.Win32
