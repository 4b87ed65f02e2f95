import Libusby.Core.ControlTransfer

/-!
# What the synchronous wrappers return

`libusby_bulk_transfer`, and the question both wrappers have to answer: did the transfer
complete? `libusby_control_transfer` asks the status of the transfer,
`libusby_bulk_transfer` only the return code of `libusby_perform_transfer`.
-/

namespace Libusby.Core

open Foundations

/-- The return value and what is written to `*transferred`. -/
structure BulkResult where
  r : Int
  transferred : Option Int
  deriving DecidableEq, Repr

def libusbyFillBulkTransfer (transfer : Transfer) (devHandle : Nat) (endpoint : UInt8)
    (buffer : List UInt8) (length : Int) (callback : Bool) (timeout : Int) : Transfer :=
  { transfer with
    devHandle, endpoint, length, callback, buffer, timeout
    type := .bulk
    status := .completed
    actualLength := 0 }

/-- The end of `libusby_bulk_transfer`, after `libusby_perform_transfer` returned `r`. -/
def bulkResult (r actualLength : Int) : BulkResult where
  r := r
  transferred := if 0 ≤ r then some actualLength else none

/-- A result that tells whether the transfer completed. -/
structure BulkResult.Tells (res : BulkResult) (completed : Prop) : Prop where
  r : 0 ≤ res.r ↔ completed
  transferred : res.transferred.isSome → completed

section
variable {Req : Type}

/-- `tran` is what `libusby_alloc_transfer` returns. -/
def libusbyBulkTransfer (perform submitAndWait : Transfer → Except Fault (Performed Req))
    (tran : Option Transfer) (devHandle : Nat) (endpoint : UInt8) (data : List UInt8)
    (length : Int) (timeout : Int) : Except Fault BulkResult :=
  match tran with
  | none => .ok { r := Error.noMem.code, transferred := none }
  | some tran => do
    let tran := libusbyFillBulkTransfer tran devHandle endpoint data length false timeout
    let p ← libusbyPerformTransfer perform submitAndWait tran
    .ok (bulkResult p.r p.tran.actualLength)

/-- The transfer is carried out and its status is `LIBUSBY_TRANSFER_COMPLETED`. -/
def Completes (perform submitAndWait : Transfer → Except Fault (Performed Req))
    (tran : Transfer) : Prop :=
  ∃ p, libusbyPerformTransfer perform submitAndWait tran = .ok p ∧ 0 ≤ p.r ∧
    p.tran.status = .completed

/-- Whatever the allocations do, the return value tells whether the transfer completed. -/
def ControlTells (perform : Transfer → Except Fault (Performed Req)) (s : Setup)
    (data : List UInt8) : Prop :=
  ∀ (submitAndWait : Transfer → Except Fault (Performed Req)) (tran : Option Transfer)
    (buffer : Option (List UInt8)) (devHandle : Nat) (timeout : Int),
    (∀ b ∈ buffer, b.length = s.wLength.toNat + 8) →
    ∃ res, libusbyControlTransfer perform submitAndWait tran buffer devHandle s data timeout =
        .ok res ∧
      (0 ≤ res.r ↔ ∃ t ∈ tran, ∃ b ∈ buffer, ∃ filled,
        libusbyFillControlTransfer t devHandle (s.header ++ b.drop 8) false timeout = .ok filled ∧
          Completes perform submitAndWait filled)

/-- Whatever the allocation does, the result tells whether the transfer completed. -/
def BulkTells (perform : Transfer → Except Fault (Performed Req)) (endpoint : UInt8)
    (data : List UInt8) (length : Int) : Prop :=
  ∀ (submitAndWait : Transfer → Except Fault (Performed Req)) (tran : Option Transfer)
    (devHandle : Nat) (timeout : Int),
    ∃ res, libusbyBulkTransfer perform submitAndWait tran devHandle endpoint data length timeout =
        .ok res ∧
      res.Tells (∃ t ∈ tran, Completes perform submitAndWait
        (libusbyFillBulkTransfer t devHandle endpoint data length false timeout))

theorem bulkResult_tells_iff {r actualLength : Int} {completed : Prop} :
    (bulkResult r actualLength).Tells completed ↔ (0 ≤ r ↔ completed) := by
  refine ⟨fun h => h.r, fun h => ⟨h, fun written => h.1 ?_⟩⟩
  by_contra negative
  simp [bulkResult, negative] at written

section
variable {perform : Transfer → Except Fault (Performed Req)} {wire : Req → Setup × List UInt8}
  {s : Setup} {data : List UInt8}

/-- Over a backend that conveys requests `libusby_control_transfer` tells the outcome. -/
theorem Conveys.controlTells (h : Conveys perform wire) (hdata : s.wLength.toNat ≤ data.length) :
    ControlTells perform s data := by
  intro submitAndWait tran buffer devHandle timeout hbuffer
  cases tran with
  | none => exact ⟨_, controlTransfer_noMem (.inl rfl), by simp [Error.code]⟩
  | some tran =>
    cases buffer with
    | none => exact ⟨_, controlTransfer_noMem (.inr rfl), by simp [Error.code]⟩
    | some buffer =>
      obtain ⟨filled, p, q, res, hfill, hperform, hr, -, hres, -, outcome⟩ :=
        h.control submitAndWait tran devHandle timeout (hbuffer buffer rfl) hdata
      have completes : (∃ t ∈ some tran, ∃ b ∈ some buffer, ∃ filled,
          libusbyFillControlTransfer t devHandle (s.header ++ b.drop 8) false timeout = .ok filled ∧
            Completes perform submitAndWait filled) ↔ p.tran.status = .completed := by
        simp [hfill, Completes, hperform, hr, Error.code]
      refine ⟨res, hres, ?_⟩
      rw [completes]
      rcases outcome with ⟨failed, io, -⟩ | ⟨completed, n, area, -, transferred, -⟩
      · simp [failed, io, Error.code]
      · simp [completed, transferred]

end

end

end Libusby.Core
