import Libusby.Linux.Transfer
import Libusby.Win32.Reuse

/-!
# What a control transfer returns of the data stage

The eight bytes of the setup packet are added to the count by both backends and taken off
again by `libusby_control_transfer`. What the caller sees is the count of the kernel, the
bytes that it delivered, and the rest of its own buffer.
-/

namespace Libusby

open Foundations Libusby.Core

section
variable {Req : Type}

/-- `outcome` is the count and the data area after a request that the kernel completes, and
none for one that fails. The backend reports both. -/
def Answers (perform : Transfer → Except Fault (Performed Req)) (wire : Req → Setup × List UInt8)
    (outcome : Req → Option (Nat × List UInt8)) : Prop :=
  ∀ tran s area, Carries tran s area → ∃ p q, perform tran = .ok p ∧ p.r = Error.success.code ∧
    p.handed = [q] ∧ wire q = (s, area) ∧ (outcome q = none → p.tran.status ≠ .completed) ∧
    ∀ n area', outcome q = some (n, area') →
      p.tran.status = .completed ∧ Delivered p.tran s area n area'

/-- The call never faults. A failure, of an allocation or of the request, is an error and
leaves the data alone; otherwise the result is the count, and the delivered bytes replace as
many bytes of the data. -/
def Receives (perform : Transfer → Except Fault (Performed Req)) (wire : Req → Setup × List UInt8)
    (outcome : Req → Option (Nat × List UInt8)) (s : Setup) (data : List UInt8) : Prop :=
  ∀ submitAndWait tran (buffer : Option (List UInt8)) devHandle timeout,
    (∀ b ∈ buffer, b.length = s.wLength.toNat + 8) →
    ∃ res, libusbyControlTransfer perform submitAndWait tran buffer devHandle s data timeout =
        .ok res ∧
      (tran = none ∨ buffer = none → res.r < 0 ∧ res.data = data ∧ res.handed = []) ∧
      ∀ t b, tran = some t → buffer = some b → ∃ q, res.handed = [q] ∧ wire q = (s, b.drop 8) ∧
        (outcome q = none → res.r < 0 ∧ res.data = data) ∧
        ∀ (n : Nat) area, outcome q = some (n, area) →
          res.r = n ∧ n ≤ s.wLength.toNat ∧ res.data = area.take n ++ data.drop n

variable {perform : Transfer → Except Fault (Performed Req)} {wire : Req → Setup × List UInt8}
  {outcome : Req → Option (Nat × List UInt8)} {s : Setup} {data : List UInt8}

/-- With both allocations. -/
theorem Answers.received (h : Answers perform wire outcome) {buffer : List UInt8}
    (submitAndWait : Transfer → Except Fault (Performed Req)) (tran : Transfer) (devHandle : Nat)
    (timeout : Int) (hbuffer : buffer.length = s.wLength.toNat + 8)
    (hdata : s.wLength.toNat ≤ data.length) :
    ∃ res q, libusbyControlTransfer perform submitAndWait (some tran) (some buffer) devHandle s data
        timeout = .ok res ∧ res.handed = [q] ∧ wire q = (s, buffer.drop 8) ∧
      (outcome q = none → res.r < 0 ∧ res.data = data) ∧
      ∀ (n : Nat) area, outcome q = some (n, area) →
        res.r = n ∧ n ≤ s.wLength.toNat ∧ res.data = area.take n ++ data.drop n := by
  obtain ⟨filled, hfill, carries⟩ := fill_carries tran devHandle timeout hbuffer
  obtain ⟨p, q, hp, hr, hhanded, hwire, failed, completed⟩ := h filled s _ carries
  have hperform : libusbyPerformTransfer perform submitAndWait filled = .ok p := by
    rw [libusbyPerformTransfer, hp, ok_bind, hr, if_neg (by decide)]
  simp only [libusbyControlTransfer, hfill, ok_bind, hperform, hr, if_pos (show (0 : Int) ≤
    Error.success.code by decide)]
  cases hq : outcome q with
  | none =>
    rw [if_pos (failed hq)]
    refine ⟨_, q, rfl, hhanded, hwire, fun _ => ⟨show Error.io.code < 0 by decide, rfl⟩, ?_⟩
    intro n area contra
    cases hq.symm.trans contra
  | some delivered =>
    obtain ⟨n, area⟩ := delivered
    obtain ⟨done, d⟩ := completed n area hq
    have hn := d.le
    rw [if_neg (by simpa using done), if_neg d.header_le, d.transferred, d.read, ok_bind,
      if_neg (by omega)]
    refine ⟨_, q, rfl, hhanded, hwire, ?_, ?_⟩
    · intro contra
      cases hq.symm.trans contra
    · intro m area' same
      cases hq.symm.trans same
      exact ⟨rfl, hn, rfl⟩

theorem Answers.receives (h : Answers perform wire outcome) (hdata : s.wLength.toNat ≤ data.length) :
    Receives perform wire outcome s data := by
  intro submitAndWait tran buffer devHandle timeout hbuffer
  have noMem : Error.noMem.code < 0 := by decide
  cases tran with
  | none =>
    refine ⟨_, controlTransfer_noMem (Or.inl rfl), fun _ => ⟨noMem, rfl, rfl⟩, ?_⟩
    intro t b contra
    cases contra
  | some t =>
    cases buffer with
    | none =>
      refine ⟨_, controlTransfer_noMem (Or.inr rfl), fun _ => ⟨noMem, rfl, rfl⟩, ?_⟩
      intro t b _ contra
      cases contra
    | some b =>
      obtain ⟨res, q, hres, handed, hwire, outcome⟩ :=
        h.received submitAndWait t devHandle timeout (hbuffer b rfl) hdata
      refine ⟨res, hres, fun contra => ?_, fun t' b' ht hb => ?_⟩
      · obtain contra | contra := contra <;> cases contra
      · cases ht
        cases hb
        exact ⟨q, handed, hwire, outcome⟩

end

/-! ## The two backends -/

/-- What `USBDEVFS_CONTROL` makes of a request. -/
def Linux.controlOutcome (ioctl : Linux.CtrlTransfer → Linux.CtrlResult) (req : Linux.CtrlTransfer) :
    Option (Nat × List UInt8) :=
  match ioctl req with
  | .ok r data => some (r, data)
  | .error _ => none

/-- What `DeviceIoControl` and the wait for it make of a request. -/
def Win32.controlOutcome (deviceIoControl : Win32.DeviceIo → Win32.DeviceIoResult)
    (req : Win32.DeviceIo) : Option (Nat × List UInt8) :=
  if (deviceIoControl req).dwError = .success then
    some ((deviceIoControl req).dwTransferred, (deviceIoControl req).data)
  else none

theorem Linux.usbybPerformTransfer_answers {ioctl : Linux.CtrlTransfer → Linux.CtrlResult}
    (h : Linux.Usbdevfs ioctl) :
    Answers (Linux.usbybPerformTransfer ioctl) Linux.CtrlTransfer.wire
      (Linux.controlOutcome ioctl) := by
  intro tran s area c
  rw [Linux.usbybPerformTransfer, if_pos c.type, c.readByte_eq 0 _ rfl, c.readByte_eq 1 _ rfl,
    c.readByte_eq 2 _ rfl, c.readByte_eq 3 _ rfl, c.readByte_eq 4 _ rfl, c.readByte_eq 5 _ rfl,
    c.readByte_eq 6 _ rfl, c.readByte_eq 7 _ rfl]
  simp only [ok_bind, le16_bytes, c.readArea]
  split
  case h_1 r data hres =>
    obtain ⟨hr, hlength, hout⟩ := h _ _ _ hres
    refine ⟨_, _, rfl, rfl, rfl, rfl, fun failed => ?_, fun n area' done => ?_⟩
    · simp [Linux.controlOutcome, hres] at failed
    · simp only [Linux.controlOutcome, hres] at done
      cases done
      exact ⟨rfl, rfl, hr, c.deliver hlength, hlength.trans c.area, hout⟩
  case h_2 errno hres =>
    refine ⟨_, _, rfl, rfl, rfl, rfl, fun _ completed => ?_, fun n area' done => ?_⟩
    · cases errno <;> cases completed
    · simp [Linux.controlOutcome, hres] at done

theorem Win32.usbybPerformTransfer_answers
    {deviceIoControl : Win32.DeviceIo → Win32.DeviceIoResult} (h : Win32.Libusb0 deviceIoControl) :
    Answers (Win32.usbybPerformTransfer deviceIoControl) Win32.DeviceIo.wire
      (Win32.controlOutcome deviceIoControl) := by
  intro tran s area c
  obtain ⟨hn, hlength, hout⟩ := h (Win32.controlRequest s area)
  generalize hio : deviceIoControl (Win32.controlRequest s area) = io at hn hlength hout
  obtain ⟨callbacks, hperform⟩ := Win32.usbybPerformTransfer_control c hio
  have status := Win32.usbybUpdateFinishedTransfer_status (tran.deliver 8 io.data) io.dwError
    io.dwTransferred
  have completed := Win32.Win32Error.statusOf_status.completed io.dwError
  refine ⟨_, _, hperform, rfl, rfl, rfl, fun failed => ?_, fun n area' done => ?_⟩
  · simp only [Win32.controlOutcome, hio, ite_eq_right_iff] at failed
    rw [status, Ne, completed]
    exact fun success => nomatch failed success
  · simp only [Win32.controlOutcome, hio, Option.ite_none_right_eq_some] at done
    obtain ⟨success, same⟩ := done
    cases same
    have hdone := completed.2 success
    have type : (tran.deliver 8 io.data).type = .control := c.type
    rw [← status] at hdone
    rw [Win32.usbybUpdateFinishedTransfer_completed type hdone]
    exact ⟨rfl, rfl, Nat.le_trans hn (Nat.le_of_eq c.area), c.deliver hlength,
      hlength.trans c.area, fun out => hout (by simp [Win32.controlRequest, out])⟩

/-- On both backends a control transfer returns what the kernel delivered, for requests of
either direction. -/
theorem controlTransfer_receives (s : Setup) (data : List UInt8)
    (hdata : s.wLength.toNat ≤ data.length) :
    (∀ ioctl, Linux.Usbdevfs ioctl → Receives (Linux.usbybPerformTransfer ioctl)
      Linux.CtrlTransfer.wire (Linux.controlOutcome ioctl) s data) ∧
    ∀ deviceIoControl, Win32.Libusb0 deviceIoControl →
      Receives (Win32.usbybPerformTransfer deviceIoControl) Win32.DeviceIo.wire
        (Win32.controlOutcome deviceIoControl) s data :=
  ⟨fun _ h => (Linux.usbybPerformTransfer_answers h).receives hdata,
    fun _ h => (Win32.usbybPerformTransfer_answers h).receives hdata⟩

/-- `GET_STATUS`. -/
def getStatus : Setup where
  bmRequestType := 0x80
  bRequest := 0
  wValue := 0
  wIndex := 0
  wLength := 2

/-- Devices that answer `GET_STATUS` with two bytes. -/
theorem controlTransfer_receives_status :
    Receives (Linux.usbybPerformTransfer fun req =>
        .ok req.wLength.toNat (if req.wire.1.HostToDevice then req.data else req.data.map fun _ => 1))
      Linux.CtrlTransfer.wire (Linux.controlOutcome fun req =>
        .ok req.wLength.toNat (if req.wire.1.HostToDevice then req.data else req.data.map fun _ => 1))
      getStatus [0, 0, 0] ∧
    Receives (Win32.usbybPerformTransfer fun req => ⟨none, none, req.data.length,
        if req.dwControlCode ≠ .controlRead then req.data else req.data.map fun _ => 1⟩)
      Win32.DeviceIo.wire (Win32.controlOutcome fun req => ⟨none, none, req.data.length,
        if req.dwControlCode ≠ .controlRead then req.data else req.data.map fun _ => 1⟩)
      getStatus [0, 0, 0] := by
  have receives := controlTransfer_receives getStatus [0, 0, 0] (by decide)
  refine ⟨receives.1 _ ?_, receives.2 _ ?_⟩
  · intro req r data h
    cases h
    refine ⟨Nat.le_refl _, ?_, fun out => if_pos out⟩
    split_ifs <;> simp
  · intro req
    refine ⟨Nat.le_refl _, ?_, fun out => if_pos out⟩
    simp only
    split_ifs <;> simp

end Libusby
