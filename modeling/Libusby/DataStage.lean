import Libusby.Linux.Transfer
import Libusby.Win32.Transfer

/-!
# The data stage and the buffer of a control transfer

The `length` of a transfer and the `wLength` in its buffer describe the same bytes, and a
client may set them independently. libusb0 compares them before it issues the request,
usbfs does not look at `length` at all.
-/

namespace Libusby

open Foundations Libusby.Core

/-- `wLength` of the setup packet in the buffer. -/
def setupLength (tran : Transfer) : Nat :=
  (le16 (tran.buffer.getD 6 0) (tran.buffer.getD 7 0)).toNat

/-- The buffer has room for the setup packet and for `wLength` bytes behind it. -/
def Fits (tran : Transfer) : Prop := 8 ≤ tran.length ∧ setupLength tran ≤ tran.length - 8

instance (tran : Transfer) : Decidable (Fits tran) := inferInstanceAs (Decidable (_ ∧ _))

section
variable {Req : Type}

/-- The transfer is rejected, or the bytes at offset 8 that the kernel may touch end with
the buffer. -/
def Contained (perform : Transfer → Except Fault (Performed Req))
    (wire : Req → Setup × List UInt8) (tran : Transfer) : Prop :=
  ∃ p, perform tran = .ok p ∧
    (p.r < 0 ∨ ∀ q ∈ p.handed, 8 + ((wire q).2.length : Int) ≤ tran.length)

def Rejects (perform : Transfer → Except Fault (Performed Req)) (tran : Transfer) : Prop :=
  ∃ p, perform tran = .ok p ∧ p.r < 0

end

/-- Both backends keep the kernel inside the buffer and reject the same transfers. -/
structure DataStageSafe (ioctl : Linux.CtrlTransfer → Linux.CtrlResult)
    (deviceIoControl : Win32.DeviceIo → Win32.DeviceIoResult) (tran : Transfer) : Prop where
  linux : Contained (Linux.usbybPerformTransfer ioctl) Linux.CtrlTransfer.wire tran
  win32 : Contained (Win32.usbybPerformTransfer deviceIoControl) Win32.DeviceIo.wire tran
  agree : Rejects (Linux.usbybPerformTransfer ioctl) tran ↔
    Rejects (Win32.usbybPerformTransfer deviceIoControl) tran

section
variable {ioctl : Linux.CtrlTransfer → Linux.CtrlResult}
  {deviceIoControl : Win32.DeviceIo → Win32.DeviceIoResult} {tran : Transfer}

/-- What a control transfer on usbfs needs of its buffer, and hands to the kernel. -/
theorem linux_ok {p : Performed Linux.CtrlTransfer} (control : tran.type = .control)
    (h : Linux.usbybPerformTransfer ioctl tran = .ok p) :
    8 ≤ tran.buffer.length ∧ setupLength tran ≤ tran.buffer.length - 8 ∧
      p.r = Error.success.code ∧ ∀ q ∈ p.handed, q.data.length = setupLength tran := by
  rw [Linux.usbybPerformTransfer, if_pos control] at h
  simp only [bind_eq_ok] at h
  obtain ⟨b0, -, b1, -, b2, -, b3, -, b4, -, b5, -, b6, h6, b7, h7, data, hdata, h⟩ := h
  obtain ⟨-, rfl⟩ := readByte_eq_ok h6
  obtain ⟨header, rfl⟩ := readByte_eq_ok h7
  obtain ⟨behind, rfl⟩ := readBytes_eq_ok hdata
  have length : ((tran.buffer.drop 8).take (setupLength tran)).length = setupLength tran :=
    List.length_take_of_le behind
  rw [List.length_drop] at behind
  split at h <;> cases h
  · exact ⟨header, behind, rfl, fun q hq => by rw [List.mem_singleton.1 hq]; exact length⟩
  · exact ⟨header, behind, rfl, fun q hq => by rw [List.mem_singleton.1 hq]; exact length⟩

theorem linux_total (control : tran.type = .control) (header : 8 ≤ tran.buffer.length)
    (behind : setupLength tran ≤ tran.buffer.length - 8) :
    ∃ p, Linux.usbybPerformTransfer ioctl tran = .ok p := by
  have byte (k : Nat) (hk : k < 8) : readByte tran.buffer k = .ok (tran.buffer.getD k 0) :=
    readByte_getD (by omega)
  rw [Linux.usbybPerformTransfer, if_pos control, byte 0 (by decide), byte 1 (by decide),
    byte 2 (by decide), byte 3 (by decide), byte 4 (by decide), byte 5 (by decide),
    byte 6 (by decide), byte 7 (by decide)]
  simp only [ok_bind]
  rw [readBytes_of_le (by rw [List.length_drop]; exact behind), ok_bind]
  split <;> exact ⟨_, rfl⟩

/-- libusb0 rejects a transfer whose data stage does not fit, and hands the rest of the
buffer to the kernel otherwise. -/
theorem win32_cases (control : tran.type = .control)
    (length : (tran.buffer.length : Int) = tran.length) :
    ¬Fits tran ∧ Win32.usbybPerformTransfer deviceIoControl tran =
        .ok { r := Error.invalidParam.code, tran } ∨
      Fits tran ∧ ∃ p, Win32.usbybPerformTransfer deviceIoControl tran = .ok p ∧
        p.r = Error.success.code ∧
        ∀ q ∈ p.handed, ((Win32.DeviceIo.wire q).2.length : Int) = tran.length - 8 := by
  by_cases header : tran.length < 8
  · refine .inl ⟨fun fits => absurd fits.1 (Int.not_le.2 header), ?_⟩
    rw [Win32.usbybPerformTransfer, Win32.usbybPrepareTransferSubmission, control]
    simp only [if_pos header, ok_bind]
  · have byte (k : Nat) (hk : k < 8) : readByte tran.buffer k = .ok (tran.buffer.getD k 0) :=
      readByte_getD (by omega)
    have fits : Fits tran ↔ ¬(setupLength tran : Int) > tran.length - 8 := by
      simp only [Fits]
      omega
    rw [fits, Win32.usbybPerformTransfer, Win32.usbybPrepareTransferSubmission, control]
    simp only [if_neg header, byte 0 (by decide), byte 1 (by decide), byte 2 (by decide),
      byte 3 (by decide), byte 4 (by decide), byte 5 (by decide), byte 6 (by decide),
      byte 7 (by decide), ok_bind]
    unfold setupLength
    by_cases long : ((le16 (tran.buffer.getD 6 0) (tran.buffer.getD 7 0)).toNat : Int) >
        tran.length - 8
    · rw [if_pos long]
      exact .inl ⟨not_not.2 long, rfl⟩
    · rw [if_neg long]
      refine .inr ⟨long, ?_⟩
      have behind : (tran.length - 8).toNat ≤ (tran.buffer.drop 8).length := by
        rw [List.length_drop]
        omega
      simp only [ok_bind]
      rw [readBytes_of_le behind, ok_bind]
      refine ⟨_, rfl, rfl, fun q hq => ?_⟩
      rw [List.mem_singleton.1 hq]
      have area := List.length_take_of_le behind
      simp only [Win32.DeviceIo.wire, area]
      omega

theorem linux_contained_iff (control : tran.type = .control)
    (length : (tran.buffer.length : Int) = tran.length) :
    Contained (Linux.usbybPerformTransfer ioctl) Linux.CtrlTransfer.wire tran ↔ Fits tran := by
  constructor
  · rintro ⟨p, hp, -⟩
    obtain ⟨header, behind, -⟩ := linux_ok control hp
    exact ⟨by omega, by omega⟩
  · rintro ⟨header, behind⟩
    obtain ⟨p, hp⟩ := @linux_total ioctl tran control (by omega) (by omega)
    obtain ⟨-, -, -, area⟩ := linux_ok control hp
    refine ⟨p, hp, .inr fun q hq => ?_⟩
    have := area q hq
    simp only [Linux.CtrlTransfer.wire, this]
    omega

theorem win32_contained (control : tran.type = .control)
    (length : (tran.buffer.length : Int) = tran.length) :
    Contained (Win32.usbybPerformTransfer deviceIoControl) Win32.DeviceIo.wire tran := by
  rcases @win32_cases deviceIoControl tran control length with ⟨-, hp⟩ | ⟨-, p, hp, -, area⟩
  · exact ⟨_, hp, .inl (show Error.invalidParam.code < 0 by decide)⟩
  · refine ⟨p, hp, .inr fun q hq => ?_⟩
    rw [area q hq]
    omega

/-- usbfs rejects no control transfer. -/
theorem linux_not_rejects (control : tran.type = .control) :
    ¬Rejects (Linux.usbybPerformTransfer ioctl) tran := by
  rintro ⟨p, hp, negative⟩
  rw [(linux_ok control hp).2.2.1] at negative
  exact absurd negative (by decide)

theorem win32_rejects_iff (control : tran.type = .control)
    (length : (tran.buffer.length : Int) = tran.length) :
    Rejects (Win32.usbybPerformTransfer deviceIoControl) tran ↔ ¬Fits tran := by
  obtain ⟨large, hp⟩ | ⟨fits, p, hp, success, -⟩ :=
    @win32_cases deviceIoControl tran control length
  · exact iff_of_true ⟨_, hp, show Error.invalidParam.code < 0 by decide⟩ large
  · refine iff_of_false ?_ (not_not.2 fits)
    rintro ⟨p', hp', negative⟩
    cases hp.symm.trans hp'
    rw [success] at negative
    exact absurd negative (by decide)

end

/-- The data stage is safe exactly if it fits: then both backends accept the transfer. One
that does not fit is rejected by libusb0 alone, and usbfs leaves the buffer. -/
theorem dataStageSafe_iff (ioctl : Linux.CtrlTransfer → Linux.CtrlResult)
    (deviceIoControl : Win32.DeviceIo → Win32.DeviceIoResult) (tran : Transfer)
    (control : tran.type = .control) (length : (tran.buffer.length : Int) = tran.length) :
    DataStageSafe ioctl deviceIoControl tran ↔ Fits tran := by
  constructor
  · exact fun safe => (linux_contained_iff control length).1 safe.linux
  · intro fits
    refine ⟨(linux_contained_iff control length).2 fits, win32_contained control length, ?_⟩
    rw [win32_rejects_iff control length]
    exact iff_of_false (linux_not_rejects control) (not_not.2 fits)

/-- A transfer with room for the whole device descriptor. -/
theorem dataStageSafe_descriptor :
    DataStageSafe (fun _ => .error .other) (fun req => ⟨none, none, 0, req.data⟩)
      { length := 26, buffer := [0x80, 6, 0, 1, 0, 0, 18, 0] ++ List.replicate 18 0 } :=
  (dataStageSafe_iff _ _ _ rfl rfl).2 (by decide)

/-- A request for 18 bytes in a transfer with room for one: usbfs hands the kernel 17 bytes
behind the buffer. -/
def shortTransfer : Transfer where
  length := 9
  buffer := [0x80, 6, 0, 1, 0, 0, 18, 0, 0]

theorem dataStage_unsafe :
    Linux.usbybPerformTransfer (fun _ => .error .other) shortTransfer = .error .read ∧
    Win32.usbybPerformTransfer (fun req => ⟨none, none, 0, req.data⟩) shortTransfer =
      .ok { r := Error.invalidParam.code, tran := shortTransfer } ∧
    ¬DataStageSafe (fun _ => .error .other) (fun req => ⟨none, none, 0, req.data⟩) shortTransfer := by
  refine ⟨rfl, rfl, fun safe => ?_⟩
  obtain ⟨p, hp, -⟩ := safe.linux
  cases hp

end Libusby
