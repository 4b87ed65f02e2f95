import Libusby.Linux.Transfer
import Libusby.Win32.Transfer

/-!
# Control transfers on the wire

Both backends convey the setup packet and the block behind it, so both have the
same defect: `libusby_control_transfer` never copies the caller's data into the
block, and copies the block over the data when the transfer completes.
-/

namespace Libusby

open Libusby.Core

/-- The usbfs backend sends what the caller asked for, whatever the kernel answers. -/
def LinuxFaithful (s : Setup) (data : List UInt8) : Prop :=
  ∀ ioctl, Linux.Usbdevfs ioctl →
    WireFaithful (Linux.usbybPerformTransfer ioctl) Linux.CtrlTransfer.wire s data

/-- The same on the libusb0 backend. -/
def Win32Faithful (s : Setup) (data : List UInt8) : Prop :=
  ∀ deviceIoControl, Win32.Libusb0 deviceIoControl →
    WireFaithful (Win32.usbybPerformTransfer deviceIoControl) Win32.DeviceIo.wire s data

section
variable {s : Setup} {data : List UInt8}

theorem linuxFaithful_iff (h : data.length = s.wLength.toNat) :
    LinuxFaithful s data ↔ ¬ s.HostToDevice ∨ s.wLength = 0 := by
  constructor
  · intro faithful
    have device : Linux.Usbdevfs fun _ => .error .enodev := fun _ _ _ h => by cases h
    exact (wireFaithful_iff (Linux.usbybPerformTransfer_conveys device) h).1 (faithful _ device)
  · exact fun inward _ device =>
      (wireFaithful_iff (Linux.usbybPerformTransfer_conveys device) h).2 inward

theorem win32Faithful_iff (h : data.length = s.wLength.toNat) :
    Win32Faithful s data ↔ ¬ s.HostToDevice ∨ s.wLength = 0 := by
  constructor
  · intro faithful
    have device : Win32.Libusb0 fun req =>
        { deviceIoControl := none, getOverlappedResult := none, dwTransferred := req.data.length
          data := req.data } :=
      fun _ => ⟨Nat.le_refl _, rfl, fun _ => rfl⟩
    exact (wireFaithful_iff (Win32.usbybPerformTransfer_conveys device) h).1 (faithful _ device)
  · exact fun inward _ device =>
      (wireFaithful_iff (Win32.usbybPerformTransfer_conveys device) h).2 inward

end

/-- On either backend a request is faithful exactly if it has no data to send. -/
theorem wire_faithful_iff (s : Setup) (data : List UInt8) (h : data.length = s.wLength.toNat) :
    (LinuxFaithful s data ↔ ¬ s.HostToDevice ∨ s.wLength = 0) ∧
      (Win32Faithful s data ↔ ¬ s.HostToDevice ∨ s.wLength = 0) :=
  ⟨linuxFaithful_iff h, win32Faithful_iff h⟩

/-- `GET_DESCRIPTOR` for the device descriptor. -/
def getDescriptor : Setup where
  bmRequestType := 0x80
  bRequest := 6
  wValue := 0x100
  wIndex := 0
  wLength := 18

theorem wire_faithful_getDescriptor :
    LinuxFaithful getDescriptor (List.replicate 18 0) ∧
      Win32Faithful getDescriptor (List.replicate 18 0) :=
  have both := wire_faithful_iff getDescriptor (List.replicate 18 0) (by decide)
  ⟨both.1.2 (by decide), both.2.2 (by decide)⟩

/-- A class request that sends one byte. -/
def sendByte : Setup where
  bmRequestType := 0x21
  bRequest := 9
  wValue := 0x200
  wIndex := 0
  wLength := 1

/-- The byte does not reach the device. -/
theorem wire_faithful_fails : ¬ ∀ (s : Setup) (data : List UInt8),
    data.length = s.wLength.toNat → LinuxFaithful s data ∧ Win32Faithful s data := by
  intro h
  have length : [(0x55 : UInt8)].length = sendByte.wLength.toNat := by decide
  exact absurd ((linuxFaithful_iff length).1 (h sendByte _ length).1) (by decide)

end Libusby
