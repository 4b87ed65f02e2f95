import Libusby.Core.StringDescriptor.Request
import Libusby.Inbound
import Libusby.Linux.ConfigLookup
import Libusby.Win32.Configuration

/-!
# Strings on the two backends

usbfs has no string descriptors, so the device is asked with a control transfer; libusb0 asks
its driver. On both the text of the device is what the caller gets, in the cases of `Plain`.
-/

namespace Libusby

open Foundations Libusby.Core Libusby.Core.StringDescriptor

/-! ## `usbyb_get_descriptor` and `libusby_control_transfer` of a handle -/

def Linux.answerString (dev : Linux.Device) : Usbyb :=
  fun descType descIndex _ length => Linux.usbybGetDescriptor dev descType descIndex length

/-- The `descriptor` member of `libusb0_win32_request`, and the size of the buffer. -/
structure Win32.DescriptorRequest where
  timeout : UInt32 := Win32.defaultTimeout
  type : UInt8
  index : UInt8
  languageId : UInt16
  length : Nat

def Win32.usbybGetDescriptorWithHandle (hFile : Win32.DescriptorRequest → Win32.SyncResult) : Usbyb :=
  fun type index languageId length =>
    .ok (Win32.syncDeviceIoControl (hFile { type, index, languageId, length }))

/-- The call in `libusby_get_string_descriptor`. -/
def controlData {Req : Type} (perform submitAndWait : Transfer → Except Fault (Performed Req))
    (tran : Option Transfer) (buffer : Option (List UInt8)) (devHandle : Nat) : Control :=
  fun s data => do
    let res ← libusbyControlTransfer perform submitAndWait tran buffer devHandle s data 0
    .ok (res.r, res.data)

/-! ## Devices with a text -/

/-- The kernel completes the request for the string, and what it delivers is the descriptor. -/
def Linux.HoldsString (ioctl : Linux.CtrlTransfer → Linux.CtrlResult) (descIndex : UInt8)
    (langid : UInt16) (cs : List Char) : Prop :=
  ∀ req : Linux.CtrlTransfer, req.wire.1 = stringSetup descIndex langid 256 →
    req.data.length = 256 → ∃ area,
      Linux.controlOutcome ioctl req = some ((descriptor cs).length, area) ∧
        area.take (descriptor cs).length = descriptor cs

/-- The driver answers with the descriptor. -/
def Win32.HoldsString (hFile : Win32.DescriptorRequest → Win32.SyncResult) (descIndex : UInt8)
    (langid : UInt16) (cs : List Char) : Prop :=
  Win32.syncDeviceIoControl
    (hFile { type := 3, index := descIndex, languageId := langid, length := 256 }) =
      .ok (descriptor cs)

section
variable {descIndex : UInt8} {langid : UInt16} {cs : List Char}

theorem Linux.fetches {ioctl : Linux.CtrlTransfer → Linux.CtrlResult} (h : Linux.Usbdevfs ioctl)
    (holds : Linux.HoldsString ioctl descIndex langid cs) (dev : Linux.Device)
    (submitAndWait : Transfer → Except Fault (Performed Linux.CtrlTransfer)) (tran : Transfer)
    {buffer : List UInt8} (hbuffer : buffer.length = 264) (devHandle : Nat) :
    Fetches (Linux.answerString dev)
      (controlData (Linux.usbybPerformTransfer ioctl) submitAndWait (some tran) (some buffer)
        devHandle) descIndex langid cs := by
  intro utf16Buf
  have wLength : (stringSetup descIndex langid 256).wLength.toNat = 256 := rfl
  have room : (stringSetup descIndex langid 256).wLength.toNat ≤ utf16Buf.bytes.length :=
    Nat.le_of_eq utf16Buf.size.symm
  obtain ⟨res, req, hres, -, hwire, -, done⟩ := (Linux.usbybPerformTransfer_answers h).received
    submitAndWait tran devHandle 0 (hbuffer.trans (by rw [wLength])) room
  have size : req.data.length = 256 := by
    rw [show req.data = buffer.drop 8 from congrArg Prod.snd hwire, List.length_drop, hbuffer]
  obtain ⟨area, delivered, front⟩ := holds req (congrArg Prod.fst hwire) size
  obtain ⟨r, small, data⟩ := done _ _ delivered
  rw [front] at data
  refine ⟨res.data, ?_, ?_, ?_⟩
  · rw [libusbyGetStringDescriptor, Linux.answerString, Linux.usbybGetDescriptor,
      Linux.usbybGetDescriptorCached, if_pos (by decide), ok_bind]
    simp only [controlData, utf16Buf.size, hres, ok_bind, r]
  · rw [data, List.length_append, List.length_drop, utf16Buf.size]
    exact Nat.add_sub_cancel' small
  · rw [data, List.take_left']
    rfl

theorem Win32.fetches {hFile : Win32.DescriptorRequest → Win32.SyncResult}
    (holds : Win32.HoldsString hFile descIndex langid cs) (fits : (encodeUtf16 cs).length ≤ 126)
    (control : Control) :
    Fetches (Win32.usbybGetDescriptorWithHandle hFile) control descIndex langid cs := by
  intro utf16Buf
  have small : (descriptor cs).length ≤ utf16Buf.bytes.length := by
    rw [length_descriptor, utf16Buf.size]
    omega
  refine ⟨descriptor cs ++ utf16Buf.bytes.drop (descriptor cs).length, ?_, ?_, ?_⟩
  · rw [libusbyGetStringDescriptor, Win32.usbybGetDescriptorWithHandle, ok_bind]
    rw [utf16Buf.size] at small ⊢
    rw [holds]
    exact if_neg (Nat.not_lt.2 small)
  · rw [List.length_append, List.length_drop, Nat.add_sub_cancel' small, utf16Buf.size]
  · rw [List.take_left']
    rfl

end

/-- The whole path of a string, from the device to the caller's buffer. -/
theorem string_round_trip (cs : List Char) (fits : (encodeUtf16 cs).length ≤ 126)
    (descIndex : UInt8) (langid : UInt16) (length : Nat) :
    (∀ ioctl, Linux.Usbdevfs ioctl → Linux.HoldsString ioctl descIndex langid cs →
      ∀ dev submitAndWait tran (buffer : List UInt8), buffer.length = 264 → ∀ devHandle,
        ReadsText (Linux.answerString dev)
            (controlData (Linux.usbybPerformTransfer ioctl) submitAndWait (some tran) (some buffer)
              devHandle) descIndex langid length cs ↔
          (∀ c ∈ cs, Plain c) ∧ (utf8 cs).length ≤ length) ∧
    ∀ hFile, Win32.HoldsString hFile descIndex langid cs → ∀ control,
      ReadsText (Win32.usbybGetDescriptorWithHandle hFile) control descIndex langid length cs ↔
        (∀ c ∈ cs, Plain c) ∧ (utf8 cs).length ≤ length := by
  constructor
  · intro ioctl usbdevfs holds dev submitAndWait tran buffer hbuffer devHandle
    exact (Linux.fetches usbdevfs holds dev submitAndWait tran hbuffer devHandle).readsText_iff fits
  · intro hFile holds control
    exact (Win32.fetches holds fits control).readsText_iff fits

/-- `Hé€`. -/
def euroText : List Char := ['H', 'é', '€']

/-- Nothing but the first string in English is answered. -/
def euroIoctl (req : Linux.CtrlTransfer) : Linux.CtrlResult :=
  if req.wire.1 = stringSetup 1 0x409 256 ∧ req.data.length = 256 then
    .ok 8 (descriptor euroText ++ req.data.drop 8)
  else .error .epipe

def euroDriver (_ : Win32.DescriptorRequest) : Win32.SyncResult where
  createEvent := true
  deviceIoControl := none
  getOverlappedResult := none
  data := descriptor euroText

/-- A handle wrapper's buffer has 256 bytes. -/
theorem string_round_trip_euro :
    ReadsText (Linux.answerString { refCount := 1, busno := 1, devno := 1, fd := 0 })
        (controlData (Linux.usbybPerformTransfer euroIoctl) (fun tran => .ok { r := 0, tran })
          (some {}) (some (List.replicate 264 0xFF)) 0) 1 0x409 256 euroText ∧
      ReadsText (Win32.usbybGetDescriptorWithHandle euroDriver) (fun _ data => .ok (0, data))
        1 0x409 256 euroText := by
  have fits : (encodeUtf16 euroText).length ≤ 126 := by decide
  have plain : ∀ c ∈ euroText, Plain c := by
    simp only [euroText, List.forall_mem_cons]
    exact ⟨by decide, by decide, by decide, List.forall_mem_nil _⟩
  have text : (∀ c ∈ euroText, Plain c) ∧ (utf8 euroText).length ≤ 256 := ⟨plain, by decide⟩
  have linux : Linux.Usbdevfs euroIoctl := by
    intro req r data h
    unfold euroIoctl at h
    split_ifs at h with asked
    obtain ⟨setup, size⟩ := asked
    cases h
    have wLength : req.wLength = 256 := congrArg Setup.wLength setup
    have header : (descriptor euroText).length = 8 := by decide
    refine ⟨by rw [wLength]; decide, ?_, fun out => ?_⟩
    · rw [List.length_append, List.length_drop, size, header]
    · rw [setup] at out
      exact absurd out (by decide)
  have holds : Linux.HoldsString euroIoctl 1 0x409 euroText := by
    intro req setup size
    refine ⟨descriptor euroText ++ req.data.drop 8, ?_, ?_⟩
    · rw [Linux.controlOutcome, euroIoctl, if_pos ⟨setup, size⟩]
      rfl
    · exact List.take_left
  have both := string_round_trip euroText fits 1 0x409 256
  exact ⟨(both.1 _ linux holds _ _ _ _ List.length_replicate _).2 text, (both.2 euroDriver rfl _).2 text⟩

end Libusby
