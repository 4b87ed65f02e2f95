import Libusby.Core.ControlTransfer

/-!
# `usbyb_perform_transfer` on libusb0

A transfer is one `DeviceIoControl`. The kernel is a function from the request,
with the bytes that `data_ptr` points to, to the results of `DeviceIoControl` and of
the `GetOverlappedResult` that follows a pending one.
-/

namespace Libusby.Win32

open Foundations Libusby.Core

/-- The values of `GetLastError` that the backend tells apart. -/
inductive Win32Error where
  | success | operationAborted | ioPending | other
  deriving DecidableEq, Repr

inductive ControlCode where
  | interruptOrBulkRead | interruptOrBulkWrite | controlRead | controlWrite
  deriving DecidableEq, Repr

/-- The members of the union in `libusb0_win32_request` that a transfer uses. -/
inductive RequestBody where
  | endpoint (endpoint : UInt32)
  | control (bmRequestType bRequest : UInt8) (wValue wIndex wLength : UInt16)
  deriving DecidableEq, Repr

/-- What `usbyb_prepare_transfer_submission` stores through its arguments;
`dataPtr` is an offset into the buffer of the transfer. -/
structure Submission where
  dwControlCode : ControlCode
  req : RequestBody
  dataPtr : Nat
  dataLen : Int
  deriving DecidableEq, Repr

def defaultTimeout : UInt32 := 5000

/-- The arguments of `DeviceIoControl`: the request and the bytes at `data_ptr`. -/
structure DeviceIo where
  dwControlCode : ControlCode
  timeout : UInt32
  req : RequestBody
  data : List UInt8
  deriving DecidableEq, Repr

/-- `none` is a call that succeeds, `some` the error of one that fails. -/
structure DeviceIoResult where
  deviceIoControl : Option Win32Error
  getOverlappedResult : Option Win32Error
  dwTransferred : Nat
  data : List UInt8
  deriving DecidableEq, Repr

def usbybPrepareTransferSubmission (tran : Transfer) : Except Fault (Except Error Submission) :=
  match tran.type with
  | .bulk | .interrupt =>
    let dwControlCode : ControlCode :=
      if tran.endpoint &&& 0x80 ≠ 0 then .interruptOrBulkRead else .interruptOrBulkWrite
    .ok (.ok
      { dwControlCode, req := .endpoint tran.endpoint.toUInt32, dataPtr := 0
        dataLen := tran.length })
  | .control =>
    if tran.length < 8 then .ok (.error .invalidParam)
    else do
      let dataLen := tran.length - 8
      let b0 ← readByte tran.buffer 0
      let b1 ← readByte tran.buffer 1
      let b2 ← readByte tran.buffer 2
      let b3 ← readByte tran.buffer 3
      let b4 ← readByte tran.buffer 4
      let b5 ← readByte tran.buffer 5
      let b6 ← readByte tran.buffer 6
      let b7 ← readByte tran.buffer 7
      let dwControlCode : ControlCode := if b0 &&& 0x80 ≠ 0 then .controlRead else .controlWrite
      let wLength := le16 b6 b7
      if wLength.toNat > dataLen then .ok (.error .invalidParam)
      else .ok (.ok
        { dwControlCode, req := .control b0 b1 (le16 b2 b3) (le16 b4 b5) wLength, dataPtr := 8
          dataLen })
  | .isochronous => .ok (.error .invalidParam)

def usbybUpdateFinishedTransfer (tran : Transfer) (dwError : Win32Error) (dwTransferred : Nat) :
    Transfer :=
  match dwError with
  | .success =>
    if tran.type = .control then
      { tran with actualLength := dwTransferred + 8, status := .completed }
    else { tran with actualLength := dwTransferred, status := .completed }
  | .operationAborted => { tran with actualLength := 0, status := .cancelled }
  | _ => { tran with actualLength := 0, status := .error }

/-- `dwError` after both calls. -/
def DeviceIoResult.dwError (io : DeviceIoResult) : Win32Error :=
  match io.deviceIoControl with
  | none => .success
  | some .ioPending => io.getOverlappedResult.getD .success
  | some e => e

def usbybPerformTransfer (deviceIoControl : DeviceIo → DeviceIoResult) (tran : Transfer) :
    Except Fault (Performed DeviceIo) := do
  let prepared ← usbybPrepareTransferSubmission tran
  match prepared with
  | .error e => .ok { r := e.code, tran }
  | .ok s =>
    let data ← readBytes (tran.buffer.drop s.dataPtr) s.dataLen.toNat
    let req : DeviceIo :=
      { dwControlCode := s.dwControlCode, timeout := defaultTimeout, req := s.req, data }
    let io := deviceIoControl req
    let tran := usbybUpdateFinishedTransfer (tran.deliver s.dataPtr io.data) io.dwError
      io.dwTransferred
    .ok { r := Error.success.code, tran, handed := [req]
          callbacks := if tran.callback then 1 else 0 }

/-- The setup packet and the data stage of a control request. -/
def DeviceIo.wire (req : DeviceIo) : Setup × List UInt8 :=
  match req.req with
  | .endpoint _ =>
    ({ bmRequestType := 0, bRequest := 0, wValue := 0, wIndex := 0, wLength := 0 }, req.data)
  | .control bmRequestType bRequest wValue wIndex wLength =>
    ({ bmRequestType, bRequest, wValue, wIndex, wLength }, req.data)

/-- What the driver does with `data` in a control request: it transfers at most its
size, and only writes it for `LIBUSB_IOCTL_CONTROL_READ`. -/
def Libusb0 (deviceIoControl : DeviceIo → DeviceIoResult) : Prop :=
  ∀ req, (deviceIoControl req).dwTransferred ≤ req.data.length ∧
    (deviceIoControl req).data.length = req.data.length ∧
    (req.dwControlCode ≠ .controlRead → (deviceIoControl req).data = req.data)

/-- The request of a control transfer. -/
def controlRequest (s : Setup) (area : List UInt8) : DeviceIo where
  dwControlCode := if s.HostToDevice then .controlWrite else .controlRead
  timeout := defaultTimeout
  req := .control s.bmRequestType s.bRequest s.wValue s.wIndex s.wLength
  data := area

theorem usbybPrepareTransferSubmission_control {tran : Transfer} {s : Setup} {area : List UInt8}
    (c : Carries tran s area) : usbybPrepareTransferSubmission tran = .ok (.ok
      { dwControlCode := (controlRequest s area).dwControlCode
        req := (controlRequest s area).req
        dataPtr := 8
        dataLen := s.wLength.toNat }) := by
  have hlength := c.length
  rw [usbybPrepareTransferSubmission, c.type]
  simp only
  rw [if_neg (by omega), c.readByte_eq 0 _ rfl, c.readByte_eq 1 _ rfl, c.readByte_eq 2 _ rfl,
    c.readByte_eq 3 _ rfl, c.readByte_eq 4 _ rfl, c.readByte_eq 5 _ rfl, c.readByte_eq 6 _ rfl,
    c.readByte_eq 7 _ rfl]
  simp only [ok_bind, le16_bytes]
  rw [if_neg (by omega), hlength, Int.add_sub_cancel]
  have code : (controlRequest s area).dwControlCode =
      if s.bmRequestType &&& 0x80 ≠ 0 then .controlRead else .controlWrite := by
    by_cases out : s.bmRequestType &&& 0x80 = 0 <;> simp [controlRequest, Setup.HostToDevice, out]
  rw [code]
  rfl

/-- The only error of the preparation. -/
theorem usbybPrepareTransferSubmission_error {tran : Transfer} {e : Error}
    (h : usbybPrepareTransferSubmission tran = .ok (.error e)) : e = .invalidParam := by
  unfold usbybPrepareTransferSubmission at h
  split at h
  case h_1 => simp at h
  case h_2 => simp at h
  case h_3 =>
    split_ifs at h
    · cases h
      rfl
    · simp only [bind_eq_ok] at h
      obtain ⟨b0, -, b1, -, b2, -, b3, -, b4, -, b5, -, b6, -, b7, -, h⟩ := h
      split_ifs at h <;> cases h
      rfl
  case h_4 =>
    cases h
    rfl

theorem usbybUpdateFinishedTransfer_completed {tran : Transfer} {dwError : Win32Error} {n : Nat}
    (hc : tran.type = .control)
    (h : (usbybUpdateFinishedTransfer tran dwError n).status = .completed) :
    usbybUpdateFinishedTransfer tran dwError n =
      { tran with actualLength := n + 8, status := .completed } := by
  cases dwError with
  | success => exact if_pos hc
  | operationAborted => cases h
  | ioPending => cases h
  | other => cases h

theorem usbybPerformTransfer_control {deviceIoControl : DeviceIo → DeviceIoResult}
    {tran : Transfer} {s : Setup} {area : List UInt8} {io : DeviceIoResult}
    (c : Carries tran s area) (hio : deviceIoControl (controlRequest s area) = io) :
    ∃ callbacks, usbybPerformTransfer deviceIoControl tran = .ok
      { r := Error.success.code
        tran := usbybUpdateFinishedTransfer (tran.deliver 8 io.data) io.dwError io.dwTransferred
        handed := [controlRequest s area]
        callbacks } := by
  rw [usbybPerformTransfer, usbybPrepareTransferSubmission_control c]
  simp only [ok_bind, Int.toNat_natCast, c.readArea]
  subst hio
  exact ⟨_, rfl⟩

theorem usbybPerformTransfer_conveys {deviceIoControl : DeviceIo → DeviceIoResult}
    (h : Libusb0 deviceIoControl) : Conveys (usbybPerformTransfer deviceIoControl) DeviceIo.wire := by
  constructor
  intro tran s area c
  obtain ⟨hn, hlength, hout⟩ := h (controlRequest s area)
  generalize hio : deviceIoControl (controlRequest s area) = io at hn hlength hout
  obtain ⟨callbacks, hperform⟩ := usbybPerformTransfer_control c hio
  refine ⟨_, _, hperform, rfl, rfl, rfl, fun completed => ⟨io.dwTransferred, io.data, ?_⟩⟩
  have type : (tran.deliver 8 io.data).type = .control := c.type
  rw [usbybUpdateFinishedTransfer_completed type completed]
  refine ⟨rfl, Nat.le_trans hn (Nat.le_of_eq c.area), c.deliver hlength, hlength.trans c.area,
    fun out => hout ?_⟩
  rw [controlRequest, if_pos out]
  exact ControlCode.noConfusion

end Libusby.Win32
