import Libusby.Core.ControlTransfer
import Libusby.Linux.EventLoop.State

/-!
# `usbyb_perform_transfer` on usbfs

A control transfer is one `USBDEVFS_CONTROL`. The kernel is a function from the
request, with the bytes that `data` points to, to what the ioctl returns.
-/

namespace Libusby.Linux

open Foundations Libusby.Core
open EventLoop (Errno)

/-- `struct usbdevfs_ctrltransfer` and the `wLength` bytes at `data`. -/
structure CtrlTransfer where
  bRequestType : UInt8
  bRequest : UInt8
  wValue : UInt16
  wIndex : UInt16
  wLength : UInt16
  timeout : UInt32
  data : List UInt8
  deriving DecidableEq, Repr

/-- The result of the ioctl and what it leaves at `data`, or `errno`. -/
inductive CtrlResult where
  | ok (r : Nat) (data : List UInt8)
  | error (errno : Errno)
  deriving DecidableEq, Repr

def controlStatus : Errno → TransferStatus
  | .enodev => .noDevice
  | .epipe => .stall
  | _ => .error

def usbybPerformTransfer (ioctl : CtrlTransfer → CtrlResult) (tran : Transfer) :
    Except Fault (Performed CtrlTransfer) :=
  if tran.type = .control then do
    let bRequestType ← readByte tran.buffer 0
    let bRequest ← readByte tran.buffer 1
    let b2 ← readByte tran.buffer 2
    let b3 ← readByte tran.buffer 3
    let b4 ← readByte tran.buffer 4
    let b5 ← readByte tran.buffer 5
    let b6 ← readByte tran.buffer 6
    let b7 ← readByte tran.buffer 7
    let wLength := le16 b6 b7
    let data ← readBytes (tran.buffer.drop 8) wLength.toNat
    let req : CtrlTransfer :=
      { bRequestType, bRequest, wValue := le16 b2 b3, wIndex := le16 b4 b5, wLength
        timeout := 0, data }
    match ioctl req with
    | .ok r data =>
      let tran := { tran.deliver 8 data with actualLength := r + 8, status := .completed }
      .ok { r := Error.success.code, tran, handed := [req] }
    | .error errno =>
      let tran := { tran with status := controlStatus errno }
      .ok { r := Error.success.code, tran, handed := [req] }
  else .ok { r := Error.notSupported.code, tran }

/-- The setup packet and the data stage of a request. -/
def CtrlTransfer.wire (req : CtrlTransfer) : Setup × List UInt8 :=
  ({ bmRequestType := req.bRequestType, bRequest := req.bRequest, wValue := req.wValue
     wIndex := req.wIndex, wLength := req.wLength }, req.data)

/-- What `USBDEVFS_CONTROL` does with `data`: it transfers at most `wLength` bytes,
and only writes them if the direction bit is set. -/
def Usbdevfs (ioctl : CtrlTransfer → CtrlResult) : Prop :=
  ∀ req r data, ioctl req = .ok r data → r ≤ req.wLength.toNat ∧ data.length = req.data.length ∧
    (req.wire.1.HostToDevice → data = req.data)

theorem usbybPerformTransfer_conveys {ioctl : CtrlTransfer → CtrlResult} (h : Usbdevfs ioctl) :
    Conveys (usbybPerformTransfer ioctl) CtrlTransfer.wire := by
  constructor
  intro tran s area c
  rw [usbybPerformTransfer, if_pos c.type, c.readByte_eq 0 _ rfl, c.readByte_eq 1 _ rfl,
    c.readByte_eq 2 _ rfl, c.readByte_eq 3 _ rfl, c.readByte_eq 4 _ rfl, c.readByte_eq 5 _ rfl,
    c.readByte_eq 6 _ rfl, c.readByte_eq 7 _ rfl]
  simp only [ok_bind, le16_bytes, c.readArea]
  split
  · rename_i r data hres
    obtain ⟨hr, hlength, hout⟩ := h _ _ _ hres
    refine ⟨_, _, rfl, rfl, rfl, rfl, fun _ => ⟨r, data, ?_⟩⟩
    exact ⟨rfl, hr, c.deliver hlength, hlength.trans c.area, hout⟩
  · refine ⟨_, _, rfl, rfl, rfl, rfl, fun completed => ?_⟩
    rename_i errno _
    cases errno <;> cases completed

end Libusby.Linux
