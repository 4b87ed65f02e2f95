import Libusby.Foundations.Buffer
import Libusby.Types

/-!
# Synchronous transfers

The transfer object as the synchronous path uses it, `libusby_perform_transfer`
and `libusby_control_transfer`. What a backend does with a transfer is a parameter
here; it returns the requests that it handed to the kernel. What an allocation
returns is an argument, contents included.
-/

namespace Libusby.Core

open Foundations

/-- `struct libusby_transfer` without the isochronous packets. `callback` says
whether one is set. -/
structure Transfer where
  devHandle : Nat := 0
  endpoint : UInt8 := 0
  type : TransferType := .control
  timeout : Int := 0
  status : TransferStatus := .completed
  length : Int := 0
  actualLength : Int := 0
  callback : Bool := false
  buffer : List UInt8 := []
  deriving DecidableEq, Repr

/-- `f` calls the successful outcomes of a kernel request completed, those of a discarded one
cancelled, and all others failed. -/
structure StatusOf {Outcome : Type} (success discarded : Outcome → Prop)
    (f : Outcome → TransferStatus) : Prop where
  completed : ∀ o, f o = .completed ↔ success o
  cancelled : ∀ o, f o = .cancelled ↔ discarded o

/-- The result of `usbyb_perform_transfer`. -/
structure Performed (Req : Type) where
  r : Int
  tran : Transfer
  handed : List Req := []
  callbacks : Nat := 0
  deriving DecidableEq, Repr

/-- The fields of a setup packet. -/
structure Setup where
  bmRequestType : UInt8
  bRequest : UInt8
  wValue : UInt16
  wIndex : UInt16
  wLength : UInt16
  deriving DecidableEq, Repr

/-- `buffer[0]` to `buffer[7]`. -/
def Setup.header (s : Setup) : List UInt8 :=
  [s.bmRequestType, s.bRequest, lowByte s.wValue, highByte s.wValue, lowByte s.wIndex,
    highByte s.wIndex, lowByte s.wLength, highByte s.wLength]

/-- The direction bit is 0. -/
def Setup.HostToDevice (s : Setup) : Prop := s.bmRequestType &&& 0x80 = 0

instance (s : Setup) : Decidable s.HostToDevice := inferInstanceAs (Decidable (_ = _))

/-- The buffer after the kernel wrote `area` behind `offset`. -/
def Transfer.deliver (tran : Transfer) (offset : Nat) (area : List UInt8) : Transfer :=
  { tran with
    buffer := tran.buffer.take offset ++ area ++ tran.buffer.drop (offset + area.length) }

def libusbyFillControlTransfer (transfer : Transfer) (devHandle : Nat) (buffer : List UInt8)
    (callback : Bool) (timeout : Int) : Except Fault Transfer := do
  let b6 ← readByte buffer 6
  let b7 ← readByte buffer 7
  .ok { transfer with
    devHandle, buffer, callback, timeout
    endpoint := 0
    length := (le16 b6 b7).toNat + 8
    type := .control }

section
variable {Req : Type}

/-- `submitAndWait` is `libusby_submit_transfer` followed by
`libusby_wait_for_transfer`. -/
def libusbyPerformTransfer (perform submitAndWait : Transfer → Except Fault (Performed Req))
    (tran : Transfer) : Except Fault (Performed Req) := do
  let p ← perform tran
  if p.r = Error.notSupported.code then
    let q ← submitAndWait p.tran
    .ok { q with handed := p.handed ++ q.handed, callbacks := p.callbacks + q.callbacks }
  else .ok p

structure ControlResult (Req : Type) where
  r : Int
  data : List UInt8
  handed : List Req
  deriving DecidableEq, Repr

/-- `tran` and `buffer` are what `libusby_alloc_transfer` and `malloc` return. -/
def libusbyControlTransfer (perform submitAndWait : Transfer → Except Fault (Performed Req))
    (tran : Option Transfer) (buffer : Option (List UInt8)) (devHandle : Nat) (s : Setup)
    (data : List UInt8) (timeout : Int) : Except Fault (ControlResult Req) :=
  match tran, buffer with
  | none, _ => .ok { r := Error.noMem.code, data, handed := [] }
  | some _, none => .ok { r := Error.noMem.code, data, handed := [] }
  | some tran, some buffer => do
    let buffer := s.header ++ buffer.drop 8
    let tran ← libusbyFillControlTransfer tran devHandle buffer false timeout
    let p ← libusbyPerformTransfer perform submitAndWait tran
    if 0 ≤ p.r then
      if p.tran.status ≠ .completed then
        .ok { r := Error.io.code, data, handed := p.handed }
      else if p.tran.actualLength < 8 then .error .assertion
      else
        let n := (p.tran.actualLength - 8).toNat
        let bytes ← readBytes (p.tran.buffer.drop 8) n
        if data.length < n then .error .store
        else .ok { r := n, data := bytes ++ data.drop n, handed := p.handed }
    else .ok { r := p.r, data, handed := p.handed }

end

end Libusby.Core
