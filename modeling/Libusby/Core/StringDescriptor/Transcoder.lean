import Libusby.Foundations.Overlay
import Libusby.Foundations.Utf16
import Libusby.Types

/-!
# `libusby_get_string_descriptor_utf8`

The request for the descriptor is a `Reply`; what follows it is the translation
of the reply from UTF-16LE to UTF-8. Pointers into `data` are offsets. `length` is
not negative, and a remaining length below 0 is 0: both fail the assertion.
-/

namespace Libusby.Core.StringDescriptor

open Foundations

/-- The result of `libusby_get_string_descriptor`, and `utf16_buf` after it. -/
structure Reply where
  r : Int
  utf16Buf : List UInt8
  size : utf16Buf.length = 256
  r_le : r ≤ 256

/-- `if (res < length) data[res++] = b` for one byte after the other. -/
def storeRest (start length : Nat) (data : List UInt8) (res : Nat) :
    List UInt32 → Except Fault (Nat × List UInt8)
  | [] => .ok (res, data)
  | b :: bs =>
    if res < length then do
      let data ← storeByte data (start + res) b.toUInt8
      storeRest start length data (res + 1) bs
    else storeRest start length data res bs

def continuationByte (cp : UInt32) : UInt32 := (0x80 : UInt32) ||| cp &&& 0x3f

def encodeUtf8 (data : List UInt8) (start length : Nat) (cp : UInt32) :
    Except Fault (Nat × List UInt8) :=
  if length = 0 then .error .assertion
  else if ¬ cp < 0x110000 then .error .assertion
  else if cp < 0x7f then do
    let data ← storeByte data start cp.toUInt8
    .ok (1, data)
  else if cp < 0x7ff then do
    let data ← storeByte data start ((0xC0 : UInt32) ||| cp >>> 6).toUInt8
    storeRest start length data 1 [continuationByte cp]
  else if cp < 0xffff then do
    let data ← storeByte data start ((0xe0 : UInt32) ||| cp >>> 12).toUInt8
    storeRest start length data 1 [continuationByte (cp >>> 6), continuationByte cp]
  else do
    let data ← storeByte data start ((0xf0 : UInt32) ||| cp >>> 18).toUInt8
    storeRest start length data 1
      [continuationByte (cp >>> 12), continuationByte (cp >>> 6), continuationByte cp]

/-- The locals of the loop. -/
structure Locals where
  dataLen : Nat
  encodedLen : Nat
  highSurrogate : UInt16
  data : List UInt8
  deriving DecidableEq, Repr

/-- The code point that the loop makes of a surrogate pair. -/
def surrogateCode (hi lo : UInt16) : UInt32 :=
  (hi.toUInt32 - 0xD800) <<< 10 ||| (lo.toUInt32 - 0xDC00)

/-- `encode_utf8(data + data_len, length - data_len, cp)` and the end of the iteration. -/
def Locals.encode (length : Nat) (l : Locals) (cp : UInt32) : Except Fault Locals := do
  let (encodedLen, data) ← encodeUtf8 l.data l.dataLen (length - l.dataLen) cp
  .ok { dataLen := l.dataLen + encodedLen, encodedLen, highSurrogate := 0, data }

/-- The loop, over the units from `i` to `r`, and what comes after it. -/
def transcode (length : Nat) : List UInt16 → Locals → Except Fault (Int × List UInt8)
  | [], l =>
    if l.highSurrogate ≠ 0 then .ok (Error.io.code, l.data) else .ok (l.dataLen, l.data)
  | cu :: us, l =>
    if ¬ l.encodedLen < length then .ok (l.dataLen, l.data)
    else if IsLowSurrogate cu then
      if l.highSurrogate = 0 then .ok (Error.io.code, l.data)
      else do
        let l ← l.encode length (surrogateCode l.highSurrogate cu)
        transcode length us l
    else if IsHighSurrogate cu then
      if l.highSurrogate ≠ 0 then .ok (Error.io.code, l.data)
      else transcode length us
        { l with dataLen := l.dataLen + l.encodedLen, highSurrogate := cu }
    else if l.highSurrogate ≠ 0 then .ok (Error.io.code, l.data)
    else do
      let l ← l.encode length cu.toUInt32
      transcode length us l

/-- `utf16_buf[i] | (utf16_buf[i+1] << 8)` for every second `i`. -/
def units : List UInt8 → List UInt16
  | lo :: hi :: bs => le16 lo hi :: units bs
  | _ => []

def libusbyGetStringDescriptorUtf8 (reply : Reply) (data : List UInt8) (length : Nat) :
    Except Fault (Int × List UInt8) :=
  if reply.r < 0 then .ok (reply.r, data)
  else if reply.r < 2 then .ok (Error.io.code, data)
  else do
    let bDescriptorType ← readByte reply.utf16Buf 1
    if bDescriptorType ≠ 3 then .ok (Error.io.code, data)
    else
      let bLength ← readByte reply.utf16Buf 0
      let r := if reply.r > bLength.toNat then bLength.toNat else reply.r.toNat
      if r % 2 ≠ 0 then .ok (Error.io.code, data)
      else
        let bytes ← readBytes reply.utf16Buf r
        transcode length (units (bytes.drop 2))
          { dataLen := 0, encodedLen := 0, highSurrogate := 0, data }

end Libusby.Core.StringDescriptor
