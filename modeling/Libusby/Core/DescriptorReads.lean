import Libusby.Core.Config.Parser
import Libusby.Foundations.Dialogue

/-!
# Reading descriptors

The functions that ask a device for descriptors or for its configuration, as dialogues with
whoever answers: a device, a driver or the cache of a backend. The objects that they fill
are arguments, with whatever is in them beforehand.
-/

namespace Libusby.Core

open Foundations Config

inductive Request where
  /-- `usbyb_get_descriptor`. -/
  | descriptor (descType descIndex : UInt8) (length : Nat)
  /-- `usbyb_get_descriptor_cached`. -/
  | descriptorCached (descType descIndex : UInt8) (length : Nat)
  /-- `libusby_control_transfer` with data towards the host. -/
  | control (bmRequestType bRequest : UInt8) (wValue wIndex : UInt16) (wLength : Nat)
  /-- `LIBUSB_IOCTL_GET_CACHED_CONFIGURATION`. -/
  | cachedConfiguration
  /-- `LIBUSB_IOCTL_GET_CONFIGURATION`. -/
  | configuration
  deriving DecidableEq, Repr

/-- The number of bytes asked for. -/
def Request.length : Request → Nat
  | descriptor _ _ n | descriptorCached _ _ n | control _ _ _ _ n => n
  | cachedConfiguration | configuration => 1

/-- The error that is returned, or the bytes that are written; their number is returned. -/
abbrev Reply := Except Error (List UInt8)

/-- The return value. -/
def Reply.code : Reply → Int
  | .error e => e.code
  | .ok bytes => bytes.length

/-- An error is negative, and nobody sends more than was asked for. -/
def Request.fits (req : Request) : Reply → Bool
  | .error e => e.code < 0
  | .ok bytes => bytes.length ≤ req.length

/-- What asks and is answered with a `Reply`. -/
abbrev Getter := UInt8 → UInt8 → Nat → Dialogue Request Reply Reply

def libusbyGetDescriptor : Getter := fun descType descIndex length =>
  .ask (.descriptor descType descIndex length) fun
    | .error .notSupported =>
      .ask (.control 0x80 6 (le16 descIndex descType) 0 length) .done
    | reply => .done reply

def usbybGetDescriptorCached : Getter := fun descType descIndex length =>
  .ask (.descriptorCached descType descIndex length) .done

section
variable {get : Getter} {descType descIndex : UInt8} {n : Nat} {replies rest : List Reply}
  {bytes : List UInt8}

/-- What `get` returns fits what it was asked for. -/
def Getter.Sound (get : Getter) : Prop :=
  ∀ ⦃descType descIndex n replies reply rest⦄,
    ((get descType descIndex n).run Request.fits replies).result = some (reply, rest) →
      (Request.descriptor descType descIndex n).fits reply = true

theorem usbybGetDescriptorCached_sound : usbybGetDescriptorCached.Sound := by
  intro descType descIndex n replies reply rest h
  cases replies with
  | nil => cases h
  | cons first replies =>
    rw [usbybGetDescriptorCached] at h
    by_cases fit : (Request.descriptorCached descType descIndex n).fits first = true
    · rw [Dialogue.run_ask_cons fit] at h
      cases h
      cases reply <;> exact fit
    · rw [Dialogue.run_ask_unfit (by simpa using fit)] at h
      cases h

theorem libusbyGetDescriptor_sound : libusbyGetDescriptor.Sound := by
  intro descType descIndex n replies reply rest h
  cases replies with
  | nil => cases h
  | cons first replies =>
    rw [libusbyGetDescriptor] at h
    by_cases fit : (Request.descriptor descType descIndex n).fits first = true
    · rw [Dialogue.run_ask_cons fit, Dialogue.Outcome.after_result] at h
      split at h
      · cases replies with
        | nil => cases h
        | cons second replies =>
          by_cases fit' : (Request.control 0x80 6 (le16 descIndex descType) 0 n).fits second = true
          · rw [Dialogue.run_ask_cons fit'] at h
            cases h
            cases reply <;> exact fit'
          · rw [Dialogue.run_ask_unfit (by simpa using fit')] at h
            cases h
      · cases h
        exact fit
    · rw [Dialogue.run_ask_unfit (by simpa using fit)] at h
      cases h

/-- `get` answers a request for `n` bytes of the descriptor with `bytes`. -/
def Delivers (get : Getter) (descType descIndex : UInt8) (n : Nat) (replies : List Reply)
    (bytes : List UInt8) (rest : List Reply) : Prop :=
  ((get descType descIndex n).run Request.fits replies).result = some (.ok bytes, rest)

theorem Getter.Sound.length_le (hget : get.Sound)
    (h : Delivers get descType descIndex n replies bytes rest) : bytes.length ≤ n :=
  of_decide_eq_true (hget h)

/-- The request that a getter begins with gives the length. -/
def Getter.Asks (get : Getter) : Prop :=
  ∀ descType descIndex n, ∃ req next, get descType descIndex n = .ask req next ∧ req.length = n

theorem libusbyGetDescriptor_asks : libusbyGetDescriptor.Asks :=
  fun _ _ _ => ⟨_, _, rfl, rfl⟩

theorem usbybGetDescriptorCached_asks : usbybGetDescriptorCached.Asks :=
  fun _ _ _ => ⟨_, _, rfl, rfl⟩

end

/-! ## The callers -/

/-- `usbyi_sanitize_device_desc`. -/
def usbyiSanitizeDeviceDesc (rawdesc : Bytes 18) : Except Error (Bytes 18) :=
  if rawdesc.get 0 ≠ 18 then .error .io else .ok rawdesc

/-- The return value, what is written to `*desc`, and `device_desc` afterwards. -/
structure DeviceDescriptor where
  r : Error
  desc : Option (Bytes 18)
  deviceDesc : Bytes 18

def libusbyGetDeviceDescriptor (deviceDesc rawdesc : Bytes 18) :
    Dialogue Request Reply DeviceDescriptor :=
  if deviceDesc.get 0 = 18 then .done ⟨.success, some deviceDesc, deviceDesc⟩
  else do
    let reply ← libusbyGetDescriptor 1 0 18
    match reply with
    | .error e => return ⟨e, none, deviceDesc⟩
    | .ok bytes =>
      match usbyiSanitizeDeviceDesc (rawdesc.fill bytes) with
      | .error e => return ⟨e, none, deviceDesc⟩
      | .ok desc => return ⟨.success, some desc, desc⟩

/-- Both readers of configuration descriptors. `rawdesc n` is a block of `n` bytes from
`malloc`; it is freed in the end and shows in the count of allocations only. -/
def readConfig (get : Getter) (ok : Nat → Bool) (configIndex : UInt8) (header : Bytes 6)
    (rawdesc : (n : Nat) → Bytes n) (mem : Memory) :
    Dialogue Request Reply (Except Fault Sanitized) := do
  let reply ← get 2 configIndex 6
  match reply with
  | .error e => return .ok ⟨e, none, mem⟩
  | .ok bytes =>
    let header := header.fill bytes
    let wTotalLength := le16 (header.get 2) (header.get 3)
    let allocated := { mem with calls := mem.calls + 1 }
    if ¬ ok mem.calls then return .ok ⟨.noMem, none, allocated⟩
    else do
      let reply ← get 2 configIndex wTotalLength.toNat
      match reply with
      | .error e => return .ok ⟨e, none, allocated⟩
      | .ok bytes =>
        let rawdesc := (rawdesc wTotalLength.toNat).fill bytes
        return usbyiSanitizeConfigDescriptor ok rawdesc.bytes (.ofNat bytes.length) allocated

def libusbyGetConfigDescriptor := readConfig libusbyGetDescriptor

def libusbyGetConfigDescriptorCached := readConfig usbybGetDescriptorCached

/-- The loop of `libusby_get_config_descriptor_by_value` from iteration `i` on, with `n` to go.
Iteration `i` finds `header i` and `rawdesc i` in its buffers. -/
def findValue (ok : Nat → Bool) (configValue : UInt8) (header : Nat → Bytes 6)
    (rawdesc : Nat → (n : Nat) → Bytes n) :
    Nat → Nat → Memory → Dialogue Request Reply (Except Fault Sanitized)
  | 0, _, mem => .done (.ok ⟨.notFound, none, mem⟩)
  | n + 1, i, mem => do
    let got ← libusbyGetConfigDescriptor ok (.ofNat i) (header i) (rawdesc i) mem
    match got with
    | .error f => return .error f
    | .ok ⟨r, config, mem⟩ =>
      if r.code < 0 then return .ok ⟨r, none, mem⟩
      else match config with
        | none => return .error .read
        | some configDesc =>
          if configDesc.bConfigurationValue = configValue then
            return .ok ⟨.success, some configDesc, mem⟩
          else match libusbyFreeConfigDescriptor mem configDesc with
            | .error f => return .error f
            | .ok mem => findValue ok configValue header rawdesc n (i + 1) mem

/-- With `device_desc` afterwards. `rawdesc` and `header` are the buffers of the callees. -/
def libusbyGetConfigDescriptorByValue (ok : Nat → Bool) (configValue : UInt8)
    (deviceDesc rawdesc : Bytes 18) (header : Nat → Bytes 6)
    (block : Nat → (n : Nat) → Bytes n) (mem : Memory) :
    Dialogue Request Reply (Except Fault Sanitized × Bytes 18) := do
  let device ← libusbyGetDeviceDescriptor deviceDesc rawdesc
  if device.r.code < 0 then return (.ok ⟨device.r, none, mem⟩, device.deviceDesc)
  else match device.desc with
    | none => return (.error .read, device.deviceDesc)
    | some desc => do
      let found ← findValue ok configValue header block (desc.get 17).toNat 0 mem
      return (found, device.deviceDesc)

/-- The return value and what is written to `*config_value`. -/
structure Configuration where
  r : Int
  configValue : Option Int
  deriving DecidableEq, Repr

/-- `usbyb` is `usbyb_get_configuration` of the backend. -/
def libusbyGetConfiguration (usbyb : Dialogue Request Reply Configuration) (data : Bytes 1) :
    Dialogue Request Reply Configuration := do
  let c ← usbyb
  if c.r = Error.notSupported.code then do
    let reply ← .ask (.control 0x80 8 0 0 1) .done
    match reply with
    | .error e => return { c with r := e.code }
    | .ok bytes =>
      if bytes.length ≠ 1 then return { c with r := Error.io.code }
      else return ⟨Error.success.code, some ((data.fill bytes).get 0).toNat⟩
  else return c

/-- The return value with the tree and the memory, if one was returned. -/
structure ActiveConfig where
  r : Int
  config : Option ConfigDescriptor
  mem : Memory

/-- `active_config` is converted to a byte where it is passed on. -/
def libusbyGetActiveConfigDescriptor (ok : Nat → Bool)
    (usbyb : Dialogue Request Reply Configuration) (data : Bytes 1) (deviceDesc rawdesc : Bytes 18)
    (header : Nat → Bytes 6) (block : Nat → (n : Nat) → Bytes n) (mem : Memory) :
    Dialogue Request Reply (Except Fault ActiveConfig × Bytes 18) := do
  let active ← libusbyGetConfiguration usbyb data
  if active.r < 0 then return (.ok ⟨active.r, none, mem⟩, deviceDesc)
  else match active.configValue with
    | none => return (.error .read, deviceDesc)
    | some activeConfig => do
      let (found, deviceDesc) ←
        libusbyGetConfigDescriptorByValue ok (.ofInt activeConfig) deviceDesc rawdesc header block mem
      return (found.map fun out => ⟨out.r.code, out.config, out.mem⟩, deviceDesc)

end Libusby.Core
