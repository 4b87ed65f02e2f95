import Libusby.Core.Config.Descriptor

/-!
# `usbyi_sanitize_config_descriptor`

The parser of configuration descriptors. `Build` is the tree under construction
with the locals that refer to it, `Parse` adds `rawdesc` and `wTotalLength`. A
`goto error` carries the tree that the error path frees. `ok` decides which
allocations succeed.
-/

namespace Libusby.Core.Config

open Foundations

structure Build where
  config : ConfigDescriptor
  /-- The interface and the alternate setting that `intf_desc` points to. -/
  intfDesc : Option (Nat × Nat)
  endpDescIndex : Nat
  mem : Memory
  deriving DecidableEq, Repr

structure Parse where
  rawdesc : List UInt8
  wTotalLength : UInt16
  build : Build
  deriving DecidableEq, Repr

/-- The ways out of the loop other than its condition. -/
inductive Stop where
  | fault (f : Fault)
  | error (b : Build)
  deriving DecidableEq, Repr

/-- A fault while the tree is being built. -/
def lift {α : Type} : Except Fault α → Except Stop α
  | .ok a => .ok a
  | .error f => .error (.fault f)

@[simp] theorem lift_eq_ok {α : Type} {x : Except Fault α} {a : α} : lift x = .ok a ↔ x = .ok a := by
  cases x <;> simp [lift]

@[simp] theorem lift_ok {α : Type} {a : α} : lift (.ok a) = .ok a := rfl

namespace Build

/-- `*intf_desc`. -/
def current (b : Build) : Option InterfaceDescriptor :=
  b.intfDesc.bind fun (k, j) => b.config.alt? k j

/-- `intf_desc && endp_desc_index != intf_desc->bNumEndpoints`. -/
def Unfinished (b : Build) : Prop :=
  ∃ d ∈ b.current, b.endpDescIndex ≠ d.bNumEndpoints.toNat

instance (b : Build) : Decidable b.Unfinished :=
  inferInstanceAs (Decidable (∃ d ∈ b.current, _))

/-- `res->interface[k].num_altsetting`. -/
def numAltsetting (b : Build) (k : Nat) : Nat :=
  ((b.config.interface.bind (·[k]?)).map Interface.numAltsetting).getD 0

end Build

section
variable (ok : Nat → Bool)

/-- The new alternate setting with its endpoint array. -/
def addAltsetting (raw : List UInt8) (k j : Nat) (b : Build) : Except Stop Build :=
  match b.mem.realloc ok (.altsettings k) with
  | none => .error (.error b)
  | some mem => do
    let bytes ← lift (readBytes raw 9)
    let d := InterfaceDescriptor.ofBytes bytes none
    let b := { b with config := b.config.modifyAlts k (· ++ [d]), intfDesc := some (k, j), mem }
    match mem.malloc ok (.endpoints k j) with
    | none => .error (.error b)
    | some mem =>
      let endpoint := List.replicate d.bNumEndpoints.toNat EndpointDescriptor.zero
      .ok { b with
        config := b.config.modifyAlts k (·.modify j fun d => { d with endpoint := some endpoint })
        endpDescIndex := 0
        mem }

/-- The branch of an interface descriptor. -/
def interfaceBlock (raw : List UInt8) (b : Build) : Except Stop Build :=
  if b.Unfinished then .error (.error b)
  else do
    let bLength ← lift (readByte raw 0)
    if bLength ≠ 9 then .error (.error b)
    else
      let bInterfaceNumber ← lift (readByte raw 2)
      let bAlternateSettings ← lift (readByte raw 3)
      let k := bInterfaceNumber.toNat
      let j := bAlternateSettings.toNat
      if b.config.bNumInterfaces.toNat ≤ k then .error (.error b)
      else if j ≠ b.numAltsetting k then .error (.error b)
      else addAltsetting ok raw k j b

/-- The branch of an endpoint descriptor. The store goes to element
`endp_desc_index` of the array of `intf_desc`, whatever these are. -/
def endpointBlock (raw : List UInt8) (b : Build) : Except Stop Build := do
  let bLength ← lift (readByte raw 0)
  if bLength ≠ 7 then .error (.error b)
  else
    let bytes ← lift (readBytes raw 7)
    match b.intfDesc, b.current.bind (·.endpoint) with
    | some (k, j), some endpoint =>
      if b.endpDescIndex < endpoint.length then
        let endpoint := endpoint.set b.endpDescIndex (.ofBytes bytes)
        .ok { b with
          config := b.config.modifyAlts k (·.modify j fun d => { d with endpoint := some endpoint })
          endpDescIndex := b.endpDescIndex + 1 }
      else .error (.fault .store)
    | _, _ => .error (.fault .store)

/-- The body of the loop apart from the length checks and the advance. -/
def parseBlock (raw : List UInt8) (b : Build) : Except Stop Build := do
  let bDescriptorType ← lift (readByte raw 1)
  let b ← if bDescriptorType = 4 then interfaceBlock ok raw b else .ok b
  if bDescriptorType = 5 then endpointBlock raw b else .ok b

/-- One iteration. -/
def parseNext (p : Parse) : Except Stop Parse := do
  let desclen ← lift (readByte p.rawdesc 0)
  if p.wTotalLength.toNat < desclen.toNat ∨ desclen < 2 then .error (.error p.build)
  else
    let build ← parseBlock ok p.rawdesc p.build
    .ok ⟨p.rawdesc.drop desclen.toNat, p.wTotalLength - desclen.toUInt16, build⟩

theorem parseNext_eq_ok {p q : Parse} (h : parseNext ok p = .ok q) :
    ∃ desclen b, readByte p.rawdesc 0 = .ok desclen ∧ desclen.toNat ≤ p.wTotalLength.toNat ∧
      2 ≤ desclen.toNat ∧ parseBlock ok p.rawdesc p.build = .ok b ∧
      q = ⟨p.rawdesc.drop desclen.toNat, p.wTotalLength - desclen.toUInt16, b⟩ := by
  simp only [parseNext, bind_eq_ok, lift_eq_ok] at h
  obtain ⟨desclen, hread, h⟩ := h
  split at h
  case isTrue => cases h
  case isFalse hlen =>
    obtain ⟨b, hb, h⟩ := bind_eq_ok.1 h
    have two : 2 ≤ desclen.toNat :=
      UInt8.le_iff_toNat_le.1 (UInt8.not_lt.1 (not_or.1 hlen).2)
    refine ⟨desclen, b, hread, by omega, two, hb, ?_⟩
    cases h
    rfl

theorem parseNext_lt {p q : Parse} (h : parseNext ok p = .ok q) :
    q.wTotalLength.toNat < p.wTotalLength.toNat := by
  obtain ⟨desclen, b, -, hle, htwo, -, rfl⟩ := parseNext_eq_ok ok h
  have : desclen.toUInt16 ≤ p.wTotalLength := by simpa [UInt16.le_iff_toNat_le] using hle
  rw [UInt16.toNat_sub_of_le _ _ this, UInt8.toNat_toUInt16]
  omega

/-- The loop. -/
def parseLoop (p : Parse) : Except Stop Parse :=
  if p.wTotalLength = 0 then .ok p
  else
    match h : parseNext ok p with
    | .error e => .error e
    | .ok q => parseLoop q
termination_by p.wTotalLength.toNat
decreasing_by exact parseNext_lt ok h

/-- What the function returns, writes to `*config` and leaves allocated. -/
structure Sanitized where
  r : Error
  config : Option ConfigDescriptor
  mem : Memory
  deriving DecidableEq, Repr

/-- The label `error`. -/
def sanitizeError (b : Build) : Except Fault Sanitized := do
  .ok ⟨.io, none, ← libusbyFreeConfigDescriptor b.mem b.config⟩

/-- The checks after the loop. -/
def sanitizeEnd (b : Build) : Except Fault Sanitized :=
  if b.Unfinished then sanitizeError b
  else if ∃ i ∈ b.config.interface.getD [], i.numAltsetting = 0 then sanitizeError b
  else .ok ⟨.success, some b.config, b.mem⟩

/-- The tree before the loop. -/
def Build.start (header : List UInt8) (mem : Memory) : Build where
  config := .ofBytes header (some (List.replicate (byteAt header 4).toNat {}))
  intfDesc := none
  endpDescIndex := 0
  mem := mem

def usbyiSanitizeConfigDescriptor (rawdesc : List UInt8) (wTotalLength : UInt16) (mem : Memory) :
    Except Fault Sanitized :=
  if wTotalLength < 9 then .ok ⟨.io, none, mem⟩
  else do
    if (← readByte rawdesc 1) ≠ 2 then .ok ⟨.io, none, mem⟩
    else if (← readByte rawdesc 0) ≠ 9 then .ok ⟨.io, none, mem⟩
    else
      match mem.malloc ok .config with
      | none => .ok ⟨.noMem, none, mem⟩
      | some mem =>
        let header ← readBytes rawdesc 9
        match mem.malloc ok .interfaces with
        | none => sanitizeError ⟨.ofBytes header none, none, 0, mem⟩
        | some mem =>
          match parseLoop ok ⟨rawdesc.drop 9, wTotalLength - 9, .start header mem⟩ with
          | .error (.fault f) => .error f
          | .error (.error b) => sanitizeError b
          | .ok p => sanitizeEnd p.build

end

end Libusby.Core.Config
