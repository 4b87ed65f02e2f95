import Libusby.Core.Config.Allocation
import Libusby.Core.WholeDescriptor
import Libusby.Linux.CacheConsistency

/-!
# Configuration lookup in the descriptor cache

From the device file to the callers of `usbyb_get_descriptor_cached`: what the enumeration
reads is a list of blocks, each lookup delivers the front of one block, and so the readers
of configuration descriptors parse exactly one block each.
-/

namespace Libusby.Linux

open Foundations Libusby.Core Config

/-- Only the number of the configuration, not its language, is looked at. -/
def usbybGetDescriptor := usbybGetDescriptorCached

/-- What is answered to the core; `device` answers control transfers. -/
def answer (dev : Device) (device : Request → Reply) : Request → Except Fault Reply
  | .descriptor descType descIndex length => usbybGetDescriptor dev descType descIndex length
  | .descriptorCached descType descIndex length =>
    usbybGetDescriptorCached dev descType descIndex length
  | req => .ok (device req)

/-- What a reader makes of the block that it looks up. -/
def parseConfig (ok : Nat → Bool) (block : Option (List UInt8)) (mem : Memory) :
    Except Fault Sanitized :=
  match block with
  | none => .ok ⟨.invalidParam, none, mem⟩
  | some b =>
    let mem' := { mem with calls := mem.calls + 1 }
    if ok mem.calls then usbyiSanitizeConfigDescriptor ok b (.ofNat b.length) mem'
    else .ok ⟨.noMem, none, mem'⟩

/-- The blocks parse one after the other, and none has the value `v`. The allocations
between them are those from `calls` to `calls'`. -/
inductive PassesOver (ok : Nat → Bool) (v : UInt8) : List (List UInt8) → Nat → Nat → Prop where
  | nil {calls} : PassesOver ok v [] calls calls
  | cons {b bs calls calls' c mem} (parse : parseConfig ok (some b) ⟨calls, []⟩ =
        .ok ⟨.success, some c, mem⟩)
      (other : c.bConfigurationValue ≠ v) (rest : PassesOver ok v bs mem.calls calls') :
      PassesOver ok v (b :: bs) calls calls'

section
variable {dev : Device} {device : Request → Reply} {bs : List (List UInt8)} {get : Getter}
  {ok : Nat → Bool} {header : Bytes 6} {rawdesc : (n : Nat) → Bytes n} {mem : Memory}

/-- The device keeps `bs`, as many blocks as its descriptor says. -/
structure Stores (dev : Device) (bs : List (List UInt8)) : Prop where
  caches : Caches dev.descCache bs
  count : bs.length = numConfigurations dev.deviceDesc

theorem Stores.lookup (h : Stores dev bs) (descIndex : UInt8) (length : Nat) :
    usbybGetDescriptorCached dev 2 descIndex length = .ok
      (bs[descIndex.toNat]?.elim (.error .invalidParam) fun b => .ok (b.take length)) := by
  have found := usbybGetDescriptorCached_eq h.caches (Nat.le_of_eq h.count.symm) descIndex length
  rwa [← h.count, List.take_length] at found

/-- A getter that delivers what is in the cache. -/
def Looks (get : Getter) (answer : Request → Except Fault Reply) (bs : List (List UInt8)) : Prop :=
  ∀ descIndex length, (get 2 descIndex length).serve answer = .ok
    (bs[descIndex.toNat]?.elim (.error .invalidParam) fun b => .ok (b.take length))

theorem usbybGetDescriptorCached_looks (h : Stores dev bs) :
    Looks Core.usbybGetDescriptorCached (answer dev device) bs := by
  intro descIndex length
  have found : answer dev device (.descriptorCached 2 descIndex length) = _ :=
    h.lookup descIndex length
  rw [Core.usbybGetDescriptorCached, Dialogue.serve_ask found]
  rfl

theorem libusbyGetDescriptor_looks (h : Stores dev bs) :
    Looks libusbyGetDescriptor (answer dev device) bs := by
  intro descIndex length
  have found : answer dev device (.descriptor 2 descIndex length) = _ := h.lookup descIndex length
  rw [libusbyGetDescriptor, Dialogue.serve_ask found]
  cases bs[descIndex.toNat]? <;> rfl

theorem IsBlock.length_le {b : List UInt8} (h : IsBlock b) : b.length ≤ 65535 := by
  rw [← h.stated]
  exact Nat.le_of_lt_succ (UInt16.toNat_lt _)

/-- Two reads of the same block make up a read of the whole block. -/
theorem readConfig_looks (looks : Looks get (answer dev device) bs) (block : ∀ b ∈ bs, IsBlock b)
    (configIndex : UInt8) :
    (readConfig get ok configIndex header rawdesc mem).serve (answer dev device) =
      .ok (parseConfig ok bs[configIndex.toNat]? mem) := by
  rw [readConfig, Dialogue.serve_bind, looks, ok_bind]
  cases hb : bs[configIndex.toNat]? with
  | none => rfl
  | some b =>
    have isBlock := block b (List.mem_of_getElem? hb)
    have length : (headerLength header (b.take 6)).toNat = b.length := by
      rw [headerLength_take isBlock.four_le]
      exact isBlock.stated
    rw [parseConfig]
    dsimp only [Option.elim_some]
    by_cases allocated : ok mem.calls = true
    · have body : (get 2 configIndex (headerLength header (b.take 6)).toNat).serve
          (answer dev device) = .ok (.ok b) := by
        rw [looks, hb, length, Option.elim_some, List.take_length]
      have fit : b.length ≤ (headerLength header (b.take 6)).toNat := Nat.le_of_eq length.symm
      have parsed : usbyiSanitizeConfigDescriptor ok
          ((rawdesc (headerLength header (b.take 6)).toNat).fill b).bytes (.ofNat b.length)
          { mem with calls := mem.calls + 1 } = usbyiSanitizeConfigDescriptor ok b
            (.ofNat b.length) { mem with calls := mem.calls + 1 } := by
        rw [Bytes.fill_bytes fit, sanitize_append _ isBlock.length_le]
      rw [if_neg (not_not.2 allocated), if_pos allocated, Dialogue.serve_bind, ← parsed]
      unfold headerLength at body
      rw [body]
      rfl
    · rw [if_pos allocated, if_neg allocated]
      rfl

/-! ## The search for a value -/

variable {headers : Nat → Bytes 6} {blocks : Nat → (n : Nat) → Bytes n} {v : UInt8}
  {b : List UInt8} {pre tail before : List (List UInt8)} {i n calls calls' : Nat}
  {c : ConfigDescriptor} {m : Memory}

/-- A parsed tree is all that is in use, so that freeing it leaves nothing. -/
theorem parseConfig_freed {block : Option (List UInt8)} (empty : mem.blocks = [])
    (h : parseConfig ok block mem = .ok ⟨.success, some c, m⟩) :
    libusbyFreeConfigDescriptor m c = .ok ⟨m.calls, []⟩ := by
  unfold parseConfig at h
  split at h
  case h_1 => cases h
  case h_2 b =>
    dsimp only at h
    split at h
    case isFalse => cases h
    case isTrue =>
      have settled : m.blocks.Perm (treeBlocks c ++ []) := by
        rw [List.append_nil]
        exact sanitize_settled (m := ⟨mem.calls + 1, mem.blocks⟩) empty h
      obtain ⟨m', freed, calls, left⟩ := libusbyFreeConfigDescriptor_leaves settled
      rw [freed, ← calls, ← left.eq_nil]

/-- The lookup of one iteration. -/
theorem findValue_lookup (h : Stores dev bs) (hb : bs[i]? = some b) :
    (libusbyGetConfigDescriptor ok (.ofNat i) header rawdesc mem).serve (answer dev device) =
      .ok (parseConfig ok (some b) mem) := by
  have small : i < 256 := by
    have := (List.getElem?_eq_some_iff.1 hb).1
    have := UInt8.toNat_lt (dev.deviceDesc.getD 17 0)
    have := h.count
    unfold numConfigurations at this
    omega
  rw [libusbyGetConfigDescriptor, readConfig_looks (libusbyGetDescriptor_looks h) h.caches.block,
    UInt8.toNat_ofNat_of_lt' small, hb]

theorem findValue_found (h : Stores dev bs) (hb : bs[i]? = some b)
    (parse : parseConfig ok (some b) mem = .ok ⟨.success, some c, m⟩)
    (value : c.bConfigurationValue = v) :
    (findValue ok v headers blocks (n + 1) i mem).serve (answer dev device) =
      .ok (.ok ⟨.success, some c, m⟩) := by
  rw [findValue, Dialogue.serve_bind, findValue_lookup h hb, parse, ok_bind]
  dsimp only
  rw [if_neg (by decide), if_pos value]
  rfl

/-- A configuration with another value is freed completely. -/
theorem findValue_other (h : Stores dev bs) (hb : bs[i]? = some b)
    (parse : parseConfig ok (some b) ⟨calls, []⟩ = .ok ⟨.success, some c, m⟩)
    (other : c.bConfigurationValue ≠ v) :
    (findValue ok v headers blocks (n + 1) i ⟨calls, []⟩).serve (answer dev device) =
      (findValue ok v headers blocks n (i + 1) ⟨m.calls, []⟩).serve (answer dev device) := by
  have freed := parseConfig_freed rfl parse
  rw [findValue, Dialogue.serve_bind, findValue_lookup h hb, parse, ok_bind]
  dsimp only
  rw [if_neg (by decide), if_neg other, freed]

theorem findValue_passes (h : Stores dev bs) (passes : PassesOver ok v pre calls calls')
    (split : bs = before ++ (pre ++ tail)) :
    (findValue ok v headers blocks (pre.length + n) before.length ⟨calls, []⟩).serve
        (answer dev device) =
      (findValue ok v headers blocks n (before.length + pre.length) ⟨calls', []⟩).serve
        (answer dev device) := by
  induction passes generalizing before with
  | nil => simp
  | @cons b pre calls calls' c m parse other rest ih =>
    have hb : bs[before.length]? = some b := by simp [split]
    have split' : bs = (before ++ [b]) ++ (pre ++ tail) := by simp [split]
    have goesOn := ih split'
    rw [List.length_append, List.length_singleton] at goesOn
    rw [List.length_cons, show pre.length + 1 + n = pre.length + n + 1 by omega,
      findValue_other h hb parse other, goesOn, Nat.add_assoc, Nat.add_comm 1]

theorem byValue_eq (deviceDesc : Bytes 18) {rawdesc : Bytes 18} (bLength : deviceDesc.get 0 = 18) :
    (libusbyGetConfigDescriptorByValue ok v deviceDesc rawdesc headers blocks mem).serve
        (answer dev device) =
      ((findValue ok v headers blocks (deviceDesc.get 17).toNat 0 mem).serve
        (answer dev device)).map (·, deviceDesc) := by
  rw [libusbyGetConfigDescriptorByValue, libusbyGetDeviceDescriptor, if_pos bLength,
    Dialogue.serve_bind, Dialogue.serve_done, ok_bind]
  dsimp only
  rw [if_neg (by decide), Dialogue.serve_bind]
  rfl

/-! ## The enumeration -/

variable {ctx ctx' : Context} {d : DeviceId} {s s' : Enum} {busno devno : Int} {fd : FdId}
  {read : Nat → Nat → List UInt8}

theorem unref_last (hd : ctx.heap d = some dev) (one : dev.refCount = 1)
    (h : libusbyUnrefDevice ctx d = .ok ctx') : ctx'.heap d = none := by
  obtain ⟨dev', hderef, h⟩ := bind_eq_ok.1 h
  cases hd.symm.trans (deref_eq_ok hderef)
  simp only [one] at h
  obtain ⟨ctx₁, -, h⟩ := bind_eq_ok.1 h
  unfold Context.free at h
  split at h
  case h_1 => cases h
  case h_2 =>
    cases h
    exact Function.update_self ..

/-- A new device that is still there was read completely. -/
theorem enumNew_accepted (h : enumNew ok s busno devno fd read = .ok (.next s'))
    (alive : s'.ctx.heap s.ctx.devices.next = some dev) :
    ∃ calls, readDescriptors ok read s.calls = (.ok (dev.deviceDesc, dev.descCache), calls) := by
  have fresh : (allocDevice s.ctx busno devno fd).heap s.ctx.devices.next =
      some { refCount := 1, busno, devno, fd } := Function.update_self ..
  rw [enumNew] at h
  split at h
  case h_1 r calls hread =>
    obtain ⟨ctx, hunref, h⟩ := bind_eq_ok.1 h
    cases h
    rw [unref_last fresh rfl hunref] at alive
    cases alive
  case h_2 desc cache calls hread =>
    obtain ⟨dev', hderef, h⟩ := bind_eq_ok.1 h
    cases fresh.symm.trans (deref_eq_ok hderef)
    obtain ⟨⟨appended, calls'⟩, -, h⟩ := bind_eq_ok.1 h
    cases appended with
    | error r =>
      obtain ⟨ctx, hunref, h⟩ := bind_eq_ok.1 h
      cases h
      rw [unref_last (Function.update_self ..) rfl hunref] at alive
      cases alive
    | ok devlist =>
      cases h
      cases (Function.update_self ..).symm.trans alive
      exact ⟨calls, hread⟩

end

/-- Lookup in a device that keeps the blocks `bs`; `deviceDesc` is its descriptor. -/
structure LooksUp (dev : Device) (deviceDesc : Bytes 18) (bs : List (List UInt8)) : Prop where
  count : bs.length = (deviceDesc.get 17).toNat
  block : ∀ b ∈ bs, IsBlock b
  cache : dev.descCache = bs.flatten
  /-- The front of a block, or an error without a byte written. -/
  descriptor : ∀ descIndex length, usbybGetDescriptorCached dev 2 descIndex length = .ok
    (bs[descIndex.toNat]?.elim (.error .invalidParam) fun b => .ok (b.take length))
  config : ∀ device ok configIndex header rawdesc mem,
    (libusbyGetConfigDescriptor ok configIndex header rawdesc mem).serve (answer dev device) =
      .ok (parseConfig ok bs[configIndex.toNat]? mem)
  configCached : ∀ device ok configIndex header rawdesc mem,
    (libusbyGetConfigDescriptorCached ok configIndex header rawdesc mem).serve
      (answer dev device) = .ok (parseConfig ok bs[configIndex.toNat]? mem)
  /-- The first block with the value, if all before it parse. -/
  found : ∀ device ok v rawdesc header block calls pre b post calls' c m, bs = pre ++ b :: post →
    PassesOver ok v pre calls calls' →
    parseConfig ok (some b) ⟨calls', []⟩ = .ok ⟨.success, some c, m⟩ → c.bConfigurationValue = v →
      (libusbyGetConfigDescriptorByValue ok v deviceDesc rawdesc header block ⟨calls, []⟩).serve
        (answer dev device) = .ok (.ok ⟨.success, some c, m⟩, deviceDesc)
  notFound : ∀ device ok v rawdesc header block calls calls', PassesOver ok v bs calls calls' →
    (libusbyGetConfigDescriptorByValue ok v deviceDesc rawdesc header block ⟨calls, []⟩).serve
      (answer dev device) = .ok (.ok ⟨.notFound, none, ⟨calls', []⟩⟩, deviceDesc)

theorem Stores.looksUp {dev : Device} {bs : List (List UInt8)} (h : Stores dev bs)
    (size : dev.deviceDesc.length = 18) (bLength : dev.deviceDesc.getD 0 0 = 18) :
    LooksUp dev ⟨dev.deviceDesc, size⟩ bs where
  count := h.count
  block := h.caches.block
  cache := h.caches.cache
  descriptor := h.lookup
  config device ok configIndex header rawdesc mem :=
    readConfig_looks (libusbyGetDescriptor_looks h) h.caches.block configIndex
  configCached device ok configIndex header rawdesc mem :=
    readConfig_looks (usbybGetDescriptorCached_looks h) h.caches.block configIndex
  found device ok v rawdesc header block calls pre b post calls' c m split passes parse value := by
    have count : (dev.deviceDesc.getD 17 0).toNat = pre.length + (post.length + 1) := by
      rw [← numConfigurations, ← h.count, split, List.length_append, List.length_cons]
    have hb : bs[0 + pre.length]? = some b := by simp [split]
    have first : (findValue ok v header block (pre.length + (post.length + 1)) 0
        ⟨calls, []⟩).serve (answer dev device) = .ok (.ok ⟨.success, some c, m⟩) :=
      (findValue_passes h passes (show bs = [] ++ (pre ++ b :: post) from split)).trans
        (findValue_found h hb parse value)
    rw [byValue_eq ⟨dev.deviceDesc, size⟩ bLength, Bytes.get, count, first]
    rfl
  notFound device ok v rawdesc header block calls calls' passes := by
    have count : (dev.deviceDesc.getD 17 0).toNat = bs.length + 0 := h.count.symm
    have all : (findValue ok v header block (bs.length + 0) 0 ⟨calls, []⟩).serve
        (answer dev device) = .ok (.ok ⟨.notFound, none, ⟨calls', []⟩⟩) :=
      findValue_passes h passes (show bs = [] ++ (bs ++ []) by simp)
    rw [byValue_eq ⟨dev.deviceDesc, size⟩ bLength, Bytes.get, count, all]
    rfl

/-- From the file of a new device to every reader of its configuration descriptors. -/
theorem config_lookup (ok : Nat → Bool) (s s' : Enum) (busno devno : Int) (fd : FdId)
    (read : Nat → Nat → List UInt8) (dev : Device)
    (accepted : enumNew ok s busno devno fd read = .ok (.next s'))
    (alive : s'.ctx.heap s.ctx.devices.next = some dev)
    (bLength : dev.deviceDesc.getD 0 0 = 18) :
    ∃ deviceDesc : Bytes 18, deviceDesc.bytes = read 0 18 ∧ dev.deviceDesc = read 0 18 ∧
      LooksUp dev deviceDesc (deliveredBlocks read (numConfigurations (read 0 18)) 1) := by
  obtain ⟨calls, hread⟩ := enumNew_accepted accepted alive
  obtain ⟨desc, size, caches⟩ := readDescriptors_eq hread
  refine ⟨⟨dev.deviceDesc, size⟩, desc, desc, ?_⟩
  rw [← desc]
  exact Stores.looksUp ⟨caches, length_deliveredBlocks⟩ size bLength

/-- The file of a mass storage device with one configuration. -/
def storageFile : Nat → Nat → List UInt8
  | 0, _ => [18, 1, 0, 2, 0, 0, 0, 64, 0, 0, 0, 0, 0, 1, 0, 0, 0, 1]
  | 1, _ => storage.take 4
  | _, _ => storage.drop 4

theorem config_lookup_storage : ∃ s' dev,
    enumNew (fun _ => true) { ctx := {} } 1 1 0 storageFile = .ok (.next s') ∧
      s'.ctx.heap 0 = some dev ∧
      ∃ deviceDesc : Bytes 18, deviceDesc.bytes = storageFile 0 18 ∧
        dev.deviceDesc = storageFile 0 18 ∧ LooksUp dev deviceDesc [storage] := by
  refine ⟨_, _, rfl, rfl, ?_⟩
  apply config_lookup (fun _ => true) { ctx := {} } _ 1 1 0 storageFile _ rfl rfl rfl

end Libusby.Linux
