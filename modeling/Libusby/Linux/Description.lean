import Libusby.Core.Description
import Libusby.Linux.ConfigLookup
import Libusby.Linux.Hotplug

/-!
# From the usbfs file to the trees

The usbfs file of a device holds its device descriptor and its configurations one after the
other. The readers of configuration descriptors return the trees that these describe, for every
entry of an enumeration and whatever is plugged in and out before it.
-/

namespace Libusby.Linux

open Foundations Foundations.Namesakes Libusby.Core Config

/-! ## The file -/

/-- Where the block `i` of a file begins. -/
def blockStart (file : List UInt8) : Nat → Nat
  | 0 => 18
  | i + 1 => blockStart file i + statedLength (file.drop (blockStart file i))

/-- Where the `k`-th `read` of the enumeration begins: the device descriptor is read first, and
each block after it with two calls, its first four bytes and the rest. -/
def filePosition (file : List UInt8) : Nat → Nat
  | 0 => 0
  | k + 1 => blockStart file (k / 2) + if k % 2 = 0 then 0 else 4

/-- The `k`-th `read`, of `n` bytes, of a file with this content. -/
def readFile (file : List UInt8) : DeviceFile := fun k n => (file.drop (filePosition file k)).take n

section
variable {file desc b : List UInt8} {bs : List (List UInt8)} {i n calls : Nat} {cache : List UInt8}

theorem IsBlock.statedLength_take (h : IsBlock b) : statedLength (b.take 4) = b.length := by
  have byte (k : Nat) (hk : k < 4) : (b.take 4).getD k 0 = b.getD k 0 := by
    rw [List.getD_eq_getElem?_getD, List.getElem?_take_of_lt hk, List.getD_eq_getElem?_getD]
  rw [← h.stated, statedLength, statedLength, byte 2 (by omega), byte 3 (by omega)]

/-- A file that holds a device descriptor and the blocks `bs`. -/
structure HoldsBlocks (file desc : List UInt8) (bs : List (List UInt8)) : Prop where
  content : file = desc ++ bs.flatten
  size : desc.length = 18
  block : ∀ b ∈ bs, IsBlock b

namespace HoldsBlocks

theorem drop_blockStart (h : HoldsBlocks file desc bs) (hi : i ≤ bs.length) :
    file.drop (blockStart file i) = (bs.drop i).flatten := by
  induction i with
  | zero => rw [blockStart, h.content, ← h.size, List.drop_left, List.drop_zero]
  | succ i ih =>
    have here := ih (by omega)
    rw [List.drop_eq_getElem_cons (show i < bs.length by omega), List.flatten_cons] at here
    have stated : statedLength (bs[i] ++ (bs.drop (i + 1)).flatten) = bs[i].length :=
      (h.block _ (List.getElem_mem (show i < bs.length by omega))).statedLength_append
    rw [blockStart, ← List.drop_drop, here, stated, List.drop_left]

/-- The two calls for the block `i`. -/
theorem readExact_block (h : HoldsBlocks file desc bs) (hi : i < bs.length) :
    readExact (readFile file) (2 * i + 1) 4 = some (bs[i].take 4) ∧
      readExact (readFile file) (2 * i + 2) (bs[i].length - 4) = some (bs[i].drop 4) := by
  have start := h.drop_blockStart (Nat.le_of_lt hi)
  have four := (h.block _ (List.getElem_mem hi)).four_le
  rw [List.drop_eq_getElem_cons hi, List.flatten_cons] at start
  have front : readFile file (2 * i + 1) 4 = bs[i].take 4 := by
    rw [readFile, filePosition, show 2 * i / 2 = i by omega, if_pos (by omega), Nat.add_zero, start,
      List.take_append_of_le_length four]
  have back : readFile file (2 * i + 2) (bs[i].length - 4) = bs[i].drop 4 := by
    rw [readFile, filePosition, show (2 * i + 1) / 2 = i by omega, if_neg (by omega),
      ← List.drop_drop, start, List.drop_append_of_le_length four,
      List.take_append_of_le_length (by simp), List.take_of_length_le (by simp)]
  constructor
  · rw [readExact, front, if_pos (List.length_take.trans (Nat.min_eq_left four))]
  · rw [readExact, back, if_pos (by simp)]

/-- The loop of the enumeration reads the rest of the blocks. -/
theorem readConfigurations_eq (h : HoldsBlocks file desc bs) (hi : i + n = bs.length) :
    readConfigurations (fun _ => true) (readFile file) n (2 * i + 1) cache calls =
      (.ok (cache ++ (bs.drop i).flatten), calls + n) := by
  induction n generalizing i cache calls with
  | zero =>
    have done : bs.drop i = [] := List.drop_of_length_le (Nat.le_of_eq hi.symm)
    rw [readConfigurations, done, List.flatten_nil, List.append_nil, Nat.add_zero]
  | succ n ih =>
    have hlt : i < bs.length := by omega
    obtain ⟨header, body⟩ := h.readExact_block hlt
    have block := h.block _ (List.getElem_mem hlt)
    have stated : (le16 ((bs[i].take 4).getD 2 0) ((bs[i].take 4).getD 3 0)).toNat = bs[i].length :=
      block.statedLength_take
    have four := block.four_le
    rw [readConfigurations, header]
    simp only [stated, not_true_eq_false, if_false]
    rw [if_neg (by omega), show 2 * i + 1 + 1 = 2 * i + 2 by omega, body]
    simp only
    rw [show 2 * i + 1 + 2 = 2 * (i + 1) + 1 by omega, ih (by omega),
      List.drop_eq_getElem_cons hlt, List.flatten_cons, List.append_assoc, List.append_assoc,
      ← List.append_assoc (bs[i].take 4), List.take_append_drop, Nat.add_right_comm, Nat.add_assoc]

theorem descriptors_eq (h : HoldsBlocks file desc bs) (count : numConfigurations desc = bs.length) :
    descriptors (readFile file) = some (desc, bs.flatten) := by
  have first : readExact (readFile file) 0 18 = some desc := by
    have front : readFile file 0 18 = desc := by
      rw [readFile, filePosition, List.drop_zero, h.content, ← h.size, List.take_left]
    rw [readExact, front, if_pos h.size]
  have rest : readConfigurations (fun _ => true) (readFile file) bs.length 1 [] 0 =
      (.ok ([] ++ (bs.drop 0).flatten), 0 + bs.length) :=
    h.readConfigurations_eq (Nat.zero_add _)
  rw [List.drop_zero, List.nil_append] at rest
  rw [descriptors, readDescriptors, first]
  simp only
  rw [count, rest]
  rfl

end HoldsBlocks

end

end Libusby.Linux

namespace Libusby.Core.Description

open Foundations Linux Config

variable (D : Description)

/-- The usbfs file of the device. -/
def file : List UInt8 := D.deviceDesc.bytes ++ D.blocks.flatten

theorem isBlock_of_mem : ∀ b ∈ D.blocks, IsBlock b := by
  intro b hb
  obtain ⟨c, -, rfl⟩ := List.mem_map.1 hb
  exact ⟨Nat.le_trans (by omega) c.grammar.length, c.wTotalLength⟩

theorem length_blocks : D.blocks.length = numConfigurations D.deviceDesc.bytes := by
  rw [blocks, List.length_map, D.bNumConfigurations]
  rfl

/-- What the enumeration makes of the file. -/
theorem descriptors_file :
    descriptors (readFile D.file) = some (D.deviceDesc.bytes, D.blocks.flatten) := by
  have holds : HoldsBlocks D.file D.deviceDesc.bytes D.blocks :=
    ⟨rfl, D.deviceDesc.size, D.isBlock_of_mem⟩
  exact holds.descriptors_eq D.length_blocks.symm

end Libusby.Core.Description

namespace Libusby.Linux

open Foundations Foundations.Namesakes Libusby.Core Config

/-! ## The readers -/

/-- Whatever the device answers, and whatever is in the buffers beforehand, a reader with enough
memory returns what the description says. -/
structure Describes (D : Description) (dev : Device) : Prop where
  reads : ∀ device, libusbyGetDescriptor.Reads (answer dev device) .invalidParam D.blocks
  deviceDescriptor : ∀ device rawdesc,
    (libusbyGetDeviceDescriptor D.deviceDesc rawdesc).serve (answer dev device) =
      .ok ⟨.success, some D.deviceDesc, D.deviceDesc⟩
  deviceDesc : dev.deviceDesc = D.deviceDesc.bytes
  config : ∀ device configIndex header rawdesc calls, ∃ out,
    (libusbyGetConfigDescriptor (fun _ => true) configIndex header rawdesc ⟨calls, []⟩).serve
      (answer dev device) = .ok (.ok out) ∧
    Yields D.trees[configIndex.toNat]? .invalidParam out
  configCached : ∀ device configIndex header rawdesc calls, ∃ out,
    (libusbyGetConfigDescriptorCached (fun _ => true) configIndex header rawdesc ⟨calls, []⟩).serve
      (answer dev device) = .ok (.ok out) ∧
    Yields D.trees[configIndex.toNat]? .invalidParam out
  byValue : ∀ device v rawdesc header block calls, ∃ out,
    (libusbyGetConfigDescriptorByValue (fun _ => true) v D.deviceDesc rawdesc header block
      ⟨calls, []⟩).serve (answer dev device) = .ok (.ok out, D.deviceDesc) ∧
    Yields (D.trees.find? (·.bConfigurationValue = v)) .notFound out

/-- A device with the descriptors of the file. -/
theorem describes_of_file {D : Description} {dev : Device}
    (deviceDesc : dev.deviceDesc = D.deviceDesc.bytes) (descCache : dev.descCache = D.blocks.flatten) :
    Describes D dev := by
  have stores : Stores dev D.blocks :=
    ⟨⟨descCache, D.isBlock_of_mem⟩, by rw [deviceDesc, D.length_blocks]⟩
  have reads (device : Request → Reply) :
      libusbyGetDescriptor.Reads (answer dev device) .invalidParam D.blocks :=
    libusbyGetDescriptor_looks stores
  have readsCached (device : Request → Reply) :
      Core.usbybGetDescriptorCached.Reads (answer dev device) .invalidParam D.blocks :=
    usbybGetDescriptorCached_looks stores
  exact {
    reads
    deviceDescriptor := fun device rawdesc => by
      rw [libusbyGetDeviceDescriptor, if_pos D.bLength]
      rfl
    deviceDesc
    config := fun device configIndex header rawdesc calls =>
      D.readConfig_reads (reads device) configIndex header rawdesc calls
    configCached := fun device configIndex header rawdesc calls =>
      D.readConfig_reads (readsCached device) configIndex header rawdesc calls
    byValue := fun device v rawdesc header block calls =>
      D.byValue_reads (reads device) v rawdesc header block calls }

/-! ## While devices come and go -/

/-- Whatever is plugged in and out while a client enumerates and keeps references, an entry of an
enumeration answers every request for a configuration descriptor with the tree of the device whose
file was opened for it, as long as no device was plugged in at its number while a different one was
in memory there that has stayed since. -/
theorem entries_described (es : List (Event (Int × Int) DeviceFile Op))
    (w : World (Int × Int) DeviceFile State) (run : hotplug.exec hotplug.init es = some w)
    (k : Int × Int) (kept : ¬Replaced k es) (D : Description) (ctx : Context) (d : DeviceId)
    (returned : Returned w k (readFile D.file) ctx d) :
    ∃ dev, ctx.heap d = some dev ∧ Describes D dev := by
  have record := (returned.current_iff run D.descriptors_file).2 kept
  obtain ⟨dev, hdev, same⟩ := Option.map_eq_some_iff.1 record
  simp only [Prod.mk.injEq] at same
  exact ⟨dev, hdev, describes_of_file same.2.1 same.2.2⟩

/-- The configuration of a keyboard: an interface, its HID descriptor and an endpoint. -/
def keyboardDescriptors : List Descriptor :=
  [[9, 4, 0, 0, 1, 3, 1, 1, 0], [9, 0x21, 0x11, 1, 0, 1, 0x22, 63, 0], [7, 5, 0x81, 3, 8, 0, 10]]

def keyboardConfig : List UInt8 := [9, 2, 34, 0, 1, 1, 0, 0xA0, 50] ++ keyboardDescriptors.flatten

theorem grammar_keyboard : Grammar keyboardConfig keyboardDescriptors := by
  have first : Accepted 1 ([] ++ [[9, 4, 0, 0, 1, 3, 1, 1, 0]]) :=
    .snoc .nil ⟨by decide, fun _ => ⟨nofun, by decide⟩, nofun⟩
  have second := first.snoc (d := [9, 0x21, 0x11, 1, 0, 1, 0x22, 63, 0]) ⟨by decide, nofun, nofun⟩
  have third := second.snoc (d := [7, 5, 0x81, 3, 8, 0, 10])
    ⟨by decide, nofun, fun _ => ⟨rfl, _, _, rfl, by decide⟩⟩
  refine grammar_iff.2 ⟨by decide, third, ?_, by decide⟩
  rintro i q ⟨⟩
  rfl

def keyboard : Description where
  deviceDesc := ⟨[18, 1, 0, 2, 0, 0, 0, 64, 0, 0, 0, 0, 0, 1, 0, 0, 0, 1], rfl⟩
  configs := [⟨keyboardConfig, keyboardDescriptors, grammar_keyboard, by decide⟩]
  bLength := rfl
  bNumConfigurations := rfl

def attachedKeyboard : World (Int × Int) DeviceFile State where
  attached := Function.update (fun _ => none) (1, 1) (some (readFile keyboard.file))
  program := {}

/-- The keyboard is plugged in and enumerated. -/
theorem entries_described_keyboard : ∃ ctx dev,
    Returned attachedKeyboard (1, 1) (readFile keyboard.file) ctx 0 ∧ ctx.heap 0 = some dev ∧
      Describes keyboard dev := by
  have run : hotplug.exec hotplug.init [.attach (1, 1) (readFile keyboard.file)] =
      some attachedKeyboard := rfl
  have kept : ¬Replaced (1, 1) [.attach (1, 1) (readFile keyboard.file)] := by
    rintro ⟨i, x, supplanted⟩
    obtain ⟨record, -⟩ := (remembers.supplantedAt_iff run).1 supplanted
    cases record
  have returned : ∃ ctx, Returned attachedKeyboard (1, 1) (readFile keyboard.file) ctx 0 := by
    refine ⟨_, fun _ => true, some (oneFile (1, 1) (readFile keyboard.file)), _, _, [0], by decide,
      rfl, rfl, rfl, ?_, by decide, rfl, _, List.mem_singleton_self _, rfl, rfl, rfl⟩
    exact ⟨[], rfl⟩
  obtain ⟨ctx, returned⟩ := returned
  obtain ⟨dev, hdev, describes⟩ := entries_described _ _ run (1, 1) kept keyboard ctx 0 returned
  exact ⟨ctx, dev, returned, hdev, describes⟩

end Libusby.Linux
