import Libusby.Core.Config.Allocation
import Libusby.Core.WholeDescriptor

/-!
# What a device says of itself

A device has a device descriptor and a configuration descriptor, with whatever descriptors in it,
for each of its configurations. Where a backend delivers these, whichever way it comes by them, the
readers of configuration descriptors return the trees that they describe.
-/

namespace Libusby.Core

open Foundations Config

/-- A configuration descriptor of the length that it states, with the descriptors `ds` behind its
header. -/
structure ConfigBlock where
  raw : List UInt8
  ds : List Descriptor
  grammar : Grammar raw ds
  wTotalLength : (le16 (byteAt raw 2) (byteAt raw 3)).toNat = raw.length

def ConfigBlock.tree (c : ConfigBlock) : ConfigDescriptor := described c.raw c.ds

structure Description where
  deviceDesc : Bytes 18
  configs : List ConfigBlock
  bLength : deviceDesc.get 0 = 18
  bNumConfigurations : configs.length = (deviceDesc.get 17).toNat

/-- The getter delivers the front of each of the blocks, and an error where there is none. -/
def Getter.Reads (get : Getter) (answer : Request → Except Fault Reply) (e : Error)
    (bs : List (List UInt8)) : Prop :=
  ∀ descIndex length, (get 2 descIndex length).serve answer = .ok
    (bs[descIndex.toNat]?.elim (.error e) fun b => .ok (b.take length))

/-- Success with the tree and only its blocks in use, or the error with nothing in use. -/
def Yields (config : Option ConfigDescriptor) (e : Error) (out : Sanitized) : Prop :=
  match config with
  | some c => out.r = .success ∧ out.config = some c ∧ out.mem.blocks.Perm (treeBlocks c)
  | none => out.r = e ∧ out.config = none ∧ out.mem.blocks = []

section
variable {c : ConfigBlock} {header : Bytes 6}

/-- The first six bytes give the length of the whole. -/
theorem ConfigBlock.headerLength_raw (c : ConfigBlock) :
    (headerLength header (c.raw.take 6)).toNat = c.raw.length := by
  have nine := c.grammar.length
  rw [headerLength_take (by omega)]
  exact c.wTotalLength

/-- It is parsed to the tree that it describes. -/
theorem ConfigBlock.sanitize_raw (c : ConfigBlock) (calls : Nat) :
    ∃ out, usbyiSanitizeConfigDescriptor (fun _ => true) c.raw (.ofNat c.raw.length)
      ⟨calls, []⟩ = .ok out ∧ Yields (some c.tree) .success out := by
  have small : c.raw.length ≤ 65535 := by
    rw [← c.wTotalLength]
    exact Nat.le_of_lt_succ (UInt16.toNat_lt _)
  obtain ⟨m, h⟩ := sanitize_of_grammar ⟨calls, []⟩ small c.grammar
  exact ⟨_, h, rfl, rfl, sanitize_settled (m := ⟨calls, []⟩) rfl h⟩

end

namespace Description

variable (D : Description)

def blocks : List (List UInt8) := D.configs.map (·.raw)

def trees : List ConfigDescriptor := D.configs.map (·.tree)

section
variable {get : Getter} {answer : Request → Except Fault Reply} {e : Error}
  {header : Bytes 6} {rawdesc : (n : Nat) → Bytes n} {headers : Nat → Bytes 6}
  {blocks : Nat → (n : Nat) → Bytes n} {calls n i : Nat} {v : UInt8}

theorem length_trees : D.trees.length = (D.deviceDesc.get 17).toNat := by
  rw [trees, List.length_map, D.bNumConfigurations]

/-- Both reads of a descriptor together read the whole of it. -/
theorem readConfig_reads (reads : get.Reads answer e D.blocks) (configIndex : UInt8)
    (header : Bytes 6) (rawdesc : (n : Nat) → Bytes n) (calls : Nat) :
    ∃ out, (readConfig get (fun _ => true) configIndex header rawdesc ⟨calls, []⟩).serve answer =
      .ok (.ok out) ∧ Yields D.trees[configIndex.toNat]? e out := by
  have lookup (length : Nat) := reads configIndex length
  simp only [Description.blocks, List.getElem?_map] at lookup
  rw [readConfig, Dialogue.serve_bind, lookup, ok_bind, trees, List.getElem?_map]
  cases hc : D.configs[configIndex.toNat]? with
  | none => exact ⟨_, rfl, rfl, rfl, rfl⟩
  | some c =>
    obtain ⟨out, parsed, delivered⟩ := c.sanitize_raw (calls + 1)
    refine ⟨out, ?_, delivered⟩
    have length : (headerLength header (c.raw.take 6)).toNat = c.raw.length := c.headerLength_raw
    have body : (get 2 configIndex (headerLength header (c.raw.take 6)).toNat).serve answer =
        .ok (.ok c.raw) := by
      rw [lookup, hc, length, Option.map_some, Option.elim_some, List.take_length]
    have whole : ((rawdesc (headerLength header (c.raw.take 6)).toNat).fill c.raw).bytes =
        c.raw := by
      have size := (rawdesc (headerLength header (c.raw.take 6)).toNat).size
      rw [Bytes.fill_bytes (Nat.le_of_eq length.symm), List.drop_of_length_le (by omega),
        List.append_nil]
    dsimp only [Option.map_some, Option.elim_some]
    rw [if_neg (by simp), Dialogue.serve_bind]
    unfold headerLength at body whole
    rw [body, ok_bind, ← parsed]
    simp only [whole]
    rfl

/-- The loop from the iteration `i` on. -/
theorem findValue_reads (reads : libusbyGetDescriptor.Reads answer e D.blocks) (v : UInt8)
    (headers : Nat → Bytes 6) (blocks : Nat → (n : Nat) → Bytes n) (calls : Nat)
    (hi : i + n = D.trees.length) :
    ∃ out, (findValue (fun _ => true) v headers blocks n i ⟨calls, []⟩).serve answer =
      .ok (.ok out) ∧ Yields ((D.trees.drop i).find? (·.bConfigurationValue = v)) .notFound out := by
  induction n generalizing i calls with
  | zero =>
    have done : D.trees.drop i = [] := List.drop_of_length_le (Nat.le_of_eq hi.symm)
    rw [done]
    exact ⟨_, rfl, rfl, rfl, rfl⟩
  | succ n ih =>
    have hlt : i < D.trees.length := by omega
    have small : i < 256 := by
      have := UInt8.toNat_lt (D.deviceDesc.get 17)
      have := D.length_trees
      omega
    obtain ⟨out, got, delivered⟩ := D.readConfig_reads reads (.ofNat i) (headers i)
      (blocks i) calls
    rw [UInt8.toNat_ofNat_of_lt' small, List.getElem?_eq_getElem hlt] at delivered
    obtain ⟨r, config, settled⟩ := delivered
    obtain ⟨r, config, mem⟩ := out
    cases r
    cases config
    rw [findValue, Dialogue.serve_bind, libusbyGetConfigDescriptor, got, ok_bind,
      List.drop_eq_getElem_cons hlt, List.find?_cons]
    dsimp only
    rw [if_neg (by decide)]
    by_cases value : D.trees[i].bConfigurationValue = v
    · rw [if_pos value, decide_eq_true value]
      exact ⟨_, rfl, rfl, rfl, settled⟩
    · have alone : mem.blocks.Perm (treeBlocks D.trees[i] ++ []) := by simpa using settled
      obtain ⟨m, freed, -, left⟩ := libusbyFreeConfigDescriptor_leaves alone
      obtain ⟨calls', blocks'⟩ := m
      cases left.eq_nil
      rw [if_neg value, decide_eq_false value, freed]
      exact ih calls' (by omega)

/-- The first configuration with the value is found, and those before it are freed. -/
theorem byValue_reads (reads : libusbyGetDescriptor.Reads answer e D.blocks) (v : UInt8)
    (rawdesc : Bytes 18) (headers : Nat → Bytes 6) (blocks : Nat → (n : Nat) → Bytes n) (calls : Nat) :
    ∃ out, (libusbyGetConfigDescriptorByValue (fun _ => true) v D.deviceDesc rawdesc headers blocks
        ⟨calls, []⟩).serve answer = .ok (.ok out, D.deviceDesc) ∧
      Yields (D.trees.find? (·.bConfigurationValue = v)) .notFound out := by
  obtain ⟨out, found, delivered⟩ := D.findValue_reads reads v headers blocks calls (Nat.zero_add _)
  refine ⟨out, ?_, delivered⟩
  rw [libusbyGetConfigDescriptorByValue, libusbyGetDeviceDescriptor, if_pos D.bLength,
    Dialogue.serve_bind, Dialogue.serve_done, ok_bind]
  dsimp only
  rw [if_neg (by decide), Dialogue.serve_bind, ← D.length_trees, found]
  rfl

/-- The configuration that is returned is looked for by the low byte of its value. -/
theorem active_reads (reads : libusbyGetDescriptor.Reads answer e D.blocks) (rawdesc : Bytes 18)
    (headers : Nat → Bytes 6) (blocks : Nat → (n : Nat) → Bytes n) (calls : Nat)
    {usbyb : Dialogue Request Reply Configuration} {data : Bytes 1} {r : Int} {active : Int}
    (returned : (libusbyGetConfiguration usbyb data).serve answer = .ok ⟨r, some active⟩)
    (nonneg : 0 ≤ r) :
    ∃ out : Sanitized,
      (libusbyGetActiveConfigDescriptor (fun _ => true) usbyb data D.deviceDesc rawdesc headers blocks
        ⟨calls, []⟩).serve answer = .ok (.ok ⟨out.r.code, out.config, out.mem⟩, D.deviceDesc) ∧
      Yields (D.trees.find? (·.bConfigurationValue = .ofInt active)) .notFound out := by
  obtain ⟨out, found, delivered⟩ := D.byValue_reads reads (.ofInt active) rawdesc headers blocks calls
  refine ⟨out, ?_, delivered⟩
  rw [libusbyGetActiveConfigDescriptor, Dialogue.serve_bind, returned, ok_bind]
  dsimp only
  rw [if_neg (by omega), Dialogue.serve_bind, found]
  rfl

end

end Description

end Libusby.Core
