import Mathlib.Data.List.Nodup
import Libusby.Core.Config.Correct
import Libusby.Core.Config.Reads

/-!
# What the parser leaves allocated

Every exit leaves a tree that `libusby_free_config_descriptor` reads correctly: a call that
fails has freed all of it, and one that succeeds leaves the blocks of its result, which a later
call of the free routine gives back, each once.
-/

namespace Libusby.Core.Config

section
variable {k j : Nat} {i : Interface} {is : List Interface} {ds : List InterfaceDescriptor}
  {b : Block} {c : ConfigDescriptor}

theorem mem_endpointBlocks (h : b ∈ endpointBlocks k j ds) :
    ∃ n, j ≤ n ∧ b = .endpoints k n := by
  induction ds generalizing j with
  | nil => cases h
  | cons d ds ih =>
    rcases List.mem_append.1 h with first | others
    · split at first
      case isTrue => exact ⟨j, Nat.le_refl j, List.mem_singleton.1 first⟩
      case isFalse => cases first
    · obtain ⟨n, le, rfl⟩ := ih others
      exact ⟨n, by omega, rfl⟩

theorem endpointBlocks_nodup : (endpointBlocks k j ds).Nodup := by
  induction ds generalizing j with
  | nil => exact List.nodup_nil
  | cons d ds ih =>
    rw [endpointBlocks, List.nodup_append]
    refine ⟨?_, ih, ?_⟩
    · split <;> simp
    · intro x first y others same
      obtain ⟨n, le, rfl⟩ := mem_endpointBlocks others
      split at first
      case isTrue =>
        cases List.mem_singleton.1 first ▸ same
        omega
      case isFalse => cases first

/-- The interface that a block belongs to. -/
def Block.interface : Block → Option Nat
  | .config => none
  | .interfaces => none
  | .altsettings k => some k
  | .endpoints k _ => some k

theorem interface_of_mem_altBlocks (h : b ∈ altBlocks k i) : b.interface = some k := by
  unfold altBlocks at h
  split at h
  case isTrue => cases h
  case isFalse =>
    rcases List.mem_append.1 h with endpoint | array
    · obtain ⟨n, -, rfl⟩ := mem_endpointBlocks endpoint
      rfl
    · rw [List.mem_singleton.1 array]
      rfl

theorem altBlocks_nodup : (altBlocks k i).Nodup := by
  unfold altBlocks
  split
  case isTrue => exact List.nodup_nil
  case isFalse =>
    rw [List.nodup_append]
    refine ⟨endpointBlocks_nodup, List.nodup_singleton _, ?_⟩
    rintro x endpoint y array rfl
    obtain ⟨n, -, rfl⟩ := mem_endpointBlocks endpoint
    cases List.mem_singleton.1 array

theorem interface_of_mem_interfaceBlocks (h : b ∈ interfaceBlocks k is) :
    ∃ n, k ≤ n ∧ b.interface = some n := by
  induction is generalizing k with
  | nil => cases h
  | cons i is ih =>
    rcases List.mem_append.1 h with first | others
    · exact ⟨k, Nat.le_refl k, interface_of_mem_altBlocks first⟩
    · obtain ⟨n, le, hn⟩ := ih others
      exact ⟨n, by omega, hn⟩

theorem interfaceBlocks_nodup : (interfaceBlocks k is).Nodup := by
  induction is generalizing k with
  | nil => exact List.nodup_nil
  | cons i is ih =>
    rw [interfaceBlocks, List.nodup_append]
    refine ⟨altBlocks_nodup, ih, ?_⟩
    rintro x first y others rfl
    obtain ⟨n, le, hn⟩ := interface_of_mem_interfaceBlocks others
    cases (interface_of_mem_altBlocks first).symm.trans hn
    omega

/-- No two pointers of a tree own one block. -/
theorem treeBlocks_nodup (c : ConfigDescriptor) : (treeBlocks c).Nodup := by
  unfold treeBlocks
  cases c.interface with
  | none => exact List.nodup_singleton _
  | some is =>
    have outer (b : Block) (h : b ∈ interfaceBlocks 0 is) : b ≠ .interfaces ∧ b ≠ .config := by
      obtain ⟨n, -, hn⟩ := interface_of_mem_interfaceBlocks h
      constructor
      · rintro rfl
        cases hn
      · rintro rfl
        cases hn
    simp only [List.append_assoc, List.nodup_append]
    refine ⟨interfaceBlocks_nodup, by simp, ?_⟩
    intro x inner y last same
    subst same
    have := outer x inner
    simp at last
    exact last.elim this.1 this.2

end

/-- A parser that stores inside of its arrays returns, whatever allocation fails. If it fails,
`*config` is not written and all that it allocated is freed; if it succeeds, freeing its result
frees what is allocated, and no block twice. -/
theorem sanitize_releases (ok : Nat → Bool) (raw : List UInt8) (hlen : raw.length ≤ 65535)
    (inside : usbyiSanitizeConfigDescriptor ok raw (.ofNat raw.length) {} ≠ .error .store) :
    ∃ out, usbyiSanitizeConfigDescriptor ok raw (.ofNat raw.length) {} = .ok out ∧
      (out.r ≠ .success → out.config = none ∧ out.mem.blocks = []) ∧
      (out.r = .success → ∃ c, out.config = some c ∧ out.mem.blocks.Perm (treeBlocks c) ∧
        out.mem.blocks.Nodup ∧
        ∃ m, libusbyFreeConfigDescriptor out.mem c = .ok m ∧ m.blocks = []) := by
  rcases sanitize_total ok hlen with hstore | ⟨out, hout, released⟩
  · exact absurd hstore inside
  refine ⟨out, hout, ?_⟩
  rcases released with ⟨failed, config, empty⟩ | ⟨c, success, config, blocks⟩
  · exact ⟨fun _ => ⟨config, empty⟩, fun success => absurd success failed⟩
  · refine ⟨fun failed => absurd success failed, fun _ => ⟨c, config, blocks, ?_, ?_⟩⟩
    · exact blocks.nodup_iff.2 (treeBlocks_nodup c)
    · have all : out.mem.blocks.Perm (treeBlocks c ++ []) := by
        rw [List.append_nil]
        exact blocks
      obtain ⟨m, hfree, -, left⟩ := libusbyFreeConfigDescriptor_leaves all
      exact ⟨m, hfree, left.eq_nil⟩

/-- A configuration with one interface, of one alternate setting without endpoints. -/
def bare : List UInt8 := [9, 2, 18, 0, 1, 1, 0, 0x80, 50] ++ [9, 4, 0, 0, 0, 0xFF, 0, 0, 0]

/-- Without memory for the array of interfaces. -/
theorem sanitize_releases_bare :
    ∃ out, usbyiSanitizeConfigDescriptor (· ≠ 1) bare (.ofNat bare.length) {} = .ok out ∧
      (out.r ≠ .success → out.config = none ∧ out.mem.blocks = []) ∧
      (out.r = .success → ∃ c, out.config = some c ∧ out.mem.blocks.Perm (treeBlocks c) ∧
        out.mem.blocks.Nodup ∧
        ∃ m, libusbyFreeConfigDescriptor out.mem c = .ok m ∧ m.blocks = []) := by
  refine sanitize_releases (· ≠ 1) bare (by decide) ?_
  intro hstore
  cases hstore

end Libusby.Core.Config
