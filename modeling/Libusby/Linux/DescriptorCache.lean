import Libusby.Core.DescriptorReads
import Libusby.Linux.Enumeration

/-!
# The descriptor cache

`desc_cache` is a concatenation of blocks, each with its length in its own bytes 2 and 3,
and nothing else tells where it ends. `usbyb_get_descriptor_cached` walks it with
`bNumConfigurations` of the device descriptor as its only bound.
-/

namespace Libusby.Linux

open Foundations Libusby.Core

/-- The length that a block states in its bytes 2 and 3. -/
def statedLength (b : List UInt8) : Nat := (le16 (b.getD 2 0) (b.getD 3 0)).toNat

/-- A configuration block as the enumeration reads it. -/
structure IsBlock (b : List UInt8) : Prop where
  four_le : 4 ≤ b.length
  stated : statedLength b = b.length

/-- The cache consists of the blocks `bs`. -/
structure Caches (cache : List UInt8) (bs : List (List UInt8)) : Prop where
  cache : cache = bs.flatten
  block : ∀ b ∈ bs, IsBlock b

/-- The loop, from the iteration `i` on, with `n` iterations to go. -/
def walkCache (descIndex length : Nat) :
    Nat → Nat → List UInt8 → Except Fault (Except Error (List UInt8))
  | 0, _, _ => .ok (.error .invalidParam)
  | n + 1, i, cachePtr => do
    let b2 ← readByte cachePtr 2
    let b3 ← readByte cachePtr 3
    let wTotalLength := (le16 b2 b3).toNat
    if i = descIndex then do
      let length := if length > wTotalLength then wTotalLength else length
      let data ← readBytes cachePtr length
      .ok (.ok data)
    else walkCache descIndex length n (i + 1) (cachePtr.drop wTotalLength)

/-- The error, or the bytes that are copied to `data`; their number is returned. -/
def usbybGetDescriptorCached (dev : Device) (descType descIndex : UInt8) (length : Nat) :
    Except Fault (Except Error (List UInt8)) :=
  if descType ≠ 2 then .ok (.error .notSupported)
  else walkCache descIndex.toNat length (numConfigurations dev.deviceDesc) 0 dev.descCache

/-- `activeConfigValue` is the field of the handle; nothing is asked. -/
def usbybGetConfiguration (activeConfigValue : Int) : Dialogue Request Reply Configuration :=
  if activeConfigValue < 0 then .done ⟨Error.notSupported.code, none⟩
  else .done ⟨Error.success.code, some activeConfigValue⟩

section
variable {b rest cache : List UInt8} {bs cs : List (List UInt8)} {n i j length : Nat}

theorem getD_append (h : i < b.length) : (b ++ rest).getD i 0 = b.getD i 0 := by
  rw [List.getD_eq_getElem?_getD, List.getElem?_append_left h, List.getD_eq_getElem?_getD]

theorem IsBlock.statedLength_append (h : IsBlock b) : statedLength (b ++ rest) = b.length := by
  have := h.four_le
  rw [← h.stated, statedLength, statedLength, getD_append (by omega), getD_append (by omega)]

theorem flatten_ne_nil (h : IsBlock b) : (b :: bs).flatten ≠ [] := by
  intro empty
  have := h.four_le
  rw [List.flatten_cons] at empty
  rw [(List.append_eq_nil_iff.1 empty).1] at this
  cases this

/-- A cache consists of blocks in one way only. -/
theorem flatten_injective (hb : ∀ b ∈ bs, IsBlock b) (hc : ∀ c ∈ cs, IsBlock c)
    (h : bs.flatten = cs.flatten) : bs = cs := by
  induction bs generalizing cs with
  | nil =>
    cases cs with
    | nil => rfl
    | cons c cs => exact absurd h.symm (flatten_ne_nil (hc c (List.mem_cons_self ..)))
  | cons b bs ih =>
    obtain ⟨block, blocks⟩ := List.forall_mem_cons.1 hb
    cases cs with
    | nil => exact absurd h (flatten_ne_nil block)
    | cons c cs =>
      obtain ⟨block', blocks'⟩ := List.forall_mem_cons.1 hc
      rw [List.flatten_cons, List.flatten_cons] at h
      have same : b.length = c.length := by
        rw [← block'.statedLength_append, ← h, block.statedLength_append]
      obtain ⟨rfl, hrest⟩ := List.append_inj h same
      rw [ih blocks blocks' hrest]

theorem Caches.unique (hb : Caches cache bs) (hc : Caches cache cs) : bs = cs :=
  flatten_injective hb.block hc.block (hb.cache.symm.trans hc.cache)

/-- The walk over `n` of the blocks ends at the block it looks for, or behind them. -/
theorem walkCache_eq (block : ∀ b ∈ bs, IsBlock b) (hn : n ≤ bs.length) :
    walkCache (i + j) length n i (bs.flatten ++ rest) = .ok
      ((bs.take n)[j]?.elim (.error .invalidParam) fun b => .ok (b.take length)) := by
  induction n generalizing bs i j with
  | zero => simp [walkCache]
  | succ n ih =>
    cases bs with
    | nil => cases hn
    | cons b bs =>
      obtain ⟨first, others⟩ := List.forall_mem_cons.1 block
      have four := first.four_le
      have stated : (le16 (b.getD 2 0) (b.getD 3 0)).toNat = b.length := first.stated
      rw [walkCache, List.flatten_cons, List.append_assoc, readByte_append_getD (by omega),
        readByte_append_getD (by omega), ok_bind, ok_bind]
      simp only [stated]
      cases j with
      | zero =>
        have clamped : (if length > b.length then b.length else length) = min length b.length := by
          split <;> omega
        rw [if_pos (Nat.add_zero i).symm, clamped, readBytes_append (Nat.min_le_right ..),
          readBytes_of_le (Nat.min_le_right ..), ok_bind]
        simp [← List.take_take]
      | succ j =>
        rw [if_neg (by omega), List.drop_left, show i + (j + 1) = i + 1 + j by omega,
          ih others (Nat.le_of_succ_le_succ hn)]
        simp

/-- With as many blocks as configurations no step of the walk leaves the cache. -/
theorem usbybGetDescriptorCached_eq {dev : Device} (h : Caches dev.descCache bs)
    (hn : numConfigurations dev.deviceDesc ≤ bs.length) (descIndex : UInt8) (length : Nat) :
    usbybGetDescriptorCached dev 2 descIndex length = .ok
      ((bs.take (numConfigurations dev.deviceDesc))[descIndex.toNat]?.elim (.error .invalidParam)
        fun b => .ok (b.take length)) := by
  have walk := @walkCache_eq [] bs (numConfigurations dev.deviceDesc) 0 descIndex.toNat length
    h.block hn
  rw [Nat.zero_add, List.append_nil, ← h.cache] at walk
  exact walk

end

/-! ## What the enumeration stores -/

/-- The blocks that the calls of `read` from the `k`-th on deliver. -/
def deliveredBlocks (read : Nat → Nat → List UInt8) : Nat → Nat → List (List UInt8)
  | 0, _ => []
  | n + 1, k =>
    (read k 4 ++ read (k + 1) (statedLength (read k 4) - 4)) :: deliveredBlocks read n (k + 2)

section
variable {ok : Nat → Bool} {read : Nat → Nat → List UInt8} {n k calls calls' : Nat}
  {cache cache' desc : List UInt8}

theorem length_deliveredBlocks : (deliveredBlocks read n k).length = n := by
  induction n generalizing k with
  | zero => rfl
  | succ n ih => rw [deliveredBlocks, List.length_cons, ih]

theorem readExact_eq_some {bytes : List UInt8} (h : readExact read k n = some bytes) :
    bytes = read k n ∧ (read k n).length = n := by
  unfold readExact at h
  split at h
  case isTrue hlen =>
    cases h
    exact ⟨rfl, hlen⟩
  case isFalse => cases h

/-- What was read is what was delivered, block by block. -/
theorem readConfigurations_eq (h : readConfigurations ok read n k cache calls = (.ok cache', calls')) :
    cache' = cache ++ (deliveredBlocks read n k).flatten ∧
      ∀ b ∈ deliveredBlocks read n k, IsBlock b := by
  induction n generalizing k cache calls with
  | zero =>
    cases h
    simp [deliveredBlocks]
  | succ n ih =>
    rw [readConfigurations] at h
    split at h
    case h_1 => cases h
    case h_2 header hheader =>
      obtain ⟨rfl, four⟩ := readExact_eq_some hheader
      simp only at h
      split at h
      case isTrue => cases h
      case isFalse long =>
        split at h
        case isTrue => cases h
        case isFalse =>
          split at h
          case h_1 => cases h
          case h_2 body hbody =>
            obtain ⟨rfl, size⟩ := readExact_eq_some hbody
            obtain ⟨rfl, blocks⟩ := ih h
            have stated : statedLength (read k 4) =
                (le16 ((read k 4).getD 2 0) ((read k 4).getD 3 0)).toNat := rfl
            rw [← stated] at long size ⊢
            refine ⟨by simp [deliveredBlocks], List.forall_mem_cons.2 ⟨⟨?_, ?_⟩, blocks⟩⟩
            · simp [four]
            · rw [List.length_append, four, size, statedLength, getD_append (by omega),
                getD_append (by omega), ← stated]
              omega

/-- The descriptors of a device file that the enumeration accepts. -/
theorem readDescriptors_eq (h : readDescriptors ok read calls = (.ok (desc, cache), calls')) :
    desc = read 0 18 ∧ desc.length = 18 ∧
      Caches cache (deliveredBlocks read (numConfigurations desc) 1) := by
  rw [readDescriptors] at h
  split at h
  case h_1 => cases h
  case h_2 bytes hbytes =>
    obtain ⟨rfl, size⟩ := readExact_eq_some hbytes
    split at h
    case h_1 => cases h
    case h_2 cache' calls'' hconf =>
      cases h
      obtain ⟨hcache, blocks⟩ := readConfigurations_eq hconf
      exact ⟨rfl, size, by simpa using hcache, blocks⟩

end

end Libusby.Linux
