import Mathlib.Data.List.Basic
import Libusby.Foundations.Buffer
import Libusby.Types

/-!
# The growable device list

`usbyi_device_list` and `usbyi_append_device_list`. The array is followed slot by
slot, since a caller only sees its pointer and finds the end by the null entry.
`ok n` says whether the `n`-th `realloc` of the caller succeeds.
-/

namespace Libusby.Core

open Foundations

abbrev DeviceId := Nat

/-- An element of an array of device pointers. -/
inductive Slot where
  | uninit
  | null
  | entry (d : DeviceId)
  deriving DecidableEq, Repr

/-- A `libusby_device **`, which may be null. -/
abbrev DeviceArray := Option (List Slot)

structure DeviceList where
  count : Nat := 0
  capacity : Nat := 0
  list : DeviceArray := none
  deriving DecidableEq, Repr

/-- `realloc` to `capacity` elements; the new ones have no value yet. -/
def reallocSlots (list : DeviceArray) (capacity : Nat) : List Slot :=
  (list.getD []).take capacity ++ List.replicate (capacity - (list.getD []).length) .uninit

def storeSlot (list : DeviceArray) (k : Nat) (s : Slot) : Except Fault DeviceArray :=
  match list with
  | none => .error .store
  | some slots => if k < slots.length then .ok (some (slots.set k s)) else .error .store

/-- The list with room for one more entry, if it can be had, and the number of
calls of `realloc` so far. -/
def DeviceList.reserve (ok : Nat → Bool) (calls : Nat) (devices : DeviceList) :
    Option DeviceList × Nat :=
  if devices.count = 0 ∨ devices.count + 1 = devices.capacity then
    let capacity := (devices.count + 1) * 2
    if ok calls then
      (some { devices with capacity, list := some (reallocSlots devices.list capacity) }, calls + 1)
    else (none, calls + 1)
  else (some devices, calls)

def usbyiAppendDeviceList (ok : Nat → Bool) (calls : Nat) (devices : DeviceList) (d : DeviceId) :
    Except Fault (Except Error DeviceList × Nat) :=
  if ¬ devices.count ≤ devices.capacity then .error .assertion
  else if ¬ (devices.list.isSome ∨ devices.capacity = 0) then .error .assertion
  else match devices.reserve ok calls with
    | (none, calls) => .ok (.error .noMem, calls)
    | (some devices, calls) =>
      if ¬ devices.count + 1 < devices.capacity then .error .assertion
      else do
        let list ← storeSlot devices.list devices.count (.entry d)
        let list ← storeSlot list (devices.count + 1) .null
        .ok (.ok { devices with list, count := devices.count + 1 }, calls)

/-- The array holds the devices `ds` up to a null entry; a null pointer holds none. -/
def DeviceArray.Lists (list : DeviceArray) (ds : List DeviceId) : Prop :=
  match list with
  | none => ds = []
  | some slots => ∃ rest, slots = ds.map .entry ++ .null :: rest

/-- The list holds exactly the devices `ds`. -/
structure DeviceList.Holds (devices : DeviceList) (ds : List DeviceId) : Prop where
  count : devices.count = ds.length
  null : devices.list = none → devices.capacity = 0
  size : ∀ slots ∈ devices.list, slots.length = devices.capacity
  lists : devices.list.Lists ds

/-- The devices up to the null entry. -/
def slotEntries : List Slot → List DeviceId
  | .entry d :: slots => d :: slotEntries slots
  | _ => []

def DeviceArray.entries (list : DeviceArray) : List DeviceId := slotEntries (list.getD [])

/-- `device_list[0]` to `device_list[cnt - 1]`. -/
def readEntries (list : DeviceArray) (cnt : Nat) : Except Fault (List DeviceId) :=
  let ds := (list.entries).take cnt
  if ds.length = cnt then .ok ds else .error .read

/-! The ids in a device descriptor. -/

def idVendor (desc : List UInt8) : UInt16 := le16 (desc.getD 8 0) (desc.getD 9 0)

def idProduct (desc : List UInt8) : UInt16 := le16 (desc.getD 10 0) (desc.getD 11 0)

section
variable {devices : DeviceList} {ds : List DeviceId} {d : DeviceId} {list : DeviceArray}
  {ok : Nat → Bool} {calls : Nat}

theorem slotEntries_map {rest : List Slot} : slotEntries (ds.map .entry ++ .null :: rest) = ds := by
  induction ds with
  | nil => rfl
  | cons d ds ih => simpa [slotEntries] using ih

theorem DeviceArray.Lists.entries (h : list.Lists ds) : list.entries = ds := by
  cases list with
  | none => exact h.symm
  | some slots =>
    obtain ⟨rest, rfl⟩ := h
    exact slotEntries_map

theorem DeviceList.holds_nil : DeviceList.Holds {} [] :=
  ⟨rfl, fun _ => rfl, by simp, rfl⟩

theorem DeviceList.Holds.unique {ds' : List DeviceId} (h : devices.Holds ds)
    (h' : devices.Holds ds') : ds = ds' := h.lists.entries.symm.trans h'.lists.entries

theorem DeviceList.Holds.count_lt (h : devices.Holds ds) (hd : devices.list.isSome) :
    devices.count + 1 ≤ devices.capacity := by
  obtain ⟨slots, hs⟩ := Option.isSome_iff_exists.1 hd
  have lists := h.lists
  rw [hs] at lists
  obtain ⟨rest, hrest⟩ := lists
  rw [h.count, ← h.size slots hs, hrest]
  simp

theorem take_reallocSlots {capacity : Nat} (h : list.Lists ds) (hcap : ds.length ≤ capacity) :
    (reallocSlots list capacity).take ds.length = ds.map .entry := by
  cases list with
  | none =>
    cases h
    rfl
  | some slots =>
    obtain ⟨rest, rfl⟩ := h
    rw [reallocSlots, Option.getD_some, List.take_append_of_le_length (by simp; omega), List.take_take,
      Nat.min_eq_left hcap, List.take_left' (by simp)]

theorem length_reallocSlots {capacity : Nat} : (reallocSlots list capacity).length = capacity := by
  simp [reallocSlots]
  omega

/-- With room for one more entry the devices are still there. -/
theorem DeviceList.Holds.reserve (h : devices.Holds ds) (ok : Nat → Bool) (calls : Nat) :
    (devices.reserve ok calls).1 = none ∨ ∃ devices' slots,
      (devices.reserve ok calls).1 = some devices' ∧ devices'.count = ds.length ∧
        devices'.list = some slots ∧ slots.length = devices'.capacity ∧
        ds.length + 1 < devices'.capacity ∧ slots.take ds.length = ds.map .entry := by
  have hcount := h.count
  unfold DeviceList.reserve
  by_cases grow : devices.count = 0 ∨ devices.count + 1 = devices.capacity
  · rw [if_pos grow]
    cases ok calls with
    | false => exact Or.inl rfl
    | true =>
      refine Or.inr ⟨_, _, rfl, hcount, rfl, length_reallocSlots, ?_, ?_⟩
      · simp only
        omega
      · exact take_reallocSlots h.lists (by omega)
  · rw [if_neg grow]
    obtain ⟨nonempty, room⟩ := not_or.1 grow
    have lists := h.lists
    cases hlist : devices.list with
    | none =>
      rw [hlist] at lists
      cases lists
      exact absurd hcount nonempty
    | some slots =>
      rw [hlist] at lists
      obtain ⟨rest, rfl⟩ := lists
      have hlt := h.count_lt (by simp [hlist])
      refine Or.inr ⟨devices, _, rfl, hcount, hlist, h.size _ hlist, by omega, ?_⟩
      rw [List.take_left' (by simp)]

theorem set_set {slots : List Slot} (front : List Slot) (x y : Slot)
    (hfront : slots.take front.length = front)
    (h : front.length + 1 < slots.length) :
    ∃ rest, (slots.set front.length x).set (front.length + 1) y = front ++ x :: y :: rest := by
  have hlen : 2 ≤ (slots.drop front.length).length := by
    rw [List.length_drop]
    omega
  obtain ⟨a, b, rest, hdrop⟩ : ∃ a b rest, slots.drop front.length = a :: b :: rest := by
    match hd : slots.drop front.length with
    | [] => simp [hd] at hlen
    | [_] => simp [hd] at hlen
    | a :: b :: rest => exact ⟨a, b, rest, rfl⟩
  refine ⟨rest, ?_⟩
  rw [← List.take_append_drop front.length slots, hfront, hdrop]
  simp

/-- The first two assertions of `usbyi_append_device_list`. -/
theorem DeviceList.Holds.asserted (h : devices.Holds ds) :
    devices.count ≤ devices.capacity ∧ (devices.list.isSome ∨ devices.capacity = 0) := by
  cases hlist : devices.list with
  | none =>
    have lists := h.lists
    rw [hlist] at lists
    cases lists
    exact ⟨by simp [h.count], .inr (h.null hlist)⟩
  | some slots =>
    have := h.count_lt (by simp [hlist])
    exact ⟨by omega, .inl rfl⟩

/-- Without room nothing is appended. -/
theorem usbyiAppendDeviceList_full (h : devices.Holds ds)
    (full : (devices.reserve ok calls).1 = none) (d : DeviceId) :
    ∃ calls', usbyiAppendDeviceList ok calls devices d = .ok (.error .noMem, calls') := by
  obtain ⟨bounded, allocated⟩ := h.asserted
  rw [usbyiAppendDeviceList, if_neg (not_not.2 bounded), if_neg (not_not.2 allocated)]
  generalize devices.reserve ok calls = reserved at full
  obtain ⟨r, calls'⟩ := reserved
  cases full
  exact ⟨calls', rfl⟩

theorem reserve_eq_none (h : (devices.reserve ok calls).1 = none) : ok calls = false := by
  unfold DeviceList.reserve at h
  split_ifs at h with grow memory
  simpa using memory

/-- With room nothing depends on the memory that there is not. -/
theorem usbyiAppendDeviceList_free (h : (devices.reserve ok calls).1 ≠ none) :
    usbyiAppendDeviceList (fun _ => true) calls devices d = usbyiAppendDeviceList ok calls devices d := by
  have same : devices.reserve (fun _ => true) calls = devices.reserve ok calls := by
    unfold DeviceList.reserve at h ⊢
    split_ifs at h ⊢ <;> simp_all
  rw [usbyiAppendDeviceList, usbyiAppendDeviceList, same]

/-- Appending fails without any effect, or adds the device at the end. -/
theorem usbyiAppendDeviceList_holds (h : devices.Holds ds) (ok : Nat → Bool) (calls : Nat)
    (d : DeviceId) :
    ∃ r calls', usbyiAppendDeviceList ok calls devices d = .ok (r, calls') ∧
      (r = .error .noMem ∧ ok calls = false ∨
        ∃ devices', r = .ok devices' ∧ devices'.Holds (ds ++ [d])) := by
  obtain ⟨bounded, allocated⟩ := h.asserted
  rw [usbyiAppendDeviceList, if_neg (not_not.2 bounded), if_neg (not_not.2 allocated)]
  generalize hr : devices.reserve ok calls = reserved
  obtain ⟨r, calls'⟩ := reserved
  rcases h.reserve ok calls with hfail | ⟨devices', slots, hsome, hcount, hlist, hsize, room, htake⟩
  · have failed := reserve_eq_none hfail
    rw [hr] at hfail
    cases hfail
    exact ⟨_, _, rfl, Or.inl ⟨rfl, failed⟩⟩
  · rw [hr] at hsome
    cases hsome
    obtain ⟨rest, hset⟩ := set_set (ds.map .entry) (.entry d) .null
      (by rw [List.length_map, htake]) (show _ < slots.length by rw [List.length_map]; omega)
    rw [List.length_map] at hset
    simp only [hcount, if_neg (not_not.2 room), hlist, storeSlot, hsize,
      if_pos (show ds.length < devices'.capacity by omega), ok_bind, List.length_set, if_pos room]
    refine ⟨_, _, rfl, Or.inr ⟨_, rfl, ?_, ?_, ?_, ?_⟩⟩
    · simp
    · intro hnone
      cases hnone
    · rintro slots' hslots
      cases hslots
      simp [hsize]
    · exact ⟨rest, by simp [hset]⟩

/-! ## The search loops -/

/-- A loop that stops at the first device with `p` finds that device. -/
theorem loop_find {p : DeviceId → Bool} {loop : List DeviceId → Except Fault (Option DeviceId)}
    {ds : List DeviceId} (stop : loop [] = .ok none)
    (next : ∀ d ∈ ds, ∀ rest, loop (d :: rest) = if p d then .ok (some d) else loop rest) :
    loop ds = .ok (ds.find? p) := by
  induction ds with
  | nil => exact stop
  | cons d ds ih =>
    obtain ⟨first, others⟩ := List.forall_mem_cons.1 next
    rw [first, ih others, List.find?_cons]
    cases p d <;> rfl

end

end Libusby.Core
