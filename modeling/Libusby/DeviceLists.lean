import Libusby.Foundations.Machine
import Libusby.Linux.Devices
import Libusby.Win32.Devices

/-!
# Filling and freeing a device list

`appendMachine` starts from the zeroed list and calls `usbyi_append_device_list` again and
again; `appended` remembers the devices of the calls that succeeded. What it builds is what
`libusby_free_device_list` reads on either backend.
-/

namespace Libusby

open Foundations Libusby.Core

/-- The list, the calls of `realloc` so far and the devices that were appended. -/
structure Appending where
  devices : DeviceList := {}
  calls : Nat := 0
  appended : List DeviceId := []

/-- A call that trips an assertion or stores outside of the array has no successor. -/
def appendMachine (ok : Nat → Bool) : Machine Appending DeviceId where
  init := {}
  step s d :=
    match usbyiAppendDeviceList ok s.calls s.devices d with
    | .error _ => none
    | .ok (.error _, calls) => some { s with calls }
    | .ok (.ok devices, calls) => some { devices, calls, appended := s.appended ++ [d] }

/-- The array has the appended devices in order, a null entry after the last and room for it. -/
structure Appending.Filled (s : Appending) : Prop where
  count : s.devices.count = s.appended.length
  empty : s.devices.count = 0 → s.devices = {}
  room : 0 < s.devices.count → s.devices.count + 1 ≤ s.devices.capacity
  array : 0 < s.devices.count → ∃ rest,
    s.devices.list = some (s.appended.map .entry ++ .null :: rest) ∧
      (s.appended.map Slot.entry ++ .null :: rest).length = s.devices.capacity
  linux : ∀ ctx, Linux.libusbyFreeDeviceList ctx s.devices.list true =
    s.appended.foldlM Linux.libusbyUnrefDevice ctx
  win32 : ∀ ctx, Win32.libusbyFreeDeviceList ctx s.devices.list true =
    s.appended.foldlM Win32.libusbyUnrefDevice ctx

/-- A call without memory leaves the list, any other adds its device. -/
def Appends (ok : Nat → Bool) (s : Appending) (d : DeviceId) (t : Appending) : Prop :=
  t.devices = s.devices ∧ t.appended = s.appended ∧ ok s.calls = false ∨
    t.appended = s.appended ++ [d]

section
variable {s t : Appending} {ds : List DeviceId} {d : DeviceId} {ok : Nat → Bool}

/-- `free` walks over an array with `slots`, which hands the entries before the null to `unref`. -/
structure FreesEntries {Ctx : Type} (unref : Ctx → DeviceId → Except Fault Ctx)
    (slots : Ctx → List Slot → Except Fault Ctx)
    (free : Ctx → DeviceArray → Bool → Except Fault Ctx) : Prop where
  null : ∀ ctx rest, slots ctx (.null :: rest) = .ok ctx
  entry : ∀ ctx d rest, slots ctx (.entry d :: rest) = unref ctx d >>= (slots · rest)
  empty : ∀ ctx, free ctx none true = .ok ctx
  array : ∀ ctx list, free ctx (some list) true = slots ctx list

theorem Linux.freesEntries :
    FreesEntries Linux.libusbyUnrefDevice Linux.unrefSlots Linux.libusbyFreeDeviceList :=
  ⟨fun _ _ => rfl, fun _ _ _ => rfl, fun _ => rfl, fun _ _ => rfl⟩

theorem Win32.freesEntries :
    FreesEntries Win32.libusbyUnrefDevice Win32.unrefSlots Win32.libusbyFreeDeviceList :=
  ⟨fun _ _ => rfl, fun _ _ _ => rfl, fun _ => rfl, fun _ _ => rfl⟩

namespace FreesEntries

variable {Ctx : Type} {unref : Ctx → DeviceId → Except Fault Ctx}
  {slots : Ctx → List Slot → Except Fault Ctx}
  {free : Ctx → DeviceArray → Bool → Except Fault Ctx}

theorem slots_entries (h : FreesEntries unref slots free) (ctx : Ctx) (ds : List DeviceId)
    (rest : List Slot) : slots ctx (ds.map .entry ++ .null :: rest) = ds.foldlM unref ctx := by
  induction ds generalizing ctx with
  | nil => exact h.null ctx rest
  | cons d ds ih =>
    rw [List.map_cons, List.cons_append, h.entry, List.foldlM_cons]
    exact bind_congr ih

theorem free_lists (h : FreesEntries unref slots free) {list : DeviceArray} (lists : list.Lists ds)
    (ctx : Ctx) : free ctx list true = ds.foldlM unref ctx := by
  cases list with
  | none =>
    rw [lists]
    exact h.empty ctx
  | some list =>
    obtain ⟨rest, rfl⟩ := lists
    rw [h.array, h.slots_entries]

end FreesEntries

/-- What the calls keep: without a device the list is still zeroed. -/
structure Appending.Invariant (s : Appending) : Prop where
  holds : s.devices.Holds s.appended
  zeroed : s.appended = [] → s.devices = {}

theorem Appending.Invariant.filled (h : s.Invariant) : s.Filled := by
  have nonempty (pos : 0 < s.devices.count) : ∃ slots, s.devices.list = some slots := by
    cases hlist : s.devices.list with
    | some slots => exact ⟨slots, rfl⟩
    | none =>
      have lists := h.holds.lists
      rw [hlist] at lists
      have count := h.holds.count
      rw [lists] at count
      exact absurd count (Nat.ne_of_gt pos)
  constructor
  case count => exact h.holds.count
  case empty =>
    intro zero
    exact h.zeroed (List.eq_nil_of_length_eq_zero (h.holds.count.symm.trans zero))
  case room =>
    intro pos
    obtain ⟨slots, hlist⟩ := nonempty pos
    exact h.holds.count_lt (by rw [hlist]; rfl)
  case array =>
    intro pos
    obtain ⟨slots, hlist⟩ := nonempty pos
    have lists := h.holds.lists
    rw [hlist] at lists
    obtain ⟨rest, rfl⟩ := lists
    exact ⟨rest, hlist, h.holds.size _ hlist⟩
  case linux => exact Linux.freesEntries.free_lists h.holds.lists
  case win32 => exact Win32.freesEntries.free_lists h.holds.lists

/-- A call from a list as the calls keep it has a successor of the same kind. -/
theorem appendMachine_step (h : s.Invariant) (ok : Nat → Bool) (d : DeviceId) :
    ∃ t, (appendMachine ok).step s d = some t ∧ t.Invariant ∧ Appends ok s d t := by
  obtain ⟨r, calls, happend, ⟨rfl, memory⟩ | ⟨devices, rfl, holds⟩⟩ :=
    usbyiAppendDeviceList_holds h.holds ok s.calls d
  · refine ⟨{ s with calls }, ?_, ⟨h.holds, h.zeroed⟩, .inl ⟨rfl, rfl, memory⟩⟩
    simp only [appendMachine, happend]
  · refine ⟨{ devices, calls, appended := s.appended ++ [d] }, ?_, ⟨holds, ?_⟩, .inr rfl⟩
    · simp only [appendMachine, happend]
    · intro empty
      exact absurd empty (List.append_ne_nil_of_right_ne_nil _ (List.cons_ne_nil d []))

theorem appendMachine_invariant (h : s.Invariant) (hstep : (appendMachine ok).step s d = some t) :
    t.Invariant ∧ Appends ok s d t := by
  obtain ⟨u, hu, invariant⟩ := appendMachine_step h ok d
  cases hu.symm.trans hstep
  exact invariant

theorem appendMachine_exec (h : s.Invariant) (ok : Nat → Bool) (ds : List DeviceId) :
    ∃ t, (appendMachine ok).exec s ds = some t := by
  induction ds generalizing s with
  | nil => exact ⟨s, rfl⟩
  | cons d ds ih =>
    obtain ⟨t, ht, invariant, -⟩ := appendMachine_step h ok d
    obtain ⟨u, hu⟩ := ih invariant
    exact ⟨u, Machine.exec_cons.2 ⟨t, ht, hu⟩⟩

/-- Whatever calls of `realloc` fail, no assertion does: the list is always filled with what was
appended, and freeing it gives back one reference for each entry. -/
theorem device_list_filled (ok : Nat → Bool) (ds : List DeviceId) :
    (∃ s, (appendMachine ok).exec (appendMachine ok).init ds = some s) ∧
      (appendMachine ok).Always Appending.Filled (appendMachine ok).init ds ∧
      (appendMachine ok).Steps (Appends ok) (appendMachine ok).init ds := by
  have start : (appendMachine ok).init.Invariant := ⟨DeviceList.holds_nil, fun _ => rfl⟩
  have free : (appendMachine ok).Steps (fun _ _ _ => True) (appendMachine ok).init ds :=
    .of_step fun _ _ _ _ => trivial
  have run := free.invariant (I := Appending.Invariant) (Q := Appends ok)
    (fun _ _ _ h _ hstep => appendMachine_invariant h hstep) start
  exact ⟨appendMachine_exec start ok ds, run.1.mono fun _ h => h.filled, run.2⟩

end

end Libusby
