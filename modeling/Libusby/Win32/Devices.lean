import Mathlib.Logic.Function.Basic
import Libusby.Core.DeviceList
import Libusby.Foundations.Ledger

/-!
# Devices of the libusb0 backend

The part of the context that keeps devices. A device is told by the number of its file, and owns
the file handle that the enumeration opened for it. Unlike usbfs, the structures in memory need no
books: whatever a client gives back, the context's list is the structures that are there.
-/

namespace Libusby.Win32

open Foundations Libusby.Core

abbrev FileId := Nat

/-- `struct usbyb_device`. -/
structure Device where
  refCount : Int
  deviceDesc : Bytes 18 := .replicate 18 0
  devno : Nat
  hFile : FileId

structure Context where
  heap : DeviceId → Option Device := fun _ => none
  devlist : List DeviceId := []
  devices : Ledger := {}
  /-- The handles that enumerations opened. -/
  files : Ledger := {}

namespace Context

def deref (ctx : Context) (d : DeviceId) : Except Fault Device :=
  match ctx.heap d with
  | none => .error .read
  | some dev => .ok dev

def store (ctx : Context) (d : DeviceId) (dev : Device) : Context :=
  { ctx with heap := Function.update ctx.heap d (some dev) }

/-- `free` of a device structure. -/
def free (ctx : Context) (d : DeviceId) : Except Fault Context :=
  match ctx.heap d with
  | none => .error .free
  | some _ => .ok
    { ctx with heap := Function.update ctx.heap d none, devices := ctx.devices.release d }

def closeHandle (ctx : Context) (hFile : FileId) : Context :=
  { ctx with files := ctx.files.release hFile }

end Context

/-- `usbyi_alloc_device`, the two stores and `usbyi_insert_before_devlist_node`. -/
def allocDevice (ctx : Context) (devno : Nat) (hFile : FileId) : Context :=
  let dev : Device := { refCount := 1, devno, hFile }
  { ctx.store ctx.devices.next dev with
    devices := ctx.devices.acquire
    devlist := ctx.devlist ++ [ctx.devices.next] }

def usbybFinalizeDevice (ctx : Context) (d : DeviceId) : Except Fault Context := do
  let dev ← ctx.deref d
  let ctx := { ctx with devlist := ctx.devlist.erase d }
  .ok (ctx.closeHandle dev.hFile)

def libusbyRefDevice (ctx : Context) (d : DeviceId) : Except Fault Context := do
  let dev ← ctx.deref d
  .ok (ctx.store d { dev with refCount := dev.refCount + 1 })

def libusbyUnrefDevice (ctx : Context) (d : DeviceId) : Except Fault Context := do
  let dev ← ctx.deref d
  let ctx := ctx.store d { dev with refCount := dev.refCount - 1 }
  if dev.refCount - 1 = 0 then do
    let ctx ← usbybFinalizeDevice ctx d
    ctx.free d
  else .ok ctx

/-- `for (; *cur; ++cur) libusby_unref_device(*cur)`. -/
def unrefSlots (ctx : Context) : List Slot → Except Fault Context
  | .null :: _ => .ok ctx
  | .entry d :: slots => do
    let ctx ← libusbyUnrefDevice ctx d
    unrefSlots ctx slots
  | _ => .error .read

def libusbyFreeDeviceList (ctx : Context) (list : DeviceArray) (unrefDevices : Bool) :
    Except Fault Context :=
  match list, unrefDevices with
  | some slots, true => unrefSlots ctx slots
  | _, _ => .ok ctx

/-- The list links the structures in memory, each once, and no two have one number. -/
structure Context.WellFormed (ctx : Context) : Prop where
  linked : ∀ d, d ∈ ctx.devlist ↔ ∃ dev, ctx.heap d = some dev
  nodup : ctx.devlist.Nodup
  lt : ∀ d ∈ ctx.devlist, d < ctx.devices.next
  distinct : ∀ d d' dev dev', ctx.heap d = some dev → ctx.heap d' = some dev' →
    dev.devno = dev'.devno → d = d'

section
variable {ctx ctx' : Context} {d : DeviceId} {dev dev' : Device}

theorem deref_eq (h : ctx.heap d = some dev) : ctx.deref d = .ok dev := by
  rw [Context.deref, h]

theorem deref_eq_ok (h : ctx.deref d = .ok dev) : ctx.heap d = some dev := by
  unfold Context.deref at h
  split at h
  case h_1 => cases h
  case h_2 hd =>
    cases h
    exact hd

theorem libusbyRefDevice_eq_ok (h : libusbyRefDevice ctx d = .ok ctx') :
    ∃ dev, ctx.heap d = some dev ∧ ctx' = ctx.store d { dev with refCount := dev.refCount + 1 } := by
  obtain ⟨dev, hderef, h⟩ := bind_eq_ok.1 h
  cases h
  exact ⟨dev, deref_eq_ok hderef, rfl⟩

/-- The last reference goes, and with it the structure and its handle. -/
def Context.remove (ctx : Context) (d : DeviceId) (dev : Device) : Context where
  heap := Function.update ctx.heap d none
  devlist := ctx.devlist.erase d
  devices := ctx.devices.release d
  files := ctx.files.release dev.hFile

theorem libusbyUnrefDevice_last (hd : ctx.heap d = some dev) (last : dev.refCount = 1) :
    libusbyUnrefDevice ctx d = .ok (ctx.remove d dev) := by
  have stored : (ctx.store d { dev with refCount := dev.refCount - 1 }).heap d =
      some { dev with refCount := dev.refCount - 1 } := Function.update_self ..
  rw [libusbyUnrefDevice, deref_eq hd, ok_bind, if_pos (by omega), usbybFinalizeDevice,
    deref_eq stored, ok_bind, ok_bind, Context.free]
  simp [Context.store, Context.closeHandle, Context.remove]

/-- A reference goes, or the structure. -/
theorem libusbyUnrefDevice_eq_ok (h : libusbyUnrefDevice ctx d = .ok ctx') :
    ∃ dev, ctx.heap d = some dev ∧ (dev.refCount = 1 ∧ ctx' = ctx.remove d dev ∨
      dev.refCount ≠ 1 ∧ ctx' = ctx.store d { dev with refCount := dev.refCount - 1 }) := by
  obtain ⟨dev, hderef, hrest⟩ := bind_eq_ok.1 h
  have hd := deref_eq_ok hderef
  refine ⟨dev, hd, ?_⟩
  by_cases last : dev.refCount = 1
  · rw [libusbyUnrefDevice_last hd last] at h
    cases h
    exact .inl ⟨last, rfl⟩
  · simp only at hrest
    rw [if_neg (by omega)] at hrest
    cases hrest
    exact .inr ⟨last, rfl⟩

/-- A property that every step of the loop keeps. -/
theorem unrefSlots_induction {P : Context → Prop} {slots : List Slot}
    (step : ∀ ctx d ctx', P ctx → libusbyUnrefDevice ctx d = .ok ctx' → P ctx')
    (h : unrefSlots ctx slots = .ok ctx') (start : P ctx) : P ctx' := by
  induction slots generalizing ctx with
  | nil => cases h
  | cons slot slots ih =>
    cases slot with
    | uninit => cases h
    | null =>
      cases h
      exact start
    | entry d =>
      obtain ⟨ctx₁, hunref, h⟩ := bind_eq_ok.1 h
      exact ih h (step ctx d ctx₁ start hunref)

theorem libusbyFreeDeviceList_induction {P : Context → Prop} {list : DeviceArray}
    {unrefDevices : Bool}
    (step : ∀ ctx d ctx', P ctx → libusbyUnrefDevice ctx d = .ok ctx' → P ctx')
    (h : libusbyFreeDeviceList ctx list unrefDevices = .ok ctx') (start : P ctx) : P ctx' := by
  unfold libusbyFreeDeviceList at h
  split at h
  case h_1 => exact unrefSlots_induction step h start
  case h_2 =>
    cases h
    exact start

theorem Context.WellFormed.store (h : ctx.WellFormed) (hd : ctx.heap d = some dev)
    (same : dev'.devno = dev.devno) : (ctx.store d dev').WellFormed := by
  have devno (x : DeviceId) (y : Device) (hx : (ctx.store d dev').heap x = some y) :
      ∃ z, ctx.heap x = some z ∧ y.devno = z.devno := by
    by_cases hxd : x = d
    · subst hxd
      cases (Function.update_self ..).symm.trans hx
      exact ⟨dev, hd, same⟩
    · exact ⟨y, (Function.update_of_ne hxd ..).symm.trans hx, rfl⟩
  refine ⟨fun x => (h.linked x).trans ?_, h.nodup, h.lt, ?_⟩
  · by_cases hxd : x = d
    · subst hxd
      exact iff_of_true ⟨dev, hd⟩ ⟨dev', Function.update_self ..⟩
    · have other : (ctx.store d dev').heap x = ctx.heap x := Function.update_of_ne hxd ..
      rw [other]
  · intro x x' y y' hx hx' hy
    obtain ⟨z, hz, zn⟩ := devno x y hx
    obtain ⟨z', hz', zn'⟩ := devno x' y' hx'
    exact h.distinct x x' z z' hz hz' (by rw [← zn, ← zn', hy])

theorem Context.WellFormed.remove (h : ctx.WellFormed) : (ctx.remove d dev).WellFormed := by
  have survivor (x : DeviceId) (y : Device) (hx : (ctx.remove d dev).heap x = some y) :
      x ≠ d ∧ ctx.heap x = some y := by
    by_cases hxd : x = d
    · subst hxd
      cases (Function.update_self ..).symm.trans hx
    · exact ⟨hxd, (Function.update_of_ne hxd ..).symm.trans hx⟩
  refine ⟨fun x => ?_, h.nodup.erase d, fun x hx => h.lt x (List.mem_of_mem_erase hx), ?_⟩
  · rw [Context.remove, h.nodup.mem_erase_iff, h.linked x]
    by_cases hxd : x = d
    · simp [hxd]
    · simp [hxd]
  · intro x x' y y' hx hx'
    exact h.distinct x x' y y' (survivor x y hx).2 (survivor x' y' hx').2

theorem libusbyUnrefDevice_wellFormed (h : ctx.WellFormed)
    (hu : libusbyUnrefDevice ctx d = .ok ctx') : ctx'.WellFormed := by
  rcases libusbyUnrefDevice_eq_ok hu with ⟨dev, hd, ⟨-, rfl⟩ | ⟨-, rfl⟩⟩
  · exact h.remove
  · exact h.store hd rfl

/-- The files are no part of it. -/
theorem Context.WellFormed.congr (h : ctx.WellFormed) (heap : ctx'.heap = ctx.heap)
    (devlist : ctx'.devlist = ctx.devlist) (devices : ctx'.devices.next = ctx.devices.next) :
    ctx'.WellFormed := by
  constructor
  · rw [heap, devlist]
    exact h.linked
  · rw [devlist]
    exact h.nodup
  · rw [devlist, devices]
    exact h.lt
  · rw [heap]
    exact h.distinct

theorem Context.WellFormed.unused (h : ctx.WellFormed) : ctx.heap ctx.devices.next = none := by
  apply Option.eq_none_iff_forall_ne_some.2
  intro dev hdev
  exact absurd (h.lt _ ((h.linked _).2 ⟨dev, hdev⟩)) (Nat.lt_irrefl _)

/-- A structure is added whose number no other has. -/
theorem Context.WellFormed.insert (h : ctx.WellFormed)
    (new : ∀ x y, ctx.heap x = some y → y.devno ≠ dev.devno)
    (heap : ctx'.heap = Function.update ctx.heap ctx.devices.next (some dev))
    (devlist : ctx'.devlist = ctx.devlist ++ [ctx.devices.next])
    (devices : ctx'.devices.next = ctx.devices.next + 1) : ctx'.WellFormed := by
  have unlinked : ctx.devices.next ∉ ctx.devlist := fun hmem =>
    absurd (h.lt _ hmem) (Nat.lt_irrefl _)
  constructor
  · intro x
    rw [devlist, heap, List.mem_append, List.mem_singleton, h.linked x]
    by_cases hx : x = ctx.devices.next
    · simp [hx]
    · simp [hx]
  · rw [devlist]
    exact h.nodup.append (List.nodup_singleton _) (by simpa using unlinked)
  · intro x hx
    rw [devlist, List.mem_append, List.mem_singleton] at hx
    rw [devices]
    rcases hx with hx | rfl
    · exact Nat.lt_succ_of_lt (h.lt x hx)
    · exact Nat.lt_succ_self _
  · intro x x' y y' hx hx' hy
    rw [heap, Function.update_apply] at hx hx'
    split_ifs at hx with hxd <;> split_ifs at hx' with hxd'
    · rw [hxd, hxd']
    · cases hx
      exact absurd hy.symm (new x' y' hx')
    · cases hx'
      exact absurd hy (new x y hx)
    · exact h.distinct x x' y y' hx hx' hy

end

end Libusby.Win32
