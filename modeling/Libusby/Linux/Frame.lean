import Libusby.Linux.Devices

/-!
# What the operations on references change

A reference more or less changes one count, and the last one takes the structure away. A property
of contexts that both keep is kept by every operation on lists and handles.
-/

namespace Libusby.Linux

open Foundations Libusby.Core

section
variable {ctx ctx' : Context} {d : DeviceId} {dev : Device}

theorem deref_eq (h : ctx.heap d = some dev) : ctx.deref d = .ok dev := by
  rw [Context.deref, h]

theorem deref_eq_ok (h : ctx.deref d = .ok dev) : ctx.heap d = some dev := by
  unfold Context.deref at h
  split at h
  case h_1 => cases h
  case h_2 hd =>
    cases h
    exact hd

theorem heap_store_self : (ctx.store d dev).heap d = some dev := Function.update_self ..

theorem heap_store_ne {x : DeviceId} (h : x ≠ d) : (ctx.store d dev).heap x = ctx.heap x :=
  Function.update_of_ne h ..

theorem libusbyRefDevice_eq_ok (h : libusbyRefDevice ctx d = .ok ctx') :
    ∃ dev, ctx.heap d = some dev ∧ ctx' = ctx.store d { dev with refCount := dev.refCount + 1 } := by
  obtain ⟨dev, hderef, h⟩ := bind_eq_ok.1 h
  cases h
  exact ⟨dev, deref_eq_ok hderef, rfl⟩

/-- The last reference goes, and with it the structure and its descriptor. -/
def Context.remove (ctx : Context) (d : DeviceId) (dev : Device) : Context :=
  { ctx with
    heap := Function.update ctx.heap d none
    devlist := ctx.devlist.erase d
    devices := ctx.devices.release d
    finalized := d :: ctx.finalized
    fds := ctx.fds.release dev.fd }

theorem libusbyUnrefDevice_last (hd : ctx.heap d = some dev) (last : dev.refCount = 1) :
    libusbyUnrefDevice ctx d = .ok (ctx.remove d dev) := by
  rw [libusbyUnrefDevice, deref_eq hd, ok_bind, if_pos (by omega), usbybFinalizeDevice,
    deref_eq heap_store_self, ok_bind, ok_bind, Context.free]
  simp [Context.store, Context.closeFd, Context.remove]

/-- A reference goes, or the structure. -/
theorem libusbyUnrefDevice_eq_ok (h : libusbyUnrefDevice ctx d = .ok ctx') :
    ∃ dev, ctx.heap d = some dev ∧ (dev.refCount = 1 ∧ ctx' = ctx.remove d dev ∨
      dev.refCount ≠ 1 ∧ ctx' = ctx.store d { dev with refCount := dev.refCount - 1 }) := by
  obtain ⟨dev, hderef, hrest⟩ := bind_eq_ok.1 h
  have hd := deref_eq_ok hderef
  refine ⟨dev, hd, ?_⟩
  by_cases last : dev.refCount = 1
  · rw [libusbyUnrefDevice_last hd last] at h
    cases h
    exact .inl ⟨last, rfl⟩
  · simp only at hrest
    rw [if_neg (by omega)] at hrest
    cases hrest
    exact .inr ⟨last, rfl⟩

/-- A property of the devices that references more or less keep. -/
structure Context.Framed (P : Context → Prop) : Prop where
  /-- The descriptors are no part of it. -/
  congr : ∀ ctx ctx', P ctx → ctx'.heap = ctx.heap → ctx'.devlist = ctx.devlist →
    ctx'.devices = ctx.devices → P ctx'
  ref : ∀ ctx d ctx', P ctx → libusbyRefDevice ctx d = .ok ctx' → P ctx'
  unref : ∀ ctx d ctx', P ctx → libusbyUnrefDevice ctx d = .ok ctx' → P ctx'

variable {P : Context → Prop}

theorem Context.Framed.unrefSlots {slots : List Slot} (framed : Context.Framed P) (start : P ctx)
    (h : unrefSlots ctx slots = .ok ctx') : P ctx' := by
  induction slots generalizing ctx with
  | nil => cases h
  | cons slot slots ih =>
    cases slot with
    | uninit => cases h
    | null =>
      cases h
      exact start
    | entry d =>
      obtain ⟨ctx₁, hunref, h⟩ := bind_eq_ok.1 h
      exact ih (framed.unref ctx d ctx₁ start hunref) h

theorem Context.Framed.freeDeviceList {list : DeviceArray} {unrefDevices : Bool}
    (framed : Context.Framed P) (start : P ctx)
    (h : libusbyFreeDeviceList ctx list unrefDevices = .ok ctx') : P ctx' := by
  unfold libusbyFreeDeviceList at h
  split at h
  case h_1 => exact framed.unrefSlots start h
  case h_2 =>
    cases h
    exact start

theorem Context.Framed.openDevice {outcome : OpenOutcome} {r : Except Error DeviceHandle}
    (framed : Context.Framed P) (start : P ctx) (h : libusbyOpen ctx outcome d = .ok (r, ctx')) :
    P ctx' := by
  unfold libusbyOpen usbybOpen at h
  split at h
  case isTrue =>
    cases h
    exact start
  case isFalse =>
    simp only [bind_eq_ok] at h
    obtain ⟨⟨r₁, ctx₁⟩, ⟨dev, -, hopen⟩, h⟩ := h
    split at hopen <;> cases hopen
    · obtain ⟨ctx₂, href, h⟩ := bind_eq_ok.1 h
      cases h
      refine framed.ref _ d _ ?_ href
      exact framed.congr ctx _ start rfl rfl rfl
    · cases h
      exact start

theorem Context.Framed.close {handle : DeviceHandle} (framed : Context.Framed P) (start : P ctx)
    (h : libusbyClose ctx handle = .ok ctx') : P ctx' := by
  refine framed.unref (usbybClose ctx handle) handle.dev ctx' ?_ h
  exact framed.congr ctx _ start rfl rfl rfl

end

end Libusby.Linux
