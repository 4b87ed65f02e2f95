import Libusby.Foundations.Namesakes
import Libusby.Win32.Client
import Libusby.Win32.Complete

/-!
# Devices that come and go on libusb0

The enumeration knows a device again by the number of its file, as that of usbfs does by bus and
device number, and closes the file that it opened for it.
-/

namespace Libusby.Win32

open Foundations Foundations.Namesakes Libusby.Core

/-- The number of a device in memory and the descriptor cached for it. -/
def Context.records (ctx : Context) (d : DeviceId) : Option (Nat × Bytes 18) :=
  (ctx.heap d).map fun dev => (dev.devno, dev.deviceDesc)

/-- The files whose descriptor can be read have what is attached at their numbers. -/
def Sees (attached seen : Nat → Option SyncResult) : Prop :=
  ∀ i ∈ deviceNumbers, ∀ io ∈ seen i, ∀ x ∈ readDeviceDesc io,
    shown readDeviceDesc attached i = some x

instance (attached : Nat → Option SyncResult) : DecidablePred (Sees attached) :=
  fun _ => inferInstanceAs (Decidable (∀ _ ∈ _, ∀ _ ∈ _, ∀ _ ∈ _, _ = _))

/-- Enumerations see what is attached. -/
def Op.Admitted (attached : Nat → Option SyncResult) : Op → Prop
  | .getDeviceList _ seen => Sees attached seen
  | _ => True

instance (attached : Nat → Option SyncResult) : DecidablePred (Op.Admitted attached)
  | .getDeviceList _ seen => inferInstanceAs (Decidable (Sees attached seen))
  | .freeDeviceList .. => inferInstanceAs (Decidable True)
  | .refDevice _ => inferInstanceAs (Decidable True)
  | .unrefDevice _ => inferInstanceAs (Decidable True)
  | .openDevice .. => inferInstanceAs (Decidable True)
  | .close _ => inferInstanceAs (Decidable True)

/-- The runs of one client while devices come and go. -/
def hotplug : Machine (World Nat SyncResult State) (Event Nat SyncResult Op) :=
  world clientMachine Op.Admitted

/-- An enumeration made now opens a file for the number `k`, which reads as `io`, and returns the
entry `d` for it; `ctx` is what it leaves. -/
def Returned (w : World Nat SyncResult State) (k : Nat) (io : SyncResult) (ctx : Context)
    (d : DeviceId) : Prop :=
  ∃ ok seen listed list ds, Sees w.attached seen ∧
    usbybGetDeviceList ok (fun _ => true) w.program.ctx seen = .ok listed ∧ listed.ctx = ctx ∧
    listed.list = some list ∧ list.Lists ds ∧ d ∈ ds ∧ ctx.number d = some k ∧
    k ∈ deviceNumbers ∧ seen k = some io

/-- A device has been plugged in at the number `k` while one with another descriptor was in memory
there, and neither has gone since. -/
def Replaced (k : Nat) (es : List (Event Nat SyncResult Op)) : Prop :=
  Supplanted clientMachine Op.Admitted readDeviceDesc (fun s => s.ctx.records) k es

section
variable {attached seen : Nat → Option SyncResult} {ctx ctx' : Context} {s t : State} {op : Op}
  {d : DeviceId} {dev dev' : Device} {i k : Nat} {x : Bytes 18}

/-- A change to one structure in memory adds no record. -/
theorem records_kept {v : Option Device}
    (same : ∀ dev ∈ v, ctx.records d = some (dev.devno, dev.deviceDesc))
    (heap : ctx'.heap = Function.update ctx.heap d v) (j : DeviceId) (r : Nat × Bytes 18)
    (hr : ctx'.records j = some r) : ctx.records j = some r := by
  rw [Context.records, heap] at hr
  exact record_update same hr

theorem libusbyRefDevice_kept (h : libusbyRefDevice ctx d = .ok ctx') (j : DeviceId)
    (r : Nat × Bytes 18) : ctx'.records j = some r → ctx.records j = some r := by
  obtain ⟨dev, hd, rfl⟩ := libusbyRefDevice_eq_ok h
  apply records_kept ?_ rfl
  rintro dev' ⟨⟩
  rw [Context.records, hd]
  rfl

theorem libusbyUnrefDevice_kept (h : libusbyUnrefDevice ctx d = .ok ctx') (j : DeviceId)
    (r : Nat × Bytes 18) : ctx'.records j = some r → ctx.records j = some r := by
  rcases libusbyUnrefDevice_eq_ok h with ⟨dev, hd, ⟨-, rfl⟩ | ⟨-, rfl⟩⟩
  · apply records_kept ?_ rfl
    rintro dev' ⟨⟩
  · apply records_kept ?_ rfl
    rintro dev' ⟨⟩
    rw [Context.records, hd]
    rfl

/-- An iteration adds no record but that of a device that it read. -/
theorem Iterated.kept {ok : Nat → Bool} {s : Enum} {ds : List DeviceId} {left : Leave}
    (h : Iterated ok seen i s ds left) (j : DeviceId) (r : Nat × Bytes 18)
    (hr : left.ctx.records j = some r) :
    s.ctx.records j = some r ∨ r.1 = i ∧ ∃ io, seen i = some io ∧ readDeviceDesc io = some r.2 := by
  cases h with
  | skipped hidden => exact .inl hr
  | known shown number mem found heap devlist holds =>
    refine .inl (records_kept ?_ heap j r hr)
    rintro dev' ⟨⟩
    rw [Context.records, found]
    rfl
  | listed shown number new fresh read heap devlist holds =>
    rw [Leave.ctx, Context.records, heap] at hr
    by_cases hj : j = s.ctx.devices.next
    · rw [hj, Function.update_self] at hr
      cases hr
      exact .inr ⟨number, _, shown, read⟩
    · rw [Function.update_of_ne hj] at hr
      exact .inl hr
  | failed shown heap holds why =>
    rw [Leave.ctx, Context.records, heap] at hr
    exact .inl hr

/-- A call renews its records from what is attached. -/
theorem step_renewed (wf : s.ctx.WellFormed) (admitted : op.Admitted attached)
    (hs : clientMachine.step s op = some t) :
    t.ctx.WellFormed ∧ Renewed (shown readDeviceDesc attached) s.ctx.records t.ctx.records := by
  refine call_induction (P := fun ctx =>
    Renewed (shown readDeviceDesc attached) s.ctx.records ctx.records) ?_ ?_ ?_ (call_eq_ok hs) wf
    (Renewed.of_kept fun _ _ hi => hi)
  · intro ok seen hop i hi s' ds left before iterated
    subst hop
    apply before.trans
    intro d k x hx
    rcases iterated.kept d _ hx with old | ⟨rfl, io, shown, read⟩
    · exact .inl old
    · exact .inr (admitted _ hi io shown x read)
  · exact fun ctx d ctx' before href => before.trans (Renewed.of_kept (libusbyRefDevice_kept href))
  · exact fun ctx d ctx' before hu => before.trans (Renewed.of_kept (libusbyUnrefDevice_kept hu))

theorem usbybGetDeviceList_renewed {ok : Nat → Bool} {listed : Listed} (wf : ctx.WellFormed)
    (sees : Sees attached seen)
    (h : usbybGetDeviceList ok (fun _ => true) ctx seen = .ok listed) :
    Renewed (shown readDeviceDesc attached) ctx.records listed.ctx.records := by
  refine (usbybGetDeviceList_induction
    (P := fun c => Renewed (shown readDeviceDesc attached) ctx.records c.records) ?_ ?_ h wf
    (Renewed.of_kept fun _ _ hi => hi)).2
  · intro i hi s ds left before iterated
    apply before.trans
    intro d k x hx
    rcases iterated.kept d _ hx with old | ⟨rfl, io, shown, read⟩
    · exact .inl old
    · exact .inr (sees _ hi io shown x read)
  · exact fun c d c' before hunref => before.trans (Renewed.of_kept (libusbyUnrefDevice_kept hunref))

/-- What was in memory is there still when a list is returned. -/
theorem usbybGetDeviceList_kept {ok : Nat → Bool} {listed : Listed} {list : DeviceArray}
    (wf : ctx.WellFormed) (h : usbybGetDeviceList ok (fun _ => true) ctx seen = .ok listed)
    (hlist : listed.list = some list) {r : Nat × Bytes 18} (hd : ctx.records d = some r) :
    listed.ctx.records d = some r := by
  refine (usbybGetDeviceList_listed (P := fun ctx => ctx.records d = some r) ?_ h hlist wf hd).2
  intro i hi s ds left hd iterated
  cases iterated with
  | skipped hidden => exact hd
  | known shown number mem found heap devlist holds =>
    rename_i d' dev io s'
    rw [Leave.ctx, Context.records, heap]
    by_cases same : d = d'
    · subst same
      rw [Context.records, found] at hd
      rw [Function.update_self]
      exact hd
    · rwa [Function.update_of_ne same]
  | listed shown number new fresh read heap devlist holds =>
    have other : d ≠ s.ctx.devices.next := by
      rintro rfl
      rw [Context.records, fresh] at hd
      cases hd
    rwa [Leave.ctx, Context.records, heap, Function.update_of_ne other]
  | failed shown heap holds why => rwa [Leave.ctx, Context.records, heap]

theorem Context.WellFormed.record_unique {d' : DeviceId} {y z : Bytes 18} (h : ctx.WellFormed)
    (hd : ctx.records d = some (k, y)) (hd' : ctx.records d' = some (k, z)) : d = d' := by
  obtain ⟨dev, hheap, record⟩ := Option.map_eq_some_iff.1 hd
  obtain ⟨dev', hheap', record'⟩ := Option.map_eq_some_iff.1 hd'
  exact h.distinct d d' dev dev' hheap hheap'
    ((Prod.mk.inj record).1.trans (Prod.mk.inj record').1.symm)

theorem remembers : Remembers clientMachine Op.Admitted readDeviceDesc
    (fun s => s.ctx.records) (·.ctx.WellFormed) where
  init := wellFormed_init
  empty _ := rfl
  renews _ _ _ _ := step_renewed

variable {w : World Nat SyncResult State} {es : List (Event Nat SyncResult Op)} {io : SyncResult}

/-- An entry has what was read from the file that was opened for it, exactly if its number has not
been replaced. -/
theorem Returned.current_iff (hx : hotplug.exec hotplug.init es = some w)
    (returned : Returned w k io ctx d) (read : readDeviceDesc io = some x) :
    ctx.records d = some (k, x) ↔ ¬Replaced k es := by
  obtain ⟨ok, seen, listed, list, ds, sees, hlisted, rfl, hlist, -, -, number, hk, hio⟩ := returned
  have wf := remembers.exec hx
  obtain ⟨dev, hheap, rfl⟩ := Option.map_eq_some_iff.1 number
  have present : listed.ctx.records d = some (dev.devno, dev.deviceDesc) := by
    rw [Context.records, hheap, Option.map_some]
  have after : listed.ctx.WellFormed := (usbybGetDeviceList_listed (P := fun _ => True)
    (fun _ _ _ _ _ _ _ => trivial) hlisted hlist wf trivial).1
  exact remembers.current_iff hx (usbybGetDeviceList_renewed wf sees hlisted)
    (fun i r hi => usbybGetDeviceList_kept wf hlisted hlist hi)
    (fun i j y z hi hj => after.record_unique hi hj) present (sees _ hk io hio x read)

end

end Libusby.Win32
