import Libusby.Foundations.Namesakes
import Libusby.Linux.Complete

/-!
# Devices that come and go

The enumeration knows a device again by its bus and device number. The client machine runs while
devices are plugged in and unplugged; what an enumeration reads from the file of a number is what
the device has that is attached there.
-/

namespace Libusby.Linux

open Foundations Foundations.Namesakes Libusby.Core

/-- What the `k`-th `read`, of `n` bytes, delivers from the file of a device. -/
abbrev DeviceFile := Nat → Nat → List UInt8

/-- The number of a device in memory and the descriptors cached for it. -/
def Context.records (ctx : Context) (d : DeviceId) :
    Option ((Int × Int) × List UInt8 × List UInt8) :=
  (ctx.heap d).map fun dev => ((dev.busno, dev.devno), (dev.deviceDesc, dev.descCache))

/-- The files that can be read have what is attached at their numbers. -/
def Sees (attached : Int × Int → Option DeviceFile) (dir : Option (List BusEntry)) : Prop :=
  ∀ f ∈ files (dir.getD []), ∀ devno ∈ f.2.shows, ∀ x ∈ descriptors f.2.read,
    shown descriptors attached (f.1, devno) = some x

instance (attached : Int × Int → Option DeviceFile) : DecidablePred (Sees attached) :=
  fun _ => inferInstanceAs (Decidable (∀ _ ∈ _, ∀ _ ∈ _, ∀ _ ∈ _, _ = _))

/-- Enumerations see what is attached. The search for a device, which is made up of the other
calls and of requests for descriptors, is left out. -/
def Op.Admitted (attached : Int × Int → Option DeviceFile) : Op → Prop
  | .getDeviceList _ dir => Sees attached dir
  | op => op.isSearch = false

instance (attached : Int × Int → Option DeviceFile) : DecidablePred (Op.Admitted attached)
  | .getDeviceList _ dir => inferInstanceAs (Decidable (Sees attached dir))
  | .freeDeviceList .. => inferInstanceAs (Decidable (_ = false))
  | .refDevice _ => inferInstanceAs (Decidable (_ = false))
  | .unrefDevice _ => inferInstanceAs (Decidable (_ = false))
  | .openDevice .. => inferInstanceAs (Decidable (_ = false))
  | .close _ => inferInstanceAs (Decidable (_ = false))
  | .openDeviceWithVidPid .. => inferInstanceAs (Decidable (_ = false))

/-- The runs of one client while devices come and go. -/
def hotplug : Machine (World (Int × Int) DeviceFile State) (Event (Int × Int) DeviceFile Op) :=
  world clientMachine Op.Admitted

/-- An enumeration made now opens `file` for the number `k` and returns the entry `d` for it;
`ctx` is what it leaves. -/
def Returned (w : World (Int × Int) DeviceFile State) (k : Int × Int) (file : DeviceFile)
    (ctx : Context) (d : DeviceId) : Prop :=
  ∃ ok dir listed list ds, Sees w.attached dir ∧
    usbybGetDeviceList ok w.program.ctx dir = .ok listed ∧ listed.ctx = ctx ∧
    listed.list = some list ∧ list.Lists ds ∧ d ∈ ds ∧ ctx.number d = some k ∧
    ∃ f ∈ files (dir.getD []), f.1 = k.1 ∧ f.2.shows = some k.2 ∧ f.2.read = file

/-- A device has been plugged in at the number `k` while one with other descriptors was in memory
there, and neither has gone since. -/
def Replaced (k : Int × Int) (es : List (Event (Int × Int) DeviceFile Op)) : Prop :=
  Supplanted clientMachine Op.Admitted descriptors (fun s => s.ctx.records) k es

section
variable {attached : Int × Int → Option DeviceFile} {ctx ctx' : Context} {s t : State} {op : Op}
  {d : DeviceId} {dev : Device}

/-- A change to one structure in memory renews what it leaves of its record. -/
theorem renewed_update {shown : Int × Int → Option (List UInt8 × List UInt8)} {v : Option Device}
    (same : ∀ dev ∈ v, ctx.records d =
      some ((dev.busno, dev.devno), (dev.deviceDesc, dev.descCache)))
    (heap : ctx'.heap = Function.update ctx.heap d v) :
    Renewed shown ctx.records ctx'.records := by
  apply Renewed.of_kept
  intro i r hr
  rw [Context.records, heap] at hr
  exact record_update same hr

theorem renewed_framed {shown : Int × Int → Option (List UInt8 × List UInt8)}
    {before : DeviceId → Option ((Int × Int) × List UInt8 × List UInt8)} :
    Context.Framed fun ctx => Renewed shown before ctx.records := by
  constructor
  · intro ctx ctx' h heap _ _
    refine h.trans (Renewed.of_kept fun i v hi => ?_)
    rwa [Context.records, heap] at hi
  · intro ctx d ctx' h href
    obtain ⟨dev, hd, rfl⟩ := libusbyRefDevice_eq_ok href
    refine h.trans (renewed_update ?_ rfl)
    rintro dev' ⟨⟩
    rw [Context.records, hd]
    rfl
  · intro ctx d ctx' h hunref
    rcases libusbyUnrefDevice_eq_ok hunref with ⟨dev, hd, ⟨-, rfl⟩ | ⟨-, rfl⟩⟩
    · exact h.trans (renewed_update (by simp) rfl)
    · refine h.trans (renewed_update ?_ rfl)
      rintro dev' ⟨⟩
      rw [Context.records, hd]
      rfl

/-- An iteration renews a record from the file that it opened. -/
theorem Iterated.renewed {ok : Nat → Bool} {f : Int × DevEntry} {s : Enum} {ds : List DeviceId}
    {left : Leave} (h : Iterated ok f.1 f.2 s ds left)
    (sees : ∀ devno ∈ f.2.shows, ∀ x ∈ descriptors f.2.read,
      shown descriptors attached (f.1, devno) = some x) :
    Renewed (shown descriptors attached) s.ctx.records left.enum.ctx.records := by
  cases h with
  | skipped hidden => exact Renewed.of_kept fun _ _ hi => hi
  | known shown bus mem found heap devlist holds r =>
    refine renewed_update ?_ heap
    rintro dev' ⟨⟩
    rw [Context.records, found]
    rfl
  | listed shown bus new fresh read heap devlist holds r =>
    intro i k x hi
    rw [Leave.enum, Context.records, heap] at hi
    by_cases hid : i = s.ctx.devices.next
    · rw [hid, Function.update_self] at hi
      cases hi
      rw [bus]
      exact .inr (sees _ shown _ read)
    · rw [Function.update_of_ne hid] at hi
      exact .inl hi
  | unlisted shown new heap devlist holds r =>
    apply Renewed.of_kept
    intro i v hi
    rwa [Leave.enum, Context.records, heap] at hi
  | full heap holds r memory =>
    apply Renewed.of_kept
    intro i v hi
    rwa [Leave.enum, Context.records, heap] at hi

theorem usbybGetDeviceList_renewed {ok : Nat → Bool} {dir : Option (List BusEntry)}
    {listed : Listed} {n : DeviceId → Int} {wrfds : List FdId} (counted : Counted ctx n [] wrfds)
    (sees : Sees attached dir) (h : usbybGetDeviceList ok ctx dir = .ok listed) :
    Renewed (shown descriptors attached) ctx.records listed.ctx.records := by
  refine usbybGetDeviceList_induction renewed_framed ?_ counted (Renewed.of_kept fun _ _ hi => hi) h
  exact fun f hf s ds left start iterated => start.trans (iterated.renewed (sees f hf))

/-- A call renews its records from what is attached. -/
theorem step_renewed (books : s.Accounted) (admitted : op.Admitted attached)
    (hs : clientMachine.step s op = some t) :
    t.Accounted ∧ Renewed (shown descriptors attached) s.ctx.records t.ctx.records := by
  refine ⟨books.step hs, ?_⟩
  have start : Renewed (shown descriptors attached) s.ctx.records s.ctx.records :=
    Renewed.of_kept fun _ _ hi => hi
  refine call_framed renewed_framed ?_ ?_ start (clientMachine_step hs).2
  · rintro ok dir listed rfl hlisted
    exact usbybGetDeviceList_renewed books.counted admitted hlisted
  · cases op with
    | getDeviceList ok dir => rfl
    | freeDeviceList k unrefDevices => rfl
    | refDevice d => rfl
    | unrefDevice d => rfl
    | openDevice d outcome => rfl
    | close k => rfl
    | openDeviceWithVidPid ok dir q => exact admitted

/-- What was in memory is there still when a list is returned. -/
theorem usbybGetDeviceList_kept {ok : Nat → Bool} {dir : Option (List BusEntry)} {listed : Listed}
    {list : DeviceArray} {n : DeviceId → Int} {wrfds : List FdId} (counted : Counted ctx n [] wrfds)
    (h : usbybGetDeviceList ok ctx dir = .ok listed) (hlist : listed.list = some list)
    {r : (Int × Int) × List UInt8 × List UInt8} (hd : ctx.records d = some r) :
    listed.ctx.records d = some r := by
  refine usbybGetDeviceList_listed (P := fun ctx => ctx.records d = some r) ?_ counted hd h hlist
  intro f hf s ds left hd iterated
  cases iterated with
  | skipped hidden => exact hd
  | known shown bus mem found heap devlist holds r =>
    rename_i d' dev s'
    rw [Leave.enum, Context.records, heap]
    by_cases same : d = d'
    · subst same
      rw [Context.records, found] at hd
      rw [Function.update_self]
      exact hd
    · rwa [Function.update_of_ne same]
  | listed shown bus new fresh read heap devlist holds r =>
    have other : d ≠ s.ctx.devices.next := by
      rintro rfl
      rw [Context.records, fresh] at hd
      cases hd
    rwa [Leave.enum, Context.records, heap, Function.update_of_ne other]
  | unlisted shown new heap devlist holds r => rwa [Leave.enum, Context.records, heap]
  | full heap holds r memory => rwa [Leave.enum, Context.records, heap]

theorem Counted.record_unique {n : DeviceId → Int} {loose wrfds : List FdId} {i : DeviceId}
    {k : Int × Int} {y z : List UInt8 × List UInt8} (h : Counted ctx n loose wrfds)
    (hd : ctx.records d = some (k, y)) (hi : ctx.records i = some (k, z)) : d = i := by
  obtain ⟨dev, hheap, record⟩ := Option.map_eq_some_iff.1 hd
  obtain ⟨dev', hheap', record'⟩ := Option.map_eq_some_iff.1 hi
  have same := (Prod.mk.inj record).1.trans (Prod.mk.inj record').1.symm
  exact h.distinct d i dev dev' hheap hheap' (Prod.mk.inj same).1 (Prod.mk.inj same).2

theorem remembers : Remembers clientMachine Op.Admitted descriptors
    (fun s => s.ctx.records) State.Accounted where
  init := accounted_init
  empty _ := rfl
  renews _ _ _ _ := step_renewed

variable {w : World (Int × Int) DeviceFile State} {es : List (Event (Int × Int) DeviceFile Op)}
  {k : Int × Int} {file : DeviceFile} {x : List UInt8 × List UInt8}

/-- An entry has what was read from the file that was opened for it, exactly if its number has not
been replaced. -/
theorem Returned.current_iff (hx : hotplug.exec hotplug.init es = some w)
    (returned : Returned w k file ctx d) (read : descriptors file = some x) :
    ctx.records d = some (k, x) ↔ ¬Replaced k es := by
  obtain ⟨ok, dir, listed, list, ds, sees, hlisted, rfl, hlist, -, -, number, f, hf, bus, shows, rfl⟩ :=
    returned
  have books := (remembers.exec hx).counted
  obtain ⟨n, counted⟩ : ∃ n, Counted listed.ctx n [] (w.program.handles.map (·.wrfd)) := by
    obtain ⟨listed', hlisted', ⟨-, counted⟩ | ⟨_, _, -, -, -, counted⟩⟩ :=
      usbybGetDeviceList_counted books ok dir
    all_goals
      cases hlisted.symm.trans hlisted'
      exact ⟨_, counted⟩
  obtain ⟨dev, hheap, rfl⟩ := Option.map_eq_some_iff.1 number
  have present : listed.ctx.records d =
      some ((dev.busno, dev.devno), (dev.deviceDesc, dev.descCache)) := by
    rw [Context.records, hheap, Option.map_some]
  have now : shown descriptors w.attached (dev.busno, dev.devno) = some x := by
    have := sees f hf dev.devno shows x read
    rwa [bus] at this
  exact remembers.current_iff hx (usbybGetDeviceList_renewed books sees hlisted)
    (fun i r hi => usbybGetDeviceList_kept books hlisted hlist hi)
    (fun i j y z hi hj => counted.record_unique hi hj) present now

/-- The one device file of a bus. -/
def oneFile (k : Int × Int) (file : DeviceFile) : List BusEntry :=
  [{ busno := some k.1, files := some [{ devno := some k.2, opens := true, read := file }] }]

end

end Libusby.Linux
