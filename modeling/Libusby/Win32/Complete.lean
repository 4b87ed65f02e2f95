import Libusby.Core.Catalogue
import Libusby.Win32.Enumeration

/-!
# One device that cannot be read

With memory for all that it asks for, the enumeration of libusb0 refines the visits of a
catalogue up to the first new device that cannot be read, and there it gives up.
-/

namespace Libusby.Win32

open Foundations Libusby.Core

/-- The number of the file. -/
def Context.number (ctx : Context) (d : DeviceId) : Option Nat := (ctx.heap d).map (·.devno)

def Context.numbers (ctx : Context) : List Nat := ctx.devlist.filterMap ctx.number

/-- The device of a number, if its file can be opened, and whether it can be read. -/
def attachedDevice (attached : Nat → Option SyncResult) (i : Nat) : Option (Nat × Bool) :=
  (attached i).map fun io => (i, (readDeviceDesc io).isSome)

/-- The list has the devices that were in memory and those that can be read, in order, the
result is their number, and the devices that were in memory are there still. -/
def ListsAttached (ctx : Context) (attached : Nat → Option SyncResult) : Prop :=
  ∃ listed list ds, usbybGetDeviceList (fun _ => true) (fun _ => true) ctx attached = .ok listed ∧
    listed.list = some list ∧ list.Lists ds ∧ listed.r = ds.length ∧
    (({ known := ctx.numbers } : Catalogue Nat).visits
      (deviceNumbers.filterMap (attachedDevice attached))).Represents listed.ctx.number
        listed.ctx.devlist ds ∧
    ctx.devlist <+: listed.ctx.devlist

section
variable {ctx : Context} {attached : Nat → Option SyncResult} {i : Nat} {is : List Nat}
  {s s' : Enum} {c : Catalogue Nat} {ds : List DeviceId} {left : Leave} {d : DeviceId}
  {dev : Device}

theorem number_eq_some : ctx.number d = some i ↔ ∃ dev, ctx.heap d = some dev ∧ dev.devno = i := by
  rw [Context.number, Option.map_eq_some_iff]

theorem Context.number_update {ctx' : Context} {v : Option Device}
    (heap : ctx'.heap = Function.update ctx.heap d v) :
    ctx'.number = Function.update ctx.number d (v.map (·.devno)) := by
  funext x
  rw [Context.number, heap]
  exact Function.apply_update (fun _ => Option.map _) ctx.heap d v x

/-- An iteration with memory for all that it asks for is a visit, or it meets a new device that
cannot be read. -/
theorem Iterated.represents (h : Iterated (fun _ => true) attached i s ds left)
    (holds : s.devlist.Holds ds) (rep : c.Represents s.ctx.number s.ctx.devlist ds) :
    (∃ s' ds', left = .next s' ∧ s'.devlist.Holds ds' ∧
        (c.visits (attachedDevice attached i).toList).Represents s'.ctx.number s'.ctx.devlist ds' ∧
        s.ctx.devlist <+: s'.ctx.devlist ∧
        ∀ io, attached i = some io → i ∈ c.known ∨ readDeviceDesc io ≠ none) ∨
      (∃ s', left = .error s') ∧ ∃ io, attached i = some io ∧ i ∉ c.known ∧
        readDeviceDesc io = none := by
  have missing (new : ∀ d ∈ s.ctx.devlist, ∀ x, s.ctx.heap d = some x → x.devno ≠ i) :
      ∀ x ∈ s.ctx.devlist, s.ctx.number x ≠ some i := fun x hx same => by
    obtain ⟨y, hy, hdevno⟩ := number_eq_some.1 same
    exact new x hx y hy hdevno
  cases h with
  | skipped hidden =>
    refine .inl ⟨s, ds, rfl, holds, ?_, List.prefix_rfl, fun io shown => ?_⟩
    · rw [attachedDevice, hidden]
      exact rep
    · cases hidden.symm.trans shown
  | known shown number mem found heap devlist holds' =>
    rename_i d dev io s'
    have hd : s.ctx.number d = some i := number_eq_some.2 ⟨dev, found, number⟩
    have same : s'.ctx.number = s.ctx.number := by
      rw [Context.number_update heap, Function.update_eq_self_iff, hd, Option.map_some, number]
    refine .inl ⟨s', ds ++ [d], rfl, holds', ?_, devlist ▸ List.prefix_rfl, fun _ _ => .inl ?_⟩
    · rw [attachedDevice, shown, same, devlist]
      exact rep.found mem hd
    · exact rep.mem_known.2 ⟨d, mem, hd⟩
  | listed shown number new fresh read heap devlist holds' =>
    rename_i dev io s'
    have same : s'.ctx.number = Function.update s.ctx.number s.ctx.devices.next (some i) := by
      rw [Context.number_update heap, Option.map_some, number]
    refine .inl ⟨s', _, rfl, holds', ?_, ?_, fun io' shown' => .inr ?_⟩
    · rw [attachedDevice, shown, same, devlist, Option.map_some, read]
      exact rep.insert (missing new) (by rw [Context.number, fresh, Option.map_none])
    · rw [devlist]
      exact List.prefix_append _ _
    · cases shown.symm.trans shown'
      simp [read]
  | failed shown heap holds' why =>
    rcases why with ⟨new, unreadable⟩ | ⟨c, memory⟩
    · refine .inr ⟨⟨_, rfl⟩, _, shown, fun known => ?_, unreadable⟩
      obtain ⟨x, hx, same⟩ := rep.mem_known.1 known
      exact missing new x hx same
    · cases memory

/-- Where every new device can be read the loop visits every number. -/
theorem enumDevices_represents (wf : s.ctx.WellFormed) (holds : s.devlist.Holds ds)
    (rep : c.Represents s.ctx.number s.ctx.devlist ds)
    (readable : ∀ i ∈ is, ∀ io, attached i = some io → i ∈ c.known ∨ readDeviceDesc io ≠ none) :
    ∃ s' ds', enumDevices (fun _ => true) (fun _ => true) attached is s = .ok (.next s') ∧
      s'.devlist.Holds ds' ∧
      (c.visits (is.filterMap (attachedDevice attached))).Represents s'.ctx.number s'.ctx.devlist ds' ∧
      s.ctx.devlist <+: s'.ctx.devlist := by
  induction is generalizing s ds c with
  | nil => exact ⟨s, ds, rfl, holds, rep, List.prefix_rfl⟩
  | cons i is ih =>
    obtain ⟨first, others⟩ := List.forall_mem_cons.1 readable
    obtain ⟨left, hdevice, iterated, wf₁⟩ := enumDevice_iterated wf holds (fun _ => true) attached i
    obtain ⟨s₁, ds₁, rfl, holds₁, rep₁, kept₁, -⟩ | ⟨-, io, shown, new, unreadable⟩ :=
      iterated.represents holds rep
    · have later : ∀ j ∈ is, ∀ io, attached j = some io →
          j ∈ (c.visits (attachedDevice attached i).toList).known ∨ readDeviceDesc io ≠ none := by
        intro j hj io shown
        apply (others j hj io shown).imp_left
        intro known
        cases attachedDevice attached i with
        | none => exact known
        | some a => exact Catalogue.known_visit known
      obtain ⟨s₂, ds₂, hall, holds₂, rep₂, kept₂⟩ := ih wf₁ holds₁ rep₁ later
      refine ⟨s₂, ds₂, ?_, holds₂, by rwa [Catalogue.visits_filterMap_cons], kept₁.trans kept₂⟩
      rw [enumDevices, hdevice, ok_bind]
      exact hall
    · exact absurd unreadable ((first io shown).resolve_left new)

/-- A new device that cannot be read ends the loop. -/
theorem enumDevices_gives_up (wf : s.ctx.WellFormed) (holds : s.devlist.Holds ds)
    (rep : c.Represents s.ctx.number s.ctx.devlist ds) (nodup : is.Nodup)
    (hidden : ∃ i ∈ is, ∃ io, attached i = some io ∧ i ∉ c.known ∧ readDeviceDesc io = none) :
    ∃ s', enumDevices (fun _ => true) (fun _ => true) attached is s = .ok (.error s') := by
  induction is generalizing s ds c with
  | nil =>
    obtain ⟨i, hi, -⟩ := hidden
    cases hi
  | cons i is ih =>
    obtain ⟨first, others⟩ := List.nodup_cons.1 nodup
    obtain ⟨j, hj, io, shown, new, unreadable⟩ := hidden
    obtain ⟨left, hdevice, iterated, wf₁⟩ := enumDevice_iterated wf holds (fun _ => true) attached i
    obtain ⟨s₁, ds₁, rfl, holds₁, rep₁, -, readable⟩ | ⟨⟨s₁, rfl⟩, -⟩ :=
      iterated.represents holds rep
    · have different : j ≠ i := by
        rintro rfl
        rcases readable io shown with known | read
        · exact new known
        · exact read unreadable
      have still : j ∉ (c.visits (attachedDevice attached i).toList).known := by
        intro known
        unfold attachedDevice at known
        cases hi : attached i with
        | none =>
          rw [hi] at known
          exact new known
        | some io' =>
          rw [hi] at known
          rcases Catalogue.mem_known_visit known with old | same
          · exact new old
          · exact different same
      have later : j ∈ is := (List.mem_cons.1 hj).resolve_left different
      obtain ⟨s', hrest⟩ := ih wf₁ holds₁ rep₁ others ⟨j, later, io, shown, still, unreadable⟩
      refine ⟨s', ?_⟩
      rw [enumDevices, hdevice, ok_bind]
      exact hrest
    · refine ⟨s₁, ?_⟩
      rw [enumDevices, hdevice, ok_bind]

theorem nodup_deviceNumbers : deviceNumbers.Nodup := List.nodup_range' ..

/-- The list is complete exactly if every new device can be read. -/
theorem listsAttached_of_wellFormed (wf : ctx.WellFormed) :
    ListsAttached ctx attached ↔ ∀ i ∈ deviceNumbers, ∀ io, attached i = some io →
      i ∈ ctx.numbers ∨ readDeviceDesc io ≠ none := by
  have init : (⟨ctx.numbers, []⟩ : Catalogue Nat).Represents ctx.number ctx.devlist [] := by
    apply Catalogue.Represents.init
    intro d hd
    obtain ⟨dev, hheap⟩ := (wf.linked d).1 hd
    exact ⟨_, number_eq_some.2 ⟨dev, hheap, rfl⟩⟩
  constructor
  · rintro ⟨listed, list, ds, hlisted, hlist, -⟩
    by_contra hidden
    push Not at hidden
    obtain ⟨s', herror⟩ := enumDevices_gives_up (s := { ctx }) wf DeviceList.holds_nil init
      nodup_deviceNumbers hidden
    rw [usbybGetDeviceList, herror, ok_bind] at hlisted
    simp only at hlisted
    split_ifs at hlisted
    · obtain ⟨ctx', -, hlisted⟩ := bind_eq_ok.1 hlisted
      cases hlisted
      cases hlist
    · cases hlisted
      cases hlist
  · intro readable
    obtain ⟨s, ds, hall, holds, rep, kept⟩ := enumDevices_represents (s := { ctx }) wf
      DeviceList.holds_nil init readable
    refine ⟨⟨s.devlist.count, some s.devlist.list, s.ctx⟩, s.devlist.list, ds, ?_, rfl,
      holds.lists, congrArg Int.ofNat holds.count, rep, kept⟩
    rw [usbybGetDeviceList, hall, ok_bind]

end

end Libusby.Win32
