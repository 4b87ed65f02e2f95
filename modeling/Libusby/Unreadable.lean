import Libusby.Linux.Complete
import Libusby.Win32.Client
import Libusby.Win32.Complete

/-!
# One device that cannot be read, on both backends

usbfs lists the others whatever is the matter with a device. libusb0 lists them only if there is
no new device that cannot be read.
-/

namespace Libusby

open Foundations Libusby.Core

/-- With whatever devices the calls of a client left in memory. -/
theorem listsAttached_iff (s : Linux.State) (hs : Linux.clientMachine.Reachable s)
    (dir : Option (List Linux.BusEntry)) (t : Win32.State) (ht : Win32.clientMachine.Reachable t)
    (attached : Nat → Option Win32.SyncResult) :
    Linux.ListsAttached s.ctx dir ∧
      (Win32.ListsAttached t.ctx attached ↔ ∀ i ∈ Win32.deviceNumbers, ∀ io,
        attached i = some io → i ∈ t.ctx.numbers ∨ Win32.readDeviceDesc io ≠ none) :=
  ⟨Linux.listsAttached_of_counted (Linux.State.Accounted.of_reachable hs).counted dir,
    Win32.listsAttached_of_wellFormed (Win32.Context.WellFormed.of_reachable ht)⟩

/-- Where no two files of usbfs have the same numbers, the list has the known and the readable
devices by number, in the order of the files. -/
theorem Linux.listed_numbers {s : Linux.State} (hs : Linux.clientMachine.Reachable s)
    {dir : Option (List Linux.BusEntry)} (once : ((Linux.attached dir).map Prod.fst).Nodup) :
    ∃ listed list ds, Linux.usbybGetDeviceList (fun _ => true) s.ctx dir = .ok listed ∧
      listed.list = some list ∧ list.Lists ds ∧ ds.map listed.ctx.number =
        (((Linux.attached dir).filter fun a => a.1 ∈ s.ctx.numbers ∨ a.2 = true).map
          Prod.fst).map some := by
  have counted := (Linux.State.Accounted.of_reachable hs).counted
  obtain ⟨listed, list, ds, hlisted, hlist, lists, -, rep, -⟩ :=
    Linux.listsAttached_of_counted counted dir
  refine ⟨listed, list, ds, hlisted, hlist, lists, ?_⟩
  convert rep.numbers once

/-- If every new device of libusb0 can be read, the list has the devices by number, in order. -/
theorem Win32.listed_numbers {s : Win32.State} (hs : Win32.clientMachine.Reachable s)
    {attached : Nat → Option Win32.SyncResult}
    (read : ∀ i ∈ Win32.deviceNumbers, ∀ io, attached i = some io →
      i ∈ s.ctx.numbers ∨ Win32.readDeviceDesc io ≠ none) :
    ∃ listed list ds, Win32.usbybGetDeviceList (fun _ => true) (fun _ => true) s.ctx attached =
        .ok listed ∧ listed.list = some list ∧ list.Lists ds ∧
      ds.map listed.ctx.number =
        (Win32.deviceNumbers.filter fun i => (attached i).isSome).map some := by
  have wf := Win32.Context.WellFormed.of_reachable hs
  obtain ⟨listed, list, ds, hlisted, hlist, lists, -, rep, -⟩ :=
    (Win32.listsAttached_of_wellFormed wf).2 read
  have fst : (Win32.deviceNumbers.filterMap (Win32.attachedDevice attached)).map Prod.fst =
      Win32.deviceNumbers.filter fun i => (attached i).isSome := by
    rw [List.map_filterMap, ← List.filterMap_eq_filter]
    congr 1
    funext i
    cases hi : attached i <;> simp [Win32.attachedDevice, Option.guard, hi]
  have all : ∀ a ∈ Win32.deviceNumbers.filterMap (Win32.attachedDevice attached),
      a.1 ∈ s.ctx.numbers ∨ a.2 = true := by
    intro a ha
    obtain ⟨i, hi, shown⟩ := List.mem_filterMap.1 ha
    obtain ⟨io, hio, rfl⟩ := Option.map_eq_some_iff.1 shown
    exact (read i hi io hio).imp_right Option.isSome_iff_ne_none.2
  have numbers := rep.numbers (fst ▸ Win32.nodup_deviceNumbers.filter _)
  rw [List.filter_eq_self.2 (by simpa using all), fst] at numbers
  exact ⟨listed, list, ds, hlisted, hlist, lists, numbers⟩

/-- A device that sends its descriptor, and one that sends nothing. -/
def sends (data : List UInt8) : Win32.SyncResult where
  createEvent := true
  deviceIoControl := none
  getOverlappedResult := none
  data

/-- The descriptor of a device without configurations. -/
def plainDescriptor : List UInt8 := 18 :: List.replicate 17 0

/-- The device can be read. -/
theorem listsAttached_readable : Linux.ListsAttached {} (some Linux.oneBus) ∧
    Win32.ListsAttached {} (fun i => if i = 1 then some (sends plainDescriptor) else none) := by
  obtain ⟨linux, windows⟩ := listsAttached_iff {} ⟨[], rfl⟩ (some Linux.oneBus) {} ⟨[], rfl⟩
    fun i => if i = 1 then some (sends plainDescriptor) else none
  refine ⟨linux, windows.2 fun i _ io shown => .inr ?_⟩
  split_ifs at shown
  cases shown
  have read : (Win32.readDeviceDesc (sends plainDescriptor)).isSome = true := by decide
  exact Option.isSome_iff_ne_none.1 read

/-- The first device can be read and the second cannot: libusb0 lists neither and reports a lack
of memory. -/
theorem not_listsAttached :
    (Win32.usbybGetDeviceList (fun _ => true) (fun _ => true) {}
      (fun i => if i = 1 then some (sends plainDescriptor)
        else if i = 2 then some (sends []) else none)).map (fun l => (l.r, l.list)) =
      .ok (Error.noMem.code, none) ∧
    ¬Win32.ListsAttached {} (fun i => if i = 1 then some (sends plainDescriptor)
      else if i = 2 then some (sends []) else none) := by
  have result : (Win32.usbybGetDeviceList (fun _ => true) (fun _ => true) {}
      (fun i => if i = 1 then some (sends plainDescriptor)
        else if i = 2 then some (sends []) else none)).map (fun l => (l.r, l.list)) =
      .ok (Error.noMem.code, none) := by rfl
  refine ⟨result, ?_⟩
  rintro ⟨listed, list, ds, hlisted, hlist, -⟩
  rw [hlisted] at result
  obtain ⟨-, unwritten⟩ := Prod.mk.inj (Except.ok.inj result)
  cases hlist.symm.trans unwritten

end Libusby
