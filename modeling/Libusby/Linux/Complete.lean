import Libusby.Core.Catalogue
import Libusby.Linux.RefCount.Ownership

/-!
# The enumeration lists what is attached

With memory for all that it asks for, the enumeration refines the visits of a catalogue: a
device that cannot be read is given up and the loops go on.
-/

namespace Libusby.Linux

open Foundations Libusby.Core

/-- The bus and the device number. -/
def Context.number (ctx : Context) (d : DeviceId) : Option (Int × Int) :=
  (ctx.heap d).map fun dev => (dev.busno, dev.devno)

def Context.numbers (ctx : Context) : List (Int × Int) := ctx.devlist.filterMap ctx.number

/-- The device that a file stands for, if it can be opened, and whether it can be read. -/
def attachedFile (f : Int × DevEntry) : Option ((Int × Int) × Bool) :=
  f.2.shows.map fun devno => ((f.1, devno), (descriptors f.2.read).isSome)

/-- The attached devices in the order of their files. -/
def attached (dir : Option (List BusEntry)) : List ((Int × Int) × Bool) :=
  (files (dir.getD [])).filterMap attachedFile

/-- The list has the devices that were in memory and those that can be read, in order, the
result is their number, and the devices that were in memory are there still. -/
def ListsAttached (ctx : Context) (dir : Option (List BusEntry)) : Prop :=
  ∃ listed list ds, usbybGetDeviceList (fun _ => true) ctx dir = .ok listed ∧
    listed.list = some list ∧ list.Lists ds ∧ listed.r = ds.length ∧
    (({ known := ctx.numbers } : Catalogue (Int × Int)).visits (attached dir)).Represents
      listed.ctx.number listed.ctx.devlist ds ∧
    ctx.devlist <+: listed.ctx.devlist

section
variable {ctx : Context} {n : DeviceId → Int} {wrfds : List FdId} {s s' : Enum}
  {c : Catalogue (Int × Int)} {f : Int × DevEntry}
  {ds : List DeviceId} {left : Leave} {d : DeviceId} {dev : Device}

theorem Context.number_eq (h : ctx.heap d = some dev) : ctx.number d = some (dev.busno, dev.devno) := by
  rw [Context.number, h, Option.map_some]

theorem number_eq_some {k : Int × Int} :
    ctx.number d = some k ↔ ∃ dev, ctx.heap d = some dev ∧ dev.busno = k.1 ∧ dev.devno = k.2 := by
  simp only [Context.number, Option.map_eq_some_iff, Prod.ext_iff]

theorem Context.number_update {ctx' : Context} {v : Option Device}
    (heap : ctx'.heap = Function.update ctx.heap d v) :
    ctx'.number = Function.update ctx.number d (v.map fun dev => (dev.busno, dev.devno)) := by
  funext x
  rw [Context.number, heap]
  exact Function.apply_update (fun _ => Option.map _) ctx.heap d v x

/-- An iteration with memory for all that it asks for is a visit. -/
theorem Iterated.represents (h : Iterated (fun _ => true) f.1 f.2 s ds left)
    (holds : s.devlist.Holds ds) (nonneg : 0 ≤ s.r.code)
    (rep : c.Represents s.ctx.number s.ctx.devlist ds) :
    ∃ s' ds', left = .next s' ∧ s'.devlist.Holds ds' ∧ 0 ≤ s'.r.code ∧
      (c.visits (attachedFile f).toList).Represents s'.ctx.number s'.ctx.devlist ds' ∧
      s.ctx.devlist <+: s'.ctx.devlist := by
  have success : 0 ≤ Error.success.code := by decide
  cases h with
  | skipped hidden =>
    refine ⟨s, ds, rfl, holds, nonneg, ?_, List.prefix_rfl⟩
    rw [attachedFile, hidden]
    exact rep
  | known shown bus mem found heap devlist holds' r =>
    rename_i d dev s'
    refine ⟨s', ds ++ [d], rfl, holds', by rwa [r], ?_, devlist ▸ List.prefix_rfl⟩
    have number : s'.ctx.number = s.ctx.number := by
      rw [Context.number_update heap, Function.update_eq_self_iff, Context.number_eq found]
      rfl
    rw [attachedFile, shown, number, devlist, ← bus]
    exact rep.found mem (Context.number_eq found)
  | listed shown bus new fresh read heap devlist holds' r =>
    rename_i dev s'
    refine ⟨s', ds ++ [s.ctx.devices.next], rfl, holds', by rwa [r], ?_, ?_⟩
    · have number : s'.ctx.number =
          Function.update s.ctx.number s.ctx.devices.next (some (dev.busno, dev.devno)) :=
        Context.number_update heap
      rw [attachedFile, shown, number, devlist, ← bus, read]
      refine rep.insert (fun x hx same => ?_) (by rw [Context.number, fresh, Option.map_none])
      obtain ⟨y, hy, hbusno, hdevno⟩ := number_eq_some.1 same
      exact new x hx y hy ⟨hbusno.trans bus, hdevno⟩
    · rw [devlist]
      exact List.prefix_append _ _
  | unlisted shown new heap devlist holds' r =>
    rename_i devno s'
    rcases r with ⟨r, unreadable⟩ | ⟨-, c, memory⟩
    · refine ⟨s', ds, rfl, holds', by rwa [r], ?_, devlist ▸ List.prefix_rfl⟩
      have number : s'.ctx.number = s.ctx.number := by
        funext x
        rw [Context.number, heap, Context.number]
      rw [attachedFile, shown, number, devlist, unreadable]
      apply rep.passed
      intro x hx same
      obtain ⟨y, hy, hbusno, hdevno⟩ := number_eq_some.1 same
      exact new x hx y hy ⟨hbusno, hdevno⟩
    · cases memory
  | full heap holds' r memory =>
    obtain ⟨c, memory⟩ := memory
    cases memory

/-- The loops visit every file. -/
theorem enumAll_represents (fs : List (Int × DevEntry)) (holds : s.devlist.Holds ds)
    (counted : Counted s.ctx (n + tally ds) [] wrfds) (nonneg : 0 ≤ s.r.code)
    (rep : c.Represents s.ctx.number s.ctx.devlist ds) :
    ∃ s' ds', enumAll (fun _ => true) (fun _ => true) fs s = .ok (.next s') ∧
      s'.devlist.Holds ds' ∧
      (c.visits (fs.filterMap attachedFile)).Represents s'.ctx.number s'.ctx.devlist ds' ∧
      s.ctx.devlist <+: s'.ctx.devlist := by
  induction fs generalizing s ds c with
  | nil => exact ⟨s, ds, rfl, holds, rep, List.prefix_rfl⟩
  | cons f fs ih =>
    obtain ⟨left, hfile, iterated, books⟩ := enumFile_iterated holds counted (fun _ => true) f.1 f.2
    obtain ⟨s₁, ds₁, rfl, holds₁, nonneg₁, rep₁, kept₁⟩ := iterated.represents holds nonneg rep
    obtain ⟨ds₂, holds₂, counted₁⟩ := books
    rw [← holds₁.unique holds₂] at counted₁
    obtain ⟨s₂, ds₂, hall, holds₂, rep₂, kept₂⟩ := ih holds₁ counted₁ nonneg₁ rep₁
    refine ⟨s₂, ds₂, ?_, holds₂, ?_, kept₁.trans kept₂⟩
    · rw [enumAll, if_neg (by omega), hfile, ok_bind]
      exact hall
    · rwa [Catalogue.visits_filterMap_cons]

theorem listsAttached_of_counted (h : Counted ctx n [] wrfds) (dir : Option (List BusEntry)) :
    ListsAttached ctx dir := by
  have init : (⟨ctx.numbers, []⟩ : Catalogue (Int × Int)).Represents ctx.number ctx.devlist [] := by
    apply Catalogue.Represents.init
    intro d hd
    obtain ⟨dev, hheap⟩ := (h.linked d).1 hd
    exact ⟨_, Context.number_eq hheap⟩
  cases dir with
  | none => exact ⟨_, none, [], rfl, rfl, rfl, rfl, init, List.prefix_rfl⟩
  | some bs =>
    have start : Counted ctx (n + tally []) [] wrfds := by rwa [tally_nil, add_zero]
    obtain ⟨s, ds, hall, holds, rep, kept⟩ := enumAll_represents (s := { ctx }) (files bs)
      DeviceList.holds_nil start (Int.le_refl 0) init
    refine ⟨⟨s.devlist.count, some s.devlist.list, s.ctx⟩, s.devlist.list, ds, ?_, rfl,
      holds.lists, congrArg Int.ofNat holds.count, rep, kept⟩
    rw [usbybGetDeviceList, enumRoot_eq, hall, ok_bind]

end

end Libusby.Linux
