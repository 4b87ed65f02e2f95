import Libusby.Linux.Hotplug
import Libusby.Win32.Hotplug

/-!
# The device that is attached now, on both backends

Both backends know a device again by its number alone. A device that is plugged in at a number
that is still in memory is taken for the one that was there.
-/

namespace Libusby

open Foundations Foundations.Namesakes Libusby.Core

/-- Whatever is plugged in and unplugged while a client enumerates and keeps references, an entry of
an enumeration shows what has just been read at its number exactly if no device was plugged in at
this number while a different one was in memory there that has stayed since. -/
theorem enumerations_current_iff :
    (∀ es w k file x ctx d, Linux.hotplug.exec Linux.hotplug.init es = some w →
      Linux.Returned w k file ctx d → Linux.descriptors file = some x →
        (ctx.records d = some (k, x) ↔ ¬Linux.Replaced k es)) ∧
    ∀ es w k io x ctx d, Win32.hotplug.exec Win32.hotplug.init es = some w →
      Win32.Returned w k io ctx d → Win32.readDeviceDesc io = some x →
        (ctx.records d = some (k, x) ↔ ¬Win32.Replaced k es) :=
  ⟨fun _ _ _ _ _ _ _ run returned read => returned.current_iff run read,
    fun _ _ _ _ _ _ _ run returned read => returned.current_iff run read⟩

/-- A device without a valid descriptor, and another one. -/
def firstFile : Linux.DeviceFile := fun _ n => List.replicate n 0

def secondFile : Linux.DeviceFile := fun _ n => 18 :: List.replicate (n - 1) 0

/-- The first device is enumerated and replaced by the second, and the client keeps its list. -/
def replacement : List (Event (Int × Int) Linux.DeviceFile Linux.Op) :=
  [.attach (1, 1) firstFile,
    .act (.getDeviceList (fun _ => true) (some (Linux.oneFile (1, 1) firstFile))),
    .detach (1, 1), .attach (1, 1) secondFile]

theorem replacement_returned : ∃ w ctx,
    Linux.hotplug.exec Linux.hotplug.init replacement = some w ∧
    Linux.Returned w (1, 1) secondFile ctx 0 ∧
    ctx.records 0 = some ((1, 1), List.replicate 18 0, []) := by
  refine ⟨_, _, rfl, ⟨fun _ => true, some (Linux.oneFile (1, 1) secondFile), _, _, [0], by decide,
    rfl, rfl, rfl, ?_, by decide, rfl, _, List.mem_singleton_self _, rfl, rfl, rfl⟩, rfl⟩
  exact ⟨[], rfl⟩

/-- A device without configurations, at the number 3 of libusb0. -/
def thirdDevice : Win32.SyncResult where
  createEvent := true
  deviceIoControl := none
  getOverlappedResult := none
  data := 18 :: List.replicate 17 0

def onlyFile (i : Nat) : Option Win32.SyncResult := if i = 3 then some thirdDevice else none

set_option maxRecDepth 4000 in
/-- The first number has been replaced, and one at which a single device was plugged in has not. -/
theorem enumerations_current_replacement : Linux.Replaced (1, 1) replacement ∧
    ¬Win32.Replaced 3 [.attach 3 thirdDevice] := by
  constructor
  · obtain ⟨w, ctx, run, returned, old⟩ := replacement_returned
    by_contra kept
    have current := (enumerations_current_iff.1 _ _ _ _ _ _ _ run returned rfl).2 kept
    cases current.symm.trans old
  · have run : Win32.hotplug.exec Win32.hotplug.init [.attach 3 thirdDevice] = some _ := rfl
    refine (enumerations_current_iff.2 _ _ _ _ _ _ 0 run
      ⟨fun _ => true, onlyFile, _, _, [0], ?_, rfl, rfl, rfl, ?_, by decide, rfl, by decide, rfl⟩
      rfl).1 rfl
    · intro i hi io hio x hx
      rw [onlyFile, Option.mem_def, Option.ite_none_right_eq_some] at hio
      obtain ⟨rfl, same⟩ := hio
      cases same
      exact hx
    · exact ⟨[], rfl⟩

/-- The next enumeration returns the descriptor of the first device. -/
theorem stale_entry : ∃ w ctx x, Linux.hotplug.exec Linux.hotplug.init replacement = some w ∧
    Linux.Returned w (1, 1) secondFile ctx 0 ∧ Linux.descriptors secondFile = some x ∧
    ctx.records 0 ≠ some ((1, 1), x) := by
  obtain ⟨w, ctx, run, returned, old⟩ := replacement_returned
  refine ⟨w, ctx, _, run, returned, rfl, fun current => ?_⟩
  cases current.symm.trans old

end Libusby
