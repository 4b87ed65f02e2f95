import Libusby.Linux.Search
import Libusby.Win32.Files

/-!
# Opening a device by its ids

`libusby_open_device_with_vid_pid` on both backends, in every state that calls of a client lead to.
-/

namespace Libusby

/-- Whatever fails, a search returns a handle to a device with the ids, or it finds a reason to
pass over every device; nothing else is left of it. -/
theorem search_balanced (s : Linux.State) (hs : Linux.clientMachine.Reachable s)
    (t : Win32.SessionState) (ht : Win32.sessionMachine.Reachable t) :
    (∀ ok dir q, Linux.SearchBalanced ok dir q s.ctx) ∧
      ∀ ok attached q, Win32.SearchBalanced ok attached q t.session := by
  constructor
  · intro ok dir q
    exact Linux.searchBalanced_of_counted (Linux.State.Accounted.of_reachable hs).counted ok dir q
  · intro ok attached q
    obtain ⟨⟨n, D, counted⟩, handles⟩ := Win32.SessionState.Kept.of_reachable ht
    exact Win32.searchBalanced_of_counted ⟨counted, handles⟩ ok attached q

/-- Every call succeeds, and every device sends the ids that are looked for. -/
def zeroIds : Linux.Search where
  vendorId := 0
  productId := 0
  opens := fun _ => ⟨true, true⟩
  replies := fun _ => ⟨18, 18 :: List.replicate 17 0⟩

/-- The device of `oneBus` is looked for, and on libusb0 the first of two devices. -/
theorem search_balanced_oneBus :
    Linux.SearchBalanced (fun _ => true) (some Linux.oneBus) zeroIds {} ∧
      Win32.SearchBalanced (fun _ => true) (Win32.twoFiles false)
        ⟨0x0101, 0x0101, fun _ => true, fun _ => ⟨0, .replicate 18 0⟩⟩ {} := by
  obtain ⟨linux, windows⟩ := search_balanced {} ⟨[], rfl⟩ {} ⟨[], rfl⟩
  exact ⟨linux _ _ _, windows _ _ _⟩

end Libusby
