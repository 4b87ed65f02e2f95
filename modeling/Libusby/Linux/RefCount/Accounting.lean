import Libusby.Linux.Enumeration
import Libusby.Linux.Frame

/-!
# Accounting for devices

`Counted ctx n loose wrfds` is the state of the books: device `d` is kept alive by
`n d` references, `loose` are descriptors that are open and not owned yet, `wrfds`
are the descriptors of the open handles. Each operation on a device moves one entry.
-/

namespace Libusby.Linux

open Foundations Libusby.Core

/-- The descriptors of the linked devices. -/
def Context.ownedFds (ctx : Context) : List FdId :=
  ctx.devlist.filterMap fun d => (ctx.heap d).map (·.fd)

structure Counted (ctx : Context) (n : DeviceId → Int) (loose wrfds : List FdId) : Prop where
  live : ∀ d dev, ctx.heap d = some dev → dev.refCount = n d ∧ 0 < n d
  dead : ∀ d, ctx.heap d = none → n d = 0
  linked : ∀ d, d ∈ ctx.devlist ↔ ∃ dev, ctx.heap d = some dev
  distinct : ∀ d d' dev dev', ctx.heap d = some dev → ctx.heap d' = some dev' →
    dev.busno = dev'.busno → dev.devno = dev'.devno → d = d'
  devices : ctx.devices.Balanced ctx.devlist
  finalized : ctx.finalized = ctx.devices.released
  fds : ctx.fds.Balanced (ctx.ownedFds ++ loose)
  wrfds : ctx.wrfds.Balanced wrfds

section
variable {ctx : Context} {n : DeviceId → Int} {loose wrfds : List FdId} {d : DeviceId}
  {dev dev' : Device} {fd : FdId}

theorem Counted.congr {n' : DeviceId → Int} (h : Counted ctx n loose wrfds) (hn : ∀ d, n d = n' d) :
    Counted ctx n' loose wrfds := funext hn ▸ h

theorem Counted.exists_device (h : Counted ctx n loose wrfds) (hd : 0 < n d) :
    ∃ dev, ctx.heap d = some dev := by
  cases hheap : ctx.heap d with
  | none =>
    have := h.dead d hheap
    omega
  | some dev => exact ⟨dev, rfl⟩

theorem Counted.pos_of_mem (h : Counted ctx n loose wrfds) (hd : d ∈ ctx.devlist) : 0 < n d := by
  obtain ⟨dev, hheap⟩ := (h.linked d).1 hd
  exact (h.live d dev hheap).2

theorem Counted.nonneg (h : Counted ctx n loose wrfds) (d : DeviceId) : 0 ≤ n d := by
  cases hheap : ctx.heap d with
  | none => exact Int.le_of_eq (h.dead d hheap).symm
  | some dev => exact Int.le_of_lt (h.live d dev hheap).2

theorem ownedFds_store (h : ctx.heap d = some dev) (hfd : dev'.fd = dev.fd) :
    (ctx.store d dev').ownedFds = ctx.ownedFds := by
  apply List.filterMap_congr
  intro x _
  by_cases hx : x = d
  · rw [hx, heap_store_self, h]
    simp [hfd]
  · rw [heap_store_ne hx]

/-- A store that keeps the address and the descriptor of the device. -/
theorem Counted.store {n' : DeviceId → Int} (h : Counted ctx n loose wrfds)
    (hd : ctx.heap d = some dev) (hfd : dev'.fd = dev.fd) (hbus : dev'.busno = dev.busno)
    (hdev : dev'.devno = dev.devno) (hn : dev'.refCount = n' d ∧ 0 < n' d)
    (hother : ∀ x, x ≠ d → n' x = n x) : Counted (ctx.store d dev') n' loose wrfds := by
  have address (x : DeviceId) (y : Device) (hx : (ctx.store d dev').heap x = some y) :
      ∃ z, ctx.heap x = some z ∧ y.busno = z.busno ∧ y.devno = z.devno := by
    by_cases hxd : x = d
    · rw [hxd, heap_store_self] at hx
      cases hx
      exact ⟨dev, hxd ▸ hd, hbus, hdev⟩
    · rw [heap_store_ne hxd] at hx
      exact ⟨y, hx, rfl, rfl⟩
  constructor
  · intro x y hx
    by_cases hxd : x = d
    · rw [hxd, heap_store_self] at hx
      cases hx
      rwa [hxd]
    · rw [heap_store_ne hxd] at hx
      rw [hother x hxd]
      exact h.live x y hx
  · intro x hx
    by_cases hxd : x = d
    · rw [hxd, heap_store_self] at hx
      cases hx
    · rw [heap_store_ne hxd] at hx
      rw [hother x hxd]
      exact h.dead x hx
  · intro x
    apply (h.linked x).trans
    by_cases hxd : x = d
    · rw [hxd, heap_store_self, hd]
      simp
    · rw [heap_store_ne hxd]
  · intro x x' y y' hx hx' hb hv
    obtain ⟨z, hz, zb, zv⟩ := address x y hx
    obtain ⟨z', hz', zb', zv'⟩ := address x' y' hx'
    exact h.distinct x x' z z' hz hz' (by rw [← zb, ← zb', hb]) (by rw [← zv, ← zv', hv])
  · exact h.devices
  · exact h.finalized
  · rw [ownedFds_store hd hfd]
    exact h.fds
  · exact h.wrfds

theorem libusbyRefDevice_counted (h : Counted ctx n loose wrfds) (hd : 0 < n d) :
    ∃ ctx', libusbyRefDevice ctx d = .ok ctx' ∧ Counted ctx' (n + tally [d]) loose wrfds := by
  obtain ⟨dev, hheap⟩ := h.exists_device hd
  refine ⟨_, by rw [libusbyRefDevice, deref_eq hheap, ok_bind], ?_⟩
  refine h.store hheap rfl rfl rfl ?_ fun x hx => ?_
  · have := (h.live d dev hheap).1
    simp only [Pi.add_apply, tally_self]
    omega
  · simp [tally_ne hx]

theorem remove_counted (h : Counted ctx n loose wrfds) (hd : ctx.heap d = some dev) (hn : n d = 1) :
    Counted (ctx.remove d dev) (n - tally [d]) loose wrfds := by
  have mem : d ∈ ctx.devlist := (h.linked d).2 ⟨dev, hd⟩
  have nodup := h.devices.owned_nodup
  have perm : ctx.devlist.Perm (d :: ctx.devlist.erase d) := List.perm_cons_erase mem
  have survivor (x : DeviceId) (y : Device) (hx : Function.update ctx.heap d none x = some y) :
      x ≠ d ∧ ctx.heap x = some y := by
    by_cases hxd : x = d
    · rw [hxd, Function.update_self] at hx
      cases hx
    · rw [Function.update_of_ne hxd] at hx
      exact ⟨hxd, hx⟩
  constructor
  · intro x y hx
    obtain ⟨hxd, hheap⟩ := survivor x y hx
    simpa [tally_ne hxd] using h.live x y hheap
  · intro x hx
    by_cases hxd : x = d
    · simp [hxd, tally_self, hn]
    · have hheap : ctx.heap x = none := (Function.update_of_ne hxd ..).symm.trans hx
      simp [tally_ne hxd, h.dead x hheap]
  · intro x
    rw [Context.remove, nodup.mem_erase_iff, h.linked x]
    by_cases hxd : x = d
    · simp [hxd]
    · simp [hxd]
  · intro x x' y y' hx hx'
    exact h.distinct x x' y y' (survivor x y hx).2 (survivor x' y' hx').2
  · exact Ledger.Balanced.release (h.devices.perm perm)
  · exact congrArg (d :: ·) h.finalized
  · have kept : (ctx.devlist.erase d).filterMap (fun x => (ctx.heap x).map (·.fd)) =
        (ctx.devlist.erase d).filterMap fun x => (Function.update ctx.heap d none x).map (·.fd) := by
      apply List.filterMap_congr
      intro x hx
      rw [Function.update_of_ne]
      exact (nodup.mem_erase_iff.1 hx).1
    have owned : ctx.ownedFds.Perm
        (dev.fd :: (ctx.devlist.erase d).filterMap fun x => (ctx.heap x).map (·.fd)) := by
      apply (perm.filterMap _).trans
      simp [hd]
    rw [kept] at owned
    exact Ledger.Balanced.release (h.fds.perm (owned.append_right loose))
  · exact h.wrfds

theorem libusbyUnrefDevice_counted (h : Counted ctx n loose wrfds) (hd : 0 < n d) :
    ∃ ctx', libusbyUnrefDevice ctx d = .ok ctx' ∧ Counted ctx' (n - tally [d]) loose wrfds := by
  obtain ⟨dev, hheap⟩ := h.exists_device hd
  have hcount := (h.live d dev hheap).1
  by_cases last : dev.refCount = 1
  · exact ⟨_, libusbyUnrefDevice_last hheap last, remove_counted h hheap (by omega)⟩
  · rw [libusbyUnrefDevice, deref_eq hheap, ok_bind, if_neg (by omega)]
    refine ⟨_, rfl, h.store hheap rfl rfl rfl ?_ fun x hx => ?_⟩
    · simp only [Pi.sub_apply, tally_self]
      omega
    · simp [tally_ne hx]

theorem acquireFd_counted (h : Counted ctx n [] wrfds) :
    Counted { ctx with fds := ctx.fds.acquire } n [ctx.fds.next] wrfds := by
  refine ⟨h.live, h.dead, h.linked, h.distinct, h.devices, h.finalized, ?_, h.wrfds⟩
  have fds := h.fds
  rw [List.append_nil] at fds
  exact fds.acquire.perm (List.perm_append_singleton _ _).symm

theorem closeFd_counted (h : Counted ctx n [fd] wrfds) : Counted (ctx.closeFd fd) n [] wrfds := by
  refine ⟨h.live, h.dead, h.linked, h.distinct, h.devices, h.finalized, ?_, h.wrfds⟩
  have fds := h.fds.perm (List.perm_append_singleton _ _)
  rw [List.append_nil]
  exact fds.release

/-- A new device takes the descriptor over. -/
theorem allocDevice_counted {busno devno : Int} (h : Counted ctx n [fd] wrfds)
    (hnew : ∀ d ∈ ctx.devlist, ∀ dev, ctx.heap d = some dev →
      ¬ (dev.busno = busno ∧ dev.devno = devno)) :
    Counted (allocDevice ctx busno devno fd) (n + tally [ctx.devices.next]) [] wrfds := by
  have unlinked : ctx.devices.next ∉ ctx.devlist := fun hmem =>
    absurd (h.devices.lt hmem) (Nat.lt_irrefl _)
  have unused : ctx.heap ctx.devices.next = none := by
    cases hheap : ctx.heap ctx.devices.next with
    | none => rfl
    | some dev => exact absurd ((h.linked _).2 ⟨dev, hheap⟩) unlinked
  have lookup (x : DeviceId) : (allocDevice ctx busno devno fd).heap x =
      if x = ctx.devices.next then some { refCount := 1, busno, devno, fd } else ctx.heap x := by
    simp [allocDevice, Context.store, Function.update_apply]
  have fresh (x : DeviceId) (y : Device) (hx : ctx.heap x = some y) : x ≠ ctx.devices.next := by
    rintro rfl
    rw [unused] at hx
    cases hx
  constructor
  · intro x y hx
    rw [lookup] at hx
    split_ifs at hx with hxd
    · cases hx
      simp [hxd, tally_self, h.dead _ unused]
    · simpa [tally_ne hxd] using h.live x y hx
  · intro x hx
    rw [lookup] at hx
    split_ifs at hx with hxd
    simpa [tally_ne hxd] using h.dead x hx
  · intro x
    rw [lookup]
    by_cases hxd : x = ctx.devices.next
    · simp [allocDevice, hxd]
    · simp [allocDevice, hxd, h.linked x]
  · intro x x' y y' hx hx' hb hv
    rw [lookup] at hx hx'
    split_ifs at hx with hxd <;> split_ifs at hx' with hxd'
    · rw [hxd, hxd']
    · cases hx
      exact absurd ⟨hb.symm, hv.symm⟩ (hnew x' ((h.linked x').2 ⟨y', hx'⟩) y' hx')
    · cases hx'
      exact absurd ⟨hb, hv⟩ (hnew x ((h.linked x).2 ⟨y, hx⟩) y hx)
    · exact h.distinct x x' y y' hx hx' hb hv
  · exact h.devices.acquire.perm (List.perm_append_singleton _ _).symm
  · exact h.finalized
  · have kept : ctx.devlist.filterMap (fun x => ((allocDevice ctx busno devno fd).heap x).map (·.fd)) =
        ctx.ownedFds := by
      apply List.filterMap_congr
      intro x hx
      have old : x ≠ ctx.devices.next := fun same => unlinked (same ▸ hx)
      rw [lookup, if_neg old]
    have owned : (allocDevice ctx busno devno fd).ownedFds = ctx.ownedFds ++ [fd] := by
      rw [← kept, Context.ownedFds]
      change (ctx.devlist ++ [ctx.devices.next]).filterMap _ = _
      rw [List.filterMap_append]
      simp [lookup]
    rw [owned, List.append_nil]
    exact h.fds
  · exact h.wrfds

/-- What the search asks of a device. -/
def Context.addressed (ctx : Context) (busno devno : Int) (d : DeviceId) : Bool :=
  (ctx.heap d).any fun dev => dev.busno = busno ∧ dev.devno = devno

theorem findDevice_find (ctx : Context) (busno devno : Int) {ds : List DeviceId}
    (memory : ∀ d ∈ ds, ∃ dev, ctx.heap d = some dev) :
    findDevice ctx busno devno ds = .ok (ds.find? (ctx.addressed busno devno)) := by
  refine loop_find rfl fun d hd rest => ?_
  obtain ⟨dev, hheap⟩ := memory d hd
  rw [findDevice, deref_eq hheap, ok_bind, Context.addressed, hheap]
  simp

/-- The search finds a device with the address, if there is one. -/
theorem findDevice_eq (ctx : Context) (busno devno : Int) {ds : List DeviceId}
    (h : ∀ d ∈ ds, ∃ dev, ctx.heap d = some dev) :
    (∃ d ∈ ds, ∃ dev, findDevice ctx busno devno ds = .ok (some d) ∧ ctx.heap d = some dev ∧
        dev.busno = busno ∧ dev.devno = devno) ∨
      findDevice ctx busno devno ds = .ok none ∧ ∀ d ∈ ds, ∀ dev, ctx.heap d = some dev →
        ¬ (dev.busno = busno ∧ dev.devno = devno) := by
  rw [findDevice_find ctx busno devno h]
  cases found : ds.find? (ctx.addressed busno devno) with
  | none =>
    refine .inr ⟨rfl, fun d hd dev hheap same => ?_⟩
    have missed := List.find?_eq_none.1 found d hd
    simp [Context.addressed, hheap, same] at missed
  | some d =>
    have mem := List.mem_of_find?_eq_some found
    obtain ⟨dev, hheap⟩ := h d mem
    have asked := List.find?_some found
    refine .inl ⟨d, mem, dev, rfl, hheap, ?_⟩
    simpa [Context.addressed, hheap] using asked

theorem unrefSlots_counted {ds : List DeviceId} {rest : List Slot} (h : Counted ctx n loose wrfds)
    (hd : ∀ d ∈ ds, tally ds d ≤ n d) :
    ∃ ctx', unrefSlots ctx (ds.map .entry ++ .null :: rest) = .ok ctx' ∧
      Counted ctx' (n - tally ds) loose wrfds := by
  induction ds generalizing ctx n with
  | nil => exact ⟨ctx, rfl, by rwa [tally_nil, sub_zero]⟩
  | cons d ds ih =>
    rw [tally_cons] at hd ⊢
    have first : 0 < n d := by
      have := hd d (List.mem_cons_self ..)
      have : 0 ≤ tally ds d := tally_nonneg
      simp only [Pi.add_apply, tally_self] at *
      omega
    obtain ⟨ctx₁, hunref, hcounted⟩ := libusbyUnrefDevice_counted h first
    have others : ∀ x ∈ ds, tally ds x ≤ (n - tally [d]) x := fun x hx => by
      have := hd x (List.mem_cons_of_mem _ hx)
      simp only [Pi.add_apply, Pi.sub_apply] at *
      omega
    obtain ⟨ctx₂, hrest, hcounted₂⟩ := ih hcounted others
    refine ⟨ctx₂, ?_, by rwa [← sub_sub]⟩
    rw [List.map_cons, List.cons_append, unrefSlots, hunref, ok_bind, hrest]

theorem libusbyFreeDeviceList_counted {list : DeviceArray} {ds : List DeviceId}
    (h : Counted ctx n loose wrfds) (hlist : list.Lists ds) (hd : ∀ d ∈ ds, tally ds d ≤ n d) :
    ∃ ctx', libusbyFreeDeviceList ctx list true = .ok ctx' ∧
      Counted ctx' (n - tally ds) loose wrfds := by
  cases list with
  | none =>
    cases hlist
    exact ⟨ctx, rfl, by rwa [tally_nil, sub_zero]⟩
  | some slots =>
    obtain ⟨rest, rfl⟩ := hlist
    exact unrefSlots_counted h hd

/-- A handle and its descriptor, if there is one. -/
theorem libusbyOpen_counted (h : Counted ctx n loose wrfds) (hd : 0 < n d) (outcome : OpenOutcome) :
    ∃ r ctx', libusbyOpen ctx outcome d = .ok (r, ctx') ∧
      ((∃ e, r = .error e) ∧ Counted ctx' n loose wrfds ∨
        ∃ handle, r = .ok handle ∧ handle.dev = d ∧
          Counted ctx' (n + tally [d]) loose (handle.wrfd :: wrfds)) := by
  obtain ⟨dev, hheap⟩ := h.exists_device hd
  rw [libusbyOpen]
  by_cases hmalloc : outcome.malloc = true
  · rw [if_neg (not_not.2 hmalloc), usbybOpen, deref_eq hheap, ok_bind]
    by_cases hopen : outcome.opens = true
    · have counted : Counted { ctx with wrfds := ctx.wrfds.acquire } n loose (ctx.wrfds.next :: wrfds) :=
        ⟨h.live, h.dead, h.linked, h.distinct, h.devices, h.finalized, h.fds, h.wrfds.acquire⟩
      obtain ⟨ctx', href, hcounted⟩ := libusbyRefDevice_counted counted hd
      rw [if_pos hopen, ok_bind]
      simp only [href, ok_bind]
      exact ⟨_, _, rfl, Or.inr ⟨_, rfl, rfl, hcounted⟩⟩
    · rw [if_neg hopen, ok_bind]
      exact ⟨_, _, rfl, Or.inl ⟨⟨_, rfl⟩, h⟩⟩
  · rw [if_pos hmalloc]
    exact ⟨_, _, rfl, Or.inl ⟨⟨_, rfl⟩, h⟩⟩

theorem libusbyClose_counted {handle : DeviceHandle}
    (h : Counted ctx n loose (handle.wrfd :: wrfds)) (hd : 0 < n handle.dev) :
    ∃ ctx', libusbyClose ctx handle = .ok ctx' ∧ Counted ctx' (n - tally [handle.dev]) loose wrfds := by
  have closed : Counted (usbybClose ctx handle) n loose wrfds :=
    ⟨h.live, h.dead, h.linked, h.distinct, h.devices, h.finalized, h.fds, h.wrfds.release⟩
  exact libusbyUnrefDevice_counted closed hd

end

end Libusby.Linux
