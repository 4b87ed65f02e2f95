import Libusby.Linux.Iteration
import Libusby.Linux.RefCount.Accounting

/-!
# Accounting for an enumeration

Between two files the enumeration holds one reference for every entry of its list,
on top of the references `n` that were there before. On the way to `error` the
descriptor of the last file is open as well.
-/

namespace Libusby.Linux

open Foundations Libusby.Core

/-- The books of an enumeration. -/
def Enumerated (n : DeviceId → Int) (loose wrfds : List FdId) (s : Enum) : Prop :=
  ∃ ds, s.devlist.Holds ds ∧ Counted s.ctx (n + tally ds) loose wrfds

/-- The books where an iteration ends. -/
def Left (n : DeviceId → Int) (wrfds : List FdId) : Leave → Prop
  | .next s => Enumerated n [] wrfds s
  | .error s fd => Enumerated n [fd] wrfds s ∧ s.r.code < 0

/-- Where an iteration for a file ends: what becomes of the devices in memory, of the context's
list and of the entries `ds` of the list that is being built. -/
inductive Iterated (ok : Nat → Bool) (busno : Int) (e : DevEntry) (s : Enum) (ds : List DeviceId) :
    Leave → Prop where
  | skipped (hidden : e.shows = none) : Iterated ok busno e s ds (.next s)
  | known {d : DeviceId} {dev : Device} {s' : Enum} (shown : e.shows = some dev.devno)
      (bus : dev.busno = busno) (mem : d ∈ s.ctx.devlist) (found : s.ctx.heap d = some dev)
      (heap : s'.ctx.heap =
        Function.update s.ctx.heap d (some { dev with refCount := dev.refCount + 1 }))
      (devlist : s'.ctx.devlist = s.ctx.devlist) (holds : s'.devlist.Holds (ds ++ [d]))
      (r : s'.r = .success) : Iterated ok busno e s ds (.next s')
  | listed {dev : Device} {s' : Enum} (shown : e.shows = some dev.devno) (bus : dev.busno = busno)
      (new : ∀ d ∈ s.ctx.devlist, ∀ x, s.ctx.heap d = some x →
        ¬ (x.busno = busno ∧ x.devno = dev.devno))
      (fresh : s.ctx.heap s.ctx.devices.next = none)
      (read : descriptors e.read = some (dev.deviceDesc, dev.descCache))
      (heap : s'.ctx.heap = Function.update s.ctx.heap s.ctx.devices.next (some dev))
      (devlist : s'.ctx.devlist = s.ctx.devlist ++ [s.ctx.devices.next])
      (holds : s'.devlist.Holds (ds ++ [s.ctx.devices.next])) (r : s'.r = .success) :
      Iterated ok busno e s ds (.next s')
  /-- `error_unref_dev`. -/
  | unlisted {devno : Int} {s' : Enum} (shown : e.shows = some devno)
      (new : ∀ d ∈ s.ctx.devlist, ∀ x, s.ctx.heap d = some x →
        ¬ (x.busno = busno ∧ x.devno = devno))
      (heap : s'.ctx.heap = s.ctx.heap) (devlist : s'.ctx.devlist = s.ctx.devlist)
      (holds : s'.devlist.Holds ds)
      (r : s'.r = .success ∧ descriptors e.read = none ∨ s'.r = .noMem ∧ ∃ c, ok c = false) :
      Iterated ok busno e s ds (.next s')
  /-- `error`. -/
  | full {s' : Enum} {fd : FdId} (heap : s'.ctx.heap = s.ctx.heap) (holds : s'.devlist.Holds ds)
      (r : s'.r = .noMem) (memory : ∃ c, ok c = false) : Iterated ok busno e s ds (.error s' fd)

section
variable {n : DeviceId → Int} {wrfds : List FdId} {s : Enum} {d : DeviceId} {fd : FdId}
  {busno devno : Int} {ds : List DeviceId} {ok : Nat → Bool} {e : DevEntry} {dev : Device}

theorem enumKnown_iterated (holds : s.devlist.Holds ds)
    (counted : Counted s.openFile.ctx (n + tally ds) [fd] wrfds) (hd : d ∈ s.ctx.devlist)
    (hheap : s.ctx.heap d = some dev) (shown : e.shows = some dev.devno) (bus : dev.busno = busno) :
    ∃ left, enumKnown ok s.openFile d fd = .ok left ∧ Iterated ok busno e s ds left ∧
      Left n wrfds left := by
  have hd' : d ∈ s.openFile.ctx.devlist := hd
  have hheap' : s.openFile.ctx.heap d = some dev := hheap
  obtain ⟨r, calls, happend, hr⟩ :=
    usbyiAppendDeviceList_holds (show s.openFile.devlist.Holds ds from holds) ok s.openFile.calls d
  rw [enumKnown, happend, ok_bind]
  rcases hr with ⟨rfl, memory⟩ | ⟨devlist, rfl, holds'⟩
  · refine ⟨_, rfl, .full rfl holds rfl ⟨_, memory⟩, ⟨ds, holds, counted⟩, ?_⟩
    exact show Error.noMem.code < 0 by decide
  · obtain ⟨ctx, href, counted'⟩ := libusbyRefDevice_counted counted (counted.pos_of_mem hd')
    simp only [href, ok_bind]
    rw [libusbyRefDevice, deref_eq hheap'] at href
    cases href
    refine ⟨_, rfl, .known shown bus hd hheap rfl rfl holds' rfl, ds ++ [d], holds', ?_⟩
    rw [tally_append, ← add_assoc]
    exact closeFd_counted counted'

/-- A device that the enumeration has made and not listed is given up, and nothing is left
of it. -/
theorem errorUnrefDev_iterated {t : Enum} (holds : t.devlist.Holds ds)
    (counted : Counted t.ctx (n + tally ds + tally [d]) [] wrfds)
    (unlinked : d ∉ s.ctx.devlist) (fresh : s.ctx.heap d = none)
    (heap : t.ctx.heap = Function.update s.ctx.heap d (some dev)) (one : dev.refCount = 1)
    (devlist : t.ctx.devlist = s.ctx.devlist ++ [d]) {r : Error} {calls : Nat}
    (shown : e.shows = some devno)
    (new : ∀ x ∈ s.ctx.devlist, ∀ y, s.ctx.heap x = some y → ¬ (y.busno = busno ∧ y.devno = devno))
    (hr : r = .success ∧ descriptors e.read = none ∨ r = .noMem ∧ ∃ c, ok c = false) :
    ∃ left, errorUnrefDev t d r calls = .ok left ∧ Iterated ok busno e s ds left ∧
      Left n wrfds left := by
  have hd : t.ctx.heap d = some dev := by rw [heap, Function.update_self]
  have made := remove_counted counted hd (by rw [← (counted.live d dev hd).1, one])
  rw [add_sub_cancel_right] at made
  rw [errorUnrefDev, libusbyUnrefDevice_last hd one, ok_bind]
  refine ⟨_, rfl, .unlisted shown new ?_ ?_ holds hr, ds, holds, made⟩
  · simp only [Context.remove, heap, Function.update_idem]
    rw [← fresh, Function.update_eq_self]
  · simp only [Context.remove, devlist]
    rw [List.erase_append_right _ unlinked, List.erase_cons_head, List.append_nil]

theorem enumNew_iterated (holds : s.devlist.Holds ds)
    (counted : Counted s.openFile.ctx (n + tally ds) [fd] wrfds) (shown : e.shows = some devno)
    (new : ∀ x ∈ s.ctx.devlist, ∀ y, s.ctx.heap x = some y → ¬ (y.busno = busno ∧ y.devno = devno)) :
    ∃ left, enumNew ok s.openFile busno devno fd e.read = .ok left ∧
      Iterated ok busno e s ds left ∧ Left n wrfds left := by
  have unlinked : s.ctx.devices.next ∉ s.ctx.devlist := fun hmem =>
    absurd (counted.devices.lt hmem) (Nat.lt_irrefl _)
  have fresh : s.ctx.heap s.ctx.devices.next = none := by
    refine Option.eq_none_iff_forall_ne_some.2 fun x hx => unlinked ?_
    exact (counted.linked _).2 ⟨x, hx⟩
  have made := allocDevice_counted counted new
  have hheap : (allocDevice s.openFile.ctx busno devno fd).heap s.openFile.ctx.devices.next =
      some { refCount := 1, busno, devno, fd } := Function.update_self ..
  rw [enumNew]
  generalize hread : readDescriptors ok e.read s.openFile.calls = readOut
  obtain ⟨out, calls⟩ := readOut
  obtain ⟨⟨deviceDesc, descCache⟩, rfl, read⟩ | ⟨rfl, unreadable⟩ | ⟨rfl, memory⟩ :=
    readDescriptors_cases hread
  · simp only [deref_eq hheap, ok_bind]
    let dev : Device := { refCount := 1, deviceDesc, busno, devno, fd, descCache }
    have stored : Counted
        ((allocDevice s.openFile.ctx busno devno fd).store s.openFile.ctx.devices.next dev) _ [] wrfds :=
      made.store hheap rfl rfl rfl (made.live _ { refCount := 1, busno, devno, fd } hheap)
        fun _ _ => rfl
    have heap : ((allocDevice s.openFile.ctx busno devno fd).store s.openFile.ctx.devices.next dev).heap
        = Function.update s.ctx.heap s.ctx.devices.next (some dev) := Function.update_idem ..
    obtain ⟨r, calls', happend, ⟨rfl, memory⟩ | ⟨devlist, rfl, holds'⟩⟩ :=
      usbyiAppendDeviceList_holds (show s.openFile.devlist.Holds ds from holds) ok calls
        s.openFile.ctx.devices.next
    · simp only [happend, ok_bind]
      exact errorUnrefDev_iterated (t := { s.openFile with ctx := Context.store _ _ dev }) holds
        stored unlinked fresh heap rfl rfl shown new (.inr ⟨rfl, _, memory⟩)
    · simp only [happend, ok_bind]
      refine ⟨_, rfl, .listed shown rfl new fresh read heap rfl holds' rfl,
        ds ++ [s.ctx.devices.next], holds', ?_⟩
      rw [tally_append, ← add_assoc]
      exact stored
  · exact errorUnrefDev_iterated (t := { s.openFile with ctx := allocDevice _ _ _ _ }) holds made
      unlinked fresh rfl rfl rfl shown new (.inl ⟨rfl, unreadable⟩)
  · exact errorUnrefDev_iterated (t := { s.openFile with ctx := allocDevice _ _ _ _ }) holds made
      unlinked fresh rfl rfl rfl shown new (.inr ⟨rfl, memory⟩)

/-- An iteration comes to one of its ends, with the books in order. -/
theorem enumFile_iterated (holds : s.devlist.Holds ds)
    (counted : Counted s.ctx (n + tally ds) [] wrfds) (ok : Nat → Bool) (busno : Int)
    (e : DevEntry) :
    ∃ left, enumFile ok busno e s = .ok left ∧ Iterated ok busno e s ds left ∧
      Left n wrfds left := by
  cases shown : e.shows with
  | none => exact ⟨_, enumFile_hidden shown, .skipped shown, ds, holds, counted⟩
  | some devno =>
    have opened := acquireFd_counted counted
    obtain ⟨d, hd, dev, hfind, hheap, rfl, rfl⟩ | ⟨hfind, hnew⟩ :=
      findDevice_eq s.ctx busno devno fun d hd => (counted.linked d).1 hd
    · rw [enumFile_found shown hfind]
      exact enumKnown_iterated holds opened hd hheap shown rfl
    · rw [enumFile_missing shown hfind, if_pos rfl]
      exact enumNew_iterated holds opened shown hnew

/-- The loops come to an end with the books in order and every property that the iterations
keep. -/
theorem enumAll_induction {P : Context → Prop} (fs : List (Int × DevEntry))
    (iteration : ∀ f ∈ fs, ∀ s ds left, P s.ctx → Iterated ok f.1 f.2 s ds left →
      P left.enum.ctx)
    (h : Enumerated n [] wrfds s) (start : P s.ctx) :
    ∃ left, enumAll ok (fun _ => true) fs s = .ok left ∧ Left n wrfds left ∧ P left.enum.ctx := by
  induction fs generalizing s with
  | nil => exact ⟨_, rfl, h, start⟩
  | cons f fs ih =>
    obtain ⟨first, others⟩ := List.forall_mem_cons.1 iteration
    rw [enumAll]
    by_cases failed : s.r.code < 0
    · rw [if_pos failed]
      exact ⟨_, rfl, h, start⟩
    · obtain ⟨ds, holds, counted⟩ := h
      obtain ⟨left, hfile, iterated, hleft⟩ := enumFile_iterated holds counted ok f.1 f.2
      have kept := first s ds left start iterated
      rw [if_neg failed, hfile, ok_bind]
      cases left with
      | next s => exact ih others hleft kept
      | error s fd => exact ⟨_, rfl, hleft, kept⟩

theorem enumAll_left (h : Enumerated n [] wrfds s) (ok : Nat → Bool) (fs : List (Int × DevEntry)) :
    ∃ left, enumAll ok (fun _ => true) fs s = .ok left ∧ Left n wrfds left := by
  obtain ⟨left, hall, hleft, -⟩ := enumAll_induction (P := fun _ => True) fs
    (fun _ _ _ _ _ _ _ => trivial) h trivial
  exact ⟨left, hall, hleft⟩

end

/-- A successful enumeration hands over one reference for each entry, a failed one
nothing. -/
theorem usbybGetDeviceList_counted {ctx : Context} {n : DeviceId → Int} {wrfds : List FdId}
    (h : Counted ctx n [] wrfds) (ok : Nat → Bool) (dir : Option (List BusEntry)) :
    ∃ listed, usbybGetDeviceList ok ctx dir = .ok listed ∧
      (listed.r < 0 ∧ Counted listed.ctx n [] wrfds ∨
        ∃ list ds, listed.list = some list ∧ list.Lists ds ∧ listed.r = ds.length ∧
          Counted listed.ctx (n + tally ds) [] wrfds) := by
  cases dir with
  | none =>
    refine ⟨_, rfl, Or.inr ⟨none, [], rfl, rfl, rfl, ?_⟩⟩
    rwa [tally_nil, add_zero]
  | some bs =>
    have start : Enumerated n [] wrfds { ctx } :=
      ⟨[], DeviceList.holds_nil, by rwa [tally_nil, add_zero]⟩
    obtain ⟨left, hall, hleft⟩ := enumAll_left start ok (files bs)
    rw [usbybGetDeviceList, enumRoot_eq, hall, ok_bind]
    cases left with
    | next s =>
      obtain ⟨ds, holds, counted⟩ := hleft
      exact ⟨_, rfl, Or.inr ⟨_, ds, rfl, holds.lists, congrArg Int.ofNat holds.count, counted⟩⟩
    | error s fd =>
      obtain ⟨⟨ds, holds, counted⟩, failed⟩ := hleft
      have closed := closeFd_counted counted
      have listed : ∀ d ∈ ds, tally ds d ≤ (n + tally ds) d := fun d _ => by
        have := h.nonneg d
        simp only [Pi.add_apply]
        omega
      obtain ⟨ctx', hfree, counted'⟩ := libusbyFreeDeviceList_counted closed holds.lists listed
      rw [add_sub_cancel_right] at counted'
      simp only [hfree]
      by_cases allocated : s.devlist.list.isSome = true
      · rw [if_pos allocated]
        exact ⟨_, rfl, Or.inl ⟨failed, counted'⟩⟩
      · rw [if_neg allocated]
        have empty : s.devlist.list = none := by simpa using allocated
        have lists := holds.lists
        rw [empty] at lists
        cases lists
        rw [tally_nil, add_zero] at closed
        exact ⟨_, rfl, Or.inl ⟨failed, closed⟩⟩

/-- A property that every iteration keeps, if there is a list to return. -/
theorem usbybGetDeviceList_listed {P : Context → Prop} {ctx : Context} {n : DeviceId → Int}
    {wrfds : List FdId} {ok : Nat → Bool} {dir : Option (List BusEntry)} {listed : Listed}
    {list : DeviceArray}
    (iteration : ∀ f ∈ files (dir.getD []), ∀ s ds left, P s.ctx → Iterated ok f.1 f.2 s ds left →
      P left.enum.ctx)
    (counted : Counted ctx n [] wrfds) (start : P ctx)
    (h : usbybGetDeviceList ok ctx dir = .ok listed) (hlist : listed.list = some list) :
    P listed.ctx := by
  cases dir with
  | none =>
    cases h
    exact start
  | some bs =>
    have books : Enumerated n [] wrfds { ctx } :=
      ⟨[], DeviceList.holds_nil, by rwa [tally_nil, add_zero]⟩
    obtain ⟨left, hall, -, all⟩ := enumAll_induction (files bs) iteration books start
    rw [usbybGetDeviceList, enumRoot_eq, hall, ok_bind] at h
    cases left with
    | next s =>
      cases h
      exact all
    | error s fd =>
      simp only at h
      split_ifs at h
      · obtain ⟨ctx', -, h⟩ := bind_eq_ok.1 h
        cases h
        cases hlist
      · cases h
        cases hlist

/-- A property that every iteration and every reference more or less keep. -/
theorem usbybGetDeviceList_induction {P : Context → Prop} {ctx : Context} {n : DeviceId → Int}
    {wrfds : List FdId} {ok : Nat → Bool} {dir : Option (List BusEntry)} {listed : Listed}
    (framed : Context.Framed P)
    (iteration : ∀ f ∈ files (dir.getD []), ∀ s ds left, P s.ctx → Iterated ok f.1 f.2 s ds left →
      P left.enum.ctx)
    (counted : Counted ctx n [] wrfds) (start : P ctx)
    (h : usbybGetDeviceList ok ctx dir = .ok listed) : P listed.ctx := by
  cases dir with
  | none =>
    cases h
    exact start
  | some bs =>
    have books : Enumerated n [] wrfds { ctx } :=
      ⟨[], DeviceList.holds_nil, by rwa [tally_nil, add_zero]⟩
    obtain ⟨left, hall, -, all⟩ := enumAll_induction (files bs) iteration books start
    rw [usbybGetDeviceList, enumRoot_eq, hall, ok_bind] at h
    cases left with
    | next s =>
      cases h
      exact all
    | error s fd =>
      have closed : P (s.ctx.closeFd fd) := framed.congr s.ctx _ all rfl rfl rfl
      simp only at h
      split_ifs at h
      · obtain ⟨ctx', hfree, h⟩ := bind_eq_ok.1 h
        cases h
        exact framed.freeDeviceList closed hfree
      · cases h
        exact closed

end Libusby.Linux
