import Libusby.Win32.Client

/-!
# References on libusb0

`Counted ctx n D` are the books of a context: device `d` has `n d` references and the descriptor
`D d`, which is valid. A client may give back more than it took, so the books follow the context
and not the client.
-/

namespace Libusby.Win32

open Foundations Libusby.Core

structure Counted (ctx : Context) (n : DeviceId → Int) (D : DeviceId → Bytes 18) : Prop where
  wellFormed : ctx.WellFormed
  live : ∀ d dev, ctx.heap d = some dev →
    dev.refCount = n d ∧ 0 < n d ∧ dev.deviceDesc = D d ∧ (D d).get 0 = 18
  dead : ∀ d, ctx.heap d = none → n d = 0

section
variable {ctx ctx' : Context} {n : DeviceId → Int} {D : DeviceId → Bytes 18} {d : DeviceId}
  {dev : Device} {ds : List DeviceId}

theorem Counted.exists_device (h : Counted ctx n D) (hd : 0 < n d) :
    ∃ dev, ctx.heap d = some dev := by
  cases hheap : ctx.heap d with
  | none =>
    have := h.dead d hheap
    omega
  | some dev => exact ⟨dev, rfl⟩

theorem Counted.nonneg (h : Counted ctx n D) (d : DeviceId) : 0 ≤ n d := by
  cases hheap : ctx.heap d with
  | none => exact Int.le_of_eq (h.dead d hheap).symm
  | some dev => exact Int.le_of_lt (h.live d dev hheap).2.1

/-- One device is stored to or made. -/
theorem Counted.update {n' : DeviceId → Int} {D' : DeviceId → Bytes 18} (h : Counted ctx n D)
    (wf : ctx'.WellFormed) (heap : ctx'.heap = Function.update ctx.heap d (some dev))
    (here : dev.refCount = n' d ∧ 0 < n' d ∧ dev.deviceDesc = D' d ∧ (D' d).get 0 = 18)
    (others : ∀ x, x ≠ d → n' x = n x ∧ D' x = D x) : Counted ctx' n' D' := by
  refine ⟨wf, fun x y hx => ?_, fun x hx => ?_⟩
  · rw [heap] at hx
    by_cases same : x = d
    · subst same
      cases (Function.update_self ..).symm.trans hx
      exact here
    · rw [(others x same).1, (others x same).2]
      exact h.live x y ((Function.update_of_ne same ..).symm.trans hx)
  · rw [heap] at hx
    by_cases same : x = d
    · subst same
      cases (Function.update_self ..).symm.trans hx
    · rw [(others x same).1]
      exact h.dead x ((Function.update_of_ne same ..).symm.trans hx)

/-- A store that changes the references of one device. -/
theorem Counted.store {n' : DeviceId → Int} {count : Int} (h : Counted ctx n D)
    (hd : ctx.heap d = some dev) (hn : count = n' d) (pos : 0 < count)
    (hother : ∀ x, x ≠ d → n' x = n x) :
    Counted (ctx.store d { dev with refCount := count }) n' D := by
  obtain ⟨-, -, desc, valid⟩ := h.live d dev hd
  exact h.update (h.wellFormed.store hd rfl) rfl ⟨hn, hn ▸ pos, desc, valid⟩
    fun x ne => ⟨hother x ne, rfl⟩

theorem libusbyRefDevice_counted (h : Counted ctx n D) (hd : 0 < n d) :
    ∃ ctx', libusbyRefDevice ctx d = .ok ctx' ∧ Counted ctx' (n + tally [d]) D := by
  obtain ⟨dev, hheap⟩ := h.exists_device hd
  have count := (h.live d dev hheap).1
  rw [libusbyRefDevice, deref_eq hheap, ok_bind]
  refine ⟨_, rfl, h.store hheap ?_ (by omega) fun x ne => ?_⟩
  · rw [Pi.add_apply, tally_self, count]
  · rw [Pi.add_apply, tally_ne ne, add_zero]

theorem libusbyUnrefDevice_counted (h : Counted ctx n D) (hd : 0 < n d) :
    ∃ ctx', libusbyUnrefDevice ctx d = .ok ctx' ∧ Counted ctx' (n - tally [d]) D := by
  obtain ⟨dev, hheap⟩ := h.exists_device hd
  have count := (h.live d dev hheap).1
  have self : (n - tally [d]) d = n d - 1 := by rw [Pi.sub_apply, tally_self]
  have others (x : DeviceId) (ne : x ≠ d) : (n - tally [d]) x = n x := by
    rw [Pi.sub_apply, tally_ne ne, sub_zero]
  by_cases last : dev.refCount = 1
  · refine ⟨_, libusbyUnrefDevice_last hheap last, h.wellFormed.remove, fun x y hx => ?_,
      fun x hx => ?_⟩
    · by_cases same : x = d
      · subst same
        cases (Function.update_self ..).symm.trans hx
      · rw [others x same]
        exact h.live x y ((Function.update_of_ne same ..).symm.trans hx)
    · by_cases same : x = d
      · rw [same, self]
        omega
      · rw [others x same]
        exact h.dead x ((Function.update_of_ne same ..).symm.trans hx)
  · simp only [libusbyUnrefDevice, deref_eq hheap, ok_bind]
    rw [if_neg (by omega)]
    exact ⟨_, rfl, h.store hheap (by omega) (by omega) others⟩

theorem unrefSlots_counted {rest : List Slot} (h : Counted ctx n D)
    (hd : ∀ d ∈ ds, tally ds d ≤ n d) :
    ∃ ctx', unrefSlots ctx (ds.map .entry ++ .null :: rest) = .ok ctx' ∧
      Counted ctx' (n - tally ds) D := by
  induction ds generalizing ctx n with
  | nil => exact ⟨ctx, rfl, by rwa [tally_nil, sub_zero]⟩
  | cons d ds ih =>
    rw [tally_cons] at hd ⊢
    have first : 0 < n d := by
      have := hd d (List.mem_cons_self ..)
      have : 0 ≤ tally ds d := tally_nonneg
      simp only [Pi.add_apply, tally_self] at *
      omega
    obtain ⟨ctx₁, hunref, hcounted⟩ := libusbyUnrefDevice_counted h first
    have others : ∀ x ∈ ds, tally ds x ≤ (n - tally [d]) x := fun x hx => by
      have := hd x (List.mem_cons_of_mem _ hx)
      simp only [Pi.add_apply, Pi.sub_apply] at *
      omega
    obtain ⟨ctx₂, hrest, hcounted₂⟩ := ih hcounted others
    refine ⟨ctx₂, ?_, by rwa [← sub_sub]⟩
    rw [List.map_cons, List.cons_append, unrefSlots, hunref, ok_bind, hrest]

theorem libusbyFreeDeviceList_counted {list : DeviceArray} (h : Counted ctx n D)
    (hlist : list.Lists ds) (hd : ∀ d ∈ ds, tally ds d ≤ n d) :
    ∃ ctx', libusbyFreeDeviceList ctx list true = .ok ctx' ∧ Counted ctx' (n - tally ds) D := by
  cases list with
  | none =>
    cases hlist
    exact ⟨ctx, rfl, by rwa [tally_nil, sub_zero]⟩
  | some slots =>
    obtain ⟨rest, rfl⟩ := hlist
    exact unrefSlots_counted h hd

/-! ## The enumeration -/

variable {ok : Nat → Bool} {attached : Nat → Option SyncResult} {i : Nat} {s : Enum} {left : Leave}
  {io : SyncResult} {hFile : FileId}

/-- A device that is given up with one reference is gone. -/
theorem unrefNew_gone {calls : Nat} (hd : s.ctx.heap d = some dev) (one : dev.refCount = 1)
    (h : unrefNew s d calls = .ok left) : left.ctx.heap d = none := by
  rw [unrefNew, libusbyUnrefDevice_last hd one, ok_bind] at h
  cases h
  exact Function.update_self ..

theorem enumKnown_fresh (h : enumKnown ok s d hFile = .ok left)
    (fresh : s.ctx.heap s.ctx.devices.next = none) :
    left.ctx.heap s.ctx.devices.next = none := by
  obtain ⟨⟨appended, calls⟩, -, h⟩ := bind_eq_ok.1 h
  cases appended with
  | error e =>
    cases h
    exact fresh
  | ok devlist =>
    obtain ⟨ctx, href, h⟩ := bind_eq_ok.1 h
    cases h
    obtain ⟨dev, hd, rfl⟩ := libusbyRefDevice_eq_ok href
    refine (Function.update_of_ne ?_ ..).trans fresh
    rintro same
    cases fresh.symm.trans (same ▸ hd)

theorem enumNew_fresh (h : enumNew ok s i hFile io = .ok left)
    (hd : left.ctx.heap s.ctx.devices.next = some dev) : dev.refCount = 1 := by
  have made : (allocDevice s.ctx i hFile).heap s.ctx.devices.next =
      some { refCount := 1, devno := i, hFile } := Function.update_self ..
  unfold enumNew at h
  cases hread : readDeviceDesc io with
  | none =>
    rw [hread] at h
    have gone := unrefNew_gone (s := { s with ctx := allocDevice s.ctx i hFile }) made rfl h
    cases gone.symm.trans hd
  | some deviceDesc =>
    simp only [hread, deref_eq made, ok_bind] at h
    obtain ⟨⟨appended, calls⟩, -, h⟩ := bind_eq_ok.1 h
    cases appended with
    | error e =>
      have gone := unrefNew_gone (Function.update_self ..) rfl h
      cases gone.symm.trans hd
    | ok devlist =>
      cases h
      cases (Function.update_self ..).symm.trans hd
      rfl

/-- A device that an iteration makes has one reference. -/
theorem enumDevice_fresh (h : enumDevice ok (fun _ => true) attached i s = .ok left)
    (fresh : s.ctx.heap s.ctx.devices.next = none)
    (hd : left.ctx.heap s.ctx.devices.next = some dev) : dev.refCount = 1 := by
  unfold enumDevice at h
  cases shown : attached i with
  | none =>
    rw [shown] at h
    cases h
    cases fresh.symm.trans hd
  | some io =>
    rw [shown] at h
    obtain ⟨found, -, h⟩ := bind_eq_ok.1 h
    cases found with
    | some d =>
      have none := enumKnown_fresh (s := s.openFile) h fresh
      cases none.symm.trans hd
    | none => exact enumNew_fresh (s := s.openFile) h hd

theorem readDeviceDesc_valid {desc : Bytes 18} (h : readDeviceDesc io = some desc) :
    desc.get 0 = 18 := by
  simp only [readDeviceDesc] at h
  split_ifs at h
  unfold usbyiSanitizeDeviceDesc at h
  split_ifs at h with invalid
  · cases h
  · cases h
    exact not_not.1 invalid

/-- An iteration keeps the books: an entry more is a reference more. -/
theorem enumDevice_counted (h : Counted s.ctx (n + tally ds) D) (holds : s.devlist.Holds ds)
    (ok : Nat → Bool) (attached : Nat → Option SyncResult) (i : Nat) :
    ∃ left D', enumDevice ok (fun _ => true) attached i s = .ok left ∧
      ((∃ s' ds', left = .next s' ∧ s'.devlist.Holds ds' ∧ Counted s'.ctx (n + tally ds') D') ∨
        ∃ s', left = .error s' ∧ s'.devlist.Holds ds ∧ Counted s'.ctx (n + tally ds) D') := by
  obtain ⟨left, hrun, iterated, wf⟩ := enumDevice_iterated h.wellFormed holds ok attached i
  cases iterated with
  | skipped hidden => exact ⟨_, D, hrun, .inl ⟨s, ds, rfl, holds, h⟩⟩
  | @known d dev _ s' shown number mem found heap devlist holds' =>
    obtain ⟨count, pos, desc, valid⟩ := h.live d dev found
    refine ⟨_, D, hrun, .inl ⟨s', _, rfl, holds', ?_⟩⟩
    rw [tally_append, ← add_assoc]
    refine h.update wf heap ⟨?_, ?_, desc, valid⟩ fun x ne => ⟨?_, rfl⟩
    · rw [Pi.add_apply _ (tally [d]), tally_self, ← count]
    · rw [Pi.add_apply _ (tally [d]), tally_self]
      omega
    · rw [Pi.add_apply _ (tally [d]), tally_ne ne, add_zero]
  | @listed dev _ s' shown number new fresh read heap devlist holds' =>
    have made : s'.ctx.heap s.ctx.devices.next = some dev := by rw [heap, Function.update_self]
    have one := enumDevice_fresh hrun fresh made
    have none := h.dead _ fresh
    refine ⟨_, Function.update D s.ctx.devices.next dev.deviceDesc, hrun,
      .inl ⟨s', _, rfl, holds', ?_⟩⟩
    rw [tally_append, ← add_assoc]
    refine h.update wf heap ⟨?_, ?_, ?_, ?_⟩ fun x ne => ⟨?_, ?_⟩
    · rw [Pi.add_apply _ (tally [_]), tally_self, none, one]
      rfl
    · rw [Pi.add_apply _ (tally [_]), tally_self, none]
      exact Int.one_pos
    · rw [Function.update_self]
    · rw [Function.update_self]
      exact readDeviceDesc_valid read
    · rw [Pi.add_apply _ (tally [_]), tally_ne ne, add_zero]
    · exact Function.update_of_ne ne ..
  | @failed _ s' shown heap holds' why =>
    refine ⟨_, D, hrun, .inr ⟨s', rfl, holds', wf, ?_, ?_⟩⟩
    · exact heap ▸ h.live
    · exact heap ▸ h.dead

theorem enumDevices_counted (ok : Nat → Bool) (attached : Nat → Option SyncResult) (is : List Nat)
    (h : Counted s.ctx (n + tally ds) D) (holds : s.devlist.Holds ds) :
    ∃ left D', enumDevices ok (fun _ => true) attached is s = .ok left ∧
      ((∃ s' ds', left = .next s' ∧ s'.devlist.Holds ds' ∧ Counted s'.ctx (n + tally ds') D') ∨
        ∃ s' ds', left = .error s' ∧ s'.devlist.Holds ds' ∧ Counted s'.ctx (n + tally ds') D') := by
  induction is generalizing s ds D with
  | nil => exact ⟨_, D, rfl, .inl ⟨s, ds, rfl, holds, h⟩⟩
  | cons i is ih =>
    obtain ⟨left, D', hrun, ⟨s', ds', rfl, holds', counted⟩ | ⟨s', rfl, holds', counted⟩⟩ :=
      enumDevice_counted h holds ok attached i
    · rw [enumDevices, hrun, ok_bind]
      exact ih counted holds'
    · rw [enumDevices, hrun, ok_bind]
      exact ⟨_, D', rfl, .inr ⟨s', ds, rfl, holds', counted⟩⟩

/-- An enumeration leaves the books as they were, or the client gets an array of devices with a
reference for each entry. -/
theorem usbybGetDeviceList_counted (h : Counted ctx n D) (ok : Nat → Bool)
    (attached : Nat → Option SyncResult) :
    ∃ listed D', usbybGetDeviceList ok (fun _ => true) ctx attached = .ok listed ∧
      (listed.r < 0 ∧ Counted listed.ctx n D' ∨
        ∃ list ds, listed.list = some list ∧ list.Lists ds ∧ listed.r = ds.length ∧
          Counted listed.ctx (n + tally ds) D') := by
  have start : Counted ({ ctx } : Enum).ctx (n + tally []) D := by rwa [tally_nil, add_zero]
  obtain ⟨left, D', hrun, ⟨s, ds, rfl, holds, counted⟩ | ⟨s, ds, rfl, holds, counted⟩⟩ :=
    enumDevices_counted ok attached deviceNumbers start DeviceList.holds_nil
  · rw [usbybGetDeviceList, hrun, ok_bind]
    refine ⟨_, D', rfl, .inr ⟨_, ds, rfl, holds.lists, ?_, counted⟩⟩
    exact congrArg Int.ofNat holds.count
  · have borrowed (d : DeviceId) (_ : d ∈ ds) : tally ds d ≤ (n + tally ds) d := by
      have := h.nonneg d
      rw [Pi.add_apply]
      omega
    obtain ⟨ctx', hfree, released⟩ := libusbyFreeDeviceList_counted counted holds.lists borrowed
    rw [add_sub_cancel_right] at released
    have negative : Error.noMem.code < 0 := by decide
    rw [usbybGetDeviceList, hrun, ok_bind]
    by_cases allocated : s.devlist.list.isSome = true
    · simp only [if_pos allocated, hfree, ok_bind]
      exact ⟨_, D', rfl, .inl ⟨negative, released⟩⟩
    · simp only [if_neg allocated, ok_bind]
      refine ⟨_, D', rfl, .inl ⟨negative, ?_⟩⟩
      have empty : s.devlist.list = none := Option.not_isSome_iff_eq_none.1 allocated
      have lists := holds.lists
      rw [empty] at lists
      cases lists
      rwa [tally_nil, add_zero] at counted

/-! ## Reachable states -/

/-- There are books. -/
def Context.Countable (ctx : Context) : Prop := ∃ n D, Counted ctx n D

theorem libusbyUnrefDevice_countable (h : ctx.Countable)
    (hu : libusbyUnrefDevice ctx d = .ok ctx') : ctx'.Countable := by
  obtain ⟨n, D, h⟩ := h
  obtain ⟨dev, hd, -⟩ := libusbyUnrefDevice_eq_ok hu
  obtain ⟨ctx₁, hrun, counted⟩ := libusbyUnrefDevice_counted h (h.live d dev hd).2.1
  cases hrun.symm.trans hu
  exact ⟨_, D, counted⟩

theorem libusbyRefDevice_countable (h : ctx.Countable) (hr : libusbyRefDevice ctx d = .ok ctx') :
    ctx'.Countable := by
  obtain ⟨n, D, h⟩ := h
  obtain ⟨dev, hd, -⟩ := libusbyRefDevice_eq_ok hr
  obtain ⟨ctx₁, hrun, counted⟩ := libusbyRefDevice_counted h (h.live d dev hd).2.1
  cases hrun.symm.trans hr
  exact ⟨_, D, counted⟩

theorem libusbyOpen_countable {malloc : Bool} {r : Except Error DeviceId} (h : ctx.Countable)
    (hopen : libusbyOpen ctx malloc d = .ok (r, ctx')) : ctx'.Countable := by
  unfold libusbyOpen at hopen
  split_ifs at hopen
  · obtain ⟨ctx₁, href, hopen⟩ := bind_eq_ok.1 hopen
    cases hopen
    exact libusbyRefDevice_countable h href
  · cases hopen
    exact h

theorem usbybGetDeviceList_countable {listed : Listed} (h : ctx.Countable)
    (hlisted : usbybGetDeviceList ok (fun _ => true) ctx attached = .ok listed) :
    listed.ctx.Countable := by
  obtain ⟨n, D, h⟩ := h
  obtain ⟨_, D', hrun, ⟨-, counted⟩ | ⟨_, ds, -, -, -, counted⟩⟩ :=
    usbybGetDeviceList_counted h ok attached
  all_goals cases hrun.symm.trans hlisted
  · exact ⟨n, D', counted⟩
  · exact ⟨_, D', counted⟩

theorem countable_init : ({} : Context).Countable := by
  refine ⟨0, fun _ => .replicate 18 0, wellFormed_init, ?_, fun _ _ => rfl⟩
  intro d dev hd
  cases hd

theorem call_countable {s t : State} {op : Op} (h : s.ctx.Countable) (hcall : call s op = .ok t) :
    t.ctx.Countable := by
  cases op with
  | getDeviceList ok attached =>
    obtain ⟨listed, hlisted, hcall⟩ := bind_eq_ok.1 hcall
    have := usbybGetDeviceList_countable h hlisted
    split_ifs at hcall <;> cases hcall <;> exact this
  | freeDeviceList k unrefDevices =>
    obtain ⟨ctx, hfree, hcall⟩ := bind_eq_ok.1 hcall
    cases hcall
    exact libusbyFreeDeviceList_induction (P := Context.Countable)
      (fun _ _ _ => libusbyUnrefDevice_countable) hfree h
  | refDevice d =>
    obtain ⟨ctx, href, hcall⟩ := bind_eq_ok.1 hcall
    cases hcall
    exact libusbyRefDevice_countable h href
  | unrefDevice d =>
    obtain ⟨ctx, hunref, hcall⟩ := bind_eq_ok.1 hcall
    cases hcall
    exact libusbyUnrefDevice_countable h hunref
  | openDevice d malloc =>
    obtain ⟨⟨r, ctx⟩, hopen, hcall⟩ := bind_eq_ok.1 hcall
    cases hcall
    exact libusbyOpen_countable h hopen
  | close d =>
    obtain ⟨ctx, hclose, hcall⟩ := bind_eq_ok.1 hcall
    cases hcall
    exact libusbyUnrefDevice_countable h hclose

end

end Libusby.Win32
