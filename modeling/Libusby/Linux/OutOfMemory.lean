import Libusby.Linux.RefCount.Ownership

/-!
# An enumeration that runs out of memory

Four allocations may fail in an iteration. A structure that cannot be had is cleared all the
same. Where the cache or the entry of a new device cannot be had, the device is given up and
the loops end as if the directories were exhausted. Only where the entry of a device that is in
the context's list already cannot be had does the enumeration take everything back.
-/

namespace Libusby.Linux

open Foundations Libusby.Core

/-- The allocations of an iteration. -/
inductive Site where
  /-- `usbyi_alloc_device`. -/
  | device
  /-- The `realloc` of `desc_cache`. -/
  | cache
  /-- `usbyi_append_device_list` for a device that was made. -/
  | newEntry
  /-- `usbyi_append_device_list` for a device that was found. -/
  | knownEntry
  deriving DecidableEq, Repr

/-- The allocation of an iteration that fails. -/
def failingSite (ok : Nat → Bool) (malloc : DeviceId → Bool) (busno : Int) (e : DevEntry)
    (s : Enum) : Option Site :=
  match e.shows with
  | none => none
  | some devno =>
    match findDevice s.ctx busno devno s.ctx.devlist with
    | .error _ => none
    | .ok (some _) => if (s.devlist.reserve ok s.calls).1 = none then some .knownEntry else none
    | .ok none =>
      if ¬ malloc s.ctx.devices.next then some .device
      else match readDescriptors ok e.read s.calls with
        | (.error r, _) => if r = .noMem then some .cache else none
        | (.ok _, calls) => if (s.devlist.reserve ok calls).1 = none then some .newEntry else none

/-- The enumeration of `bs` comes to an allocation that fails. -/
def FailsAt (ok : Nat → Bool) (malloc : DeviceId → Bool) (ctx : Context) (bs : List BusEntry)
    (site : Site) : Prop :=
  ∃ before busno e after s, files bs = before ++ (busno, e) :: after ∧
    enumAll ok malloc before { ctx } = .ok (.next s) ∧ 0 ≤ s.r.code ∧
    failingSite ok malloc busno e s = some site

/-- The failure is reported, no list is returned, and the context keeps its devices with their
references. -/
def RolledBack (ok : Nat → Bool) (malloc : DeviceId → Bool) (ctx : Context)
    (bs : List BusEntry) : Prop :=
  ∃ listed, usbybGetDeviceList ok ctx (some bs) malloc = .ok listed ∧
    listed.r = Error.noMem.code ∧ listed.list = none ∧
    (∀ d ∈ ctx.devlist, (listed.ctx.heap d).map (·.refCount) = (ctx.heap d).map (·.refCount)) ∧
    ∀ d, d ∈ listed.ctx.devlist ↔ d ∈ ctx.devlist

section
variable {ok : Nat → Bool} {malloc : DeviceId → Bool} {busno : Int} {e : DevEntry} {s : Enum}
  {left : Leave} {fs : List (Int × DevEntry)} {site : Site} {ds : List DeviceId}

/-- An iteration that ends would end the same way with room for every structure. -/
theorem enumFile_malloc (h : enumFile ok busno e s malloc = .ok left) :
    enumFile ok busno e s = .ok left := by
  cases shown : e.shows with
  | none =>
    rw [enumFile_hidden shown] at h ⊢
    exact h
  | some devno =>
    cases hfind : findDevice s.ctx busno devno s.ctx.devlist with
    | error f =>
      rw [enumFile_fault shown hfind] at h
      cases h
    | ok found =>
      cases found with
      | some d =>
        rw [enumFile_found shown hfind] at h ⊢
        exact h
      | none =>
        rw [enumFile_missing shown hfind] at h ⊢
        split_ifs at h
        exact h

theorem enumAll_malloc (h : enumAll ok malloc fs s = .ok left) :
    enumAll ok (fun _ => true) fs s = .ok left := by
  induction fs generalizing s with
  | nil => exact h
  | cons f fs ih =>
    rw [enumAll]
    rcases enumAll_cons_eq_ok h with ⟨failed, rfl⟩ | ⟨nonneg, left', hfile, h⟩
    · exact if_pos failed
    · rw [if_neg (by omega), enumFile_malloc hfile, ok_bind]
      cases left' with
      | next s => exact ih h
      | error s fd => exact h

/-- The entry of a known device cannot be had: the way to `error`. -/
theorem enumKnown_full (holds : s.devlist.Holds ds) (full : (s.devlist.reserve ok s.calls).1 = none)
    (d : DeviceId) (fd : FdId) :
    ∃ s', enumKnown ok s d fd = .ok (.error s' fd) ∧ s'.r = .noMem := by
  obtain ⟨calls, happend⟩ := usbyiAppendDeviceList_full holds full d
  refine ⟨{ s with r := .noMem, calls }, ?_, rfl⟩
  rw [enumKnown, happend, ok_bind]

/-- The cache of a new device cannot be had: a result that ends the loops only. -/
theorem enumNew_unread {devno : Int} {fd : FdId} {read : Nat → Nat → List UInt8} {calls : Nat}
    (hread : readDescriptors ok read s.calls = (.error .noMem, calls))
    (h : enumNew ok s busno devno fd read = .ok left) : ∃ s', left = .next s' ∧ s'.r = .noMem := by
  simp only [enumNew, hread] at h
  obtain ⟨ctx, -, h⟩ := bind_eq_ok.1 h
  cases h
  exact ⟨_, rfl, rfl⟩

/-- The entry of a new device cannot be had: the same. -/
theorem enumNew_full {devno : Int} {fd : FdId} {read : Nat → Nat → List UInt8} {calls : Nat}
    {x : List UInt8 × List UInt8} (holds : s.devlist.Holds ds)
    (hread : readDescriptors ok read s.calls = (.ok x, calls))
    (full : (s.devlist.reserve ok calls).1 = none)
    (h : enumNew ok s busno devno fd read = .ok left) : ∃ s', left = .next s' ∧ s'.r = .noMem := by
  simp only [enumNew, hread] at h
  obtain ⟨dev, -, h⟩ := bind_eq_ok.1 h
  obtain ⟨calls, happend⟩ := usbyiAppendDeviceList_full holds full s.ctx.devices.next
  simp only [happend, ok_bind] at h
  obtain ⟨ctx, -, h⟩ := bind_eq_ok.1 h
  cases h
  exact ⟨_, rfl, rfl⟩

/-- What an iteration makes of an allocation that fails: a store through a null pointer, the
way to `error`, or a result that ends the loops only. -/
theorem enumFile_failing (holds : s.devlist.Holds ds)
    (h : failingSite ok malloc busno e s = some site) :
    site = .device ∧ enumFile ok busno e s malloc = .error .store ∨
      site = .knownEntry ∧
        (∃ s' fd, enumFile ok busno e s malloc = .ok (.error s' fd) ∧ s'.r = .noMem) ∨
      (site = .cache ∨ site = .newEntry) ∧ ∀ left, enumFile ok busno e s malloc = .ok left →
        ∃ s', left = .next s' ∧ s'.r = .noMem := by
  unfold failingSite at h
  cases shown : e.shows with
  | none =>
    rw [shown] at h
    cases h
  | some devno =>
    rw [shown] at h
    cases hfind : findDevice s.ctx busno devno s.ctx.devlist with
    | error f =>
      simp only [hfind] at h
      cases h
    | ok found =>
      simp only [hfind] at h
      cases found with
      | some d =>
        simp only at h
        split_ifs at h with full
        cases h
        obtain ⟨s', hknown, hr⟩ := enumKnown_full (s := s.openFile) holds full d s.ctx.fds.next
        exact .inr (.inl ⟨rfl, s', _, (enumFile_found shown hfind).trans hknown, hr⟩)
      | none =>
        rw [enumFile_missing shown hfind]
        simp only at h
        split_ifs at h with memory
        · rw [if_pos memory]
          generalize hread : readDescriptors ok e.read s.calls = read at h
          obtain ⟨r | x, calls⟩ := read
          · simp only at h
            split_ifs at h with noMem
            cases h
            subst noMem
            exact .inr (.inr ⟨.inl rfl, fun _ => enumNew_unread (s := s.openFile) hread⟩)
          · simp only at h
            split_ifs at h with full
            cases h
            exact .inr (.inr ⟨.inr rfl, fun _ => enumNew_full (s := s.openFile) holds hread full⟩)
        · cases h
          exact .inl ⟨rfl, if_neg memory⟩

/-- An iteration in which no allocation fails. -/
theorem enumFile_free (h : failingSite ok malloc busno e s = none) :
    enumFile ok busno e s malloc = enumFile (fun _ => true) busno e s := by
  unfold failingSite at h
  cases shown : e.shows with
  | none => rw [enumFile_hidden shown, enumFile_hidden shown]
  | some devno =>
    rw [shown] at h
    cases hfind : findDevice s.ctx busno devno s.ctx.devlist with
    | error f => rw [enumFile_fault shown hfind, enumFile_fault shown hfind]
    | ok found =>
      simp only [hfind] at h
      cases found with
      | some d =>
        simp only [ite_eq_right_iff, reduceCtorEq, imp_false] at h
        simp only [enumFile_found shown hfind, enumKnown, Enum.openFile_calls,
          Enum.openFile_devlist, usbyiAppendDeviceList_free h]
      | none =>
        rw [enumFile_missing shown hfind, enumFile_missing shown hfind]
        simp only at h
        split_ifs at h with memory
        · rw [if_pos memory, if_pos rfl]
          generalize hread : readDescriptors ok e.read s.calls = read at h
          rcases read with ⟨r | ⟨deviceDesc, descCache⟩, calls⟩
          all_goals simp only [ite_eq_right_iff, reduceCtorEq, imp_false] at h
          · rcases readDescriptors_free hread with hfree | noMem
            · simp only [enumNew, Enum.openFile_calls, hread, hfree]
            · exact absurd (Except.error.inj noMem) h
          · rcases readDescriptors_free hread with hfree | noMem
            · simp only [enumNew, Enum.openFile_calls, Enum.openFile_devlist, hread, hfree,
                usbyiAppendDeviceList_free h]
            · cases noMem

end

section
variable {ok : Nat → Bool} {malloc : DeviceId → Bool} {ctx : Context} {bs : List BusEntry}
  {site : Site} {n : DeviceId → Int} {wrfds : List FdId}

theorem enumAll_free {fs : List (Int × DevEntry)} {s : Enum}
    (h : ∀ before busno e after t, fs = before ++ (busno, e) :: after →
      enumAll ok malloc before s = .ok (.next t) → 0 ≤ t.r.code →
      failingSite ok malloc busno e t = none) :
    enumAll ok malloc fs s = enumAll (fun _ => true) (fun _ => true) fs s := by
  induction fs generalizing s with
  | nil => rfl
  | cons f fs ih =>
    rw [enumAll, enumAll]
    split_ifs with failed
    · rfl
    · have first : failingSite ok malloc f.1 f.2 s = none :=
        h [] f.1 f.2 fs s rfl rfl (by omega)
      rw [← enumFile_free first]
      cases hfile : enumFile ok f.1 f.2 s malloc with
      | error fault => rw [error_bind, error_bind]
      | ok left =>
        rw [ok_bind, ok_bind]
        cases left with
        | error s' fd => rw [resume, resume]
        | next s' =>
          rw [resume, resume]
          apply ih
          intro before busno e after t split hbefore nonneg
          refine h (f :: before) busno e after t (by rw [split, List.cons_append]) ?_ nonneg
          rw [enumAll, if_neg failed, hfile, ok_bind]
          exact hbefore

/-- The sites are all there are: an enumeration that comes to none of them is one with all the
memory it asks for. -/
theorem usbybGetDeviceList_free (h : ∀ site, ¬FailsAt ok malloc ctx bs site) :
    usbybGetDeviceList ok ctx (some bs) malloc = usbybGetDeviceList (fun _ => true) ctx (some bs) := by
  have same : enumRoot ok bs { ctx } malloc = enumRoot (fun _ => true) bs { ctx } := by
    rw [enumRoot_eq, enumRoot_eq]
    apply enumAll_free
    intro before busno e after t split hbefore nonneg
    refine Option.eq_none_iff_forall_ne_some.2 fun site hsite => h site ?_
    exact ⟨before, busno, e, after, t, split, hbefore, nonneg, hsite⟩
  rw [usbybGetDeviceList, usbybGetDeviceList, same]

/-- What the loops make of an allocation that fails. -/
theorem enumRoot_failing (h : Counted ctx n [] wrfds) (fails : FailsAt ok malloc ctx bs site) :
    site = .device ∧ enumRoot ok bs { ctx } malloc = .error .store ∨
      site = .knownEntry ∧
        (∃ s fd, enumRoot ok bs { ctx } malloc = .ok (.error s fd) ∧ s.r = .noMem) ∨
      (site = .cache ∨ site = .newEntry) ∧ ∀ left, enumRoot ok bs { ctx } malloc = .ok left →
        ∃ s, left = .next s := by
  obtain ⟨before, busno, e, after, s, split, hbefore, nonneg, hsite⟩ := fails
  have start : Enumerated n [] wrfds { ctx } :=
    ⟨[], DeviceList.holds_nil, by rwa [tally_nil, add_zero]⟩
  obtain ⟨ds, holds, -⟩ : Enumerated n [] wrfds s := by
    obtain ⟨left, hleft, books⟩ := enumAll_left start ok before
    cases (enumAll_malloc hbefore).symm.trans hleft
    exact books
  have last : enumRoot ok bs { ctx } malloc =
      enumFile ok busno e s malloc >>= resume (enumAll ok malloc after) := by
    rw [enumRoot_eq, split, enumAll_append, hbefore, ok_bind, resume, enumAll, if_neg (by omega)]
  rw [last]
  rcases enumFile_failing holds hsite with ⟨rfl, hfile⟩ | ⟨rfl, s', fd, hfile, hr⟩ | ⟨hsite, hfile⟩
  · exact .inl ⟨rfl, by rw [hfile]; rfl⟩
  · exact .inr (.inl ⟨rfl, s', fd, by rw [hfile]; rfl, hr⟩)
  · refine .inr (.inr ⟨hsite, fun left h => ?_⟩)
    obtain ⟨left', hleft', h⟩ := bind_eq_ok.1 h
    obtain ⟨s', rfl, hr⟩ := hfile left' hleft'
    have failed : s'.r.code < 0 := by rw [hr]; decide
    rw [resume, enumAll_failed failed] at h
    cases h
    exact ⟨_, rfl⟩

/-- Before and after, the references of the devices are the same. -/
theorem Counted.same_devices {ctx' : Context} (h : Counted ctx n [] wrfds)
    (h' : Counted ctx' n [] wrfds) :
    (∀ d ∈ ctx.devlist, (ctx'.heap d).map (·.refCount) = (ctx.heap d).map (·.refCount)) ∧
      ∀ d, d ∈ ctx'.devlist ↔ d ∈ ctx.devlist := by
  have linked {c : Context} (hc : Counted c n [] wrfds) (d : DeviceId) : d ∈ c.devlist ↔ 0 < n d :=
    ⟨hc.pos_of_mem, fun pos => (hc.linked d).2 (hc.exists_device pos)⟩
  refine ⟨fun d hd => ?_, fun d => (linked h' d).trans (linked h d).symm⟩
  obtain ⟨dev, hdev⟩ := (h.linked d).1 hd
  obtain ⟨dev', hdev'⟩ := h'.exists_device (h.pos_of_mem hd)
  rw [hdev, hdev', Option.map_some, Option.map_some, (h.live d dev hdev).1, (h'.live d dev' hdev').1]

theorem usbybGetDeviceList_malloc {left : Leave} (h : enumRoot ok bs { ctx } malloc = .ok left) :
    usbybGetDeviceList ok ctx (some bs) malloc = usbybGetDeviceList ok ctx (some bs) := by
  have same : enumRoot ok bs { ctx } = .ok left := by
    rw [enumRoot_eq] at h ⊢
    exact enumAll_malloc h
  rw [usbybGetDeviceList, usbybGetDeviceList, h, same]

theorem usbybGetDeviceList_failed {s : Enum} {fd : FdId} {listed : Listed}
    (hroot : enumRoot ok bs { ctx } malloc = .ok (.error s fd))
    (h : usbybGetDeviceList ok ctx (some bs) malloc = .ok listed) :
    listed.r = s.r.code ∧ listed.list = none := by
  simp only [usbybGetDeviceList, hroot, ok_bind] at h
  split_ifs at h
  · obtain ⟨ctx', -, h⟩ := bind_eq_ok.1 h
    cases h
    exact ⟨rfl, rfl⟩
  · cases h
    exact ⟨rfl, rfl⟩

/-- The enumeration is rolled back exactly where the entry of a device cannot be had that is in
the context's list already. -/
theorem rolledBack_of_counted (h : Counted ctx n [] wrfds) (fails : FailsAt ok malloc ctx bs site) :
    RolledBack ok malloc ctx bs ↔ site = .knownEntry := by
  rcases enumRoot_failing h fails with ⟨rfl, hroot⟩ | ⟨rfl, s, fd, hroot, hr⟩ | ⟨hsite, hroot⟩
  · apply iff_of_false ?_ (by simp)
    rintro ⟨listed, hlisted, -⟩
    rw [usbybGetDeviceList, hroot] at hlisted
    cases hlisted
  · refine iff_of_true ?_ rfl
    obtain ⟨listed, hlisted, outcome⟩ := usbybGetDeviceList_counted h ok (some bs)
    rw [← usbybGetDeviceList_malloc hroot] at hlisted
    obtain ⟨code, unwritten⟩ := usbybGetDeviceList_failed hroot hlisted
    rcases outcome with ⟨negative, counted⟩ | ⟨list, ds, hlist, -⟩
    · exact ⟨listed, hlisted, by rw [code, hr], unwritten, h.same_devices counted⟩
    · rw [unwritten] at hlist
      cases hlist
  · apply iff_of_false
    · rintro ⟨listed, hlisted, -, unwritten, -⟩
      rw [usbybGetDeviceList] at hlisted
      obtain ⟨left, hleft, hlisted⟩ := bind_eq_ok.1 hlisted
      obtain ⟨s, rfl⟩ := hroot left hleft
      cases hlisted
      cases unwritten
    · rcases hsite with rfl | rfl <;> simp

end

/-- With whatever devices a client's calls left in the context, an enumeration that runs out of
memory reports it and takes everything back exactly if it fails at the entry of a device that is
in the context's list already. -/
theorem rolledBack_iff (s : State) (reachable : clientMachine.Reachable s) (ok : Nat → Bool)
    (malloc : DeviceId → Bool) (bs : List BusEntry) (site : Site)
    (fails : FailsAt ok malloc s.ctx bs site) :
    RolledBack ok malloc s.ctx bs ↔ site = .knownEntry :=
  rolledBack_of_counted (State.Accounted.of_reachable reachable).counted fails

/-- The device of `oneBus` is known when memory is short. -/
theorem rolledBack_known :
    ∃ s, clientMachine.exec clientMachine.init [.getDeviceList (fun _ => true) (some oneBus)] = some s ∧
      RolledBack (fun _ => false) (fun _ => true) s.ctx oneBus := by
  have site : (clientMachine.exec clientMachine.init
      [.getDeviceList (fun _ => true) (some oneBus)]).map (fun s =>
        failingSite (fun _ => false) (fun _ => true) 1
          { devno := some 1, opens := true, read := fun _ n => List.replicate n 0 } { ctx := s.ctx }) =
      some (some .knownEntry) := by decide
  obtain ⟨s, hs, site⟩ := Option.map_eq_some_iff.1 site
  refine ⟨s, hs, (rolledBack_iff s ⟨_, hs⟩ _ _ _ .knownEntry ?_).2 rfl⟩
  exact ⟨[], 1, _, _, _, rfl, rfl, Int.le_refl 0, site⟩

/-- The device is new: the call succeeds and returns an empty list. -/
theorem not_rolledBack : FailsAt (fun _ => false) (fun _ => true) {} oneBus .newEntry ∧
    (usbybGetDeviceList (fun _ => false) {} (some oneBus)).map (fun l => (l.r, l.list)) =
      .ok (0, some none) ∧
    ¬RolledBack (fun _ => false) (fun _ => true) {} oneBus := by
  have result : (usbybGetDeviceList (fun _ => false) {} (some oneBus)).map
      (fun l => (l.r, l.list)) = .ok (0, some none) := by rfl
  refine ⟨⟨[], 1, _, _, _, rfl, rfl, Int.le_refl 0, rfl⟩, result, ?_⟩
  rintro ⟨listed, hlisted, hr, -⟩
  rw [hlisted] at result
  obtain ⟨zero, -⟩ := Prod.mk.inj (Except.ok.inj result)
  rw [hr] at zero
  cases zero

end Libusby.Linux
