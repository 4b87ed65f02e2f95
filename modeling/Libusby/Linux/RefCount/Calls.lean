import Libusby.Linux.Client
import Libusby.Linux.RefCount.Listing

/-!
# Accounting for the calls of a client

Every call leaves the books in order: the references that a device has are the
entries of the client's arrays, its other references and its open handles.
-/

namespace Libusby.Linux

open Foundations Libusby.Core

/-- The books when a search is over: a handle that was found is one more reference. -/
def Searched (n : DeviceId → Int) (wrfds : List FdId) (handle : Option DeviceHandle)
    (ctx : Context) : Prop :=
  Counted ctx (n + tally (handle.toList.map (·.dev))) [] (handle.toList.map (·.wrfd) ++ wrfds)

section
variable {ctx : Context} {n : DeviceId → Int} {wrfds : List FdId} {d : DeviceId}

theorem searched_none (h : Counted ctx n [] wrfds) : Searched n wrfds none ctx := by
  simpa [Searched] using h

theorem searched_some {handle : DeviceHandle}
    (h : Counted ctx (n + tally [handle.dev]) [] (handle.wrfd :: wrfds)) :
    Searched n wrfds (some handle) ctx := h

theorem getDeviceDescriptor_counted (h : Counted ctx n [] wrfds) (hd : 0 < n d)
    (reply : DescriptorReply) :
    ∃ desc ctx', getDeviceDescriptor ctx d reply = .ok (desc, ctx') ∧ Counted ctx' n [] wrfds := by
  obtain ⟨dev, hheap⟩ := h.exists_device hd
  rw [getDeviceDescriptor, deref_eq hheap, ok_bind]
  cases getDeviceDescriptorCached dev with
  | some desc => exact ⟨_, _, rfl, h⟩
  | none =>
    simp only
    split_ifs with failed short
    · exact ⟨_, _, rfl, h⟩
    · exact ⟨_, _, rfl, h⟩
    · exact ⟨_, _, rfl, h.store hheap rfl rfl rfl (h.live d dev hheap) fun _ _ => rfl⟩

theorem searchCached_counted (q : Search) (h : Counted ctx n [] wrfds) (k : Nat)
    {ds : List DeviceId} (hd : ∀ d ∈ ds, 0 < n d) :
    ∃ handle k' ctx', searchCached q ctx k ds = .ok (handle, k', ctx') ∧
      Searched n wrfds handle ctx' := by
  induction ds generalizing ctx k with
  | nil => exact ⟨_, _, _, rfl, searched_none h⟩
  | cons d ds ih =>
    obtain ⟨pos, rest⟩ := List.forall_mem_cons.1 hd
    obtain ⟨dev, hheap⟩ := h.exists_device pos
    rw [searchCached, deref_eq hheap, ok_bind]
    cases getDeviceDescriptorCached dev with
    | none => exact ih h k rest
    | some desc =>
      simp only
      by_cases hmatch : q.Matches desc
      · rw [if_neg (not_not.2 hmatch)]
        obtain ⟨r, ctx', hopen, ⟨⟨e, rfl⟩, h'⟩ | ⟨handle, rfl, rfl, h'⟩⟩ :=
          libusbyOpen_counted h pos (q.opens k)
        · simp only [hopen, ok_bind]
          exact ih h' (k + 1) rest
        · simp only [hopen, ok_bind]
          exact ⟨_, _, _, rfl, searched_some h'⟩
      · rw [if_pos hmatch]
        exact ih h k rest

theorem searchOpened_counted (q : Search) (h : Counted ctx n [] wrfds) (k : Nat)
    {ds : List DeviceId} (hd : ∀ d ∈ ds, 0 < n d) :
    ∃ handle ctx', searchOpened q ctx k ds = .ok (handle, ctx') ∧ Searched n wrfds handle ctx' := by
  induction ds generalizing ctx k with
  | nil => exact ⟨_, _, rfl, searched_none h⟩
  | cons d ds ih =>
    obtain ⟨pos, rest⟩ := List.forall_mem_cons.1 hd
    rw [searchOpened]
    obtain ⟨r, ctx', hopen, ⟨⟨e, rfl⟩, h'⟩ | ⟨handle, rfl, rfl, h'⟩⟩ :=
      libusbyOpen_counted h pos (q.opens k)
    · simp only [hopen, ok_bind]
      exact ih h' (k + 1) rest
    · have pos' : 0 < (n + tally [handle.dev]) handle.dev := by
        simp only [Pi.add_apply, tally_self]
        omega
      obtain ⟨desc, ctx'', hdesc, h''⟩ := getDeviceDescriptor_counted h' pos' (q.replies k)
      simp only [hopen, ok_bind, hdesc]
      by_cases hmatch : ∃ bytes ∈ desc, q.Matches bytes
      · rw [if_pos hmatch]
        exact ⟨_, _, rfl, searched_some h''⟩
      · obtain ⟨ctx₃, hclose, h₃⟩ := libusbyClose_counted h'' pos'
        rw [add_sub_cancel_right] at h₃
        rw [if_neg hmatch, hclose, ok_bind]
        exact ih h₃ (k + 1) rest

theorem libusbyOpenDeviceWithVidPid_counted (h : Counted ctx n [] wrfds) (ok : Nat → Bool)
    (dir : Option (List BusEntry)) (q : Search) :
    ∃ handle ctx', libusbyOpenDeviceWithVidPid ok ctx dir q = .ok (handle, ctx') ∧
      Searched n wrfds handle ctx' := by
  obtain ⟨listed, hlisted, ⟨failed, h'⟩ | ⟨list, ds, hlist, lists, hr, h'⟩⟩ :=
    usbybGetDeviceList_counted h ok dir
  · rw [libusbyOpenDeviceWithVidPid, hlisted, ok_bind, if_pos failed]
    exact ⟨_, _, rfl, searched_none h'⟩
  have hread : readEntries list ds.length = .ok ds := by
    simp [readEntries, lists.entries]
  have pos : ∀ d ∈ ds, 0 < (n + tally ds) d := fun d hd => by
    have := h.nonneg d
    have := tally_pos hd
    simp only [Pi.add_apply]
    omega
  have give (handle : Option DeviceHandle) (ctx' : Context)
      (hs : Searched (n + tally ds) wrfds handle ctx') :
      ∃ ctx'', libusbyFreeDeviceList ctx' list true = .ok ctx'' ∧ Searched n wrfds handle ctx'' := by
    have borrowed : ∀ d ∈ ds, tally ds d ≤ (n + tally ds + tally (handle.toList.map (·.dev))) d :=
      fun d _ => by
        have := h.nonneg d
        have : 0 ≤ tally (handle.toList.map (·.dev)) d := tally_nonneg
        simp only [Pi.add_apply]
        omega
    obtain ⟨ctx'', hfree, h''⟩ := libusbyFreeDeviceList_counted hs lists borrowed
    refine ⟨ctx'', hfree, ?_⟩
    rwa [add_right_comm, add_sub_cancel_right] at h''
  rw [libusbyOpenDeviceWithVidPid, hlisted, ok_bind, if_neg (by omega), hlist, hr]
  simp only [Option.getD_some, Int.toNat_natCast, hread, ok_bind]
  obtain ⟨handle, k, ctx₁, hcached, h₁⟩ := searchCached_counted q h' 0 pos
  simp only [hcached, ok_bind]
  cases handle with
  | some handle =>
    obtain ⟨ctx₂, hfree, h₂⟩ := give (some handle) ctx₁ h₁
    simp only [ok_bind, hfree]
    exact ⟨_, _, rfl, h₂⟩
  | none =>
    have h₁ : Counted ctx₁ (n + tally ds) [] wrfds := by simpa [Searched] using h₁
    obtain ⟨handle, ctx₂, hopened, h₂⟩ := searchOpened_counted q h₁ k pos
    obtain ⟨ctx₃, hfree, h₃⟩ := give handle ctx₂ h₂
    simp only [hopened, ok_bind, hfree]
    exact ⟨_, _, rfl, h₃⟩

end

/-- The books of a client. -/
structure State.Accounted (s : State) : Prop where
  counted : Counted s.ctx s.holdings [] (s.handles.map (·.wrfd))
  lists : ∀ list ∈ s.lists, ∃ ds, list.Lists ds
  borrowed : ∀ d, 0 ≤ s.borrowed d

section
variable {s : State}

theorem State.holdings_apply (d : DeviceId) : s.holdings d =
    tally (s.lists.flatMap DeviceArray.entries) d + s.refs d + tally (s.handles.map (·.dev)) d := rfl

theorem State.borrowed_apply (d : DeviceId) :
    s.borrowed d = tally (s.lists.flatMap DeviceArray.entries) d + s.refs d := rfl

/-- Taking an array out of the client's hands takes its entries out. -/
theorem tally_eraseIdx {k : Nat} {list : DeviceArray} (h : s.lists[k]? = some list) (d : DeviceId) :
    tally (s.lists.flatMap DeviceArray.entries) d =
      tally list.entries d + tally ((s.lists.eraseIdx k).flatMap DeviceArray.entries) d := by
  obtain ⟨hk, rfl⟩ := List.getElem?_eq_some_iff.1 h
  rw [← Pi.add_apply, ← tally_append,
    tally_perm ((List.getElem_cons_eraseIdx_perm hk).symm.flatMap_right _)]
  rfl

theorem getDeviceList_accounted (h : s.Accounted) (ok : Nat → Bool) (dir : Option (List BusEntry)) :
    ∃ t, call s (.getDeviceList ok dir) = .ok t ∧ t.Accounted := by
  obtain ⟨listed, hlisted, ⟨failed, counted⟩ | ⟨list, ds, hlist, lists, hr, counted⟩⟩ :=
    usbybGetDeviceList_counted h.counted ok dir
  · rw [call, hlisted, ok_bind, if_pos failed]
    exact ⟨_, rfl, counted, h.lists, h.borrowed⟩
  · have entries (d : DeviceId) : tally ((list :: s.lists).flatMap DeviceArray.entries) d =
        tally ds d + tally (s.lists.flatMap DeviceArray.entries) d := by
      rw [List.flatMap_cons, tally_append, lists.entries]
      rfl
    rw [call, hlisted, ok_bind, if_neg (by omega), hlist]
    refine ⟨_, rfl, counted.congr fun d => ?_, List.forall_mem_cons.2 ⟨⟨ds, lists⟩, h.lists⟩,
      fun d => ?_⟩
    · simp only [Pi.add_apply, State.holdings_apply, Option.getD_some, entries]
      omega
    · have := h.borrowed d
      have : 0 ≤ tally ds d := tally_nonneg
      simp only [State.borrowed_apply, Option.getD_some, entries] at *
      omega

theorem freeDeviceList_accounted {k : Nat} {unrefDevices : Bool} (h : s.Accounted)
    (allowed : Allowed s (.freeDeviceList k unrefDevices)) :
    ∃ t, call s (.freeDeviceList k unrefDevices) = .ok t ∧ t.Accounted := by
  obtain ⟨list, hlist, hfree⟩ := allowed
  rw [Option.mem_def] at hlist
  obtain ⟨ds, lists⟩ := h.lists list (List.mem_of_getElem? hlist)
  have entries := tally_eraseIdx hlist
  rw [lists.entries] at hfree entries
  have remaining : ∀ l ∈ s.lists.eraseIdx k, ∃ ds, l.Lists ds := fun l hl =>
    h.lists l (List.mem_of_mem_eraseIdx hl)
  rw [call, hlist]
  simp only [Option.getD_some]
  cases unrefDevices with
  | true =>
    have owned : ∀ d ∈ ds, tally ds d ≤ s.holdings d := fun d hd => by
      have := hfree rfl d hd
      have : 0 ≤ tally (s.handles.map (·.dev)) d := tally_nonneg
      simp only [State.holdings_apply, State.borrowed_apply] at *
      omega
    obtain ⟨ctx', hctx, counted⟩ := libusbyFreeDeviceList_counted h.counted lists owned
    rw [hctx, ok_bind]
    refine ⟨_, rfl, counted.congr fun d => ?_, remaining, fun d => ?_⟩
    · simp only [Pi.sub_apply, Pi.add_apply, State.holdings_apply, entries, if_true, Pi.zero_apply]
      omega
    · have := h.borrowed d
      have : tally ds d ≤ s.borrowed d := by
        by_cases hd : d ∈ ds
        · exact hfree rfl d hd
        · have absent : tally ds d = 0 := congrArg Int.ofNat (List.count_eq_zero_of_not_mem hd)
          omega
      simp only [State.borrowed_apply, entries, Pi.add_apply, if_true, Pi.zero_apply] at *
      omega
  | false =>
    have free : libusbyFreeDeviceList s.ctx list false = .ok s.ctx := by
      cases list <;> rfl
    rw [free, ok_bind, lists.entries]
    refine ⟨_, rfl, h.counted.congr fun d => ?_, remaining, fun d => ?_⟩
    · simp only [State.holdings_apply, entries, Pi.add_apply, Bool.false_eq_true, if_false]
      omega
    · have := h.borrowed d
      simp only [State.borrowed_apply, entries, Pi.add_apply, Bool.false_eq_true, if_false] at *
      omega

theorem refDevice_accounted {d : DeviceId} (h : s.Accounted) (allowed : Allowed s (.refDevice d)) :
    ∃ t, call s (.refDevice d) = .ok t ∧ t.Accounted := by
  obtain ⟨ctx', hctx, counted⟩ := libusbyRefDevice_counted h.counted allowed
  rw [call, hctx, ok_bind]
  refine ⟨_, rfl, counted.congr fun x => ?_, h.lists, fun x => ?_⟩
  · simp only [State.holdings_apply, Pi.add_apply]
    omega
  · have := h.borrowed x
    have : 0 ≤ tally [d] x := tally_nonneg
    simp only [State.borrowed_apply, Pi.add_apply] at *
    omega

theorem unrefDevice_accounted {d : DeviceId} (h : s.Accounted)
    (allowed : Allowed s (.unrefDevice d)) :
    ∃ t, call s (.unrefDevice d) = .ok t ∧ t.Accounted := by
  have owned : 0 < s.holdings d := by
    have : 0 < s.borrowed d := allowed
    have : 0 ≤ tally (s.handles.map (·.dev)) d := tally_nonneg
    simp only [State.holdings_apply, State.borrowed_apply] at *
    omega
  obtain ⟨ctx', hctx, counted⟩ := libusbyUnrefDevice_counted h.counted owned
  rw [call, hctx, ok_bind]
  refine ⟨_, rfl, counted.congr fun x => ?_, h.lists, fun x => ?_⟩
  · simp only [State.holdings_apply, Pi.sub_apply]
    omega
  · by_cases hx : x = d
    · have : 0 < s.borrowed d := allowed
      subst hx
      simp only [State.borrowed_apply, Pi.sub_apply, tally_self] at *
      omega
    · have := h.borrowed x
      simp only [State.borrowed_apply, Pi.sub_apply, tally_ne hx] at *
      omega

theorem openDevice_accounted {d : DeviceId} {outcome : OpenOutcome} (h : s.Accounted)
    (allowed : Allowed s (.openDevice d outcome)) :
    ∃ t, call s (.openDevice d outcome) = .ok t ∧ t.Accounted := by
  obtain ⟨r, ctx', hopen, ⟨⟨e, rfl⟩, counted⟩ | ⟨handle, rfl, rfl, counted⟩⟩ :=
    libusbyOpen_counted h.counted allowed outcome
  · rw [call, hopen, ok_bind]
    exact ⟨_, rfl, counted, h.lists, h.borrowed⟩
  · rw [call, hopen, ok_bind]
    refine ⟨_, rfl, counted.congr fun x => ?_, h.lists, h.borrowed⟩
    simp only [State.holdings_apply, Pi.add_apply, List.map_cons]
    rw [tally_cons _ (s.handles.map (·.dev)), Pi.add_apply]
    omega

theorem close_accounted {k : Nat} (h : s.Accounted) (allowed : Allowed s (.close k)) :
    ∃ t, call s (.close k) = .ok t ∧ t.Accounted := by
  have hk : k < s.handles.length := allowed
  obtain ⟨handle, hhandle⟩ : ∃ handle, s.handles[k]? = some handle := ⟨_, List.getElem?_eq_getElem hk⟩
  have perm : s.handles.Perm (handle :: s.handles.eraseIdx k) := by
    rw [List.getElem?_eq_getElem hk] at hhandle
    cases hhandle
    exact (List.getElem_cons_eraseIdx_perm hk).symm
  have devs (x : DeviceId) : tally (s.handles.map (·.dev)) x =
      tally [handle.dev] x + tally ((s.handles.eraseIdx k).map (·.dev)) x := by
    rw [tally_perm (perm.map (·.dev)), List.map_cons, tally_cons]
    rfl
  have counted : Counted s.ctx s.holdings [] (handle.wrfd :: (s.handles.eraseIdx k).map (·.wrfd)) :=
    { h.counted with wrfds := h.counted.wrfds.perm (perm.map (·.wrfd)) }
  have owned : 0 < s.holdings handle.dev := by
    have : 0 ≤ s.borrowed handle.dev := h.borrowed _
    have : 0 ≤ tally ((s.handles.eraseIdx k).map (·.dev)) handle.dev := tally_nonneg
    simp only [State.holdings_apply, State.borrowed_apply, devs, tally_self] at *
    omega
  obtain ⟨ctx', hclose, counted'⟩ := libusbyClose_counted counted owned
  rw [call, hhandle]
  simp only [hclose, ok_bind]
  refine ⟨_, rfl, counted'.congr fun x => ?_, h.lists, h.borrowed⟩
  simp only [State.holdings_apply, Pi.sub_apply, devs]
  omega

theorem openDeviceWithVidPid_accounted (h : s.Accounted) (ok : Nat → Bool)
    (dir : Option (List BusEntry)) (q : Search) :
    ∃ t, call s (.openDeviceWithVidPid ok dir q) = .ok t ∧ t.Accounted := by
  obtain ⟨handle, ctx', hopen, counted⟩ := libusbyOpenDeviceWithVidPid_counted h.counted ok dir q
  have handed : Counted ctx' (s.holdings + tally (handle.toList.map (·.dev))) []
      ((handle.toList ++ s.handles).map (·.wrfd)) := by
    rw [List.map_append]
    exact counted
  rw [call, hopen, ok_bind]
  refine ⟨_, rfl, handed.congr fun x => ?_, h.lists, h.borrowed⟩
  simp only [State.holdings_apply, Pi.add_apply, List.map_append, tally_append]
  omega

/-- A call that the client may make succeeds and leaves the books in order. -/
theorem call_accounted {op : Op} (h : s.Accounted) (allowed : Allowed s op) :
    ∃ t, call s op = .ok t ∧ t.Accounted := by
  cases op with
  | getDeviceList ok dir => exact getDeviceList_accounted h ok dir
  | freeDeviceList k unrefDevices => exact freeDeviceList_accounted h allowed
  | refDevice d => exact refDevice_accounted h allowed
  | unrefDevice d => exact unrefDevice_accounted h allowed
  | openDevice d outcome => exact openDevice_accounted h allowed
  | close k => exact close_accounted h allowed
  | openDeviceWithVidPid ok dir q => exact openDeviceWithVidPid_accounted h ok dir q

end

end Libusby.Linux
