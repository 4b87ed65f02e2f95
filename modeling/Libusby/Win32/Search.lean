import Libusby.Win32.RefCount

/-!
# What a search by ids finds on libusb0

`libusby_open_device_with_vid_pid` over the enumeration of libusb0. There a handle is a structure
in memory and nothing else, and every device that is listed has a valid descriptor already, so
that only memory for a handle can be missing. The device keeps its descriptor while the search
counts references up and down.
-/

namespace Libusby.Win32

open Foundations Libusby.Core

/-- `struct usbyb_device_handle`. -/
structure DeviceHandle where
  id : Nat
  dev : DeviceId

/-- The context and the names of the handle structures. -/
structure Session where
  ctx : Context := {}
  handles : Ledger := {}

/-- `libusby_open`, with the handle that it stores. -/
def Session.openHandle (s : Session) (malloc : Bool) (d : DeviceId) :
    Except Fault (Except Error DeviceHandle × Session) := do
  let (r, ctx) ← libusbyOpen s.ctx malloc d
  match r with
  | .error e => .ok (.error e, { s with ctx })
  | .ok dev => .ok (.ok ⟨s.handles.next, dev⟩, { ctx, handles := s.handles.acquire })

/-- `libusby_close`, with the `free` of the handle. -/
def Session.closeHandle (s : Session) (handle : DeviceHandle) : Except Fault Session := do
  let ctx ← libusbyClose s.ctx handle.dev
  .ok { ctx, handles := s.handles.release handle.id }

/-- `libusby_get_device_descriptor_cached`. -/
def getDeviceDescriptorCached (dev : Device) : Option (Bytes 18) :=
  if dev.deviceDesc.get 0 = 18 then some dev.deviceDesc else none

/-- The result of `libusby_get_descriptor` and the 18 bytes it left. -/
structure DescriptorReply where
  r : Int
  rawdesc : Bytes 18

/-- `libusby_get_device_descriptor`. -/
def getDeviceDescriptor (ctx : Context) (d : DeviceId) (reply : DescriptorReply) :
    Except Fault (Option (Bytes 18) × Context) := do
  let dev ← ctx.deref d
  match getDeviceDescriptorCached dev with
  | some desc => .ok (some desc, ctx)
  | none =>
    if reply.r < 0 then .ok (none, ctx)
    else match usbyiSanitizeDeviceDesc reply.rawdesc with
      | .error _ => .ok (none, ctx)
      | .ok deviceDesc => .ok (some deviceDesc, ctx.store d { dev with deviceDesc })

/-- The ids, whether there is memory for the `k`-th handle, and the outcome of the `k`-th request
for a descriptor. -/
structure Search where
  vendorId : UInt16
  productId : UInt16
  opens : Nat → Bool
  replies : Nat → DescriptorReply

def Search.Matches (q : Search) (desc : Bytes 18) : Prop :=
  idVendor desc.bytes = q.vendorId ∧ idProduct desc.bytes = q.productId

instance (q : Search) (desc : Bytes 18) : Decidable (q.Matches desc) :=
  inferInstanceAs (Decidable (_ ∧ _))

/-- The first loop, over the devices that are left; `k` counts the calls of `libusby_open`. -/
def searchCached (q : Search) (s : Session) (k : Nat) :
    List DeviceId → Except Fault (Option DeviceHandle × Nat × Session)
  | [] => .ok (none, k, s)
  | d :: ds => do
    let dev ← s.ctx.deref d
    match getDeviceDescriptorCached dev with
    | none => searchCached q s k ds
    | some desc =>
      if ¬ q.Matches desc then searchCached q s k ds
      else do
        let (r, s) ← s.openHandle (q.opens k) d
        match r with
        | .error _ => searchCached q s (k + 1) ds
        | .ok handle => .ok (some handle, k + 1, s)

/-- The second loop. -/
def searchOpened (q : Search) (s : Session) (k : Nat) :
    List DeviceId → Except Fault (Option DeviceHandle × Session)
  | [] => .ok (none, s)
  | d :: ds => do
    let (r, s) ← s.openHandle (q.opens k) d
    match r with
    | .error _ => searchOpened q s (k + 1) ds
    | .ok handle => do
      let (desc, ctx) ← getDeviceDescriptor s.ctx handle.dev (q.replies k)
      let s := { s with ctx }
      if ∃ bytes ∈ desc, q.Matches bytes then .ok (some handle, s)
      else do
        let s ← s.closeHandle handle
        searchOpened q s (k + 1) ds

def libusbyOpenDeviceWithVidPid (ok : Nat → Bool) (attached : Nat → Option SyncResult)
    (s : Session) (q : Search) : Except Fault (Option DeviceHandle × Session) := do
  let listed ← usbybGetDeviceList ok (fun _ => true) s.ctx attached
  let s := { s with ctx := listed.ctx }
  if listed.r < 0 then .ok (none, s)
  else
    let deviceList := listed.list.getD none
    let ds ← readEntries deviceList listed.r.toNat
    let (found, k, s) ← searchCached q s 0 ds
    let (handle, s) ← match found with
      | some handle => .ok (some handle, s)
      | none => searchOpened q s k ds
    let ctx ← libusbyFreeDeviceList s.ctx deviceList true
    .ok (handle, { s with ctx })

/-- The books of a session: the client has the handles `owned`. -/
structure Session.Counted (s : Session) (n : DeviceId → Int) (D : DeviceId → Bytes 18)
    (owned : List Nat) : Prop where
  ctx : Win32.Counted s.ctx n D
  handles : s.handles.Balanced owned

/-- The books when a search is over: a handle that was found is one more reference. -/
def Searched (n : DeviceId → Int) (D : DeviceId → Bytes 18) (owned : List Nat)
    (handle : Option DeviceHandle) (s : Session) : Prop :=
  s.Counted (n + tally (handle.toList.map (·.dev))) D (handle.toList.map (·.id) ++ owned)

section
variable {s s' : Session} {n : DeviceId → Int} {D : DeviceId → Bytes 18} {owned : List Nat}
  {d : DeviceId} {q : Search} {ds : List DeviceId} {handle : DeviceHandle} {k : Nat}

theorem searched_none (h : s.Counted n D owned) : Searched n D owned none s := by
  simpa [Searched] using h

theorem Searched.missed (h : Searched n D owned none s) : s.Counted n D owned := by
  simpa [Searched] using h

theorem openHandle_counted (h : s.Counted n D owned) (hd : 0 < n d) (malloc : Bool) :
    (malloc = false ∧ ∃ e, s.openHandle malloc d = .ok (.error e, s)) ∨
      ∃ handle s', s.openHandle malloc d = .ok (.ok handle, s') ∧ handle.dev = d ∧
        handle.id ∉ owned ∧ Searched n D owned (some handle) s' := by
  rw [Session.openHandle, libusbyOpen]
  by_cases memory : malloc = true
  · obtain ⟨ctx, href, counted⟩ := libusbyRefDevice_counted h.ctx hd
    rw [if_neg (not_not.2 memory), href]
    refine .inr ⟨_, _, rfl, rfl, fun member => ?_, counted, h.handles.acquire⟩
    exact Nat.lt_irrefl _ (h.handles.lt member)
  · rw [if_pos memory]
    exact .inl ⟨by simpa using memory, _, rfl⟩

/-- A device that was listed has its descriptor. -/
theorem getDeviceDescriptorCached_counted (h : Counted s.ctx n D) (hd : 0 < n d) :
    ∃ dev, s.ctx.heap d = some dev ∧ getDeviceDescriptorCached dev = some (D d) := by
  obtain ⟨dev, hheap⟩ := h.exists_device hd
  obtain ⟨-, -, desc, valid⟩ := h.live d dev hheap
  refine ⟨dev, hheap, ?_⟩
  rw [getDeviceDescriptorCached, desc, if_pos valid]

/-- The first pass opens a device with the ids, or it leaves everything as it was. -/
theorem searchCached_counted (h : s.Counted n D owned) (q : Search) (k : Nat)
    (pos : ∀ d ∈ ds, 0 < n d) :
    (∃ k', searchCached q s k ds = .ok (none, k', s)) ∨
      ∃ handle k' s', searchCached q s k ds = .ok (some handle, k', s') ∧
        q.Matches (D handle.dev) ∧ handle.id ∉ owned ∧ Searched n D owned (some handle) s' := by
  induction ds generalizing k with
  | nil => exact .inl ⟨k, rfl⟩
  | cons d ds ih =>
    obtain ⟨here, rest⟩ := List.forall_mem_cons.1 pos
    obtain ⟨dev, hheap, cached⟩ := getDeviceDescriptorCached_counted h.ctx here
    rw [searchCached, deref_eq hheap, ok_bind, cached]
    by_cases ids : q.Matches (D d)
    · simp only [if_neg (not_not.2 ids)]
      rcases openHandle_counted h here (q.opens k) with
        ⟨-, e, hopen⟩ | ⟨handle, s', hopen, rfl, new, counted⟩
      · rw [hopen, ok_bind]
        exact ih (k + 1) rest
      · rw [hopen, ok_bind]
        exact .inr ⟨handle, _, s', rfl, ids, new, counted⟩
    · simp only [if_pos ids]
      exact ih k rest

theorem closeHandle_counted (h : Searched n D owned (some handle) s) (hn : 0 ≤ n handle.dev) :
    ∃ s', s.closeHandle handle = .ok s' ∧ s'.Counted n D owned := by
  have held : 0 < (n + tally [handle.dev]) handle.dev := by
    rw [Pi.add_apply, tally_self]
    omega
  obtain ⟨ctx, hunref, counted⟩ := libusbyUnrefDevice_counted h.ctx held
  have back : n + tally (([handle] : List DeviceHandle).map (·.dev)) - tally [handle.dev] = n :=
    add_sub_cancel_right ..
  rw [Session.closeHandle, libusbyClose, hunref, ok_bind]
  exact ⟨_, rfl, back ▸ counted, h.handles.release⟩

theorem getDeviceDescriptor_counted (h : Counted s.ctx n D) (hd : 0 < n d)
    (reply : DescriptorReply) : getDeviceDescriptor s.ctx d reply = .ok (some (D d), s.ctx) := by
  obtain ⟨dev, hheap, cached⟩ := getDeviceDescriptorCached_counted h hd
  rw [getDeviceDescriptor, deref_eq hheap, ok_bind, cached]

/-- The second pass finds a device with the ids, or it has a reason to pass over every device. -/
theorem searchOpened_counted (h : s.Counted n D owned) (q : Search) (k : Nat)
    (pos : ∀ d ∈ ds, 0 < n d) :
    (∃ s', searchOpened q s k ds = .ok (none, s') ∧ s'.Counted n D owned ∧
        ∀ i d, ds[i]? = some d → q.opens (k + i) = false ∨ ¬q.Matches (D d)) ∨
      ∃ handle s', searchOpened q s k ds = .ok (some handle, s') ∧
        q.Matches (D handle.dev) ∧ handle.id ∉ owned ∧ Searched n D owned (some handle) s' := by
  induction ds generalizing s k with
  | nil => exact .inl ⟨s, rfl, h, fun i d hd => by cases hd⟩
  | cons x ds ih =>
    obtain ⟨here, rest⟩ := List.forall_mem_cons.1 pos
    -- the devices after the first, once it is passed over
    have later {s₁ : Session} (counted : s₁.Counted n D owned)
        (passed : q.opens k = false ∨ ¬q.Matches (D x)) :
        (∃ s', searchOpened q s₁ (k + 1) ds = .ok (none, s') ∧ s'.Counted n D owned ∧
            ∀ i d, (x :: ds)[i]? = some d → q.opens (k + i) = false ∨ ¬q.Matches (D d)) ∨
          ∃ handle s', searchOpened q s₁ (k + 1) ds = .ok (some handle, s') ∧
            q.Matches (D handle.dev) ∧ handle.id ∉ owned ∧ Searched n D owned (some handle) s' := by
      rcases ih counted (k + 1) rest with ⟨s', hrun, counted', why⟩ | found
      · refine .inl ⟨s', hrun, counted', fun i d hd => ?_⟩
        cases i with
        | zero =>
          cases hd
          exact passed
        | succ i =>
          have reason := why i d hd
          rwa [Nat.add_right_comm] at reason
      · exact .inr found
    rw [searchOpened]
    rcases openHandle_counted h here (q.opens k) with
      ⟨memory, e, hopen⟩ | ⟨handle, s₁, hopen, rfl, new, counted⟩
    · rw [hopen, ok_bind]
      exact later h (.inl memory)
    · have held : 0 < (n + tally (([handle] : List DeviceHandle).map (·.dev))) handle.dev := by
        rw [List.map_singleton, Pi.add_apply, tally_self]
        omega
      rw [hopen, ok_bind]
      simp only [getDeviceDescriptor_counted counted.ctx held, ok_bind, Option.mem_some_iff,
        exists_eq_left']
      by_cases ids : q.Matches (D handle.dev)
      · rw [if_pos ids]
        exact .inr ⟨handle, s₁, rfl, ids, new, counted⟩
      · obtain ⟨s₂, hclose, counted₂⟩ := closeHandle_counted counted (Int.le_of_lt here)
        rw [if_neg ids, hclose, ok_bind]
        exact later counted₂ (.inr ids)

/-! ## The whole search -/

/-- `ref_count` of a device, 0 if there is none. -/
def Context.refs (ctx : Context) (d : DeviceId) : Int := ((ctx.heap d).map (·.refCount)).getD 0

theorem Counted.refs_eq {ctx : Context} (h : Counted ctx n D) (d : DeviceId) :
    ctx.refs d = n d := by
  unfold Context.refs
  cases hd : ctx.heap d with
  | none => exact (h.dead d hd).symm
  | some dev => exact (h.live d dev hd).1

/-- A handle that was not open is open, to a device with the ids that has one more reference. -/
structure Found (q : Search) (s s' : Session) (handle : DeviceHandle) : Prop where
  closed : ¬s.handles.Held handle.id
  opened : ∀ id, s'.handles.Held id ↔ id = handle.id ∨ s.handles.Held id
  refs : ∀ d, s'.ctx.refs d = s.ctx.refs d + if d = handle.dev then 1 else 0
  memory : ∃ dev desc, s'.ctx.heap handle.dev = some dev ∧
    getDeviceDescriptorCached dev = some desc ∧ q.Matches desc

/-- The enumeration fails, or every device that it lists cannot be opened in the second pass or
has other ids. -/
def PassedOver (ok : Nat → Bool) (attached : Nat → Option SyncResult) (q : Search)
    (s : Session) : Prop :=
  ∃ listed, usbybGetDeviceList ok (fun _ => true) s.ctx attached = .ok listed ∧
    (listed.r < 0 ∨ ∃ list ds k before after, listed.list = some list ∧ list.Lists ds ∧
      listed.r = ds.length ∧ searchCached q { s with ctx := listed.ctx } 0 ds = .ok (none, k, before) ∧
      searchOpened q before k ds = .ok (none, after) ∧
      ∀ i d, ds[i]? = some d → ∃ dev desc, after.ctx.heap d = some dev ∧
        getDeviceDescriptorCached dev = some desc ∧ (q.opens (k + i) = false ∨ ¬q.Matches desc))

/-- References and open handles are as before, and there is a reason to pass over every device. -/
structure Missed (ok : Nat → Bool) (attached : Nat → Option SyncResult) (q : Search)
    (s s' : Session) : Prop where
  opened : ∀ id, s'.handles.Held id ↔ s.handles.Held id
  refs : ∀ d, s'.ctx.refs d = s.ctx.refs d
  why : PassedOver ok attached q s

theorem Searched.found {D' : DeviceId → Bytes 18} (before : s.Counted n D' owned)
    (after : Searched n D owned (some handle) s') (new : handle.id ∉ owned)
    (ids : q.Matches (D handle.dev)) : Found q s s' handle := by
  have counted : s'.Counted (n + tally [handle.dev]) D (handle.id :: owned) := after
  have positive : 0 < (n + tally [handle.dev]) handle.dev := by
    have := before.ctx.nonneg handle.dev
    rw [Pi.add_apply, tally_self]
    omega
  constructor
  case closed =>
    rw [before.handles.held_iff]
    exact new
  case opened =>
    intro id
    rw [counted.handles.held_iff, before.handles.held_iff, List.mem_cons]
  case refs =>
    intro d
    rw [counted.ctx.refs_eq, before.ctx.refs_eq, Pi.add_apply]
    by_cases same : d = handle.dev
    · rw [if_pos same, same, tally_self]
    · rw [if_neg same, tally_ne same]
  case memory =>
    obtain ⟨dev, hd, cached⟩ := getDeviceDescriptorCached_counted counted.ctx positive
    exact ⟨dev, D handle.dev, hd, cached, ids⟩

/-- The array is released, and a handle that was found keeps its reference. -/
theorem Searched.release {list : DeviceArray} {found : Option DeviceHandle}
    (after : Searched (n + tally ds) D owned found s) (nonneg : ∀ d, 0 ≤ n d)
    (lists : list.Lists ds) : ∃ ctx, libusbyFreeDeviceList s.ctx list true = .ok ctx ∧
      Searched n D owned found { s with ctx } := by
  have borrowed (d : DeviceId) (_ : d ∈ ds) :
      tally ds d ≤ (n + tally ds + tally (found.toList.map (·.dev))) d := by
    have := nonneg d
    have : 0 ≤ tally (found.toList.map (·.dev)) d := tally_nonneg
    simp only [Pi.add_apply]
    omega
  obtain ⟨ctx, hfree, counted⟩ := libusbyFreeDeviceList_counted after.ctx lists borrowed
  rw [add_right_comm, add_sub_cancel_right] at counted
  exact ⟨ctx, hfree, counted, after.handles⟩

variable {ok : Nat → Bool} {attached : Nat → Option SyncResult}

/-- The enumeration, the passes and the release of the list. -/
theorem libusbyOpenDeviceWithVidPid_eq {listed : Listed} {list : DeviceArray} {s₁ s₂ : Session}
    {found r : Option DeviceHandle} {ctx : Context}
    (hlisted : usbybGetDeviceList ok (fun _ => true) s.ctx attached = .ok listed)
    (hlist : listed.list = some list) (lists : list.Lists ds) (hr : listed.r = ds.length)
    (hcached : searchCached q { s with ctx := listed.ctx } 0 ds = .ok (found, k, s₁))
    (pass : found.isSome ∧ r = found ∧ s₂ = s₁ ∨
      found = none ∧ searchOpened q s₁ k ds = .ok (r, s₂))
    (hfree : libusbyFreeDeviceList s₂.ctx list true = .ok ctx) :
    libusbyOpenDeviceWithVidPid ok attached s q = .ok (r, { s₂ with ctx }) := by
  have hread : readEntries list ds.length = .ok ds := by
    simp [readEntries, lists.entries]
  rw [libusbyOpenDeviceWithVidPid, hlisted, ok_bind, if_neg (by omega), hlist, hr]
  simp only [Option.getD_some, Int.toNat_natCast, hread, ok_bind, hcached]
  rcases pass with ⟨isSome, rfl, rfl⟩ | ⟨rfl, hopened⟩
  · obtain ⟨handle, rfl⟩ := Option.isSome_iff_exists.1 isSome
    simp only [ok_bind, hfree]
  · simp only [hopened, ok_bind, hfree]

/-- The books when the search is over, and what it came to. -/
theorem libusbyOpenDeviceWithVidPid_counted (h : s.Counted n D owned) (ok : Nat → Bool)
    (attached : Nat → Option SyncResult) (q : Search) :
    ∃ r s' D', libusbyOpenDeviceWithVidPid ok attached s q = .ok (r, s') ∧
      Searched n D' owned r s' ∧
      (∀ handle, r = some handle → q.Matches (D' handle.dev) ∧ handle.id ∉ owned) ∧
      (r = none → PassedOver ok attached q s) := by
  obtain ⟨listed, D', hlisted, ⟨failed, counted⟩ | ⟨list, ds, hlist, lists, hr, counted⟩⟩ :=
    usbybGetDeviceList_counted h.ctx ok attached
  · have run : libusbyOpenDeviceWithVidPid ok attached s q =
        .ok (none, { s with ctx := listed.ctx }) := by
      rw [libusbyOpenDeviceWithVidPid, hlisted, ok_bind]
      exact if_pos failed
    refine ⟨none, _, D', run, searched_none ⟨counted, h.handles⟩, ?_, ?_⟩
    · intro handle some
      cases some
    · exact fun _ => ⟨listed, hlisted, .inl failed⟩
  have pos (d : DeviceId) (hd : d ∈ ds) : 0 < (n + tally ds) d := by
    have := h.ctx.nonneg d
    have := tally_pos hd
    rw [Pi.add_apply]
    omega
  have start : ({ s with ctx := listed.ctx } : Session).Counted (n + tally ds) D' owned :=
    ⟨counted, h.handles⟩
  -- a handle that a pass returns is the result of the search
  have found {handle : DeviceHandle} {s₂ : Session} (ids : q.Matches (D' handle.dev))
      (new : handle.id ∉ owned) (after : Searched (n + tally ds) D' owned (some handle) s₂)
      (run : ∀ ctx, libusbyFreeDeviceList s₂.ctx list true = .ok ctx →
        libusbyOpenDeviceWithVidPid ok attached s q = .ok (some handle, { s₂ with ctx })) :
      ∃ r s' D', libusbyOpenDeviceWithVidPid ok attached s q = .ok (r, s') ∧
        Searched n D' owned r s' ∧
        (∀ handle, r = some handle → q.Matches (D' handle.dev) ∧ handle.id ∉ owned) ∧
        (r = none → PassedOver ok attached q s) := by
    obtain ⟨ctx, hfree, booked⟩ := after.release h.ctx.nonneg lists
    refine ⟨_, _, D', run ctx hfree, booked, ?_, ?_⟩
    · intro x same
      cases same
      exact ⟨ids, new⟩
    · intro none
      cases none
  rcases searchCached_counted start q 0 pos with
    ⟨k, hcached⟩ | ⟨handle, k, s₁, hcached, ids, new, after⟩
  · rcases searchOpened_counted start q k pos with
      ⟨s₂, hopened, after, why⟩ | ⟨handle, s₂, hopened, ids, new, after⟩
    · obtain ⟨ctx, hfree, booked⟩ := (searched_none after).release h.ctx.nonneg lists
      refine ⟨none, _, D', libusbyOpenDeviceWithVidPid_eq hlisted hlist lists hr hcached
        (.inr ⟨rfl, hopened⟩) hfree, booked, ?_, fun _ => ⟨listed, hlisted, .inr ⟨list, ds, k, _,
        s₂, hlist, lists, hr, hcached, hopened, fun i d hd => ?_⟩⟩⟩
      · intro handle some
        cases some
      · obtain ⟨dev, hheap, cached⟩ :=
          getDeviceDescriptorCached_counted after.ctx (pos d (List.mem_of_getElem? hd))
        exact ⟨dev, D' d, hheap, cached, why i d hd⟩
    · exact found ids new after fun ctx => libusbyOpenDeviceWithVidPid_eq hlisted hlist lists hr
        hcached (.inr ⟨rfl, hopened⟩)
  · exact found ids new after fun ctx => libusbyOpenDeviceWithVidPid_eq hlisted hlist lists hr
      hcached (.inl ⟨rfl, rfl, rfl⟩)

/-- The search finds a device and leaves one handle, or it leaves no trace. -/
def SearchBalanced (ok : Nat → Bool) (attached : Nat → Option SyncResult) (q : Search)
    (s : Session) : Prop :=
  ∃ r s', libusbyOpenDeviceWithVidPid ok attached s q = .ok (r, s') ∧
    (∀ handle, r = some handle → Found q s s' handle) ∧ (r = none → Missed ok attached q s s')

theorem searchBalanced_of_counted (h : s.Counted n D owned) (ok : Nat → Bool)
    (attached : Nat → Option SyncResult) (q : Search) : SearchBalanced ok attached q s := by
  obtain ⟨r, s', D', run, after, found, passed⟩ :=
    libusbyOpenDeviceWithVidPid_counted h ok attached q
  refine ⟨r, s', run, ?_, ?_⟩
  · rintro handle rfl
    obtain ⟨ids, new⟩ := found handle rfl
    exact Searched.found h after new ids
  · rintro rfl
    have counted := after.missed
    refine ⟨fun id => ?_, fun d => ?_, passed rfl⟩
    · rw [h.handles.held_iff, counted.handles.held_iff]
    · rw [h.ctx.refs_eq, counted.ctx.refs_eq]

end

/-! ## Sessions of a client -/

/-- A client with the handles and the arrays that it has. -/
structure SessionState where
  session : Session := {}
  lists : List DeviceArray := []
  held : List DeviceHandle := []

inductive SessionOp where
  /-- A call that takes and gives no handle. -/
  | call (op : Op)
  | openHandle (d : DeviceId) (malloc : Bool)
  /-- `libusby_close` of the `k`-th handle. -/
  | closeHandle (k : Nat)
  | openDeviceWithVidPid (ok : Nat → Bool) (attached : Nat → Option SyncResult) (q : Search)

def SessionState.step (s : SessionState) : SessionOp → Option SessionState
  | .call op => (call ⟨s.session.ctx, s.lists⟩ op).toOption.map fun t =>
      { s with session := { s.session with ctx := t.ctx }, lists := t.lists }
  | .openHandle d malloc => (s.session.openHandle malloc d).toOption.map fun (r, session) =>
      { s with session, held := r.toOption.toList ++ s.held }
  | .closeHandle k => do
    let handle ← s.held[k]?
    (s.session.closeHandle handle).toOption.map fun session =>
      { s with session, held := s.held.eraseIdx k }
  | .openDeviceWithVidPid ok attached q =>
    (libusbyOpenDeviceWithVidPid ok attached s.session q).toOption.map fun (r, session) =>
      { s with session, held := r.toList ++ s.held }

def sessionMachine : Machine SessionState SessionOp := ⟨{}, SessionState.step⟩

/-- There are books for the context, and the handles that are out are those of the client. -/
structure SessionState.Kept (s : SessionState) : Prop where
  ctx : s.session.ctx.Countable
  handles : s.session.handles.Balanced (s.held.map (·.id))

theorem SessionState.Kept.step {s t : SessionState} {op : SessionOp} (h : s.Kept)
    (hs : s.step op = some t) : t.Kept := by
  cases op with
  | call op =>
    obtain ⟨u, hcall, ht⟩ := Option.map_eq_some_iff.1 hs
    cases ht
    exact ⟨call_countable h.ctx (toOption_eq_some.1 hcall), h.handles⟩
  | openHandle d malloc =>
    obtain ⟨⟨r, session⟩, hrun, ht⟩ := Option.map_eq_some_iff.1 hs
    cases ht
    obtain ⟨⟨opened, ctx⟩, hopen, hrun⟩ := bind_eq_ok.1 (toOption_eq_some.1 hrun)
    have countable := libusbyOpen_countable h.ctx hopen
    cases opened with
    | error e =>
      cases hrun
      exact ⟨countable, h.handles⟩
    | ok dev =>
      cases hrun
      exact ⟨countable, h.handles.acquire⟩
  | closeHandle k =>
    obtain ⟨handle, hk, hs⟩ := Option.bind_eq_some_iff.1 hs
    obtain ⟨session, hrun, ht⟩ := Option.map_eq_some_iff.1 hs
    cases ht
    obtain ⟨ctx, hclose, hrun⟩ := bind_eq_ok.1 (toOption_eq_some.1 hrun)
    cases hrun
    obtain ⟨lt, rfl⟩ := List.getElem?_eq_some_iff.1 hk
    have first := ((List.getElem_cons_eraseIdx_perm lt).map (·.id)).symm
    exact ⟨libusbyUnrefDevice_countable h.ctx hclose, (h.handles.perm first).release⟩
  | openDeviceWithVidPid ok attached q =>
    obtain ⟨⟨r, session⟩, hrun, ht⟩ := Option.map_eq_some_iff.1 hs
    cases ht
    obtain ⟨n, D, counted⟩ := h.ctx
    obtain ⟨_, _, D', hrun', after, -⟩ :=
      libusbyOpenDeviceWithVidPid_counted ⟨counted, h.handles⟩ ok attached q
    cases hrun'.symm.trans (toOption_eq_some.1 hrun)
    refine ⟨⟨_, D', after.ctx⟩, ?_⟩
    rw [List.map_append]
    exact after.handles

theorem SessionState.Kept.of_reachable {s : SessionState} (h : sessionMachine.Reachable s) :
    s.Kept := by
  have start : SessionState.Kept {} := ⟨countable_init, .refl _⟩
  exact Machine.Reachable.invariant (I := SessionState.Kept) start
    (fun _ _ _ kept hs => kept.step hs) h

end Libusby.Win32
