import Libusby.Linux.RefCount.Ownership

/-!
# What a search by ids finds

The two passes of `libusby_open_device_with_vid_pid` on usbfs. Whatever fails on the way, a
search that finds nothing leaves no trace, and a search that finds a device leaves one reference
and one open descriptor. Descriptors that a search stores stay valid until it is over.
-/

namespace Libusby.Linux

open Foundations Libusby.Core

/-- `libusby_open` fails. -/
def OpenOutcome.Fails (outcome : OpenOutcome) : Prop := ¬ (outcome.malloc ∧ outcome.opens)

/-- `ref_count` of a device, 0 if there is none. -/
def Context.refs (ctx : Context) (d : DeviceId) : Int := ((ctx.heap d).map (·.refCount)).getD 0

/-- The device, if it is in memory, has a descriptor of which `R` holds. -/
def Context.Shows (ctx : Context) (d : DeviceId) (R : List UInt8 → Prop) : Prop :=
  ∀ dev, ctx.heap d = some dev → ∃ desc ∈ getDeviceDescriptorCached dev, R desc

section
variable {ctx ctx' : Context} {d x : DeviceId} {dev : Device} {reply : DescriptorReply}
  {desc : Option (List UInt8)} {R : List UInt8 → Prop} {q : Search} {k k' : Nat}
  {ds : List DeviceId} {handle : DeviceHandle} {r : Option DeviceHandle}

theorem cached_of_not_refused (h : ¬ reply.Refused) (dev : Device) :
    getDeviceDescriptorCached { dev with deviceDesc := reply.rawdesc } = some reply.rawdesc :=
  if_pos (not_not.1 (not_or.1 h).2)

/-! ## Descriptors that stay -/

/-- References more or less keep the descriptors. -/
theorem shows_framed (d : DeviceId) (R : List UInt8 → Prop) :
    Context.Framed fun ctx => ctx.Shows d R := by
  have store (ctx : Context) (x : DeviceId) (dev : Device) (n : Int) (h : ctx.Shows d R)
      (hx : ctx.heap x = some dev) : (ctx.store x { dev with refCount := n }).Shows d R := by
    intro dev' hd
    by_cases same : d = x
    · subst same
      rw [heap_store_self] at hd
      cases hd
      exact h dev hx
    · rw [heap_store_ne same] at hd
      exact h dev' hd
  constructor
  case congr =>
    intro ctx ctx' h heap _ _ dev hd
    exact h dev (heap ▸ hd)
  case ref =>
    intro ctx x ctx' h href
    obtain ⟨dev, hx, rfl⟩ := libusbyRefDevice_eq_ok href
    exact store ctx x dev _ h hx
  case unref =>
    intro ctx x ctx' h hunref
    obtain ⟨dev, hx, ⟨-, rfl⟩ | ⟨-, rfl⟩⟩ := libusbyUnrefDevice_eq_ok hunref
    · intro dev' hd
      simp only [Context.remove, Function.update_apply] at hd
      split_ifs at hd
      exact h dev' hd
    · exact store ctx x dev _ h hx

/-- A valid descriptor is not replaced. -/
theorem getDeviceDescriptor_shows (h : ctx.Shows d R)
    (hget : getDeviceDescriptor ctx x reply = .ok (desc, ctx')) : ctx'.Shows d R := by
  obtain ⟨dev, hx, ⟨_, -, -, rfl⟩ | ⟨-, -, -, rfl⟩ | ⟨uncached, -, -, rfl⟩⟩ :=
    getDeviceDescriptor_eq_ok hget
  · exact h
  · exact h
  · intro dev' hd
    by_cases same : d = x
    · subst same
      obtain ⟨bytes, cached, -⟩ := h dev hx
      cases uncached.symm.trans cached
    · rw [heap_store_ne same] at hd
      exact h dev' hd

theorem libusbyOpen_eq_ok {outcome : OpenOutcome} {r : Except Error DeviceHandle}
    (h : libusbyOpen ctx outcome d = .ok (r, ctx')) :
    (∃ e, r = .error e) ∧ outcome.Fails ∨
      (∃ handle, r = .ok handle ∧ handle.dev = d) ∧ ¬ outcome.Fails := by
  unfold libusbyOpen at h
  split at h
  case isTrue memory =>
    cases h
    exact .inl ⟨⟨_, rfl⟩, fun both => memory both.1⟩
  case isFalse memory =>
    obtain ⟨⟨r₁, ctx₁⟩, hopen, h⟩ := bind_eq_ok.1 h
    obtain ⟨dev, -, hopen⟩ := bind_eq_ok.1 hopen
    split at hopen
    case isTrue opens =>
      cases hopen
      obtain ⟨ctx₂, -, h⟩ := bind_eq_ok.1 h
      cases h
      exact .inr ⟨⟨_, rfl, rfl⟩, not_not.2 ⟨not_not.1 memory, opens⟩⟩
    case isFalse opens =>
      cases hopen
      cases h
      exact .inl ⟨⟨_, rfl⟩, fun both => opens both.2⟩

/-! ## One device -/

/-- How the second pass deals with a device. -/
inductive Attempt (q : Search) (ctx : Context) (k : Nat) (d : DeviceId) :
    Option DeviceHandle → Context → Prop where
  | failed {e : Error} {ctx₁ : Context}
    (opened : libusbyOpen ctx (q.opens k) d = .ok (.error e, ctx₁)) : Attempt q ctx k d none ctx₁
  | found {handle : DeviceHandle} {bytes : List UInt8} {ctx₁ ctx₂ : Context}
    (opened : libusbyOpen ctx (q.opens k) d = .ok (.ok handle, ctx₁))
    (read : getDeviceDescriptor ctx₁ d (q.replies k) = .ok (some bytes, ctx₂))
    (ids : q.Matches bytes) : Attempt q ctx k d (some handle) ctx₂
  | other {handle : DeviceHandle} {desc : Option (List UInt8)} {ctx₁ ctx₂ ctx₃ : Context}
    (opened : libusbyOpen ctx (q.opens k) d = .ok (.ok handle, ctx₁))
    (read : getDeviceDescriptor ctx₁ d (q.replies k) = .ok (desc, ctx₂))
    (ids : ∀ bytes ∈ desc, ¬ q.Matches bytes)
    (closed : libusbyClose ctx₂ handle = .ok ctx₃) : Attempt q ctx k d none ctx₃

theorem searchOpened_cons (h : searchOpened q ctx k (x :: ds) = .ok (r, ctx')) :
    (r.isSome ∧ Attempt q ctx k x r ctx') ∨
      ∃ ctx₁, Attempt q ctx k x none ctx₁ ∧ searchOpened q ctx₁ (k + 1) ds = .ok (r, ctx') := by
  obtain ⟨⟨opened, ctx₁⟩, hopen, h⟩ := bind_eq_ok.1 h
  cases opened with
  | error e => exact .inr ⟨ctx₁, .failed hopen, h⟩
  | ok handle =>
    obtain ⟨⟨desc, ctx₂⟩, hget, h⟩ := bind_eq_ok.1 h
    have dev : handle.dev = x := by
      rcases libusbyOpen_eq_ok hopen with ⟨⟨e, failed⟩, -⟩ | ⟨⟨_, same, dev⟩, -⟩
      · cases failed
      · cases same
        exact dev
    rw [dev] at hget
    dsimp only at h
    split at h
    case isTrue found =>
      cases h
      obtain ⟨bytes, rfl, ids⟩ := found
      exact .inl ⟨rfl, .found hopen hget ids⟩
    case isFalse other =>
      obtain ⟨ctx₃, hclose, h⟩ := bind_eq_ok.1 h
      exact .inr ⟨ctx₃, .other hopen hget (fun bytes hb ids => other ⟨bytes, hb, ids⟩) hclose, h⟩

/-- The first pass goes on, perhaps after an attempt to open, or it opens a device whose
descriptor was there and has the ids. -/
theorem searchCached_cons (h : searchCached q ctx k (x :: ds) = .ok (r, k', ctx')) :
    (∃ k₁ ctx₁, (ctx₁ = ctx ∨ ∃ opened, libusbyOpen ctx (q.opens k) x = .ok (opened, ctx₁)) ∧
        searchCached q ctx₁ k₁ ds = .ok (r, k', ctx')) ∨
      ∃ handle, r = some handle ∧ handle.dev = x ∧ ctx.Shows x q.Matches ∧
        libusbyOpen ctx (q.opens k) x = .ok (.ok handle, ctx') := by
  obtain ⟨dev, hderef, h⟩ := bind_eq_ok.1 h
  split at h
  case h_1 => exact .inl ⟨k, ctx, .inl rfl, h⟩
  case h_2 bytes cached =>
    split at h
    case isTrue => exact .inl ⟨k, ctx, .inl rfl, h⟩
    case isFalse same =>
      obtain ⟨⟨opened, ctx₁⟩, hopen, h⟩ := bind_eq_ok.1 h
      rcases libusbyOpen_eq_ok hopen with ⟨⟨e, rfl⟩, -⟩ | ⟨⟨handle, rfl, hdev⟩, -⟩
      · exact .inl ⟨k + 1, ctx₁, .inr ⟨_, hopen⟩, h⟩
      · cases h
        refine .inr ⟨handle, rfl, hdev, fun dev' hx => ?_, hopen⟩
        cases (deref_eq_ok hderef).symm.trans hx
        exact ⟨bytes, cached, not_not.1 same⟩

/-- `P` is kept by references more or less and by requests for descriptors. -/
theorem Attempt.keeps {P : Context → Prop} (framed : Context.Framed P)
    (request : ∀ ctx d reply desc ctx', P ctx → getDeviceDescriptor ctx d reply = .ok (desc, ctx') →
      P ctx')
    (h : Attempt q ctx k x r ctx') (start : P ctx) : P ctx' := by
  cases h with
  | failed opened => exact framed.openDevice start opened
  | found opened read ids => exact request _ _ _ _ _ (framed.openDevice start opened) read
  | other opened read ids closed =>
    exact framed.close (request _ _ _ _ _ (framed.openDevice start opened) read) closed

theorem Attempt.shows (h : Attempt q ctx k x r ctx') (start : ctx.Shows d R) : ctx'.Shows d R :=
  h.keeps (shows_framed d R) (fun _ _ _ _ _ before read => getDeviceDescriptor_shows before read)
    start

/-- After a successful request the device shows the descriptor that was returned. -/
theorem getDeviceDescriptor_some {bytes : List UInt8}
    (h : getDeviceDescriptor ctx d reply = .ok (some bytes, ctx')) :
    ctx'.Shows d (· = bytes) := by
  intro dev' hd
  obtain ⟨dev, hx, ⟨_, cached, same, rfl⟩ | ⟨-, -, none, -⟩ | ⟨-, accepted, same, rfl⟩⟩ :=
    getDeviceDescriptor_eq_ok h
  · cases same
    cases hx.symm.trans hd
    exact ⟨bytes, cached, rfl⟩
  · cases none
  · cases same
    rw [heap_store_self] at hd
    cases hd
    exact ⟨_, cached_of_not_refused accepted dev, rfl⟩

theorem Context.Shows.mono {S : List UInt8 → Prop} (h : ctx.Shows d R)
    (hR : ∀ bytes, R bytes → S bytes) : ctx.Shows d S := by
  intro dev hd
  obtain ⟨bytes, cached, holds⟩ := h dev hd
  exact ⟨bytes, cached, hR bytes holds⟩

/-! ## The passes -/

/-- The second pass keeps what every attempt keeps. -/
theorem searchOpened_keeps {P : Context → Prop}
    (attempt : ∀ ctx k x r ctx', Attempt q ctx k x r ctx' → P ctx → P ctx') (start : P ctx)
    (h : searchOpened q ctx k ds = .ok (r, ctx')) : P ctx' := by
  induction ds generalizing ctx k with
  | nil =>
    cases h
    exact start
  | cons x ds ih =>
    rcases searchOpened_cons h with ⟨-, tried⟩ | ⟨ctx₁, tried, h⟩
    · exact attempt _ _ _ _ _ tried start
    · exact ih (attempt _ _ _ _ _ tried start) h

theorem searchCached_keeps {P : Context → Prop} (framed : Context.Framed P) (start : P ctx)
    (h : searchCached q ctx k ds = .ok (r, k', ctx')) : P ctx' := by
  induction ds generalizing ctx k with
  | nil =>
    cases h
    exact start
  | cons x ds ih =>
    rcases searchCached_cons h with ⟨k₁, ctx₁, rfl | ⟨_, hopen⟩, rest⟩ | ⟨_, -, -, -, hopen⟩
    · exact ih start rest
    · exact ih (framed.openDevice start hopen) rest
    · exact framed.openDevice start hopen

/-- The device of a handle that the first pass returns has the ids. -/
theorem searchCached_found (h : searchCached q ctx k ds = .ok (some handle, k', ctx')) :
    ctx'.Shows handle.dev q.Matches := by
  induction ds generalizing ctx k with
  | nil => cases h
  | cons x ds ih =>
    rcases searchCached_cons h with ⟨k₁, ctx₁, -, h⟩ | ⟨_, same, rfl, shown, hopen⟩
    · exact ih h
    · cases same
      exact (shows_framed _ q.Matches).openDevice shown hopen

/-- The device of a handle that the second pass returns has the ids. -/
theorem searchOpened_found (h : searchOpened q ctx k ds = .ok (some handle, ctx')) :
    ctx'.Shows handle.dev q.Matches := by
  induction ds generalizing ctx k with
  | nil => cases h
  | cons x ds ih =>
    rcases searchOpened_cons h with ⟨-, tried⟩ | ⟨ctx₁, -, h⟩
    · cases tried with
      | found opened read ids =>
        rcases libusbyOpen_eq_ok opened with ⟨⟨e, failed⟩, -⟩ | ⟨⟨_, same, rfl⟩, -⟩
        · cases failed
        · cases same
          exact (getDeviceDescriptor_some read).mono fun _ same => same ▸ ids
    · exact ih h

/-- Why a device is passed over: it cannot be opened, its descriptor was not read before and
is not sent, or it has other ids when the search is over. -/
def PassedOver (q : Search) (before after : Context) (k : Nat) (d : DeviceId) : Prop :=
  (q.opens k).Fails ∨
    (∃ dev, before.heap d = some dev ∧ getDeviceDescriptorCached dev = none) ∧
      (q.replies k).Refused ∨
    after.Shows d fun desc => ¬ q.Matches desc

theorem Context.shows_or (ctx : Context) (d : DeviceId) : (ctx.Shows d fun _ => True) ∨
    ∃ dev, ctx.heap d = some dev ∧ getDeviceDescriptorCached dev = none := by
  by_cases uncached : ∃ dev, ctx.heap d = some dev ∧ getDeviceDescriptorCached dev = none
  · exact .inr uncached
  · refine .inl fun dev hd => ?_
    cases cached : getDeviceDescriptorCached dev with
    | none => exact absurd ⟨dev, hd, cached⟩ uncached
    | some bytes => exact ⟨bytes, rfl, trivial⟩

/-- What has no valid descriptor now has had none before. -/
theorem uncached_before {dev : Device} (hd : ctx'.heap d = some dev)
    (uncached : getDeviceDescriptorCached dev = none)
    (kept : (ctx.Shows d fun _ => True) → ctx'.Shows d fun _ => True) :
    ∃ dev, ctx.heap d = some dev ∧ getDeviceDescriptorCached dev = none := by
  refine (ctx.shows_or d).resolve_left fun shown => ?_
  obtain ⟨bytes, cached, -⟩ := kept shown dev hd
  cases uncached.symm.trans cached

theorem Attempt.passedOver (h : Attempt q ctx k d none ctx') : PassedOver q ctx ctx' k d := by
  cases h with
  | failed opened =>
    rcases libusbyOpen_eq_ok opened with ⟨-, fails⟩ | ⟨⟨_, same, -⟩, -⟩
    · exact .inl fails
    · cases same
  | other opened read ids closed =>
    have before := getDeviceDescriptor_eq_ok read
    rename_i desc ctx₁ ctx₂
    cases desc with
    | none =>
      obtain ⟨dev, hd, ⟨_, -, same, -⟩ | ⟨uncached, refused, -⟩ | ⟨-, -, same, -⟩⟩ := before
      · cases same
      · refine .inr (.inl ⟨uncached_before hd uncached fun shown => ?_, refused⟩)
        exact (shows_framed d _).openDevice shown opened
      · cases same
    | some bytes =>
      refine .inr (.inr ((shows_framed d _).close ?_ closed))
      exact (getDeviceDescriptor_some read).mono fun _ same => same ▸ ids bytes rfl

/-- A second pass that returns no handle has passed over every device. -/
theorem searchOpened_none (h : searchOpened q ctx k ds = .ok (none, ctx')) :
    ∀ i d, ds[i]? = some d → PassedOver q ctx ctx' (k + i) d := by
  induction ds generalizing ctx k with
  | nil =>
    intro i d hd
    cases hd
  | cons x ds ih =>
    obtain ⟨found, -⟩ | ⟨ctx₁, tried, next⟩ := searchOpened_cons h
    · cases found
    intro i d hd
    cases i with
    | zero =>
      cases hd
      rcases tried.passedOver with fails | refused | differs
      · exact .inl fails
      · exact .inr (.inl refused)
      · exact .inr (.inr (searchOpened_keeps (fun _ _ _ _ _ tried => tried.shows) differs next))
    | succ i =>
      have later := ih next i d hd
      rw [Nat.add_right_comm] at later
      rcases later with fails | ⟨⟨dev, hx, uncached⟩, refused⟩ | differs
      · exact .inl fails
      · exact .inr (.inl ⟨uncached_before hx uncached tried.shows, refused⟩)
      · exact .inr (.inr differs)

/-! ## The whole search -/

/-- A handle that was not open is open, to a device with the ids that has one more reference. -/
structure Found (q : Search) (ctx ctx' : Context) (handle : DeviceHandle) : Prop where
  closed : ¬ ctx.wrfds.Held handle.wrfd
  opened : ∀ fd, ctx'.wrfds.Held fd ↔ fd = handle.wrfd ∨ ctx.wrfds.Held fd
  refs : ∀ d, ctx'.refs d = ctx.refs d + if d = handle.dev then 1 else 0
  memory : ∃ dev desc, ctx'.heap handle.dev = some dev ∧
    getDeviceDescriptorCached dev = some desc ∧ q.Matches desc

/-- References and open handles are as before. The enumeration failed, or every device that it
listed was passed over in the second pass. -/
structure Missed (ok : Nat → Bool) (dir : Option (List BusEntry)) (q : Search)
    (ctx ctx' : Context) : Prop where
  opened : ∀ fd, ctx'.wrfds.Held fd ↔ ctx.wrfds.Held fd
  refs : ∀ d, ctx'.refs d = ctx.refs d
  why : ∃ listed, usbybGetDeviceList ok ctx dir = .ok listed ∧
    (listed.r < 0 ∨ ∃ list ds k before after, listed.list = some list ∧ list.Lists ds ∧
      listed.r = ds.length ∧ searchCached q listed.ctx 0 ds = .ok (none, k, before) ∧
      searchOpened q before k ds = .ok (none, after) ∧
      ∀ i d, ds[i]? = some d → PassedOver q before after (k + i) d ∧
        ∃ dev, after.heap d = some dev)

theorem Counted.refs_eq {n : DeviceId → Int} {loose wrfds : List FdId}
    (h : Counted ctx n loose wrfds) (d : DeviceId) : ctx.refs d = n d := by
  unfold Context.refs
  cases hd : ctx.heap d with
  | none => exact (h.dead d hd).symm
  | some dev => exact (h.live d dev hd).1

theorem Searched.found {n : DeviceId → Int} {wrfds : List FdId} (before : Counted ctx n [] wrfds)
    (after : Searched n wrfds (some handle) ctx') (shown : ctx'.Shows handle.dev q.Matches) :
    Found q ctx ctx' handle := by
  have counted : Counted ctx' (n + tally [handle.dev]) [] (handle.wrfd :: wrfds) := after
  constructor
  case closed =>
    rw [before.wrfds.held_iff]
    exact (List.nodup_cons.1 counted.wrfds.owned_nodup).1
  case opened =>
    intro fd
    rw [counted.wrfds.held_iff, before.wrfds.held_iff, List.mem_cons]
  case refs =>
    intro d
    rw [counted.refs_eq, before.refs_eq, Pi.add_apply]
    by_cases same : d = handle.dev
    · rw [if_pos same, same, tally_self]
    · rw [if_neg same, tally_ne same]
  case memory =>
    have positive : 0 < (n + tally [handle.dev]) handle.dev := by
      have := before.nonneg handle.dev
      rw [Pi.add_apply, tally_self]
      omega
    obtain ⟨dev, hd⟩ := counted.exists_device positive
    obtain ⟨desc, cached, ids⟩ := shown dev hd
    exact ⟨dev, desc, hd, cached, ids⟩

variable {ok : Nat → Bool} {dir : Option (List BusEntry)}

/-- The enumeration, the passes and the release of the list. -/
theorem libusbyOpenDeviceWithVidPid_eq_ok
    (h : libusbyOpenDeviceWithVidPid ok ctx dir q = .ok (r, ctx')) :
    ∃ listed, usbybGetDeviceList ok ctx dir = .ok listed ∧
      (listed.r < 0 ∧ r = none ∧ ctx' = listed.ctx ∨
        ¬ listed.r < 0 ∧ ∃ ds found k before after,
          readEntries (listed.list.getD none) listed.r.toNat = .ok ds ∧
          searchCached q listed.ctx 0 ds = .ok (found, k, before) ∧
          (found.isSome ∧ r = found ∧ after = before ∨
            found = none ∧ searchOpened q before k ds = .ok (r, after)) ∧
          libusbyFreeDeviceList after (listed.list.getD none) true = .ok ctx') := by
  obtain ⟨listed, hlisted, h⟩ := bind_eq_ok.1 h
  refine ⟨listed, hlisted, ?_⟩
  split at h
  case isTrue failed =>
    cases h
    exact .inl ⟨failed, rfl, rfl⟩
  case isFalse succeeded =>
    obtain ⟨ds, hread, h⟩ := bind_eq_ok.1 h
    obtain ⟨⟨found, k, before⟩, hcached, h⟩ := bind_eq_ok.1 h
    cases found with
    | some handle =>
      obtain ⟨passed, same, h⟩ := bind_eq_ok.1 h
      cases same
      obtain ⟨released, hfree, h⟩ := bind_eq_ok.1 h
      cases h
      exact .inr ⟨succeeded, ds, some handle, k, before, before, hread, hcached,
        .inl ⟨rfl, rfl, rfl⟩, hfree⟩
    | none =>
      obtain ⟨⟨handle, after⟩, hopened, h⟩ := bind_eq_ok.1 h
      obtain ⟨released, hfree, h⟩ := bind_eq_ok.1 h
      cases h
      exact .inr ⟨succeeded, ds, none, k, before, after, hread, hcached, .inr ⟨rfl, hopened⟩,
        hfree⟩

/-- A property that the enumeration and requests for descriptors keep is kept by every call. -/
theorem call_maintained {P : Context → Prop} {s t : State} {op : Op} (m : Context.Maintained P)
    (request : ∀ ctx d reply desc ctx', P ctx → getDeviceDescriptor ctx d reply = .ok (desc, ctx') →
      P ctx')
    (start : P s.ctx) (h : call s op = .ok t) : P t.ctx := by
  cases search : op.isSearch with
  | false =>
    exact call_framed m.toFramed
      (fun _ _ _ _ hlisted => usbybGetDeviceList_maintained m start hlisted) search start h
  | true =>
    cases op <;> cases search
    obtain ⟨⟨handle, ctx'⟩, hsearch, h⟩ := bind_eq_ok.1 h
    cases h
    obtain ⟨listed, hlisted, rest⟩ := libusbyOpenDeviceWithVidPid_eq_ok hsearch
    have enumerated := usbybGetDeviceList_maintained m start hlisted
    obtain ⟨-, -, rfl⟩ | ⟨-, ds, found, k, before, after, -, hcached, pass, hfree⟩ := rest
    · exact enumerated
    · have first := searchCached_keeps m.toFramed enumerated hcached
      refine m.freeDeviceList ?_ hfree
      obtain ⟨-, -, rfl⟩ | ⟨-, hopened⟩ := pass
      · exact first
      · refine searchOpened_keeps ?_ first hopened
        exact fun _ _ _ _ _ tried => tried.keeps m.toFramed request

/-- The device of the handle that is returned has the ids. -/
theorem libusbyOpenDeviceWithVidPid_shows
    (h : libusbyOpenDeviceWithVidPid ok ctx dir q = .ok (some handle, ctx')) :
    ctx'.Shows handle.dev q.Matches := by
  obtain ⟨listed, -, ⟨-, none, -⟩ | ⟨-, ds, found, k, before, after, -, hcached, pass, hfree⟩⟩ :=
    libusbyOpenDeviceWithVidPid_eq_ok h
  · cases none
  · apply (shows_framed handle.dev q.Matches).freeDeviceList _ hfree
    rcases pass with ⟨-, rfl, rfl⟩ | ⟨-, hopened⟩
    · exact searchCached_found hcached
    · exact searchOpened_found hopened

/-- The devices that were listed are in memory until the list is released. -/
theorem searched_memory {n : DeviceId → Int} {wrfds : List FdId} {ctx₀ : Context}
    (before : Counted ctx n [] wrfds) (listed : Counted ctx₀ (n + tally ds) [] wrfds)
    {ctx₁ ctx₂ : Context} (hcached : searchCached q ctx₀ 0 ds = .ok (none, k, ctx₁))
    (hopened : searchOpened q ctx₁ k ds = .ok (none, ctx₂)) (hd : d ∈ ds) :
    ∃ dev, ctx₂.heap d = some dev := by
  have pos : ∀ d ∈ ds, 0 < (n + tally ds) d := fun d hd => by
    have := before.nonneg d
    have := tally_pos hd
    simp only [Pi.add_apply]
    omega
  obtain ⟨_, _, _, hcached', h₁⟩ := searchCached_counted q listed 0 pos
  cases hcached.symm.trans hcached'
  have h₁ : Counted ctx₁ (n + tally ds) [] wrfds := by simpa [Searched] using h₁
  obtain ⟨_, _, hopened', h₂⟩ := searchOpened_counted q h₁ k pos
  cases hopened.symm.trans hopened'
  have h₂ : Counted ctx₂ (n + tally ds) [] wrfds := by simpa [Searched] using h₂
  exact h₂.exists_device (pos d hd)

theorem missed {n : DeviceId → Int} {wrfds : List FdId} (before : Counted ctx n [] wrfds)
    (h : libusbyOpenDeviceWithVidPid ok ctx dir q = .ok (none, ctx')) :
    Missed ok dir q ctx ctx' := by
  obtain ⟨handle, ctx₁, hrun, after⟩ := libusbyOpenDeviceWithVidPid_counted before ok dir q
  cases hrun.symm.trans h
  have counted : Counted ctx' n [] wrfds := by simpa [Searched] using after
  refine ⟨fun fd => ?_, fun d => ?_, ?_⟩
  · rw [counted.wrfds.held_iff, before.wrfds.held_iff]
  · rw [counted.refs_eq, before.refs_eq]
  · obtain ⟨listed, hlisted, ⟨failed, -⟩ |
        ⟨succeeded, ds, found, k, ctx₁, ctx₂, hread, hcached, pass, -⟩⟩ :=
      libusbyOpenDeviceWithVidPid_eq_ok h
    · exact ⟨listed, hlisted, .inl failed⟩
    · obtain ⟨_, hlisted', ⟨failed, -⟩ | ⟨list, ds', hlist, lists, hr, h₀⟩⟩ :=
        usbybGetDeviceList_counted before ok dir
      · cases hlisted.symm.trans hlisted'
        exact absurd failed succeeded
      · cases hlisted.symm.trans hlisted'
        obtain ⟨rfl, hopened⟩ : found = none ∧ searchOpened q ctx₁ k ds = .ok (none, ctx₂) := by
          rcases pass with ⟨isSome, rfl, -⟩ | passed
          · cases isSome
          · exact passed
        obtain rfl : ds = ds' := by
          rw [hlist, hr, Int.toNat_natCast, Option.getD_some, readEntries, lists.entries,
            List.take_length, if_pos rfl] at hread
          exact (Except.ok.inj hread).symm
        refine ⟨listed, hlisted, .inr ⟨list, ds, k, ctx₁, ctx₂, hlist, lists, hr, hcached, hopened,
          fun i d hd => ⟨searchOpened_none hopened i d hd, ?_⟩⟩⟩
        exact searched_memory before h₀ hcached hopened (List.mem_of_getElem? hd)

end

/-- The search finds a device and leaves one handle, or it leaves no trace. -/
def SearchBalanced (ok : Nat → Bool) (dir : Option (List BusEntry)) (q : Search)
    (ctx : Context) : Prop :=
  ∃ r ctx', libusbyOpenDeviceWithVidPid ok ctx dir q = .ok (r, ctx') ∧
    (∀ handle, r = some handle → Found q ctx ctx' handle) ∧
    (r = none → Missed ok dir q ctx ctx')

theorem searchBalanced_of_counted {ctx : Context} {n : DeviceId → Int} {wrfds : List FdId}
    (before : Counted ctx n [] wrfds) (ok : Nat → Bool) (dir : Option (List BusEntry))
    (q : Search) : SearchBalanced ok dir q ctx := by
  obtain ⟨r, ctx', hrun, after⟩ := libusbyOpenDeviceWithVidPid_counted before ok dir q
  refine ⟨r, ctx', hrun, ?_, ?_⟩
  · rintro handle rfl
    exact Searched.found before after (libusbyOpenDeviceWithVidPid_shows hrun)
  · rintro rfl
    exact missed before hrun

end Libusby.Linux
