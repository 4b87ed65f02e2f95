import Libusby.Foundations.Machine
import Libusby.Linux.Enumeration
import Libusby.Linux.Frame

/-!
# A client of the device functions

`libusby_open_device_with_vid_pid`, and the machine whose events are the calls of a
client. The client keeps the arrays and handles it was given; `refs` counts the
references it holds apart from these. It took them with `libusby_ref_device`, or
kept them from an array that it freed without its references, and it may give back
a reference of an array before it frees the array: `refs` is then one less.
-/

namespace Libusby.Linux

open Foundations Libusby.Core

/-- `libusby_get_device_descriptor_cached`. -/
def getDeviceDescriptorCached (dev : Device) : Option (List UInt8) :=
  if dev.deviceDesc.getD 0 0 = 18 then some dev.deviceDesc else none

/-- The result of `libusby_get_descriptor` and the 18 bytes it left. -/
structure DescriptorReply where
  r : Int
  rawdesc : List UInt8
  deriving DecidableEq, Repr

/-- `libusby_get_device_descriptor`. -/
def getDeviceDescriptor (ctx : Context) (d : DeviceId) (reply : DescriptorReply) :
    Except Fault (Option (List UInt8) × Context) := do
  let dev ← ctx.deref d
  match getDeviceDescriptorCached dev with
  | some desc => .ok (some desc, ctx)
  | none =>
    if reply.r < 0 then .ok (none, ctx)
    else if reply.rawdesc.getD 0 0 ≠ 18 then .ok (none, ctx)
    else .ok (some reply.rawdesc, ctx.store d { dev with deviceDesc := reply.rawdesc })

/-- The request for a descriptor failed, or the reply is no device descriptor. -/
def DescriptorReply.Refused (reply : DescriptorReply) : Prop :=
  reply.r < 0 ∨ reply.rawdesc.getD 0 0 ≠ 18

/-- The descriptor is there already, the reply is refused, or it is stored. -/
theorem getDeviceDescriptor_eq_ok {ctx ctx' : Context} {d : DeviceId} {reply : DescriptorReply}
    {desc : Option (List UInt8)} (h : getDeviceDescriptor ctx d reply = .ok (desc, ctx')) :
    ∃ dev, ctx.heap d = some dev ∧
      ((∃ bytes, getDeviceDescriptorCached dev = some bytes ∧ desc = some bytes ∧ ctx' = ctx) ∨
        getDeviceDescriptorCached dev = none ∧ reply.Refused ∧ desc = none ∧ ctx' = ctx ∨
        getDeviceDescriptorCached dev = none ∧ ¬ reply.Refused ∧ desc = some reply.rawdesc ∧
          ctx' = ctx.store d { dev with deviceDesc := reply.rawdesc }) := by
  obtain ⟨dev, hderef, h⟩ := bind_eq_ok.1 h
  refine ⟨dev, deref_eq_ok hderef, ?_⟩
  cases hcached : getDeviceDescriptorCached dev with
  | some bytes =>
    rw [hcached] at h
    cases h
    exact .inl ⟨bytes, rfl, rfl, rfl⟩
  | none =>
    rw [hcached] at h
    simp only at h
    split_ifs at h with failed other
    · cases h
      exact .inr (.inl ⟨rfl, .inl failed, rfl, rfl⟩)
    · cases h
      exact .inr (.inl ⟨rfl, .inr other, rfl, rfl⟩)
    · cases h
      exact .inr (.inr ⟨rfl, not_or.2 ⟨failed, other⟩, rfl, rfl⟩)

/-- What a search for a device meets: its ids, and the outcome of the `k`-th
`libusby_open` and of the `k`-th request for a descriptor. -/
structure Search where
  vendorId : UInt16
  productId : UInt16
  opens : Nat → OpenOutcome
  replies : Nat → DescriptorReply

def Search.Matches (q : Search) (desc : List UInt8) : Prop :=
  idVendor desc = q.vendorId ∧ idProduct desc = q.productId

instance (q : Search) (desc : List UInt8) : Decidable (q.Matches desc) :=
  inferInstanceAs (Decidable (_ ∧ _))

/-- The first loop, over the devices that are left; `k` counts the calls of `libusby_open`. -/
def searchCached (q : Search) (ctx : Context) (k : Nat) :
    List DeviceId → Except Fault (Option DeviceHandle × Nat × Context)
  | [] => .ok (none, k, ctx)
  | d :: ds => do
    let dev ← ctx.deref d
    match getDeviceDescriptorCached dev with
    | none => searchCached q ctx k ds
    | some desc =>
      if ¬ q.Matches desc then searchCached q ctx k ds
      else do
        let (r, ctx) ← libusbyOpen ctx (q.opens k) d
        match r with
        | .error _ => searchCached q ctx (k + 1) ds
        | .ok handle => .ok (some handle, k + 1, ctx)

/-- The second loop. -/
def searchOpened (q : Search) (ctx : Context) (k : Nat) :
    List DeviceId → Except Fault (Option DeviceHandle × Context)
  | [] => .ok (none, ctx)
  | d :: ds => do
    let (r, ctx) ← libusbyOpen ctx (q.opens k) d
    match r with
    | .error _ => searchOpened q ctx (k + 1) ds
    | .ok handle => do
      let (desc, ctx) ← getDeviceDescriptor ctx handle.dev (q.replies k)
      if ∃ bytes ∈ desc, q.Matches bytes then .ok (some handle, ctx)
      else do
        let ctx ← libusbyClose ctx handle
        searchOpened q ctx (k + 1) ds

def libusbyOpenDeviceWithVidPid (ok : Nat → Bool) (ctx : Context) (dir : Option (List BusEntry))
    (q : Search) : Except Fault (Option DeviceHandle × Context) := do
  let listed ← usbybGetDeviceList ok ctx dir
  if listed.r < 0 then .ok (none, listed.ctx)
  else
    let deviceList := listed.list.getD none
    let ds ← readEntries deviceList listed.r.toNat
    let (found, k, ctx) ← searchCached q listed.ctx 0 ds
    let (handle, ctx) ← match found with
      | some handle => .ok (some handle, ctx)
      | none => searchOpened q ctx k ds
    let ctx ← libusbyFreeDeviceList ctx deviceList true
    .ok (handle, ctx)

structure State where
  ctx : Context := {}
  lists : List DeviceArray := []
  refs : DeviceId → Int := fun _ => 0
  handles : List DeviceHandle := []

namespace State

/-- The entries of the arrays that the client holds. -/
def entries (s : State) : List DeviceId := s.lists.flatMap DeviceArray.entries

/-- The references that the client may give back one by one. -/
def borrowed (s : State) (d : DeviceId) : Int := tally s.entries d + s.refs d

/-- The number of open handles of a device. -/
def opened (s : State) (d : DeviceId) : Int := tally (s.handles.map (·.dev)) d

/-- All that keeps a device alive. -/
def holdings (s : State) (d : DeviceId) : Int := s.borrowed d + s.opened d

end State

inductive Op where
  | getDeviceList (ok : Nat → Bool) (dir : Option (List BusEntry))
  | freeDeviceList (k : Nat) (unrefDevices : Bool)
  | refDevice (d : DeviceId)
  | unrefDevice (d : DeviceId)
  | openDevice (d : DeviceId) (outcome : OpenOutcome)
  | close (k : Nat)
  | openDeviceWithVidPid (ok : Nat → Bool) (dir : Option (List BusEntry)) (q : Search)

/-- The client passes what it holds, and gives back nothing that it does not hold. -/
def Allowed (s : State) : Op → Prop
  | .getDeviceList _ _ => True
  | .freeDeviceList k unrefDevices =>
    ∃ list ∈ s.lists[k]?, unrefDevices = true → ∀ d ∈ list.entries, tally list.entries d ≤ s.borrowed d
  | .refDevice d => 0 < s.holdings d
  | .unrefDevice d => 0 < s.borrowed d
  | .openDevice d _ => 0 < s.holdings d
  | .close k => k < s.handles.length
  | .openDeviceWithVidPid _ _ _ => True

instance (s : State) : DecidablePred (Allowed s)
  | .getDeviceList _ _ => inferInstanceAs (Decidable True)
  | .freeDeviceList _ _ => inferInstanceAs (Decidable (∃ _ ∈ _, _ → _))
  | .refDevice _ => inferInstanceAs (Decidable (_ < _))
  | .unrefDevice _ => inferInstanceAs (Decidable (_ < _))
  | .openDevice _ _ => inferInstanceAs (Decidable (_ < _))
  | .close _ => inferInstanceAs (Decidable (_ < _))
  | .openDeviceWithVidPid _ _ _ => inferInstanceAs (Decidable True)

/-- A call and what the client holds after it. -/
def call (s : State) : Op → Except Fault State
  | .getDeviceList ok dir => do
    let listed ← usbybGetDeviceList ok s.ctx dir
    if listed.r < 0 then .ok { s with ctx := listed.ctx }
    else .ok { s with ctx := listed.ctx, lists := listed.list.getD none :: s.lists }
  | .freeDeviceList k unrefDevices => do
    let list := (s.lists[k]?).getD none
    let ctx ← libusbyFreeDeviceList s.ctx list unrefDevices
    let kept := if unrefDevices then 0 else tally list.entries
    .ok { s with ctx, lists := s.lists.eraseIdx k, refs := s.refs + kept }
  | .refDevice d => do
    let ctx ← libusbyRefDevice s.ctx d
    .ok { s with ctx, refs := s.refs + tally [d] }
  | .unrefDevice d => do
    let ctx ← libusbyUnrefDevice s.ctx d
    .ok { s with ctx, refs := s.refs - tally [d] }
  | .openDevice d outcome => do
    let (r, ctx) ← libusbyOpen s.ctx outcome d
    match r with
    | .error _ => .ok { s with ctx }
    | .ok handle => .ok { s with ctx, handles := handle :: s.handles }
  | .close k =>
    match s.handles[k]? with
    | none => .ok s
    | some handle => do
      let ctx ← libusbyClose s.ctx handle
      .ok { s with ctx, handles := s.handles.eraseIdx k }
  | .openDeviceWithVidPid ok dir q => do
    let (handle, ctx) ← libusbyOpenDeviceWithVidPid ok s.ctx dir q
    .ok { s with ctx, handles := handle.toList ++ s.handles }

/-- The runs of one client. -/
def clientMachine : Machine State Op where
  init := {}
  step s op := if Allowed s op then (call s op).toOption else none

/-- `libusby_open_device_with_vid_pid`, which is made up of the other calls. -/
def Op.isSearch : Op → Bool
  | .openDeviceWithVidPid .. => true
  | _ => false

section
variable {s t : State} {op : Op}

theorem clientMachine_step (h : clientMachine.step s op = some t) :
    Allowed s op ∧ call s op = .ok t := by
  simp only [clientMachine, Option.ite_none_right_eq_some] at h
  obtain ⟨allowed, h⟩ := h
  exact ⟨allowed, toOption_eq_some.1 h⟩

/-- A property that references more or less keep is kept by every call but an enumeration. -/
theorem call_framed {P : Context → Prop} (framed : Context.Framed P)
    (enumeration : ∀ ok dir listed, op = .getDeviceList ok dir →
      usbybGetDeviceList ok s.ctx dir = .ok listed → P listed.ctx)
    (other : op.isSearch = false) (start : P s.ctx) (h : call s op = .ok t) : P t.ctx := by
  cases op with
  | getDeviceList ok dir =>
    obtain ⟨listed, hlisted, h⟩ := bind_eq_ok.1 h
    have := enumeration ok dir listed rfl hlisted
    split_ifs at h <;> cases h <;> exact this
  | freeDeviceList k unrefDevices =>
    obtain ⟨ctx, hfree, h⟩ := bind_eq_ok.1 h
    cases h
    exact framed.freeDeviceList start hfree
  | refDevice d =>
    obtain ⟨ctx, href, h⟩ := bind_eq_ok.1 h
    cases h
    exact framed.ref _ _ _ start href
  | unrefDevice d =>
    obtain ⟨ctx, hunref, h⟩ := bind_eq_ok.1 h
    cases h
    exact framed.unref _ _ _ start hunref
  | openDevice d outcome =>
    obtain ⟨⟨r, ctx⟩, hopen, h⟩ := bind_eq_ok.1 h
    have := framed.openDevice start hopen
    cases r <;> cases h <;> exact this
  | close k =>
    simp only [call] at h
    split at h
    case h_1 =>
      cases h
      exact start
    case h_2 =>
      obtain ⟨ctx, hclose, h⟩ := bind_eq_ok.1 h
      cases h
      exact framed.close start hclose
  | openDeviceWithVidPid ok dir q => cases other

end

end Libusby.Linux
