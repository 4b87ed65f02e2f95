import Libusby.Foundations.Machine
import Libusby.Win32.Enumeration

/-!
# A client of the device functions of libusb0

The machine whose events are the calls of a client. The client may give back what it does not
hold: a call that would touch a structure that is not there is not enabled.
-/

namespace Libusby.Win32

open Foundations Libusby.Core

/-- `libusby_open`; `usbyb_open` does nothing. `malloc` is for the handle. -/
def libusbyOpen (ctx : Context) (malloc : Bool) (d : DeviceId) :
    Except Fault (Except Error DeviceId × Context) :=
  if ¬ malloc then .ok (.error .noMem, ctx)
  else do
    let ctx ← libusbyRefDevice ctx d
    .ok (.ok d, ctx)

/-- `libusby_close` of a handle to the device; `usbyb_close` does nothing. -/
def libusbyClose (ctx : Context) (dev : DeviceId) : Except Fault Context := libusbyUnrefDevice ctx dev

structure State where
  ctx : Context := {}
  lists : List DeviceArray := []

inductive Op where
  | getDeviceList (ok : Nat → Bool) (attached : Nat → Option SyncResult)
  | freeDeviceList (k : Nat) (unrefDevices : Bool)
  | refDevice (d : DeviceId)
  | unrefDevice (d : DeviceId)
  | openDevice (d : DeviceId) (malloc : Bool)
  | close (dev : DeviceId)

/-- A call and the arrays that the client holds after it. -/
def call (s : State) : Op → Except Fault State
  | .getDeviceList ok attached => do
    let listed ← usbybGetDeviceList ok (fun _ => true) s.ctx attached
    if listed.r < 0 then .ok { s with ctx := listed.ctx }
    else .ok { ctx := listed.ctx, lists := listed.list.getD none :: s.lists }
  | .freeDeviceList k unrefDevices => do
    let ctx ← libusbyFreeDeviceList s.ctx ((s.lists[k]?).getD none) unrefDevices
    .ok { ctx, lists := s.lists.eraseIdx k }
  | .refDevice d => do
    let ctx ← libusbyRefDevice s.ctx d
    .ok { s with ctx }
  | .unrefDevice d => do
    let ctx ← libusbyUnrefDevice s.ctx d
    .ok { s with ctx }
  | .openDevice d malloc => do
    let (_, ctx) ← libusbyOpen s.ctx malloc d
    .ok { s with ctx }
  | .close dev => do
    let ctx ← libusbyClose s.ctx dev
    .ok { s with ctx }

/-- The runs of one client. -/
def clientMachine : Machine State Op where
  init := {}
  step s op := (call s op).toOption

section
variable {s t : State} {op : Op}

/-- A property that a reference more or less and every iteration of an enumeration keep. -/
theorem call_induction {P : Context → Prop}
    (iteration : ∀ ok attached, op = .getDeviceList ok attached → ∀ i ∈ deviceNumbers,
      ∀ s ds left, P s.ctx → Iterated ok attached i s ds left → P left.ctx)
    (ref : ∀ ctx d ctx', P ctx → libusbyRefDevice ctx d = .ok ctx' → P ctx')
    (unref : ∀ ctx d ctx', P ctx → libusbyUnrefDevice ctx d = .ok ctx' → P ctx')
    (h : call s op = .ok t) (wf : s.ctx.WellFormed) (start : P s.ctx) :
    t.ctx.WellFormed ∧ P t.ctx := by
  have referenced {d : DeviceId} {ctx : Context} (hr : libusbyRefDevice s.ctx d = .ok ctx) :
      ctx.WellFormed ∧ P ctx := by
    refine ⟨?_, ref _ d _ start hr⟩
    obtain ⟨dev, hd, rfl⟩ := libusbyRefDevice_eq_ok hr
    exact wf.store hd rfl
  have released {d : DeviceId} {ctx : Context} (hu : libusbyUnrefDevice s.ctx d = .ok ctx) :
      ctx.WellFormed ∧ P ctx := ⟨libusbyUnrefDevice_wellFormed wf hu, unref _ d _ start hu⟩
  cases op with
  | getDeviceList ok attached =>
    obtain ⟨listed, hlisted, h⟩ := bind_eq_ok.1 h
    have := usbybGetDeviceList_induction (iteration ok attached rfl) unref hlisted wf start
    split_ifs at h <;> cases h <;> exact this
  | freeDeviceList k unrefDevices =>
    obtain ⟨ctx, hfree, h⟩ := bind_eq_ok.1 h
    cases h
    refine libusbyFreeDeviceList_induction (P := fun ctx => ctx.WellFormed ∧ P ctx) ?_ hfree
      ⟨wf, start⟩
    exact fun ctx d ctx' before hu =>
      ⟨libusbyUnrefDevice_wellFormed before.1 hu, unref ctx d ctx' before.2 hu⟩
  | refDevice d =>
    obtain ⟨ctx, href, h⟩ := bind_eq_ok.1 h
    cases h
    exact referenced href
  | unrefDevice d =>
    obtain ⟨ctx, hunref, h⟩ := bind_eq_ok.1 h
    cases h
    exact released hunref
  | openDevice d malloc =>
    obtain ⟨⟨r, ctx⟩, hopen, h⟩ := bind_eq_ok.1 h
    cases h
    unfold libusbyOpen at hopen
    split_ifs at hopen
    · obtain ⟨ctx', href, hopen⟩ := bind_eq_ok.1 hopen
      cases hopen
      exact referenced href
    · cases hopen
      exact ⟨wf, start⟩
  | close d =>
    obtain ⟨ctx, hclose, h⟩ := bind_eq_ok.1 h
    cases h
    exact released hclose

theorem call_eq_ok (h : clientMachine.step s op = some t) : call s op = .ok t := toOption_eq_some.1 h

theorem wellFormed_init : ({} : Context).WellFormed := by
  refine ⟨?_, List.nodup_nil, ?_, ?_⟩
  · simp
  · simp
  · intro d d' dev dev' hheap
    cases hheap

theorem Context.WellFormed.of_reachable (h : clientMachine.Reachable s) : s.ctx.WellFormed := by
  refine Machine.Reachable.invariant (I := fun s => s.ctx.WellFormed) wellFormed_init ?_ h
  intro s op t wf hstep
  refine (call_induction (P := fun _ => True) ?_ ?_ ?_ (call_eq_ok hstep) wf trivial).1
  · exact fun _ _ _ _ _ _ _ _ _ _ => trivial
  · exact fun _ _ _ _ _ => trivial
  · exact fun _ _ _ _ _ => trivial

end

end Libusby.Win32
