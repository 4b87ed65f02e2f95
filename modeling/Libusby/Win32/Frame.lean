import Libusby.Win32.Search

/-!
# What the operations of libusb0 write

Whatever is called, the context changes through five kinds of writes. A property that these keep
holds after every run of a client, also of one that gives back what it does not hold.
-/

namespace Libusby.Win32

open Foundations Libusby.Core

/-- A property of a context and of the open handles that no device has, kept by every write. -/
structure Context.Maintained (P : Context → List FileId → Prop) : Prop where
  store : ∀ {ctx loose d dev dev'}, P ctx loose → ctx.heap d = some dev →
    dev'.devno = dev.devno → dev'.hFile = dev.hFile → P (ctx.store d dev') loose
  /-- The last reference to a device goes. -/
  remove : ∀ {ctx loose d dev}, P ctx loose → ctx.heap d = some dev → P (ctx.remove d dev) loose
  openFile : ∀ {ctx}, P ctx [] → P { ctx with files := ctx.files.acquire } [ctx.files.next]
  closeHandle : ∀ {ctx hFile}, P ctx [hFile] → P (ctx.closeHandle hFile) []
  /-- The new device takes the handle over. -/
  allocDevice : ∀ {ctx hFile i}, P ctx [hFile] → findDevice ctx i ctx.devlist = .ok none →
    P (allocDevice ctx i hFile) []

section
variable {P : Context → List FileId → Prop} {ctx ctx' : Context} {loose : List FileId}
  {d : DeviceId} {hFile : FileId} {i : Nat} {s : Enum} {left : Leave} {ok : Nat → Bool}
  {malloc : DeviceId → Bool} {attached : Nat → Option SyncResult} {io : SyncResult}

theorem libusbyRefDevice_maintained (m : Context.Maintained P) (h : P ctx loose)
    (href : libusbyRefDevice ctx d = .ok ctx') : P ctx' loose := by
  obtain ⟨dev, hd, rfl⟩ := libusbyRefDevice_eq_ok href
  exact m.store h hd rfl rfl

theorem libusbyUnrefDevice_maintained (m : Context.Maintained P) (h : P ctx loose)
    (hunref : libusbyUnrefDevice ctx d = .ok ctx') : P ctx' loose := by
  obtain ⟨dev, hd, ⟨-, rfl⟩ | ⟨-, rfl⟩⟩ := libusbyUnrefDevice_eq_ok hunref
  · exact m.remove h hd
  · exact m.store h hd rfl rfl

theorem libusbyFreeDeviceList_maintained (m : Context.Maintained P) {list : DeviceArray}
    {unrefDevices : Bool} (h : P ctx [])
    (hfree : libusbyFreeDeviceList ctx list unrefDevices = .ok ctx') : P ctx' [] :=
  libusbyFreeDeviceList_induction (P := fun ctx => P ctx [])
    (fun _ _ _ before hu => libusbyUnrefDevice_maintained m before hu) hfree h

/-! ## The enumeration -/

/-- The file of a known device is not needed, and it is closed before anything can fail. -/
theorem enumKnown_maintained (m : Context.Maintained P) (h : P s.ctx [hFile])
    (hrun : enumKnown ok s d hFile = .ok left) : P left.ctx [] := by
  obtain ⟨⟨appended, calls⟩, -, hrun⟩ := bind_eq_ok.1 hrun
  cases appended with
  | error e =>
    cases hrun
    exact m.closeHandle h
  | ok devlist =>
    obtain ⟨ctx, href, hrun⟩ := bind_eq_ok.1 hrun
    cases hrun
    exact libusbyRefDevice_maintained m (m.closeHandle h) href

theorem unrefNew_maintained (m : Context.Maintained P) {calls : Nat} (h : P s.ctx [])
    (hrun : unrefNew s d calls = .ok left) : P left.ctx [] := by
  obtain ⟨ctx, hunref, hrun⟩ := bind_eq_ok.1 hrun
  cases hrun
  exact libusbyUnrefDevice_maintained m h hunref

/-- Where a new device cannot be listed it is its finalization that closes the file. -/
theorem enumNew_maintained (m : Context.Maintained P) (h : P s.ctx [hFile])
    (new : findDevice s.ctx i s.ctx.devlist = .ok none)
    (hrun : enumNew ok s i hFile io = .ok left) : P left.ctx [] := by
  have made := m.allocDevice h new
  have here : (allocDevice s.ctx i hFile).heap s.ctx.devices.next =
      some { refCount := 1, devno := i, hFile } := Function.update_self ..
  unfold enumNew at hrun
  cases hread : readDeviceDesc io with
  | none =>
    rw [hread] at hrun
    exact unrefNew_maintained (s := { s with ctx := allocDevice s.ctx i hFile }) m made hrun
  | some deviceDesc =>
    simp only [hread, deref_eq here, ok_bind] at hrun
    let dev : Device := { refCount := 1, deviceDesc, devno := i, hFile }
    have stored : P ((allocDevice s.ctx i hFile).store s.ctx.devices.next dev) [] :=
      m.store made here rfl rfl
    obtain ⟨⟨appended, calls⟩, -, hrun⟩ := bind_eq_ok.1 hrun
    cases appended with
    | error e =>
      exact unrefNew_maintained (s := { s with ctx := Context.store _ _ _ }) m stored hrun
    | ok devlist =>
      cases hrun
      exact stored

theorem enumDevice_maintained (m : Context.Maintained P) (h : P s.ctx [])
    (hrun : enumDevice ok malloc attached i s = .ok left) : P left.ctx [] := by
  unfold enumDevice at hrun
  cases hattached : attached i with
  | none =>
    rw [hattached] at hrun
    cases hrun
    exact h
  | some io =>
    rw [hattached] at hrun
    obtain ⟨found, hfind, hrun⟩ := bind_eq_ok.1 hrun
    cases found with
    | some d => exact enumKnown_maintained (s := s.openFile) m (m.openFile h) hrun
    | none =>
      simp only at hrun
      split_ifs at hrun
      exact enumNew_maintained (s := s.openFile) m (m.openFile h) hfind hrun

theorem enumDevices_maintained (m : Context.Maintained P) {is : List Nat} (h : P s.ctx [])
    (hrun : enumDevices ok malloc attached is s = .ok left) : P left.ctx [] := by
  induction is generalizing s with
  | nil =>
    cases hrun
    exact h
  | cons i is ih =>
    obtain ⟨first, hfirst, hrun⟩ := bind_eq_ok.1 hrun
    have after := enumDevice_maintained m h hfirst
    cases first with
    | next s => exact ih after hrun
    | error s =>
      cases hrun
      exact after

theorem usbybGetDeviceList_maintained (m : Context.Maintained P) {listed : Listed} (h : P ctx [])
    (hrun : usbybGetDeviceList ok malloc ctx attached = .ok listed) : P listed.ctx [] := by
  obtain ⟨left, hall, hrun⟩ := bind_eq_ok.1 hrun
  have after : P left.ctx [] := enumDevices_maintained (s := { ctx }) m h hall
  cases left with
  | next s =>
    cases hrun
    exact after
  | error s =>
    simp only at hrun
    split_ifs at hrun
    · obtain ⟨ctx', hfree, hrun⟩ := bind_eq_ok.1 hrun
      cases hrun
      exact libusbyFreeDeviceList_maintained m after hfree
    · cases hrun
      exact after

/-! ## Sessions -/

theorem libusbyOpen_maintained (m : Context.Maintained P) {memory : Bool}
    {r : Except Error DeviceId} (h : P ctx [])
    (hopen : libusbyOpen ctx memory d = .ok (r, ctx')) : P ctx' [] := by
  unfold libusbyOpen at hopen
  split_ifs at hopen
  · obtain ⟨ctx₁, href, hopen⟩ := bind_eq_ok.1 hopen
    cases hopen
    exact libusbyRefDevice_maintained m h href
  · cases hopen
    exact h

theorem call_maintained (m : Context.Maintained P) {s t : State} {op : Op} (h : P s.ctx [])
    (hcall : call s op = .ok t) : P t.ctx [] := by
  cases op with
  | getDeviceList ok attached =>
    obtain ⟨listed, hlisted, hcall⟩ := bind_eq_ok.1 hcall
    have after := usbybGetDeviceList_maintained m h hlisted
    split_ifs at hcall <;> cases hcall <;> exact after
  | freeDeviceList k unrefDevices =>
    obtain ⟨ctx, hfree, hcall⟩ := bind_eq_ok.1 hcall
    cases hcall
    exact libusbyFreeDeviceList_maintained m h hfree
  | refDevice d =>
    obtain ⟨ctx, href, hcall⟩ := bind_eq_ok.1 hcall
    cases hcall
    exact libusbyRefDevice_maintained m h href
  | unrefDevice d =>
    obtain ⟨ctx, hunref, hcall⟩ := bind_eq_ok.1 hcall
    cases hcall
    exact libusbyUnrefDevice_maintained m h hunref
  | openDevice d malloc =>
    obtain ⟨⟨r, ctx⟩, hopen, hcall⟩ := bind_eq_ok.1 hcall
    cases hcall
    exact libusbyOpen_maintained m h hopen
  | close d =>
    obtain ⟨ctx, hclose, hcall⟩ := bind_eq_ok.1 hcall
    cases hcall
    exact libusbyUnrefDevice_maintained m h hclose

section
variable {s s' : Session} {q : Search} {ds : List DeviceId} {k : Nat}
  {r : Except Error DeviceHandle} {found : Option DeviceHandle} {handle : DeviceHandle}

theorem openHandle_maintained (m : Context.Maintained P) {memory : Bool} (h : P s.ctx [])
    (hrun : s.openHandle memory d = .ok (r, s')) : P s'.ctx [] := by
  obtain ⟨⟨opened, ctx⟩, hopen, hrun⟩ := bind_eq_ok.1 hrun
  have after := libusbyOpen_maintained m h hopen
  cases opened <;> cases hrun <;> exact after

theorem closeHandle_maintained (m : Context.Maintained P) (h : P s.ctx [])
    (hrun : s.closeHandle handle = .ok s') : P s'.ctx [] := by
  obtain ⟨ctx, hclose, hrun⟩ := bind_eq_ok.1 hrun
  cases hrun
  exact libusbyUnrefDevice_maintained m h hclose

theorem getDeviceDescriptor_maintained (m : Context.Maintained P) {reply : DescriptorReply}
    {desc : Option (Bytes 18)} (h : P ctx [])
    (hrun : getDeviceDescriptor ctx d reply = .ok (desc, ctx')) : P ctx' [] := by
  obtain ⟨dev, hderef, hrun⟩ := bind_eq_ok.1 hrun
  cases hcached : getDeviceDescriptorCached dev with
  | some bytes =>
    rw [hcached] at hrun
    cases hrun
    exact h
  | none =>
    simp only [hcached] at hrun
    split_ifs at hrun
    · cases hrun
      exact h
    · cases hdesc : usbyiSanitizeDeviceDesc reply.rawdesc with
      | error e =>
        rw [hdesc] at hrun
        cases hrun
        exact h
      | ok deviceDesc =>
        rw [hdesc] at hrun
        cases hrun
        exact m.store h (deref_eq_ok hderef) rfl rfl

theorem searchCached_maintained (m : Context.Maintained P) {k' : Nat} (h : P s.ctx [])
    (hrun : searchCached q s k ds = .ok (found, k', s')) : P s'.ctx [] := by
  induction ds generalizing s k with
  | nil =>
    cases hrun
    exact h
  | cons d ds ih =>
    obtain ⟨dev, hderef, hrun⟩ := bind_eq_ok.1 hrun
    cases hcached : getDeviceDescriptorCached dev with
    | none =>
      rw [hcached] at hrun
      exact ih h hrun
    | some desc =>
      simp only [hcached] at hrun
      split_ifs at hrun
      · obtain ⟨⟨opened, s₁⟩, hopen, hrun⟩ := bind_eq_ok.1 hrun
        have after := openHandle_maintained m h hopen
        cases opened with
        | error e => exact ih after hrun
        | ok handle =>
          cases hrun
          exact after
      · exact ih h hrun

theorem searchOpened_maintained (m : Context.Maintained P) (h : P s.ctx [])
    (hrun : searchOpened q s k ds = .ok (found, s')) : P s'.ctx [] := by
  induction ds generalizing s k with
  | nil =>
    cases hrun
    exact h
  | cons d ds ih =>
    obtain ⟨⟨opened, s₁⟩, hopen, hrun⟩ := bind_eq_ok.1 hrun
    have after := openHandle_maintained m h hopen
    cases opened with
    | error e => exact ih after hrun
    | ok handle =>
      obtain ⟨⟨desc, ctx⟩, hdesc, hrun⟩ := bind_eq_ok.1 hrun
      have read := getDeviceDescriptor_maintained m after hdesc
      simp only at hrun
      split_ifs at hrun
      · cases hrun
        exact read
      · obtain ⟨s₂, hclose, hrun⟩ := bind_eq_ok.1 hrun
        exact ih (closeHandle_maintained (s := { s₁ with ctx }) m read hclose) hrun

theorem libusbyOpenDeviceWithVidPid_maintained (m : Context.Maintained P) (h : P s.ctx [])
    (hrun : libusbyOpenDeviceWithVidPid ok attached s q = .ok (found, s')) :
    P s'.ctx [] := by
  obtain ⟨listed, hlisted, hrun⟩ := bind_eq_ok.1 hrun
  have after := usbybGetDeviceList_maintained m h hlisted
  simp only at hrun
  split_ifs at hrun
  · cases hrun
    exact after
  · obtain ⟨ds, -, hrun⟩ := bind_eq_ok.1 hrun
    obtain ⟨⟨cached, k, s₁⟩, hcached, hrun⟩ := bind_eq_ok.1 hrun
    have first := searchCached_maintained (s := { s with ctx := listed.ctx }) m after hcached
    cases cached with
    | some handle =>
      simp only [ok_bind] at hrun
      obtain ⟨ctx, hfree, hrun⟩ := bind_eq_ok.1 hrun
      cases hrun
      exact libusbyFreeDeviceList_maintained m first hfree
    | none =>
      obtain ⟨⟨handle, s₂⟩, hopened, hrun⟩ := bind_eq_ok.1 hrun
      obtain ⟨ctx, hfree, hrun⟩ := bind_eq_ok.1 hrun
      cases hrun
      exact libusbyFreeDeviceList_maintained m (searchOpened_maintained m first hopened) hfree

end

theorem SessionState.maintained_step (m : Context.Maintained P) {s t : SessionState}
    {op : SessionOp} (h : P s.session.ctx []) (hs : s.step op = some t) : P t.session.ctx [] := by
  cases op with
  | call op =>
    obtain ⟨u, hcall, rfl⟩ := Option.map_eq_some_iff.1 hs
    exact call_maintained (s := ⟨s.session.ctx, s.lists⟩) m h (toOption_eq_some.1 hcall)
  | openHandle d malloc =>
    obtain ⟨⟨r, session⟩, hrun, rfl⟩ := Option.map_eq_some_iff.1 hs
    exact openHandle_maintained m h (toOption_eq_some.1 hrun)
  | closeHandle k =>
    obtain ⟨handle, -, hs⟩ := Option.bind_eq_some_iff.1 hs
    obtain ⟨session, hrun, rfl⟩ := Option.map_eq_some_iff.1 hs
    exact closeHandle_maintained m h (toOption_eq_some.1 hrun)
  | openDeviceWithVidPid ok attached q =>
    obtain ⟨⟨r, session⟩, hrun, rfl⟩ := Option.map_eq_some_iff.1 hs
    exact libusbyOpenDeviceWithVidPid_maintained m h (toOption_eq_some.1 hrun)

theorem Context.Maintained.exec {s t : SessionState} {ops : List SessionOp}
    (m : Context.Maintained P) (start : P s.session.ctx [])
    (run : sessionMachine.exec s ops = some t) : P t.session.ctx [] :=
  Machine.exec_induction (motive := fun _ t => P t.session.ctx []) start
    (fun _ _ _ _ _ before hs => SessionState.maintained_step m before hs) run

end

end Libusby.Win32
