import Libusby.Win32.Files

/-!
# Clients of libusb0 that give back what they hold

A client passes only devices that it holds and gives back each reference and each handle once.
Then no call touches a structure that is not there, the counts are the client's holdings, and
what the client does not hold any more has been given up, with its file.
-/

namespace Libusby.Win32

open Foundations Libusby.Core

/-- A client and what it holds apart from its arrays and handles: `refs` it took with
`libusby_ref_device`, or kept from an array that it freed without its references. A reference of
an array may be given back before the array is freed: `refs` is then one less. -/
structure Client where
  state : SessionState := {}
  refs : DeviceId → Int := 0

namespace Client

/-- The references that the client may give back one by one. -/
def borrowed (c : Client) : DeviceId → Int :=
  tally (c.state.lists.flatMap DeviceArray.entries) + c.refs

/-- All that keeps a device alive. -/
def holdings (c : Client) : DeviceId → Int := c.borrowed + tally (c.state.held.map (·.dev))

/-- The client passes what it holds, and gives back nothing that it does not hold. Its handles
are those that `libusby_open` gave it. -/
def Allowed (c : Client) : SessionOp → Prop
  | .call (.getDeviceList ..) => True
  | .call (.freeDeviceList k unrefDevices) =>
    ∃ list ∈ c.state.lists[k]?,
      unrefDevices = true → ∀ d ∈ list.entries, tally list.entries d ≤ c.borrowed d
  | .call (.refDevice d) => 0 < c.holdings d
  | .call (.unrefDevice d) => 0 < c.borrowed d
  | .call (.openDevice ..) | .call (.close _) => False
  | .openHandle d _ => 0 < c.holdings d
  | .closeHandle k => k < c.state.held.length
  | .openDeviceWithVidPid .. => True

instance (c : Client) : DecidablePred c.Allowed
  | .call (.getDeviceList ..) => inferInstanceAs (Decidable True)
  | .call (.freeDeviceList ..) => inferInstanceAs (Decidable (∃ _ ∈ _, _ → _))
  | .call (.refDevice _) => inferInstanceAs (Decidable (_ < _))
  | .call (.unrefDevice _) => inferInstanceAs (Decidable (_ < _))
  | .call (.openDevice ..) => inferInstanceAs (Decidable False)
  | .call (.close _) => inferInstanceAs (Decidable False)
  | .openHandle .. => inferInstanceAs (Decidable (_ < _))
  | .closeHandle _ => inferInstanceAs (Decidable (_ < _))
  | .openDeviceWithVidPid .. => inferInstanceAs (Decidable True)

/-- What the client holds after a call that left `t`. -/
def after (c : Client) (t : SessionState) : SessionOp → Client
  | .call (.freeDeviceList k unrefDevices) =>
    let kept := if unrefDevices then 0 else tally ((c.state.lists[k]?).getD none).entries
    ⟨t, c.refs + kept⟩
  | .call (.refDevice d) => ⟨t, c.refs + tally [d]⟩
  | .call (.unrefDevice d) => ⟨t, c.refs - tally [d]⟩
  | _ => ⟨t, c.refs⟩

/-- The runs of such a client. -/
def machine : Machine Client SessionOp where
  init := {}
  step c op := if c.Allowed op then (c.state.step op).map fun t => c.after t op else none

/-- The books of the client. -/
structure Accounted (c : Client) : Prop where
  counted : ∃ D, c.state.session.Counted c.holdings D (c.state.held.map (·.id))
  lists : ∀ list ∈ c.state.lists, ∃ ds, list.Lists ds
  borrowed : ∀ d, 0 ≤ c.borrowed d

/-- Devices, references, handles and files are accounted for. -/
structure InOrder (c : Client) : Prop where
  refCount : ∀ d dev, c.state.session.ctx.heap d = some dev → dev.refCount = c.holdings d
  /-- A device is in memory, or it was freed once and the client does not hold it. -/
  released : ∀ d < c.state.session.ctx.devices.next,
    0 < c.holdings d ∧ (∃ dev, c.state.session.ctx.heap d = some dev) ∧
        c.state.session.ctx.devices.released.count d = 0 ∨
      c.holdings d = 0 ∧ c.state.session.ctx.heap d = none ∧
        c.state.session.ctx.devices.released.count d = 1
  /-- The client has a handle, or it was freed once. -/
  handles : ∀ id < c.state.session.handles.next,
    (c.state.held.map (·.id)).count id = 1 ∧ c.state.session.handles.released.count id = 0 ∨
      (c.state.held.map (·.id)).count id = 0 ∧ c.state.session.handles.released.count id = 1
  /-- When the client holds nothing every file has been closed once. -/
  files : (∀ d, c.holdings d = 0) → ∀ f < c.state.session.ctx.files.next,
    c.state.session.ctx.files.released.count f = 1
  /-- No call faults. -/
  safe : ∀ op, c.Allowed op → ∃ t, machine.step c op = some t

variable {c c' : Client} {t : SessionState} {d : DeviceId}

/-- Only what is held is given back. -/
theorem sub_tally_nonneg {n : DeviceId → Int} {ds : List DeviceId} (nonneg : ∀ d, 0 ≤ n d)
    (held : ∀ d ∈ ds, tally ds d ≤ n d) (d : DeviceId) : 0 ≤ (n - tally ds) d := by
  by_cases hd : d ∈ ds
  · exact Int.sub_nonneg_of_le (held d hd)
  · rw [Pi.sub_apply, tally_of_not_mem hd, sub_zero]
    exact nonneg d

theorem holdings_pos (pos : 0 < c.borrowed d) : 0 < c.holdings d :=
  Int.add_pos_of_pos_of_nonneg pos tally_nonneg

theorem getDeviceList_accounted (h : c.Accounted) (ok : Nat → Bool)
    (attached : Nat → Option SyncResult) :
    ∃ t, c.state.step (.call (.getDeviceList ok attached)) = some t ∧
      (c.after t (.call (.getDeviceList ok attached))).Accounted := by
  obtain ⟨D, counted⟩ := h.counted
  obtain ⟨listed, D', hlisted, ⟨failed, counted'⟩ | ⟨list, ds, hlist, lists, hr, counted'⟩⟩ :=
    usbybGetDeviceList_counted counted.ctx ok attached
  · rw [SessionState.step, call, hlisted, ok_bind, if_pos failed]
    exact ⟨_, rfl, ⟨D', counted', counted.handles⟩, h.lists, h.borrowed⟩
  · have more : tally ((list :: c.state.lists).flatMap DeviceArray.entries) + c.refs =
        c.borrowed + tally ds := by
      rw [List.flatMap_cons, tally_append, lists.entries, add_assoc, add_comm]
      rfl
    rw [SessionState.step, call, hlisted, ok_bind, if_neg (by omega), hlist]
    refine ⟨_, rfl, ⟨D', ?_, counted.handles⟩, List.forall_mem_cons.2 ⟨⟨ds, lists⟩, h.lists⟩,
      fun d => ?_⟩
    · rw [Client.holdings, add_right_comm, ← more] at counted'
      exact counted'
    · change 0 ≤ (tally ((list :: c.state.lists).flatMap DeviceArray.entries) + c.refs) d
      rw [more]
      exact Int.add_nonneg (h.borrowed d) tally_nonneg

theorem freeDeviceList_accounted {k : Nat} {unrefDevices : Bool} (h : c.Accounted)
    (allowed : c.Allowed (.call (.freeDeviceList k unrefDevices))) :
    ∃ t, c.state.step (.call (.freeDeviceList k unrefDevices)) = some t ∧
      (c.after t (.call (.freeDeviceList k unrefDevices))).Accounted := by
  obtain ⟨list, hlist, held⟩ := allowed
  rw [Option.mem_def] at hlist
  obtain ⟨ds, lists⟩ := h.lists list (List.mem_of_getElem? hlist)
  obtain ⟨D, counted⟩ := h.counted
  have split : c.borrowed =
      tally ds + (tally ((c.state.lists.eraseIdx k).flatMap DeviceArray.entries) + c.refs) := by
    rw [Client.borrowed, tally_flatMap_eraseIdx hlist, lists.entries, add_assoc]
  have remaining : ∀ l ∈ c.state.lists.eraseIdx k, ∃ ds, l.Lists ds := fun l hl =>
    h.lists l (List.mem_of_mem_eraseIdx hl)
  rw [lists.entries] at held
  cases unrefDevices with
  | true =>
    have owned (d : DeviceId) (hd : d ∈ ds) : tally ds d ≤ c.holdings d :=
      Int.le_trans (held rfl d hd) (Int.le_add_of_nonneg_right tally_nonneg)
    obtain ⟨ctx', hfree, counted'⟩ := libusbyFreeDeviceList_counted counted.ctx lists owned
    let t : SessionState := { c.state with
      session := { c.state.session with ctx := ctx' }, lists := c.state.lists.eraseIdx k }
    have rest : (c.after t (.call (.freeDeviceList k true))).borrowed = c.borrowed - tally ds := by
      rw [split, add_sub_cancel_left]
      simp [Client.borrowed, after, t]
    refine ⟨t, ?_, ⟨D, ?_, counted.handles⟩, remaining, fun d => ?_⟩
    · simp [SessionState.step, call, hlist, hfree, Except.toOption, t]
    · rw [Client.holdings, rest, sub_add_eq_add_sub]
      exact counted'
    · rw [rest]
      exact sub_tally_nonneg h.borrowed (held rfl) d
  | false =>
    have free : libusbyFreeDeviceList c.state.session.ctx list false = .ok c.state.session.ctx := by
      cases list <;> rfl
    let t : SessionState := { c.state with lists := c.state.lists.eraseIdx k }
    have rest : (c.after t (.call (.freeDeviceList k false))).borrowed = c.borrowed := by
      rw [split, add_comm (tally ds), add_assoc]
      simp [Client.borrowed, after, hlist, lists.entries, t]
    refine ⟨t, ?_, ⟨D, ?_⟩, remaining, fun d => ?_⟩
    · simp [SessionState.step, call, hlist, free, Except.toOption, t]
    · rw [Client.holdings, rest]
      exact counted
    · rw [rest]
      exact h.borrowed d

theorem refDevice_accounted (h : c.Accounted) (allowed : c.Allowed (.call (.refDevice d))) :
    ∃ t, c.state.step (.call (.refDevice d)) = some t ∧
      (c.after t (.call (.refDevice d))).Accounted := by
  obtain ⟨D, counted⟩ := h.counted
  obtain ⟨ctx', href, counted'⟩ := libusbyRefDevice_counted counted.ctx allowed
  let t : SessionState :=
    { c.state with session := { c.state.session with ctx := ctx' } }
  have more : (c.after t (.call (.refDevice d))).borrowed = c.borrowed + tally [d] :=
    (add_assoc ..).symm
  refine ⟨t, ?_, ⟨D, ?_, counted.handles⟩, h.lists, fun x => ?_⟩
  · simp [SessionState.step, call, href, Except.toOption, t]
  · rw [Client.holdings, more, add_right_comm]
    exact counted'
  · rw [more]
    exact Int.add_nonneg (h.borrowed x) tally_nonneg

theorem unrefDevice_accounted (h : c.Accounted) (allowed : c.Allowed (.call (.unrefDevice d))) :
    ∃ t, c.state.step (.call (.unrefDevice d)) = some t ∧
      (c.after t (.call (.unrefDevice d))).Accounted := by
  obtain ⟨D, counted⟩ := h.counted
  obtain ⟨ctx', hunref, counted'⟩ := libusbyUnrefDevice_counted counted.ctx (holdings_pos allowed)
  let t : SessionState :=
    { c.state with session := { c.state.session with ctx := ctx' } }
  have less : (c.after t (.call (.unrefDevice d))).borrowed = c.borrowed - tally [d] :=
    (add_sub_assoc ..).symm
  refine ⟨t, ?_, ⟨D, ?_, counted.handles⟩, h.lists, fun x => ?_⟩
  · simp [SessionState.step, call, hunref, Except.toOption, t]
  · rw [Client.holdings, less, sub_add_eq_add_sub]
    exact counted'
  · rw [less]
    refine sub_tally_nonneg h.borrowed (fun y hy => ?_) x
    rw [List.mem_singleton.1 hy, tally_self]
    exact allowed

/-- A handle more is a reference more. -/
theorem Accounted.searched {D : DeviceId → Bytes 18} {r : Option DeviceHandle} {s : Session}
    (h : c.Accounted) (searched : Searched c.holdings D (c.state.held.map (·.id)) r s) :
    Accounted ⟨{ c.state with session := s, held := r.toList ++ c.state.held }, c.refs⟩ := by
  refine ⟨⟨D, ?_⟩, h.lists, h.borrowed⟩
  have holdings : holdings ⟨{ c.state with session := s, held := r.toList ++ c.state.held },
      c.refs⟩ = c.holdings + tally (r.toList.map (·.dev)) := by
    rw [Client.holdings, Client.holdings, List.map_append, tally_append, add_assoc,
      add_comm (tally (c.state.held.map _))]
    rfl
  rw [holdings, List.map_append]
  exact searched

theorem openHandle_accounted {malloc : Bool} (h : c.Accounted)
    (allowed : c.Allowed (.openHandle d malloc)) :
    ∃ t, c.state.step (.openHandle d malloc) = some t ∧
      (c.after t (.openHandle d malloc)).Accounted := by
  obtain ⟨D, counted⟩ := h.counted
  obtain ⟨-, e, hopen⟩ | ⟨handle, s, hopen, -, -, searched⟩ :=
    openHandle_counted counted allowed malloc
  · rw [SessionState.step, hopen]
    exact ⟨_, rfl, h⟩
  · rw [SessionState.step, hopen]
    exact ⟨_, rfl, h.searched searched⟩

theorem closeHandle_accounted {k : Nat} (h : c.Accounted) (allowed : c.Allowed (.closeHandle k)) :
    ∃ t, c.state.step (.closeHandle k) = some t ∧ (c.after t (.closeHandle k)).Accounted := by
  obtain ⟨D, counted⟩ := h.counted
  have lt : k < c.state.held.length := allowed
  have hk : c.state.held[k]? = some c.state.held[k] := List.getElem?_eq_getElem lt
  have perm := List.getElem_cons_eraseIdx_perm lt
  have split : c.holdings = c.borrowed + tally ((c.state.held.eraseIdx k).map (·.dev)) +
      tally (([c.state.held[k]] : List DeviceHandle).map (·.dev)) := by
    rw [Client.holdings, ← tally_perm (perm.map (·.dev)), List.map_cons, tally_cons, add_assoc,
      add_comm (tally [_])]
    rfl
  have before : Searched (c.borrowed + tally ((c.state.held.eraseIdx k).map (·.dev))) D
      ((c.state.held.eraseIdx k).map (·.id)) (some c.state.held[k]) c.state.session := by
    refine ⟨split ▸ counted.ctx, counted.handles.perm ?_⟩
    exact (perm.map (·.id)).symm
  obtain ⟨s, hclose, counted'⟩ := closeHandle_counted before
    (Int.add_nonneg (h.borrowed _) tally_nonneg)
  refine ⟨{ c.state with session := s, held := c.state.held.eraseIdx k }, ?_, ⟨D, counted'⟩,
    h.lists, h.borrowed⟩
  simp [SessionState.step, hk, hclose, Except.toOption]

theorem openDeviceWithVidPid_accounted (h : c.Accounted) (ok : Nat → Bool)
    (attached : Nat → Option SyncResult) (q : Search) :
    ∃ t, c.state.step (.openDeviceWithVidPid ok attached q) = some t ∧
      (c.after t (.openDeviceWithVidPid ok attached q)).Accounted := by
  obtain ⟨D, counted⟩ := h.counted
  obtain ⟨r, s, D', hrun, searched, -⟩ := libusbyOpenDeviceWithVidPid_counted counted ok attached q
  rw [SessionState.step, hrun]
  exact ⟨_, rfl, h.searched searched⟩

theorem step_accounted {op : SessionOp} (h : c.Accounted) (allowed : c.Allowed op) :
    ∃ t, c.state.step op = some t ∧ (c.after t op).Accounted := by
  cases op with
  | call op =>
    cases op with
    | getDeviceList ok attached => exact getDeviceList_accounted h ok attached
    | freeDeviceList k unrefDevices => exact freeDeviceList_accounted h allowed
    | refDevice d => exact refDevice_accounted h allowed
    | unrefDevice d => exact unrefDevice_accounted h allowed
    | openDevice | close => cases allowed
  | openHandle d malloc => exact openHandle_accounted h allowed
  | closeHandle k => exact closeHandle_accounted h allowed
  | openDeviceWithVidPid ok attached q => exact openDeviceWithVidPid_accounted h ok attached q

theorem machine_step {op : SessionOp} (h : machine.step c op = some c') :
    c.Allowed op ∧ ∃ t, c.state.step op = some t ∧ c.after t op = c' := by
  simpa only [machine, Option.ite_none_right_eq_some, Option.map_eq_some_iff] using h

theorem accounted_init : ({} : Client).Accounted := by
  refine ⟨⟨fun _ => .replicate 18 0, ?_, .refl _⟩, by simp, fun d => Int.le_refl 0⟩
  refine ⟨wellFormed_init, ?_, fun _ _ => rfl⟩
  intro d dev hd
  cases hd

theorem Accounted.of_reachable (h : machine.Reachable c) : c.Accounted := by
  refine Machine.Reachable.invariant accounted_init ?_ h
  intro c op c' before hstep
  obtain ⟨allowed, t, ht, rfl⟩ := machine_step hstep
  obtain ⟨u, hu, accounted⟩ := step_accounted before allowed
  cases ht.symm.trans hu
  exact accounted

@[simp] theorem after_state (t : SessionState) (op : SessionOp) : (c.after t op).state = t := by
  unfold after
  split <;> rfl

/-- Such a client is a client. -/
theorem reachable_state (h : machine.Reachable c) : sessionMachine.Reachable c.state := by
  refine Machine.Reachable.invariant (I := fun c => sessionMachine.Reachable c.state)
    ⟨[], rfl⟩ ?_ h
  intro c op c' ⟨es, hrun⟩ hstep
  obtain ⟨-, t, ht, rfl⟩ := machine_step hstep
  rw [after_state]
  exact ⟨es ++ [op], Machine.exec_snoc.2 ⟨c.state, hrun, ht⟩⟩

theorem Accounted.inOrder (h : c.Accounted) (owned : c.state.session.ctx.FilesOwned) :
    c.InOrder := by
  obtain ⟨D, counted⟩ := h.counted
  constructor
  · exact fun d dev hd => (counted.ctx.live d dev hd).1
  · intro d hd
    obtain ⟨⟨dev, hheap⟩, never⟩ | ⟨gone, once⟩ := owned.devices d hd
    · exact .inl ⟨(counted.ctx.live d dev hheap).2.1, ⟨dev, hheap⟩, never⟩
    · exact .inr ⟨counted.ctx.dead d gone, gone, once⟩
  · exact fun id hid => counted.handles.once hid
  · intro nothing f hf
    obtain ⟨⟨d, ⟨dev, hheap, -⟩, -⟩, -⟩ | ⟨-, once⟩ := owned.files f hf
    · have held := (counted.ctx.live d dev hheap).2.1
      rw [nothing d] at held
      exact absurd held (Int.lt_irrefl 0)
    · exact once
  · intro op allowed
    obtain ⟨t, ht, -⟩ := step_accounted h allowed
    exact ⟨c.after t op, by simp [machine, allowed, ht]⟩

end Client

/-- After every run of a client that gives back nothing twice. -/
theorem references_held (c : Client) (h : Client.machine.Reachable c) : c.InOrder :=
  (Client.Accounted.of_reachable h).inOrder
    (Context.Accounted.of_reachable (Client.reachable_state h)).filesOwned

/-- A client keeps a handle and a reference over an enumeration that fails, opens a device by its
ids and gives everything back. -/
def giveBack : List SessionOp :=
  [.call (.getDeviceList (fun _ => true) (twoFiles false)), .openHandle 0 true,
    .call (.refDevice 1), .call (.freeDeviceList 0 true),
    .call (.getDeviceList (fun _ => true) (twoFiles true)),
    .openDeviceWithVidPid (fun _ => true) (twoFiles false)
      { vendorId := 0x101, productId := 0x101, opens := fun _ => true
        replies := fun _ => ⟨18, .replicate 18 0⟩ },
    .call (.unrefDevice 1), .closeHandle 0, .closeHandle 0]

theorem references_held_giveBack :
    ∃ c, Client.machine.exec Client.machine.init giveBack = some c ∧ c.InOrder := by
  have runs : (Client.machine.exec Client.machine.init giveBack).isSome = true := by
    decide +kernel
  obtain ⟨c, hc⟩ := Option.isSome_iff_exists.1 runs
  exact ⟨c, hc, references_held c ⟨_, hc⟩⟩

end Libusby.Win32
