import Libusby.Linux.RefCount.Calls

/-!
# Every device and every descriptor has its owner

What the books say at any point of a run of the client machine: the reference
counts are the client's references, the context's list is the live devices, and
every device and every descriptor of an enumeration is given up exactly once, when
nothing refers to the device any more.
-/

namespace Libusby.Linux

open Foundations Libusby.Core

/-- `fd` is the descriptor of the live device `d`. -/
def Context.OwnsFd (ctx : Context) (d : DeviceId) (fd : FdId) : Prop :=
  ∃ dev, ctx.heap d = some dev ∧ dev.fd = fd

/-- Devices, references and descriptors are accounted for. -/
structure InOrder (s : State) : Prop where
  refCount : ∀ d dev, s.ctx.heap d = some dev →
    dev.refCount = tally s.entries d + s.refs d + tally (s.handles.map (·.dev)) d
  linked : ∀ d, d ∈ s.ctx.devlist ↔ ∃ dev, s.ctx.heap d = some dev ∧ 0 < dev.refCount
  once : s.ctx.devlist.Nodup
  distinct : ∀ d d' dev dev', s.ctx.heap d = some dev → s.ctx.heap d' = some dev' →
    dev.busno = dev'.busno → dev.devno = dev'.devno → d = d'
  /-- A device is live, or it was finalized and freed once and nothing refers to it. -/
  released : ∀ d < s.ctx.devices.next,
    0 < s.holdings d ∧ (∃ dev, s.ctx.heap d = some dev) ∧ s.ctx.finalized.count d = 0 ∧
        s.ctx.devices.released.count d = 0 ∨
      s.holdings d = 0 ∧ s.ctx.heap d = none ∧ s.ctx.finalized.count d = 1 ∧
        s.ctx.devices.released.count d = 1
  /-- A descriptor is owned by one live device, or it was closed once and is not owned. -/
  fds : ∀ fd < s.ctx.fds.next,
    (∃! d, s.ctx.OwnsFd d fd) ∧ s.ctx.fds.released.count fd = 0 ∨
      (∀ d, ¬ s.ctx.OwnsFd d fd) ∧ s.ctx.fds.released.count fd = 1
  /-- The descriptor of a handle is in use by one handle, or it was closed once. -/
  wrfds : ∀ fd < s.ctx.wrfds.next,
    (s.handles.map (·.wrfd)).count fd = 1 ∧ s.ctx.wrfds.released.count fd = 0 ∨
      (s.handles.map (·.wrfd)).count fd = 0 ∧ s.ctx.wrfds.released.count fd = 1
  /-- The assertion of `usbyb_exit` holds when the client has given everything back. -/
  exit : usbybExit s.ctx = .ok () ↔ ∀ d, s.holdings d = 0
  /-- No call faults. -/
  safe : ∀ op, Allowed s op → ∃ t, clientMachine.step s op = some t

section
variable {s : State}

theorem State.Accounted.released (h : s.Accounted) {d : DeviceId} (hd : d < s.ctx.devices.next) :
    0 < s.holdings d ∧ (∃ dev, s.ctx.heap d = some dev) ∧ s.ctx.finalized.count d = 0 ∧
        s.ctx.devices.released.count d = 0 ∨
      s.holdings d = 0 ∧ s.ctx.heap d = none ∧ s.ctx.finalized.count d = 1 ∧
        s.ctx.devices.released.count d = 1 := by
  rw [h.counted.finalized]
  cases hheap : s.ctx.heap d with
  | none =>
    have unlinked : d ∉ s.ctx.devlist := fun hmem => by
      obtain ⟨dev, hdev⟩ := (h.counted.linked d).1 hmem
      rw [hheap] at hdev
      cases hdev
    have once := h.counted.devices.released_once hd unlinked
    exact Or.inr ⟨h.counted.dead d hheap, rfl, once, once⟩
  | some dev =>
    have never := h.counted.devices.not_released ((h.counted.linked d).2 ⟨dev, hheap⟩)
    exact Or.inl ⟨(h.counted.live d dev hheap).2, ⟨dev, rfl⟩, never, never⟩

theorem mem_ownedFds {n : DeviceId → Int} {loose wrfds : List FdId} {ctx : Context} {fd : FdId}
    (h : Counted ctx n loose wrfds) : fd ∈ ctx.ownedFds ↔ ∃ d, ctx.OwnsFd d fd := by
  simp only [Context.ownedFds, List.mem_filterMap, Option.map_eq_some_iff, Context.OwnsFd]
  constructor
  · rintro ⟨d, -, howns⟩
    exact ⟨d, howns⟩
  · rintro ⟨d, dev, hheap, hfd⟩
    exact ⟨d, (h.linked d).2 ⟨dev, hheap⟩, dev, hheap, hfd⟩

/-- Different devices have different descriptors. -/
theorem ownsFd_unique {n : DeviceId → Int} {wrfds : List FdId} {ctx : Context} {fd : FdId}
    {d d' : DeviceId} (h : Counted ctx n [] wrfds) (hd : ctx.OwnsFd d fd) (hd' : ctx.OwnsFd d' fd) :
    d = d' := by
  by_contra different
  obtain ⟨dev, hheap, hfd⟩ := hd
  obtain ⟨dev', hheap', hfd'⟩ := hd'
  have first := List.perm_cons_erase ((h.linked d).2 ⟨dev, hheap⟩)
  have mem : d' ∈ ctx.devlist.erase d :=
    (List.mem_erase_of_ne (Ne.symm different)).2 ((h.linked d').2 ⟨dev', hheap'⟩)
  have both := first.trans ((List.perm_cons_erase mem).cons d)
  have owned := h.fds.owned_nodup
  rw [List.append_nil, Context.ownedFds, (both.filterMap _).nodup_iff] at owned
  simp [hheap, hheap', hfd, hfd'] at owned

theorem State.Accounted.exit (h : s.Accounted) :
    usbybExit s.ctx = .ok () ↔ ∀ d, s.holdings d = 0 := by
  have empty : usbybExit s.ctx = .ok () ↔ s.ctx.devlist = [] := by
    unfold usbybExit
    split_ifs with hnil <;> simp [hnil]
  rw [empty]
  constructor
  · intro hnil d
    refine h.counted.dead d (Option.eq_none_iff_forall_ne_some.2 fun dev hheap => ?_)
    have mem := (h.counted.linked d).2 ⟨dev, hheap⟩
    rw [hnil] at mem
    cases mem
  · intro hzero
    apply List.eq_nil_iff_forall_not_mem.2
    intro d hmem
    have := h.counted.pos_of_mem hmem
    have := hzero d
    omega

theorem State.Accounted.inOrder (h : s.Accounted) : InOrder s := by
  refine ⟨fun d dev hheap => (h.counted.live d dev hheap).1, fun d => ?_,
    h.counted.devices.owned_nodup, h.counted.distinct, fun d hd => h.released hd, fun fd hfd => ?_,
    fun fd hfd => h.counted.wrfds.once hfd, h.exit, fun op allowed => ?_⟩
  · rw [h.counted.linked]
    constructor
    · rintro ⟨dev, hheap⟩
      have := h.counted.live d dev hheap
      exact ⟨dev, hheap, by omega⟩
    · rintro ⟨dev, hheap, -⟩
      exact ⟨dev, hheap⟩
  · have fds := h.counted.fds
    rw [List.append_nil] at fds
    by_cases owned : fd ∈ s.ctx.ownedFds
    · obtain ⟨d, hd⟩ := (mem_ownedFds h.counted).1 owned
      exact Or.inl ⟨⟨d, hd, fun d' hd' => ownsFd_unique h.counted hd' hd⟩, fds.not_released owned⟩
    · refine Or.inr ⟨fun d hd => owned ((mem_ownedFds h.counted).2 ⟨d, hd⟩), ?_⟩
      exact fds.released_once hfd owned
  · obtain ⟨t, hcall, -⟩ := call_accounted h allowed
    refine ⟨t, ?_⟩
    simp [clientMachine, allowed, hcall, Except.toOption]

theorem accounted_init : ({} : State).Accounted := by
  refine ⟨⟨?_, ?_, ?_, ?_, .refl _, rfl, .refl _, .refl _⟩, by simp, fun d => Int.le_refl 0⟩
  · intro d dev hheap
    cases hheap
  · exact fun d _ => rfl
  · simp
  · intro d d' dev dev' hheap
    cases hheap

theorem State.Accounted.step {op : Op} {t : State} (h : s.Accounted)
    (hs : clientMachine.step s op = some t) : t.Accounted := by
  obtain ⟨allowed, hcall⟩ := clientMachine_step hs
  obtain ⟨u, hu, accounted⟩ := call_accounted h allowed
  cases hcall.symm.trans hu
  exact accounted

theorem State.Accounted.of_reachable (h : clientMachine.Reachable s) : s.Accounted :=
  Machine.Reachable.invariant accounted_init (fun _ _ _ hs => hs.step) h

end

/-- After every operation of a client that gives back nothing twice. -/
theorem references_in_order (s : State) (h : clientMachine.Reachable s) : InOrder s :=
  (State.Accounted.of_reachable h).inOrder

/-- A bus with a device, a file that is none and a device that cannot be read. -/
def oneBus : List BusEntry :=
  [{ busno := none, files := none },
    { busno := some 1
      files := some
        [{ devno := some 1, opens := true, read := fun _ n => List.replicate n 0 },
          { devno := none, opens := true, read := fun _ _ => [] },
          { devno := some 2, opens := true, read := fun _ _ => [] }] }]

/-- A device is enumerated, found again when memory is short, opened, kept over the
end of the array and given up. -/
def visit : List Op :=
  [.getDeviceList (fun _ => true) (some oneBus), .refDevice 0,
    .getDeviceList (fun _ => false) (some oneBus),
    .openDevice 0 { malloc := true, opens := true }, .freeDeviceList 0 false, .unrefDevice 0,
    .unrefDevice 0, .close 0]

theorem references_in_order_visit :
    ∃ s, clientMachine.exec clientMachine.init visit = some s ∧ InOrder s := by
  have runs : (clientMachine.exec clientMachine.init visit).isSome = true := by decide
  obtain ⟨s, hs⟩ := Option.isSome_iff_exists.1 runs
  exact ⟨s, hs, references_in_order s ⟨visit, hs⟩⟩

end Libusby.Linux
