import Libusby.Linux.Client
import Libusby.Linux.DescriptorCache
import Libusby.Linux.Frame
import Libusby.Linux.Iteration

/-!
# The descriptor cache against the device descriptor

The enumeration sizes the cache by the device descriptor of the device file.
`libusby_get_device_descriptor` may overwrite that descriptor with a reply of the device
and leaves the cache alone. No other operation changes either (`Described`).
-/

namespace Libusby.Linux

open Foundations Libusby.Core

/-- `P` relates the device descriptor and the cache of every device in memory. -/
def Context.Described (P : List UInt8 → List UInt8 → Prop) (ctx : Context) : Prop :=
  ∀ d dev, ctx.heap d = some dev → P dev.deviceDesc dev.descCache

/-- `P` holds of a new device and of everything that an enumeration accepts. -/
structure Established (P : List UInt8 → List UInt8 → Prop) : Prop where
  fresh : P (List.replicate 18 0) []
  read : ∀ ok read calls desc cache calls',
    readDescriptors ok read calls = (.ok (desc, cache), calls') → P desc cache

section
variable {P : List UInt8 → List UInt8 → Prop} {ctx ctx' : Context} {d : DeviceId} {dev : Device}

/-- Only the structures in memory matter. -/
theorem Context.Described.congr (h : ctx.Described P) (heap : ctx'.heap = ctx.heap) :
    ctx'.Described P := by
  rwa [Context.Described, heap]

theorem Context.Described.store (h : ctx.Described P) (hp : P dev.deviceDesc dev.descCache) :
    (ctx.store d dev).Described P := by
  intro x dev' hx
  simp only [Context.store, Function.update_apply] at hx
  split at hx
  case isTrue =>
    cases hx
    exact hp
  case isFalse => exact h x dev' hx

theorem Context.Described.remove (h : ctx.Described P) : (ctx.remove d dev).Described P := by
  intro x dev' hx
  by_cases hxd : x = d
  · subst hxd
    cases (Function.update_self ..).symm.trans hx
  · exact h x dev' ((Function.update_of_ne hxd ..).symm.trans hx)

theorem described_framed : Context.Framed (Context.Described P) where
  congr _ _ h heap _ _ := h.congr heap
  ref ctx d ctx' h hr := by
    obtain ⟨dev, hdev, rfl⟩ := libusbyRefDevice_eq_ok hr
    exact h.store (h d dev hdev)
  unref ctx d ctx' h hu := by
    rcases libusbyUnrefDevice_eq_ok hu with ⟨dev, hdev, ⟨-, rfl⟩ | ⟨-, rfl⟩⟩
    · exact h.remove
    · exact h.store (h d dev hdev)

theorem described_maintained (hP : Established P) : Context.Maintained (Context.Described P) where
  toFramed := described_framed
  allocDevice _ _ _ _ h := h.store hP.fresh
  read _ _ _ _ _ h _ delivered := by
    obtain ⟨_, _, _, _, hread⟩ := delivered
    exact h.store (hP.read _ _ _ _ _ _ hread)

end

/-! ## The runs of a client -/

/-- The calls of a client that work on devices and their descriptors. -/
inductive CacheOp where
  | client (op : Op)
  | getDeviceDescriptor (k : Nat) (reply : DescriptorReply)
  | getDescriptorCached (d : DeviceId) (descType descIndex : UInt8) (length : Nat)

def cacheStep (s : State) : CacheOp → Option State
  | .client op => if op.isSearch then none else clientMachine.step s op
  | .getDeviceDescriptor k reply =>
    s.handles[k]?.bind fun handle =>
      (getDeviceDescriptor s.ctx handle.dev reply).toOption.map fun (_, ctx) => { s with ctx }
  | .getDescriptorCached d descType descIndex length =>
    if 0 < s.holdings d then
      (s.ctx.deref d).toOption.bind fun dev =>
        (usbybGetDescriptorCached dev descType descIndex length).toOption.map fun _ => s
    else none

/-- The runs of one client. -/
def cacheMachine : Machine State CacheOp := ⟨{}, cacheStep⟩

/-- The cache has a block for every configuration of the device descriptor. -/
def Covers (desc cache : List UInt8) : Prop :=
  ∃ bs, Caches cache bs ∧ numConfigurations desc ≤ bs.length

/-- Every cache covers its device descriptor, so that no walk leaves it. -/
structure CacheConsistent (ctx : Context) : Prop where
  covers : ctx.Described Covers
  inside : ∀ d dev, ctx.heap d = some dev → ∀ descType descIndex length,
    ∃ r, usbybGetDescriptorCached dev descType descIndex length = .ok r

/-- The call replaces a device descriptor by one with more configurations than blocks: the
device file had none of 18 bytes, and the reply of the device is accepted. -/
def Overwrites (s : State) (op : CacheOp) : Prop :=
  ∃ k reply handle dev bs, op = .getDeviceDescriptor k reply ∧ s.handles[k]? = some handle ∧
    s.ctx.heap handle.dev = some dev ∧ getDeviceDescriptorCached dev = none ∧ 0 ≤ reply.r ∧
    reply.rawdesc.getD 0 0 = 18 ∧ Caches dev.descCache bs ∧
    bs.length < numConfigurations reply.rawdesc

section
variable {s t : State} {ctx : Context}

theorem covers_established : Established Covers where
  fresh := ⟨[], ⟨rfl, by simp⟩, by decide⟩
  read _ read _ desc _ _ h :=
    ⟨_, (readDescriptors_eq h).2.2, by rw [length_deliveredBlocks]⟩

theorem Context.Described.consistent (h : ctx.Described Covers) : CacheConsistent ctx where
  covers := h
  inside d dev hd descType descIndex length := by
    obtain ⟨bs, caches, le⟩ := h d dev hd
    by_cases configuration : descType = 2
    · rw [configuration]
      exact ⟨_, usbybGetDescriptorCached_eq caches le descIndex length⟩
    · exact ⟨_, if_pos configuration⟩

theorem client_described {P : List UInt8 → List UInt8 → Prop} {op : Op} (hP : Established P)
    (h : s.ctx.Described P) (other : op.isSearch = false) (hs : clientMachine.step s op = some t) :
    t.ctx.Described P := by
  refine call_framed described_framed ?_ other h (clientMachine_step hs).2
  exact fun ok dir listed _ hlisted =>
    usbybGetDeviceList_maintained (described_maintained hP) h hlisted

theorem cacheStep_covers {op : CacheOp} (h : s.ctx.Described Covers) (hc : ¬ Overwrites s op)
    (hs : cacheStep s op = some t) : t.ctx.Described Covers := by
  cases op with
  | client op =>
    simp only [cacheStep] at hs
    split at hs
    case isTrue => cases hs
    case isFalse other => exact client_described covers_established h (by simpa using other) hs
  | getDescriptorCached d descType descIndex length =>
    simp only [cacheStep] at hs
    split at hs
    case isFalse => cases hs
    case isTrue =>
      simp only [Option.bind_eq_some_iff, Option.map_eq_some_iff] at hs
      obtain ⟨dev, -, r, -, rfl⟩ := hs
      exact h
  | getDeviceDescriptor k reply =>
    simp only [cacheStep, Option.bind_eq_some_iff, Option.map_eq_some_iff] at hs
    obtain ⟨handle, hk, ⟨desc, ctx'⟩, hget, rfl⟩ := hs
    obtain ⟨dev, hd, ⟨_, -, -, rfl⟩ | ⟨-, -, -, rfl⟩ | ⟨uncached, accepted, -, rfl⟩⟩ :=
      getDeviceDescriptor_eq_ok (toOption_eq_some.1 hget)
    · exact h
    · exact h
    · obtain ⟨bs, caches, -⟩ := h _ dev hd
      refine h.store ⟨bs, caches, ?_⟩
      by_contra more
      obtain ⟨nonneg, eighteen⟩ := not_or.1 accepted
      exact hc ⟨k, reply, handle, dev, bs, rfl, hk, hd, uncached, Int.not_lt.1 nonneg,
        not_not.1 eighteen, caches, by simpa using more⟩

theorem overwrites_inconsistent {op : CacheOp} (hc : Overwrites s op)
    (hs : cacheStep s op = some t) : ¬ CacheConsistent t.ctx := by
  obtain ⟨k, reply, handle, dev, bs, rfl, hk, hd, uncached, nonneg, eighteen, caches, more⟩ := hc
  intro consistent
  have hderef : s.ctx.deref handle.dev = .ok dev := by rw [Context.deref, hd]
  have hget : getDeviceDescriptor s.ctx handle.dev reply =
      .ok (some reply.rawdesc, s.ctx.store handle.dev { dev with deviceDesc := reply.rawdesc }) := by
    rw [getDeviceDescriptor, hderef, ok_bind, uncached]
    simp only
    rw [if_neg (by omega), if_neg (by simpa using eighteen)]
  simp only [cacheStep, hk, Option.bind_some, hget] at hs
  cases hs
  obtain ⟨cs, caches', le⟩ := consistent.covers handle.dev _ (Function.update_self ..)
  rw [caches.unique caches'] at more
  exact absurd le (Nat.not_le.2 more)

end

/-- The cache is consistent throughout a run exactly if no accepted reply of a device has
more configurations than there are blocks. -/
theorem cache_consistent_iff (ops : List CacheOp) :
    cacheMachine.Always (fun s => CacheConsistent s.ctx) {} ops ↔
      cacheMachine.Steps (fun s op _ => ¬ Overwrites s op) {} ops := by
  constructor
  · intro h
    exact Machine.Always.steps (I := fun _ => True) (fun _ _ _ _ _ => trivial)
      (fun s op t _ _ ht after hc => overwrites_inconsistent hc ht after) h trivial
  · intro h
    refine ((Machine.Steps.invariant (I := fun s => s.ctx.Described Covers)
      (Q := fun _ _ _ => True) ?_ h ?_).1).mono fun s hs => hs.consistent
    · exact fun s op t hs hc ht => ⟨cacheStep_covers hs hc ht, trivial⟩
    · intro d dev hd
      cases hd

/-- A device whose file has a descriptor without configurations, and no block. -/
def blankDevice : List BusEntry :=
  [{ busno := some 1
     files := some [{ devno := some 1, opens := true, read := fun _ n => List.replicate n 0 }] }]

/-- The device is enumerated and opened, and replies with one configuration. -/
def replaced : List CacheOp :=
  [.client (.getDeviceList (fun _ => true) (some blankDevice)),
    .client (.openDevice 0 { malloc := true, opens := true }),
    .getDeviceDescriptor 0
      { r := 18, rawdesc := [18, 1, 0, 2, 0, 0, 0, 64, 1, 0, 2, 0, 0, 1, 0, 0, 0, 1] }]

/-- The next request for a configuration descriptor leaves the cache. -/
theorem cache_consistent_fails :
    ¬ ∀ ops, cacheMachine.Always (fun s => CacheConsistent s.ctx) {} ops := by
  intro h
  have runs : (cacheMachine.exec {} replaced).isSome = true := by decide
  obtain ⟨s, hs⟩ := Option.isSome_iff_exists.1 runs
  have faults : (cacheMachine.exec {} replaced).bind (fun s => (s.ctx.heap 0).map fun dev =>
      (usbybGetDescriptorCached dev 2 0 6).isOk) = some false := by decide
  rw [hs, Option.bind_some, Option.map_eq_some_iff] at faults
  obtain ⟨dev, hd, fault⟩ := faults
  obtain ⟨r, hr⟩ := ((h replaced).exec hs).inside 0 dev hd 2 0 6
  rw [hr] at fault
  cases fault

end Libusby.Linux
