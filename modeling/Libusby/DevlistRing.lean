import Mathlib.Data.Option.Basic
import Libusby.Core.DeviceRing
import Libusby.Linux.Search
import Libusby.Win32.Files

/-!
# The ring behind the contexts' lists

The contexts of both backends keep their devices as a sequence. In memory it is a ring through the
list head, the node `none`, and the `devnode`s of the devices. The calls of a client are simulated
by calls on the ring: where a device is made its `devnode` is put in, where one is finalized it is
taken out, and the search loops of the enumerators are walks around the ring.
-/

namespace Libusby

open Foundations Libusby.Core

namespace Core

/-- The node that a call puts into the ring. -/
def DevlistCall.inserted {ι : Type*} : DevlistCall ι → Option ι
  | .insert node => some node
  | .remove _ => none

/-- The node that a call takes out of the ring. -/
def DevlistCall.removed {ι : Type*} : DevlistCall ι → Option ι
  | .insert _ => none
  | .remove node => some node

end Core

/-- The ring through the list head leads around the devices of a context's list. -/
def Linked (nodes : DevlistNodes (Option DeviceId)) (devlist : List DeviceId) : Prop :=
  nodes.Ring none (devlist.map some)

/-- `ring` is what the calls lead to, from a head that has just been initialised. They put in the
devices that were made and take out those that were freed, in this order. -/
structure DevlistRun (h : DevlistNodes (Option DeviceId)) (devlist : List DeviceId)
    (devices : Ledger) (calls : List (DevlistCall (Option DeviceId)))
    (ring : DevlistState (Option DeviceId)) : Prop where
  run : (ringMachine h none).exec (ringMachine h none).init calls = some ring
  live : ring.live = devlist.map some
  inserted : calls.filterMap DevlistCall.inserted = (List.range devices.next).map some
  removed : calls.filterMap DevlistCall.removed = devices.released.reverse.map some

/-- More calls after `before` lead to a ring around the devices, and every structure in memory is
on it. -/
structure Ringed {α : Type*} (h : DevlistNodes (Option DeviceId))
    (before : List (DevlistCall (Option DeviceId))) (heap : DeviceId → Option α)
    (devlist : List DeviceId) (devices : Ledger) : Prop where
  run : ∃ more ring, DevlistRun h devlist devices (before ++ more) ring
  linked : ∀ d dev, heap d = some dev → d ∈ devlist
  lt : ∀ d ∈ devlist, d < devices.next

section
variable {h nodes : DevlistNodes (Option DeviceId)} {devlist : List DeviceId} {devices : Ledger}
  {calls : List (DevlistCall (Option DeviceId))} {ring : DevlistState (Option DeviceId)}
  {d : DeviceId}

theorem DevlistRun.linked (run : DevlistRun h devlist devices calls ring) :
    Linked ring.nodes devlist := by
  have reached : ring.nodes.Ring none ring.live :=
    Machine.Reachable.invariant (I := fun s => s.nodes.Ring none s.live)
      (usbyiInitDevlistHead_ring h none) (fun _ _ _ ring hstep => ringMachine_ring ring hstep)
      ⟨calls, run.run⟩
  rwa [run.live] at reached

/-- A new device is put in before the head. -/
theorem DevlistRun.insert (run : DevlistRun h devlist devices calls ring)
    (fresh : devices.next ∉ devlist) :
    ∃ ring, DevlistRun h (devlist ++ [devices.next]) devices.acquire
      (calls ++ [.insert (some devices.next)]) ring := by
  have notin : some devices.next ∉ none :: ring.live := by simpa [run.live] using fresh
  obtain ⟨after, step⟩ : ∃ after,
      (ringMachine h none).step ring (.insert (some devices.next)) = some after :=
    ⟨_, if_neg notin⟩
  refine ⟨after, ?_, ?_, ?_, ?_⟩
  · exact Machine.exec_snoc.2 ⟨ring, run.run, step⟩
  · obtain ⟨-, rfl⟩ := ringMachine_insert step
    simp [run.live]
  · simp [run.inserted, DevlistCall.inserted, Ledger.acquire, List.range_succ]
  · simp [run.removed, DevlistCall.removed, Ledger.acquire]

/-- A device that is finalized is taken out. -/
theorem DevlistRun.remove (run : DevlistRun h devlist devices calls ring) (member : d ∈ devlist) :
    ∃ ring, DevlistRun h (devlist.erase d) (devices.release d) (calls ++ [.remove (some d)])
      ring := by
  have live : some d ∈ ring.live := by simpa [run.live] using member
  obtain ⟨after, step⟩ : ∃ after, (ringMachine h none).step ring (.remove (some d)) = some after :=
    ⟨_, if_pos live⟩
  refine ⟨after, ?_, ?_, ?_, ?_⟩
  · exact Machine.exec_snoc.2 ⟨ring, run.run, step⟩
  · obtain ⟨-, rfl⟩ := ringMachine_remove step
    simp only [run.live]
    -- the ring compares nodes by the equality of `Option`, not by that of its elements
    have inj := Option.some_injective DeviceId
    exact (@List.map_erase _ _ _ _ instBEqOfDecidableEq _ _ inj d devlist).symm
  · simp [run.inserted, DevlistCall.inserted, Ledger.release]
  · simp [run.removed, DevlistCall.removed, Ledger.release]

/-- The assertion of `usbyb_exit` reads the list off the head. -/
theorem Linked.empty_iff (h : Linked nodes devlist) : nodes.next none = none ↔ devlist = [] := by
  rw [h.next_head]
  cases devlist <;> simp

/-- A search loop asks for each device at most once, and ends with the first that it looks for
or with the head. -/
theorem Linked.search (h : Linked nodes devlist) (p : DeviceId → Bool) :
    ∃ visited, search nodes.next none (fun node => node.any p) (devlist.length + 1)
      (nodes.next none) = some (visited, devlist.find? p) ∧ visited.Nodup := by
  have nodup := List.nodup_cons.1 (RingLinks.Ring.nodup h)
  have loop := (RingLinks.Ring.forward h).search nodup.1 (fun node => node.any p)
    (by simp : _ < devlist.length + 1)
  have found : ((devlist.map some).find? fun node => node.any p).getD none = devlist.find? p := by
    rw [List.find?_map]
    change ((devlist.find? p).map some).getD none = _
    cases devlist.find? p <;> rfl
  rw [found] at loop
  exact ⟨_, loop, (Path.visited_prefix _ _).sublist.nodup nodup.2⟩

end

/-! ## The writes of a context -/

section
variable {α : Type*} {h : DevlistNodes (Option DeviceId)}
  {before : List (DevlistCall (Option DeviceId))} {heap : DeviceId → Option α}
  {devlist : List DeviceId} {devices : Ledger} {d : DeviceId} {dev dev' : α}

theorem ringed_init (h : DevlistNodes (Option DeviceId)) :
    Ringed (α := α) h [] (fun _ => none) [] {} where
  run := ⟨[], _, rfl, rfl, rfl, rfl⟩
  linked _ _ hd := by cases hd
  lt _ hd := by cases hd

/-- What holds of the structures in memory holds whatever calls have led to the ring. -/
theorem Ringed.after {ring : DevlistState (Option DeviceId)} (r : Ringed h [] heap devlist devices)
    (built : DevlistRun h devlist devices before ring) : Ringed h before heap devlist devices where
  run := ⟨[], ring, by rwa [List.append_nil]⟩
  linked := r.linked
  lt := r.lt

theorem Ringed.store (r : Ringed h before heap devlist devices) (hd : heap d = some dev) :
    Ringed h before (Function.update heap d (some dev')) devlist devices where
  run := r.run
  linked x y hx := by
    by_cases same : x = d
    · exact same ▸ r.linked d dev hd
    · exact r.linked x y ((Function.update_of_ne same ..).symm.trans hx)
  lt := r.lt

theorem Ringed.insert (r : Ringed h before heap devlist devices) :
    Ringed h before (Function.update heap devices.next (some dev)) (devlist ++ [devices.next])
      devices.acquire where
  run := by
    obtain ⟨more, ring, run⟩ := r.run
    obtain ⟨after, run⟩ := run.insert fun member => Nat.lt_irrefl _ (r.lt _ member)
    exact ⟨_, after, List.append_assoc .. ▸ run⟩
  linked x y hx := by
    by_cases same : x = devices.next
    · simp [same]
    · exact List.mem_append_left _ (r.linked x y ((Function.update_of_ne same ..).symm.trans hx))
  lt x hx := by
    rcases List.mem_append.1 hx with old | new
    · exact Nat.lt_succ_of_lt (r.lt x old)
    · exact List.mem_singleton.1 new ▸ Nat.lt_succ_self _

theorem Ringed.remove (r : Ringed h before heap devlist devices) (hd : heap d = some dev) :
    Ringed h before (Function.update heap d none) (devlist.erase d) (devices.release d) where
  run := by
    obtain ⟨more, ring, run⟩ := r.run
    obtain ⟨after, run⟩ := run.remove (r.linked d dev hd)
    exact ⟨_, after, List.append_assoc .. ▸ run⟩
  linked x y hx := by
    have other : x ≠ d := by
      rintro rfl
      cases (Function.update_self ..).symm.trans hx
    rw [Function.update_of_ne other] at hx
    exact (List.mem_erase_of_ne other).2 (r.linked x y hx)
  lt x hx := r.lt x (List.mem_of_mem_erase hx)

end

/-! ## The clients of usbfs -/

namespace Linux

section
variable {h : DevlistNodes (Option DeviceId)} {before : List (DevlistCall (Option DeviceId))}
  {ring : DevlistState (Option DeviceId)} {s t : State} {ops : List Op}

/-- Every write to a context is simulated by calls on the ring. -/
theorem ringed_maintained : Context.Maintained fun ctx =>
    Ringed h before ctx.heap ctx.devlist ctx.devices where
  congr ctx ctx' r heap devlist devices := by rwa [heap, devlist, devices]
  ref ctx d ctx' r href := by
    obtain ⟨dev, hd, rfl⟩ := libusbyRefDevice_eq_ok href
    exact r.store hd
  unref ctx d ctx' r hunref := by
    obtain ⟨dev, hd, ⟨-, rfl⟩ | ⟨-, rfl⟩⟩ := libusbyUnrefDevice_eq_ok hunref
    · exact r.remove hd
    · exact r.store hd
  allocDevice ctx busno devno fd r := r.insert
  read ctx d dev desc cache r hd _ := r.store hd

theorem ringed_exec (start : Ringed h before s.ctx.heap s.ctx.devlist s.ctx.devices)
    (run : clientMachine.exec s ops = some t) :
    Ringed h before t.ctx.heap t.ctx.devlist t.ctx.devices := by
  refine Machine.exec_induction (motive := fun _ t =>
    Ringed h before t.ctx.heap t.ctx.devlist t.ctx.devices) start ?_ run
  intro ops u op v _ ringed hstep
  refine call_maintained ringed_maintained (fun ctx d reply desc ctx' r hget => ?_) ringed
    (clientMachine_step hstep).2
  obtain ⟨dev, hd, ⟨_, -, -, rfl⟩ | ⟨-, -, -, rfl⟩ | ⟨-, -, -, rfl⟩⟩ :=
    getDeviceDescriptor_eq_ok hget
  · exact r
  · exact r
  · exact r.store hd

/-- From every state of a client, more of its calls are more calls on the ring. -/
theorem devlist_run (reachable : clientMachine.Reachable s)
    (built : DevlistRun h s.ctx.devlist s.ctx.devices before ring)
    (run : clientMachine.exec s ops = some t) :
    ∃ more ring', DevlistRun h t.ctx.devlist t.ctx.devices (before ++ more) ring' := by
  obtain ⟨first, reached⟩ := reachable
  have start := (ringed_exec (ringed_init h) reached).after built
  exact (ringed_exec start run).run

/-- In every state of a client, the walk around the ring that its calls have built is the
enumerator's search, and `usbyb_exit` finds the ring empty if the list is. -/
theorem findDevice_ring (h : DevlistNodes (Option DeviceId))
    (reachable : clientMachine.Reachable s) :
    ∃ calls ring, DevlistRun h s.ctx.devlist s.ctx.devices calls ring ∧
      (∀ busno devno, ∃ visited r, findDevice s.ctx busno devno s.ctx.devlist = .ok r ∧
        visited.Nodup ∧
        search ring.nodes.next none (fun node => node.any (s.ctx.addressed busno devno))
          (s.ctx.devlist.length + 1) (ring.nodes.next none) = some (visited, r)) ∧
      (ring.nodes.next none = none ↔ usbybExit s.ctx = .ok ()) := by
  have memory := fun d => ((State.Accounted.of_reachable reachable).counted.linked d).1
  obtain ⟨ops, reached⟩ := reachable
  obtain ⟨calls, ring, run⟩ := (ringed_exec (ringed_init h) reached).run
  refine ⟨calls, ring, run, fun busno devno => ?_, run.linked.empty_iff.trans ?_⟩
  · obtain ⟨visited, loop, once⟩ := run.linked.search (s.ctx.addressed busno devno)
    exact ⟨visited, _, findDevice_find s.ctx busno devno memory, once, loop⟩
  · rw [usbybExit]
    split_ifs with empty <;> simp [empty]

end

end Linux

/-! ## The clients of libusb0 -/

namespace Win32

section
variable {h : DevlistNodes (Option DeviceId)} {before : List (DevlistCall (Option DeviceId))}
  {ring : DevlistState (Option DeviceId)} {s t : SessionState} {ops : List SessionOp}

/-- Every write to a context is simulated by calls on the ring, also where the client gives back
what it does not hold. -/
theorem ringed_maintained : Context.Maintained fun ctx _ =>
    Ringed h before ctx.heap ctx.devlist ctx.devices where
  store r hd _ _ := r.store hd
  remove r hd := r.remove hd
  openFile r := r
  closeHandle r := r
  allocDevice r _ := r.insert

/-- From every state of a client, more of its calls are more calls on the ring. -/
theorem devlist_run (reachable : sessionMachine.Reachable s)
    (built : DevlistRun h s.session.ctx.devlist s.session.ctx.devices before ring)
    (run : sessionMachine.exec s ops = some t) :
    ∃ more ring', DevlistRun h t.session.ctx.devlist t.session.ctx.devices (before ++ more)
      ring' := by
  obtain ⟨first, reached⟩ := reachable
  have start := (ringed_maintained.exec (ringed_init h) reached).after built
  exact (ringed_maintained.exec start run).run

/-- In every state of a client, the walk around the ring that its calls have built is the
enumerator's search. -/
theorem findDevice_ring (h : DevlistNodes (Option DeviceId))
    (reachable : sessionMachine.Reachable s) :
    ∃ calls ring,
      DevlistRun h s.session.ctx.devlist s.session.ctx.devices calls ring ∧
      ∀ i, ∃ visited r, findDevice s.session.ctx i s.session.ctx.devlist = .ok r ∧
        visited.Nodup ∧
        search ring.nodes.next none (fun node => node.any (s.session.ctx.numbered i))
          (s.session.ctx.devlist.length + 1) (ring.nodes.next none) = some (visited, r) := by
  have memory := fun d => ((Context.Accounted.of_reachable reachable).wellFormed.linked d).1
  obtain ⟨ops, reached⟩ := reachable
  obtain ⟨calls, ring, run⟩ := (ringed_maintained.exec (ringed_init h) reached).run
  refine ⟨calls, ring, run, fun i => ?_⟩
  obtain ⟨visited, loop, once⟩ := run.linked.search (s.session.ctx.numbered i)
  exact ⟨visited, _, findDevice_find s.session.ctx i memory, once, loop⟩

end

end Win32

end Libusby
