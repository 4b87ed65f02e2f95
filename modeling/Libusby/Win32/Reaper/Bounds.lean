import Libusby.Win32.Reaper.Handles

/-!
# Where the reaper leaves its handle array

`res < 0` is never true of a `DWORD`, and no value is both below `WAIT_OBJECT_0` and above
the last handle, so neither test of the source ever fires. The reaper stays inside its
array exactly as long as there is nothing to detect.
-/

namespace Libusby.Win32.Reaper

open Foundations Libusby.Core

variable {s : Sys} {th : Tid} {hTarget : Handle} {ok : Bool} {n : Nat} {res : UInt32}

/-- The list must grow for the two fixed handles and all transfers, and `realloc` fails. -/
def Sys.GrowthFails (s : Sys) (reallocOk : Bool) : Prop :=
  s.ctx.handleList.MustGrow (2 + s.ctx.tranCount) ∧ reallocOk = false

/-- Arming the wait stores inside the array, and a list that cannot grow is an error. -/
def ArmsSafely (c : Checks) (s : Sys) (hTarget : Handle) (reallocOk : Bool) : Prop :=
  ∃ out, s.arm c hTarget reallocOk = .ok out ∧
    (s.GrowthFails reallocOk → ∃ r < 0, out = .error r)

/-- The result of the wait is used as an index only below `handleCount`, and any other
result is an error. -/
def ReactsSafely (c : Checks) (s : Sys) (hTarget : Handle) (handleCount : Nat) (res : UInt32) :
    Prop :=
  ∃ p, s.ctx.react c hTarget handleCount res = .ok p ∧
    (handleCount ≤ res.toNat → ∃ r < 0, p = .leaving hTarget r)

theorem source_reserve (res : UInt32) : Checks.source.reserve res = false := by
  simp [Checks.source]

theorem source_wait (res : UInt32) (n : Nat) : Checks.source.wait res n = false := by
  simp [Checks.source]

theorem arm_source_ne_error {r : Int} : s.arm .source hTarget ok ≠ .ok (.error r) := by
  intro h
  unfold Sys.arm at h
  simp only [source_reserve, Bool.false_eq_true, if_false, bind_eq_ok] at h
  obtain ⟨_, -, _, -, _, -, h⟩ := h
  cases h

theorem arm_source_total (hc : Consistent s) (hr : HandlesReady s) (grown : ¬s.GrowthFails ok) :
    ∃ out, s.arm .source hTarget ok = .ok out := by
  obtain ⟨q, hq⟩ := hc.queue
  have alloc := reserve_allocated (2 + s.ctx.tranCount) ok hr.allocated
  have room := reserve_capacity (2 + s.ctx.tranCount) ok fun must => by
    by_contra fails
    exact grown ⟨must, Bool.eq_false_iff.2 fails⟩
  have count := hq.count
  unfold Sys.arm
  simp only [source_reserve, Bool.false_eq_true, if_false]
  generalize (usbyiReserveHandleList s.ctx.handleList (2 + s.ctx.tranCount) ok).2 = l at alloc room
  unfold HandleList.Allocated at alloc
  rw [storeHandle_eq_ok.2 ⟨by omega, rfl⟩, ok_bind,
    storeHandle_eq_ok.2 ⟨by rw [List.length_set]; omega, rfl⟩, ok_bind]
  have behind : 2 + q.length ≤
      ((l.handles.set 0 (some hTarget)).set 1 (some .transferListUpdated)).length := by
    simp only [List.length_set]
    omega
  obtain ⟨r, hr⟩ := collect_total hTarget s.ctx.tranCount.toNat hq.chain.forward behind
  rw [hr]
  exact ⟨_, rfl⟩

theorem armsSafely_iff (hc : Consistent s) (hr : HandlesReady s) :
    ArmsSafely .source s hTarget ok ↔ ¬s.GrowthFails ok := by
  constructor
  · rintro ⟨out, hout, negative⟩ fails
    obtain ⟨r, -, rfl⟩ := negative fails
    exact arm_source_ne_error hout
  · intro grown
    obtain ⟨out, hout⟩ := @arm_source_total s hTarget ok hc hr grown
    exact ⟨out, hout, fun fails => absurd fails grown⟩

theorem reactsSafely_iff (armed : Armed s.ctx.handleList.handles hTarget n) :
    ReactsSafely .source s hTarget n res ↔ res.toNat < n := by
  unfold ReactsSafely Context.react
  rw [source_wait]
  simp only [Bool.false_eq_true, if_false]
  constructor
  · rintro ⟨p, hp, negative⟩
    by_contra out
    obtain ⟨r, -, rfl⟩ := negative (Nat.le_of_not_lt out)
    have two := armed.two_le
    have zero : res ≠ 0 := by
      rintro rfl
      simp at out
      omega
    have one : res ≠ 1 := by
      rintro rfl
      simp at out
      omega
    rw [if_neg zero, if_neg one] at hp
    split at hp <;> cases hp
  · intro inside
    have past : ¬n ≤ res.toNat := by omega
    obtain ⟨h, hh⟩ := armed.stored _ inside
    rw [hh]
    split_ifs
    · exact ⟨_, rfl, fun le => absurd le past⟩
    · exact ⟨_, rfl, fun le => absurd le past⟩
    · exact ⟨_, rfl, fun le => absurd le past⟩

/-- In every state that a run reaches, the two steps that use the array are safe exactly
when the list need not grow or grows, and when the wait succeeds. -/
theorem handles_safe_iff (h : (reaper .source).Reachable s) (th : Tid) (hTarget : Handle) :
    (s.pc th = .arming hTarget → ∀ reallocOk,
      ArmsSafely .source s hTarget reallocOk ↔ ¬s.GrowthFails reallocOk) ∧
    ∀ handleCount, s.pc th = .waiting hTarget handleCount → ∀ res,
      ReactsSafely .source s hTarget handleCount res ↔ res.toNat < handleCount := by
  have hc := Consistent.of_reachable h
  have hr := HandlesReady.of_reachable h
  exact ⟨fun _ _ => armsSafely_iff hc hr, fun n pc _ => reactsSafely_iff (hr.armed th hTarget n pc)⟩

/-- The first reaper of a context: its array grows, or it cannot. -/
theorem handles_safe_first : ∃ s,
    (reaper .source).exec {} [.callRun 0, .wait 0 1] = some s ∧
      ArmsSafely .source s .eventLoopStopped true ∧ ¬ArmsSafely .source s .eventLoopStopped false := by
  refine ⟨_, rfl, ?_, ?_⟩
  · refine ((handles_safe_iff ⟨[.callRun 0, .wait 0 1], rfl⟩ 0 .eventLoopStopped).1 rfl true).2 ?_
    exact fun fails => nomatch fails.2
  · refine mt ((handles_safe_iff ⟨[.callRun 0, .wait 0 1], rfl⟩ 0 .eventLoopStopped).1 rfl false).1 ?_
    exact not_not.2 ⟨by decide, rfl⟩

/-- The array cannot grow and is stored to, and a wait fails and its result is used as an
index. -/
theorem handles_unsafe :
    (∃ s, (reaper .source).exec {} [.callRun 0, .wait 0 1] = some s ∧
      s.pc 0 = .arming .eventLoopStopped ∧
      s.arm .source .eventLoopStopped false = .error .store ∧
      ¬ArmsSafely .source s .eventLoopStopped false) ∧
    ∃ s, (reaper .source).exec {} [.callRun 0, .wait 0 1, .arm 0 true] = some s ∧
      s.pc 0 = .waiting .eventLoopStopped 2 ∧ s.WaitReturns 2 0xFFFFFFFF ∧
      s.ctx.react .source .eventLoopStopped 2 0xFFFFFFFF = .error .read ∧
      ¬ReactsSafely .source s .eventLoopStopped 2 0xFFFFFFFF := by
  refine ⟨⟨_, rfl, rfl, rfl, ?_⟩, ⟨_, rfl, rfl, ?_, rfl, ?_⟩⟩
  · rintro ⟨out, hout, -⟩
    cases hout
  · exact fun inside => absurd inside (by decide)
  · rintro ⟨p, hp, -⟩
    cases hp

end Libusby.Win32.Reaper
