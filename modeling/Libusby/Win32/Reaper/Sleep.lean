import Mathlib.Data.Nat.Find
import Libusby.Win32.Reaper.Bounds
import Libusby.Win32.Reaper.Watch

/-!
# When the reaper sleeps

The event of a queued request is signalled exactly when the request is done, so the wait of
the reaper returns exactly when there is something to do. As long as these waits do not
fail, the search that follows one finds its transfer and `GetOverlappedResult` does not block.
-/

namespace Libusby.Win32.Reaper

open Foundations Libusby.Core

variable {c : Checks} {s s' : Sys} {e : Event} {th : Tid} {t : TranId} {hTarget h : Handle}
  {p : Pc} {n i : Nat} {res : UInt32} {cur : Option TranId} {q₀ q₁ : List TranId}

/-- The event of every queued request tells whether it is done. -/
def Signals (s : Sys) : Prop :=
  ∀ t, (s.trans t).submitted = true →
    (s.trans t).overlapped.hEvent = (s.trans t).overlapped.result.isSome

namespace Signals

theorem init : Signals {} := nofun

/-- A step that leaves all requests alone. -/
theorem frame (h : Signals s)
    (submitted : ∀ t, (s'.trans t).submitted = (s.trans t).submitted)
    (overlapped : ∀ t, (s'.trans t).overlapped = (s.trans t).overlapped) : Signals s' := by
  intro t ht
  rw [overlapped]
  exact h t (submitted t ▸ ht)

theorem step (h : Signals s) (hs : step c s e = some s') : Signals s' := by
  cases step_rule hs with
  | @fill t pub =>
    exact h.frame (fun _ => Sys.setTran_keeps _ _ _ _ (·.submitted) rfl)
      fun _ => Sys.setTran_keeps _ _ _ _ (·.overlapped) rfl
  | @reject t res n idle =>
    intro u hu
    by_cases same : u = t
    · simp [same, idle] at hu
    · rw [Sys.setTran_trans, if_neg same] at hu ⊢
      exact h u hu
  | @accept t res n =>
    intro u hu
    by_cases same : u = t
    · cases res <;> simp [Sys.enqueued, Sys.issued, same]
    · simp only [Sys.enqueued, Sys.setTran_trans, if_neg same] at hu ⊢
      exact h u hu
  | @complete t res n =>
    intro u hu
    by_cases same : u = t
    · simp [same]
    · rw [Sys.setTran_trans, if_neg same] at hu ⊢
      exact h u hu
  | @unlink th hTarget t =>
    intro u hu
    by_cases same : u = t
    · simp [Sys.dequeued, same] at hu
    · simp only [Sys.dequeued, Sys.setPc_trans, Sys.setTran_trans, if_neg same] at hu ⊢
      exact h u hu
  | getResult | signal =>
    exact h.frame (fun _ => Sys.setTran_keeps _ _ _ _ (·.submitted) rfl)
      fun _ => Sys.setTran_keeps _ _ _ _ (·.overlapped) rfl
  | _ => exact h

theorem of_reachable (h : (reaper c).Reachable s) : Signals s :=
  h.invariant init fun _ _ _ => step

/-- A queued request whose event is signalled is done. -/
theorem done_iff (h : Signals s) (submitted : (s.trans t).submitted = true) :
    s.signalled (.overlapped t) = true ↔ (s.trans t).overlapped.result ≠ none := by
  change (s.trans t).overlapped.hEvent = true ↔ _
  rw [h t submitted, Option.isSome_iff_ne_none]

end Signals

/-! ## The wait -/

/-- The cell that a wait for `n` handles reports is one of the first `n`. -/
theorem signalledAt_iff {k : Nat} (inside : k < n) : s.signalledAt k = true ↔
    ∃ h, (s.ctx.handleList.handles.take n)[k]? = some (some h) ∧ s.signalled h = true := by
  unfold Sys.signalledAt
  rw [List.getElem?_take_of_lt inside]
  split
  case h_1 h hk => simp [hk]
  case h_2 none =>
    refine ⟨nofun, ?_⟩
    rintro ⟨h, hk, -⟩
    exact absurd hk (none h)

theorem exists_signalledAt : (∃ k < n, s.signalledAt k = true) ↔
    ∃ h, some h ∈ s.ctx.handleList.handles.take n ∧ s.signalled h = true := by
  constructor
  · rintro ⟨k, inside, hk⟩
    obtain ⟨h, cell, signalled⟩ := (signalledAt_iff inside).1 hk
    exact ⟨h, List.mem_of_getElem? cell, signalled⟩
  · rintro ⟨h, mem, signalled⟩
    obtain ⟨k, cell⟩ := List.mem_iff_getElem?.1 mem
    have inside : k < n := by
      obtain ⟨bound, -⟩ := List.getElem?_eq_some_iff.1 cell
      rw [List.length_take] at bound
      omega
    exact ⟨k, inside, (signalledAt_iff inside).2 ⟨h, cell, signalled⟩⟩

/-- One of the handles is signalled: the wait returns the first one. -/
theorem wait_returns (room : n ≤ maximumWaitObjects) (h : ∃ k < n, s.signalledAt k = true) :
    ∃ res : UInt32, res.toNat < n ∧ s.WaitReturns n res := by
  obtain ⟨inside, signalled⟩ := Nat.find_spec h
  have value : (UInt32.ofNat (Nat.find h)).toNat = Nat.find h :=
    UInt32.toNat_ofNat_of_lt' (Nat.lt_trans (Nat.lt_of_lt_of_le inside room) (by decide))
  refine ⟨.ofNat (Nat.find h), by rwa [value], fun _ => ?_⟩
  rw [value]
  refine ⟨room, signalled, fun k hk => ?_⟩
  have none := Nat.find_min h hk
  rw [Bool.eq_false_iff]
  exact fun hs => none ⟨by omega, hs⟩

/-- There is something to do for a reaper with the target `hTarget`. -/
def Sys.Busy (s : Sys) (hTarget : Handle) : Prop :=
  s.signalled hTarget = true ∨ s.signalled .transferListUpdated = true ∨
    ∃ t, (s.trans t).submitted = true ∧ (s.trans t).overlapped.result ≠ none

theorem Watched.busy_iff (hw : Watched s hTarget n q₀ q₁) (hs : Signals s) :
    (∃ k < n, s.signalledAt k = true) ↔ s.Busy hTarget := by
  rw [exists_signalledAt, hw.handles]
  constructor
  · rintro ⟨h, mem, signalled⟩
    rw [List.mem_cons, List.mem_cons, List.mem_map] at mem
    obtain ⟨⟨⟩⟩ | ⟨⟨⟩⟩ | ⟨t, ht, ⟨⟩⟩ := mem
    · exact .inl signalled
    · exact .inr (.inl signalled)
    · have submitted := (hw.queue.mem t).1 (List.mem_append_left _ ht)
      exact .inr (.inr ⟨t, submitted, (hs.done_iff submitted).1 signalled⟩)
  · rintro (signalled | updated | ⟨t, submitted, done⟩)
    · exact ⟨hTarget, List.mem_cons_self .., signalled⟩
    · exact ⟨.transferListUpdated, by simp, updated⟩
    · rcases List.mem_append.1 ((hw.queue.mem t).2 submitted) with old | new
      · exact ⟨.overlapped t, by simp [old], (hs.done_iff submitted).2 done⟩
      · -- it joined during the wait, which the event of the list reports
        exact ⟨.transferListUpdated, by simp, hw.joined (List.ne_nil_of_mem new)⟩

/-- Where a wait that succeeds leads. -/
theorem Watched.leads (hw : Watched s hTarget n q₀ q₁) (hs : Signals s) (inside : res.toNat < n)
    (returns : s.WaitReturns n res) (result : s.ctx.react .source hTarget n res = .ok p) :
    p = .leaving hTarget Error.success.code ∧ s.signalled hTarget = true ∨
    p = .arming hTarget ∧ s.signalled .transferListUpdated = true ∨
    ∃ t, (s.trans t).submitted = true ∧ (s.trans t).overlapped.result ≠ none ∧
      p = .searching hTarget (.overlapped t) 0 s.ctx.trani.first := by
  obtain ⟨-, first, -⟩ := returns inside
  obtain ⟨h, cell, signalled⟩ := (signalledAt_iff inside).1 first
  have stored := cell
  rw [List.getElem?_take_of_lt inside] at stored
  rw [hw.handles] at cell
  unfold Context.react at result
  rw [source_wait] at result
  simp only [Bool.false_eq_true, if_false, stored] at result
  split_ifs at result with zero one
  · cases result
    subst zero
    cases cell
    exact .inl ⟨rfl, signalled⟩
  · cases result
    subst one
    cases cell
    exact .inr (.inl ⟨rfl, signalled⟩)
  · cases result
    obtain ⟨k, hk⟩ : ∃ k, res.toNat = k + 2 := by
      have : res.toNat ≠ 0 := fun e => zero (UInt32.toNat_inj.1 e)
      have : res.toNat ≠ 1 := fun e => one (UInt32.toNat_inj.1 e)
      exact ⟨res.toNat - 2, by omega⟩
    rw [hk, List.getElem?_cons_succ, List.getElem?_cons_succ] at cell
    obtain ⟨t, ht, ⟨⟩⟩ := List.mem_map.1 (List.mem_of_getElem? cell)
    have submitted := (hw.queue.mem t).1 (List.mem_append_left _ ht)
    exact .inr (.inr ⟨t, submitted, (hs.done_iff submitted).1 signalled, rfl⟩)

theorem Watched.enabled_iff (hw : Watched s hTarget n q₀ q₁) (hs : Signals s)
    (armed : Armed s.ctx.handleList.handles hTarget n) (pc : s.pc th = .waiting hTarget n) :
    (∃ res s', res.toNat < n ∧ step .source s (.waitMultiple th res) = some s') ↔
      n ≤ maximumWaitObjects ∧ s.Busy hTarget := by
  rw [← hw.busy_iff hs]
  constructor
  · rintro ⟨res, s', inside, hstep⟩
    simp only [step, pc, Option.ite_none_right_eq_some] at hstep
    obtain ⟨room, signalled, -⟩ := hstep.1 inside
    exact ⟨room, res.toNat, inside, signalled⟩
  · rintro ⟨room, signalled⟩
    obtain ⟨res, inside, returns⟩ := wait_returns room signalled
    obtain ⟨p, result, -⟩ := (reactsSafely_iff armed).2 inside
    refine ⟨res, s.setPc th p, inside, ?_⟩
    simp [step, pc, returns, result, Except.toOption]

/-- The wait of the reaper succeeds exactly when its array is small enough and its target is
signalled, the queue has grown, or a queued request is done: up to that size it never sleeps
through work, and it never wakes for nothing. -/
theorem wait_returns_iff (h : (reaper .source).Reachable s) (pc : s.pc th = .waiting hTarget n) :
    (∃ res s', res.toNat < n ∧ step .source s (.waitMultiple th res) = some s') ↔
      n ≤ maximumWaitObjects ∧ s.Busy hTarget := by
  obtain ⟨q₀, q₁, hw⟩ := AllWatched.of_reachable h th hTarget n pc
  have armed := (HandlesReady.of_reachable h).armed th hTarget n pc
  exact hw.enabled_iff (Signals.of_reachable h) armed pc

/-- A request that the driver completes while the reaper sleeps wakes it. -/
theorem wait_returns_iff_completed : ∃ s,
    (reaper .source).exec {} [.fill 7 { type := .bulk }, .submit 7 (some .ioPending) 0, .callRun 0,
      .wait 0 1, .arm 0 true, .complete 7 none 5] = some s ∧
    ∃ res s', res.toNat < 3 ∧ step .source s (.waitMultiple 0 res) = some s' := by
  refine ⟨_, rfl, ?_⟩
  have run : (reaper .source).exec {} [.fill 7 { type := .bulk }, .submit 7 (some .ioPending) 0,
    .callRun 0, .wait 0 1, .arm 0 true, .complete 7 none 5] = some _ := rfl
  refine (@wait_returns_iff _ 0 .eventLoopStopped 3 ⟨_, run⟩ rfl).2 ?_
  exact ⟨by decide, .inr (.inr ⟨7, rfl, nofun⟩)⟩

end Libusby.Win32.Reaper
