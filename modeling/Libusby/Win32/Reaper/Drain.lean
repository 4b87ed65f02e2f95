import Libusby.Win32.Reaper.Search

/-!
# The reaper drains the queue

Left to itself, a thread in the reaping section works through the requests that are done:
every step of its own uses up a part of a budget, and where it has none it has left the
section or sleeps, and then the queue holds what is not done. Callbacks return, the wait on
the array does not fail and there is memory for the array.
-/

namespace Libusby.Win32.Reaper

open Foundations Libusby.Core

variable {s s' u : Sys} {e : Event} {th : Tid} {t : TranId} {hTarget : Handle}
  {p : Pc} {n L : Nat}

/-- The thread whose step in the reaping section the event is. -/
def Event.reaper : Event → Option Tid
  | .arm th _ | .waitMultiple th _ | .search th | .getResult th | .unlink th | .callback th
  | .callbackReturn th | .signal th => some th
  | _ => none

/-- What one transfer on a queue of `L` costs at most, for all of them. -/
def budget : Nat → Nat
  | 0 => 0
  | L + 1 => budget L + L + 9

/-- The number of steps to the next reap at most, with `L` transfers on the queue. -/
def Pc.phase (updated : Bool) (L : Nat) : Pc → Nat
  | .unlinked .. => L + 8
  | .inCallback .. => L + 7
  | .called .. => L + 6
  | .waiting .. => if updated then L + 5 else L + 3
  | .arming _ => L + 4
  | .searching _ _ i _ => 2 + (L - i)
  | .reaping .. => 1
  | _ => 0

/-- A bound on the steps of thread `th` before it leaves or sleeps. -/
def Sys.workLeft (s : Sys) (th : Tid) : Nat :=
  budget s.ctx.tranCount.toNat +
    (s.pc th).phase s.ctx.hTransferListUpdated s.ctx.tranCount.toNat

/-- The thread is in its wait and there is nothing to do. -/
def Sys.Asleep (s : Sys) (th : Tid) : Prop :=
  ∃ hTarget n, s.pc th = .waiting hTarget n ∧ ¬s.Busy hTarget

/-- What a reaper may do to the queue: it takes requests off that are done. -/
structure Serves (s s' : Sys) : Prop where
  requests : ∀ t, (s'.trans t).overlapped = (s.trans t).overlapped
  submitted : ∀ t, (s'.trans t).submitted = true → (s.trans t).submitted = true
  done : ∀ t, (s.trans t).submitted = true →
    (s'.trans t).submitted = true ∨ (s.trans t).overlapped.result ≠ none
  count : s'.ctx.tranCount ≤ s.ctx.tranCount

namespace Serves

theorem refl (s : Sys) : Serves s s := ⟨fun _ => rfl, fun _ => id, fun _ => .inl, Int.le_refl _⟩

theorem trans (h : Serves s s') (h' : Serves s' u) : Serves s u where
  requests t := (h'.requests t).trans (h.requests t)
  submitted t ht := h.submitted t (h'.submitted t ht)
  done t ht := by
    rcases h.done t ht with still | done
    · exact h.requests t ▸ h'.done t still
    · exact .inr done
  count := Int.le_trans h'.count h.count

/-- A step that leaves the queue alone. -/
theorem frame (requests : ∀ t, (s'.trans t).overlapped = (s.trans t).overlapped)
    (submitted : ∀ t, (s'.trans t).submitted = (s.trans t).submitted)
    (count : s'.ctx.tranCount = s.ctx.tranCount) : Serves s s' where
  requests := requests
  submitted t ht := submitted t ▸ ht
  done t ht := .inl ((submitted t).trans ht)
  count := Int.le_of_eq count

/-- The requests that are left when all that is left is not done. -/
theorem left_iff (h : Serves s s')
    (left : ∀ t, (s'.trans t).submitted = true → (s'.trans t).overlapped.result = none) :
    (s'.trans t).submitted = true ↔
      (s.trans t).submitted = true ∧ (s.trans t).overlapped.result = none := by
  constructor
  · intro ht
    exact ⟨h.submitted t ht, h.requests t ▸ left t ht⟩
  · rintro ⟨ht, pending⟩
    exact (h.done t ht).resolve_right (not_not.2 pending)

end Serves

/-- A step of the reaper itself. -/
structure Works (th : Tid) (s s' : Sys) : Prop where
  reaping : s'.Reaping th
  serves : Serves s s'
  pays : s'.workLeft th < s.workLeft th

/-- A step that only moves the thread. -/
theorem Works.move {ctx : Context} {trans : TranId → UsbybTransfer} (inside : p.inside = true)
    (requests : ∀ t, (trans t).overlapped = (s.trans t).overlapped)
    (submitted : ∀ t, (trans t).submitted = (s.trans t).submitted)
    (count : ctx.tranCount = s.ctx.tranCount)
    (pays : p.phase ctx.hTransferListUpdated s.ctx.tranCount.toNat <
      (s.pc th).phase s.ctx.hTransferListUpdated s.ctx.tranCount.toNat) :
    Works th s { s.setPc th p with ctx, trans } where
  reaping := Sys.reaping_of (p := p) (by simp [Sys.setPc]) inside
  serves := .frame requests submitted count
  pays := by
    have here : (s.setPc th p).pc th = p := by simp
    simp only [Sys.workLeft, here, count]
    omega

/-- A transfer that is reaped leaves the queue, and what it was worth pays for the next round. -/
theorem Running.unlink (h : Running s) (pc : s.pc th = .finished hTarget t) :
    Works th s ((s.dequeued t).setPc th (.unlinked hTarget t)) := by
  obtain ⟨q, hq⟩ := h.consistent.queue
  have submitted : (s.trans t).submitted = true := h.consistent.listed th t (by rw [pc]; rfl)
  have done := h.reaped th hTarget t pc
  have nonempty := List.length_pos_of_mem ((hq.mem t).2 submitted)
  refine ⟨Sys.reaping_of (p := .unlinked hTarget t) (by simp) rfl, ⟨?_, ?_, ?_, ?_⟩, ?_⟩
  · exact fun _ => Sys.setTran_keeps _ _ _ _ (·.overlapped) rfl
  · intro v hv
    by_cases same : v = t
    · rwa [same]
    · simpa [Sys.dequeued, same] using hv
  · intro v hv
    by_cases same : v = t
    · exact .inr (same ▸ done)
    · exact .inl (by simpa [Sys.dequeued, same] using hv)
  · change s.ctx.tranCount - 1 ≤ s.ctx.tranCount
    omega
  · obtain ⟨L, hL⟩ : ∃ L : Nat, s.ctx.tranCount = L + 1 := by
      rw [hq.count]
      exact ⟨q.length - 1, by omega⟩
    have after : ((s.dequeued t).setPc th (.unlinked hTarget t)).ctx.tranCount = L := by
      change s.ctx.tranCount - 1 = L
      omega
    have before : s.ctx.tranCount.toNat = L + 1 := by omega
    simp only [Sys.workLeft, before, after, pc, Sys.setPc_pc, if_true, Pc.phase, budget,
      Int.toNat_natCast]
    omega

theorem Running.works (h : Running s) (own : e.reaper = some th) (succeeds : s.WaitSucceeds e)
    (hs : Reaper.step .source s e = some s') : Works th s s' := by
  have stepped := hs
  cases step_rule hs with
  | fill | refuse | reject | accept | complete | stop | reset | callWait | callRun | waitTarget
  | waitLock | waitFailed | leave | ret => cases own
  | armFailed pc result => exact absurd result arm_source_ne_error
  | @arm th ok hTarget ctx n pc result =>
    cases own
    obtain ⟨q, hq⟩ := h.consistent.queue
    obtain ⟨updated, -⟩ := arm_take hq (h.targets th hTarget (pc ▸ rfl)) result
    refine .move rfl (fun _ => rfl) (fun _ => rfl) (arm_frame result).2.1 ?_
    simp [pc, updated, Pc.phase]
  | @react th res hTarget n p pc returns result =>
    cases own
    obtain ⟨q₀, q₁, watched⟩ := h.watched th hTarget n pc
    have inside := succeeds th res hTarget n rfl pc
    refine .move (react_inside result) (fun _ => rfl) (fun _ => rfl) rfl ?_
    obtain ⟨rfl, -⟩ | ⟨rfl, updated⟩ | ⟨t, submitted, done, rfl⟩ :=
      watched.leads h.signals inside returns result
    · simp only [pc, Pc.phase]
      split_ifs <;> omega
    · have updated : s.ctx.hTransferListUpdated = true := updated
      simp [pc, updated, Pc.phase]
    · simp only [pc, Pc.phase]
      split_ifs <;> omega
  | @found th hTarget x i t pc =>
    cases own
    refine .move rfl (fun _ => rfl) (fun _ => rfl) rfl ?_
    simp only [pc, Pc.phase]
    omega
  | @next th hTarget x i v pc =>
    cases own
    obtain ⟨t, as, bs, ha⟩ := h.tracked.searching th hTarget x i _ pc
    have := List.length_pos_of_mem ha.mem
    refine .move rfl (fun _ => rfl) (fun _ => rfl) rfl ?_
    have count := ha.queue.count
    rw [List.length_append, ha.position] at count
    simp only [pc, Pc.phase]
    omega
  | @notFound th hTarget x i cur pc =>
    cases own
    obtain ⟨t, as, bs, ha⟩ := h.tracked.searching th hTarget x i _ pc
    obtain found | ⟨v, bs', -, next, -⟩ := ha.search (c := .source) pc
    · rw [stepped] at found
      have := congrArg (fun s => s.pc th) (Option.some.inj found)
      simp at this
    · rw [stepped] at next
      have := congrArg (fun s => s.pc th) (Option.some.inj next)
      simp at this
  | getResult pc =>
    cases own
    refine .move rfl (fun _ => Sys.setTran_keeps _ _ _ _ (·.overlapped) rfl)
      (fun _ => Sys.setTran_keeps _ _ _ _ (·.submitted) rfl) rfl ?_
    simp [pc, Pc.phase]
  | callback pc | noCallback pc | callbackReturn pc | resubmitted pc =>
    cases own
    refine .move rfl (fun _ => rfl) (fun _ => rfl) rfl ?_
    simp [pc, Pc.phase]
  | signal pc =>
    cases own
    refine .move rfl (fun _ => Sys.setTran_keeps _ _ _ _ (·.overlapped) rfl)
      (fun _ => Sys.setTran_keeps _ _ _ _ (·.submitted) rfl) rfl ?_
    simp [pc, Pc.phase]
  | unlink pc =>
    cases own
    exact h.unlink pc

/-- A thread in the reaping section has a step of its own unless it leaves or sleeps. -/
theorem Running.progress (h : Running s) (reaping : s.Reaping th)
    (room : s.ctx.tranCount + 2 ≤ maximumWaitObjects) :
    (∃ e s', e.reaper = some th ∧ s.WaitSucceeds e ∧ Reaper.step .source s e = some s') ∨
      (∃ hTarget r, s.pc th = .leaving hTarget r) ∨ s.Asleep th := by
  cases pc : s.pc th with
  | idle | calling | returned =>
    rw [Sys.Reaping, pc] at reaping
    cases reaping
  | leaving hTarget r => exact .inr (.inl ⟨hTarget, r, rfl⟩)
  | arming hTarget =>
    have grown : ¬s.GrowthFails true := by
      rintro ⟨-, ⟨⟩⟩
    obtain ⟨out, result⟩ := @arm_source_total s hTarget true h.consistent h.ready grown
    cases out with
    | error r => exact absurd result arm_source_ne_error
    | ok armed =>
      refine .inl ⟨.arm th true, ?_⟩
      simp only [Reaper.step, pc, result]
      exact ⟨_, rfl, by rintro _ _ _ _ ⟨⟩, rfl⟩
  | waiting hTarget n =>
    by_cases busy : s.Busy hTarget
    · obtain ⟨q₀, q₁, watched⟩ := h.watched th hTarget n pc
      have within : n ≤ maximumWaitObjects := by
        have count := watched.queue.count
        have length := watched.length
        rw [List.length_append] at count
        omega
      have armed := h.ready.armed th hTarget n pc
      obtain ⟨res, s', inside, hs⟩ := (watched.enabled_iff h.signals armed pc).2 ⟨within, busy⟩
      refine .inl ⟨.waitMultiple th res, s', rfl, ?_, hs⟩
      rintro _ _ hTarget' n' ⟨⟩ pc'
      cases pc.symm.trans pc'
      exact inside
    · exact .inr (.inr ⟨hTarget, n, pc, busy⟩)
  | searching hTarget x i cur =>
    obtain ⟨t, as, bs, ha⟩ := h.tracked.searching th hTarget x i cur pc
    obtain found | ⟨v, bs', -, next, -⟩ := ha.search (c := .source) pc
    · exact .inl ⟨.search th, _, rfl, by rintro _ _ _ _ ⟨⟩, found⟩
    · exact .inl ⟨.search th, _, rfl, by rintro _ _ _ _ ⟨⟩, next⟩
  | reaping hTarget t =>
    obtain ⟨r, done⟩ := Option.ne_none_iff_exists'.1 (h.tracked.reaping th hTarget t pc)
    refine .inl ⟨.getResult th, ?_⟩
    simp only [Reaper.step, pc, done]
    exact ⟨_, rfl, by rintro _ _ _ _ ⟨⟩, rfl⟩
  | finished hTarget t =>
    refine .inl ⟨.unlink th, ?_⟩
    simp only [Reaper.step, pc]
    exact ⟨_, rfl, by rintro _ _ _ _ ⟨⟩, rfl⟩
  | unlinked hTarget t =>
    refine .inl ⟨.callback th, ?_⟩
    simp only [Reaper.step, pc]
    split_ifs <;> exact ⟨_, rfl, by rintro _ _ _ _ ⟨⟩, rfl⟩
  | inCallback hTarget t =>
    refine .inl ⟨.callbackReturn th, ?_⟩
    simp only [Reaper.step, pc]
    exact ⟨_, rfl, by rintro _ _ _ _ ⟨⟩, rfl⟩
  | called hTarget t =>
    refine .inl ⟨.signal th, ?_⟩
    simp only [Reaper.step, pc]
    split_ifs <;> exact ⟨_, rfl, by rintro _ _ _ _ ⟨⟩, rfl⟩

/-- A run of the reaper's own steps. -/
theorem Running.drains {fs : List Event} (h : Running s) (reaping : s.Reaping th)
    (own : ∀ e ∈ fs, e.reaper = some th)
    (hw : (Reaper.reaper .source).Steps (fun s e _ => s.WaitSucceeds e) s fs)
    (hy : (Reaper.reaper .source).exec s fs = some u) :
    Running u ∧ u.Reaping th ∧ Serves s u ∧ fs.length + u.workLeft th ≤ s.workLeft th := by
  induction fs generalizing s with
  | nil =>
    cases hy
    exact ⟨h, reaping, .refl _, by simp⟩
  | cons e fs ih =>
    obtain ⟨v, hv, hy⟩ := Machine.exec_cons.1 hy
    obtain ⟨succeeds, hw⟩ := hw v hv
    have works := h.works (own e (List.mem_cons_self ..)) succeeds hv
    obtain ⟨running, inside, serves, pays⟩ := ih (h.step succeeds hv) works.reaping
      (fun f hf => own f (List.mem_cons_of_mem e hf)) hw hy
    refine ⟨running, inside, works.serves.trans serves, ?_⟩
    have := works.pays
    rw [List.length_cons]
    omega

/-- Whatever state a run has led to, with no more queued than a wait can take, a thread in the
reaping section that is left to itself takes at most `workLeft` more steps of its own, reaps
nothing that is not done and, where it has no step left, has left the section, or sleeps and
exactly the requests that were not done are still queued. -/
theorem reaper_drains {es fs : List Event} (hx : (reaper .source).exec {} es = some s)
    (hw : (reaper .source).Steps (fun s e _ => s.WaitSucceeds e) {} es)
    (reaping : s.Reaping th) (room : s.ctx.tranCount + 2 ≤ maximumWaitObjects)
    (own : ∀ e ∈ fs, e.reaper = some th)
    (hv : (reaper .source).Steps (fun s e _ => s.WaitSucceeds e) s fs)
    (hy : (reaper .source).exec s fs = some u) :
    fs.length + u.workLeft th ≤ s.workLeft th ∧
      (∀ t, (s.trans t).submitted = true → (u.trans t).submitted = false →
        (s.trans t).overlapped.result ≠ none) ∧
      ((∃ e u', e.reaper = some th ∧ u.WaitSucceeds e ∧ step .source u e = some u') ∨
        (∃ hTarget r, u.pc th = .leaving hTarget r) ∨
        u.Asleep th ∧ ∀ t, (u.trans t).submitted = true ↔
          (s.trans t).submitted = true ∧ (s.trans t).overlapped.result = none) := by
  obtain ⟨running, inside, serves, pays⟩ := (Running.of_exec hx hw).drains reaping own hv hy
  refine ⟨pays, fun t ht gone => ?_, ?_⟩
  · exact (serves.done t ht).resolve_left (by simp [gone])
  · have := serves.count
    obtain works | leaves | asleep := running.progress inside (by omega)
    · exact .inl works
    · exact .inr (.inl leaves)
    · refine .inr (.inr ⟨asleep, fun t => serves.left_iff fun t ht => ?_⟩)
      obtain ⟨hTarget, n, -, idle⟩ := asleep
      by_contra done
      exact idle (.inr (.inr ⟨t, ht, done⟩))

/-- A request that is done when the loop starts is reaped by it, then the loop sleeps. -/
theorem reaper_drains_one : ∃ s u,
    (reaper .source).exec {} [.fill 7 { type := .bulk }, .submit 7 none 5, .callRun 0, .wait 0 1] =
      some s ∧
    (reaper .source).exec s [.arm 0 true, .waitMultiple 0 2, .search 0, .getResult 0, .unlink 0,
      .callback 0, .signal 0, .arm 0 true] = some u ∧
    8 + u.workLeft 0 ≤ s.workLeft 0 := by
  refine ⟨_, _, rfl, rfl, ?_⟩
  have before : (reaper .source).exec {} [.fill 7 { type := .bulk }, .submit 7 none 5, .callRun 0,
    .wait 0 1] = some _ := rfl
  have drains {u : Sys} := @reaper_drains _ u 0 _ [.arm 0 true, .waitMultiple 0 2, .search 0,
    .getResult 0, .unlink 0, .callback 0, .signal 0, .arm 0 true] before
  refine (drains ?_ (Sys.reaping_of rfl rfl) (by decide) ?_ ?_ rfl).1
  · exact .cons rfl nofun (.cons rfl nofun (.cons rfl nofun (.cons rfl nofun trivial)))
  · decide
  · refine .cons rfl nofun (.cons rfl ?_ (.cons rfl nofun (.cons rfl nofun (.cons rfl nofun
      (.cons rfl nofun (.cons rfl nofun (.cons rfl nofun trivial)))))))
    rintro _ _ _ _ ⟨⟩ ⟨⟩
    decide

end Libusby.Win32.Reaper
