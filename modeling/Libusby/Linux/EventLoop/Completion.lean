import Libusby.Linux.EventLoop.Ownership

/-!
# When a wait may return

`usbyb_wait_for_transfer` trusts the `active` flag of the transfer, but
`usbyb_submit_transfer` sets the flag only if somebody owns the loop at that
time. In the runs whose submissions all find an owner, whose calls respect the
ownership of the loop and whose client submits no transfer that is still
submitted, the flag covers the whole life of the URB (`Tracked`), and then a wait
returns only for a transfer that nobody works on (`completion`).
-/

namespace Libusby.Linux.EventLoop

open Foundations

/-- No URB of `t` is in the kernel and its callback is not running. -/
structure Quiet (s : Sys) (t : TranId) : Prop where
  kernel : ¬ s.Outstanding t
  callback : ¬ s.CallbackRunning t

/-- A wait that returns success in this step, and a `libusby_bulk_transfer` that
frees its transfer in this step, leave a quiet transfer. -/
structure WaitsOut (s : Sys) (e : Event) (t : Sys) : Prop where
  returns : ∀ th w, s.pc th ≠ .waitReturned w .success → t.pc th = .waitReturned w .success →
    Quiet t w.tran
  frees : ∀ th w r, e = .leave th → s.pc th = .waitReturned w r → w.bulk = true →
    Quiet s w.tran

/-- The submission that the event makes. -/
def Sys.submission (s : Sys) : Event → Option (TranId × SubmitChoice)
  | .submit t k => some (t, k)
  | .bulkSubmit th k =>
    match s.pc th with
    | .bulkSubmit t => some (t, k)
    | _ => none
  | _ => none

/-- The conditions under which the flag is reliable: every URB that the kernel
accepts is submitted while somebody owns the loop, no call passes a set flag,
and the client submits no transfer whose URB is pending or just reaped. -/
structure Orderly (s : Sys) (e : Event) : Prop where
  locked : ∀ t k, s.submission e = some (t, k) → (s.trans t).pub.type ≠ .isochronous →
    k.rejected = none → s.ctx.loopLocked = true
  owned : ¬ PassesLocked s e
  once : ∀ t k, e = .submit t k → ¬ s.Outstanding t ∧ ¬ s.JustReaped t

/-- The waiter whose transfer the call is about. -/
def Pc.waiter : Pc → Option Waiter
  | .waitCall w | .parkedTran w _ _ | .waitReturned w _ => some w
  | .parkedCtx watch _ => watch
  | .loopHead f _ | .polling f _ | .relock f _ => f.watchTran
  | .reaping d | .reaped d _ _ | .inCallback d _ _ => d.frame.watchTran
  | _ => none

/-- A transfer of `libusby_bulk_transfer` belongs to one call, before it is submitted and
while the call waits for it. -/
structure BulkOwned (s : Sys) : Prop where
  unsubmitted : ∀ th t, s.pc th = .bulkSubmit t → (s.trans t).owner = .bulk th
  waiter : ∀ th w, (s.pc th).waiter = some w → w.bulk = true → (s.trans w.tran).owner = .bulk th

/-- The invariant of the orderly runs: `active` is 1 from the submission to the
reaping and not 0 before the callback has returned, and a transfer of
`libusby_bulk_transfer` belongs to one call until it is freed. -/
structure Tracked (s : Sys) : Prop where
  exclusive : Exclusive s
  fresh : ∀ u ∈ s.urbs, u.id < s.nextUrb
  inj : ∀ u ∈ s.urbs, ∀ v ∈ s.urbs, u.id = v.id → u = v
  single : ∀ u ∈ s.urbs, ∀ v ∈ s.urbs, u.outstanding = true → v.outstanding = true →
    u.tran = v.tran → u = v
  kernel : ∀ u ∈ s.urbs, u.outstanding = true → (s.trans u.tran).active = 1
  reaped : ∀ th d k t, s.pc th = .reaped d k t →
    (s.trans t).active = 1 ∧ ∀ u ∈ s.urbs, u.outstanding = true → u.tran ≠ t
  callback : ∀ th d k t, s.pc th = .inCallback d k t → (s.trans t).active ≠ 0
  free : ∀ t, (s.trans t).owner = .free → (s.trans t).active = 0
  unsubmitted : ∀ th t, s.pc th = .bulkSubmit t →
    (s.trans t).owner = .bulk th ∧ (s.trans t).active = 0
  waiter : ∀ th w, (s.pc th).waiter = some w → w.bulk = true → (s.trans w.tran).owner = .bulk th
  returned : ∀ th w r, s.pc th = .waitReturned w r → w.bulk = true → (s.trans w.tran).active = 0

theorem Tracked.quiet {s : Sys} (hs : Tracked s) {t : TranId} (ha : (s.trans t).active = 0) :
    Quiet s t where
  kernel := by
    rintro ⟨u, hu, rfl, ho⟩
    simp [hs.kernel u hu ho] at ha
  callback := by
    rintro ⟨th, d, k, hpc⟩
    exact hs.callback th d k t hpc ha

theorem tracked_initial : Tracked .initial := by
  constructor <;> simp [Sys.initial, Pc.waiter]
  exact exclusive_initial

@[grind =] theorem waiter_wakeCtx (p : Pc) : p.wakeCtx.waiter = p.waiter := by cases p <;> rfl

@[grind =] theorem waiter_wakeTran (p : Pc) (t : TranId) : (p.wakeTran t).waiter = p.waiter := by
  cases p <;> rfl

@[grind =] theorem waiter_outcome (w : Waiter) (r : Error) (n : Nat) :
    (w.outcome r n).waiter = some w := by
  grind -linarith [Pc.waiter]

@[grind =] theorem waiter_exitPc (s : Sys) (r : Error) (watch : Option Waiter) :
    (exitPc s r watch).waiter = watch := by
  grind -linarith [Pc.waiter]

section
variable {s t : Sys} {e : Event}

theorem bulkOwned_step (hs : BulkOwned s) (h : step s e = some t) : BulkOwned t := by
  have waiter := hs.waiter
  have unsubmitted := hs.unsubmitted
  constructor
  · cases step_trans h <;> grind -linarith [Sys.Arrives, Pc.waiter]
  · cases step_trans h <;> grind -linarith [Sys.Arrives, Pc.waiter]

theorem Tracked.bulkOwned (hs : Tracked s) : BulkOwned s :=
  ⟨fun th u hpc => (hs.unsubmitted th u hpc).1, hs.waiter⟩

theorem unsubmitted_step (hs : Tracked s) (h : step s e = some t) (th : Tid) (u : TranId)
    (hpc : t.pc th = .bulkSubmit u) :
    (t.trans u).owner = .bulk th ∧ (t.trans u).active = 0 := by
  have unsubmitted := hs.unsubmitted
  have free := hs.free
  have reaped := hs.reaped
  have waiter := hs.waiter
  cases step_trans h <;> grind -linarith [Sys.Arrives, Pc.waiter]

theorem returned_step (hs : Tracked s) (h : step s e = some t) (th : Tid) (w : Waiter) (r : Error)
    (hpc : t.pc th = .waitReturned w r) (hb : w.bulk = true) : (t.trans w.tran).active = 0 := by
  have returned := hs.returned
  have unsubmitted := hs.unsubmitted
  have reaped := hs.reaped
  have waiter := hs.waiter
  cases step_trans h <;> grind -linarith [Sys.Arrives, Pc.waiter]

theorem free_step (hs : Tracked s) (h : step s e = some t) (u : TranId)
    (ho : (t.trans u).owner = .free) : (t.trans u).active = 0 := by
  have returned := hs.returned
  have unsubmitted := hs.unsubmitted
  have free := hs.free
  have reaped := hs.reaped
  cases step_trans h <;> grind -linarith [Sys.Arrives, Pc.waiter]

theorem callback_step (hs : Tracked s) (h : step s e = some t) (th : Tid) (d : Round) (k : Nat)
    (u : TranId) (hpc : t.pc th = .inCallback d k u) : (t.trans u).active ≠ 0 := by
  have callback := hs.callback
  have free := hs.free
  have unique := hs.exclusive.unique
  unfold Sys.Inside at unique
  cases step_trans h <;> grind -linarith [Sys.Arrives, Pc.inside]

end

/-- The effect of a step on the URBs of the kernel and the loop. -/
inductive UrbEffect (s : Sys) (e : Event) (t : Sys) : Prop
  | keep : t.urbs = s.urbs → t.nextUrb = s.nextUrb → UrbEffect s e t
  | queue {u k} : s.submission e = some (u, k) → k.rejected = none →
      (s.trans u).pub.type ≠ .isochronous → t.urbs = s.urbs ++ [s.newUrb u] →
      t.nextUrb = s.nextUrb + 1 → UrbEffect s e t
  | stage {u g} : u ∈ s.urbs → u.outstanding = true → t.urbs = setStage u.id g s.urbs →
      t.nextUrb = s.nextUrb → UrbEffect s e t
  | drop {k} : t.urbs = s.urbs.filter (·.id ≠ k) → t.nextUrb = s.nextUrb → UrbEffect s e t

theorem Submission.urbEffect {s s' : Sys} {u : TranId} {k : SubmitChoice} {r : Error} {e : Event}
    (sub : Submission s u k r s') (he : s.submission e = some (u, k)) : UrbEffect s e s' := by
  obtain ⟨hu, hn⟩ := sub.urbs_eq
  by_cases hr : r = .success
  · obtain ⟨htype, hk⟩ := sub.of_success hr
    exact .queue he hk htype (by simpa [hr] using hu) (by simpa [hr] using hn)
  · exact .keep (by simpa [hr] using hu) (by simpa [hr] using hn)

theorem submission_bulk {s : Sys} {th : Tid} {u : TranId} {k : SubmitChoice}
    (hpc : s.pc th = .bulkSubmit u) : s.submission (.bulkSubmit th k) = some (u, k) := by
  simp [Sys.submission, hpc]

theorem urbEffect {s t : Sys} {e : Event} (h : step s e = some t) : UrbEffect s e t := by
  cases step_trans h with
  | submit _ sub => exact sub.urbEffect rfl
  | bulkAccepted hpc sub | bulkRefused hpc sub =>
    cases sub.urbEffect (submission_bulk hpc) with
    | keep hu hn => exact .keep hu hn
    | queue he hk htype hu hn => exact .queue he hk htype hu hn
    | stage hu ho hus hn => exact .stage hu ho hus hn
    | drop hu hn => exact .drop hu hn
  | reap _ hu _ hg => exact .stage hu (by simp [Urb.outstanding, hg]) rfl rfl
  | complete hu hg => exact .stage hu (by simp [Urb.outstanding, hg]) rfl rfl
  | noCallback _ _ fin | callbackReturn _ _ fin =>
    exact .drop (finishUrb_urbs fin).1 (finishUrb_urbs fin).2
  | leaveLoop => exact .keep (leaveLoop_urbs ..) (leaveLoop_nextUrb ..)
  | _ => exact .keep rfl rfl

theorem setStage_mem {k : Nat} {g : Stage} {us : List Urb} {u : Urb} (h : u ∈ us) :
    (u.id = k → { u with stage := g } ∈ setStage k g us) ∧ (u.id ≠ k → u ∈ setStage k g us) :=
  ⟨fun hk => List.mem_map.2 ⟨u, h, if_pos hk⟩, fun hk => List.mem_map.2 ⟨u, h, if_neg hk⟩⟩

theorem mem_setStage {k : Nat} {g : Stage} {us : List Urb} {v : Urb} :
    v ∈ setStage k g us ↔ ∃ u ∈ us, v = if u.id = k then { u with stage := g } else u := by
  simp [setStage, eq_comm]

section
variable {s t : Sys} {e : Event}

/-- The two parts of the queue's own bookkeeping. -/
theorem queue_step (fresh : ∀ u ∈ s.urbs, u.id < s.nextUrb)
    (inj : ∀ u ∈ s.urbs, ∀ v ∈ s.urbs, u.id = v.id → u = v) (h : step s e = some t) :
    (∀ u ∈ t.urbs, u.id < t.nextUrb) ∧ ∀ u ∈ t.urbs, ∀ v ∈ t.urbs, u.id = v.id → u = v := by
  cases urbEffect h <;> grind -linarith [mem_setStage, Sys.newUrb]

/-- A transfer that the step submits has no URB and is not in the loop's hands. -/
theorem Orderly.submitted (ho : Orderly s e) (hs : Tracked s) {u : TranId} {k : SubmitChoice}
    (he : s.submission e = some (u, k)) :
    (∀ v ∈ s.urbs, v.outstanding = true → v.tran ≠ u) ∧ ∀ th d i, s.pc th ≠ .reaped d i u := by
  unfold Sys.submission at he
  split at he
  case h_1 =>
    cases he
    obtain ⟨out, just⟩ := ho.once _ _ rfl
    exact ⟨fun v hv hvo hvu => out ⟨v, hv, hvu, hvo⟩, fun th d i hpc => just ⟨th, d, i, hpc⟩⟩
  case h_2 =>
    split at he
    case h_1 hpc =>
      cases he
      have inactive := (hs.unsubmitted _ _ hpc).2
      refine ⟨fun v hv hvo hvu => ?_, fun th d i hr => ?_⟩
      · have := hs.kernel v hv hvo
        grind -linarith
      · have := (hs.reaped th d i _ hr).1
        grind -linarith
    case h_2 => cases he
  case h_3 => cases he

theorem single_step (hs : Tracked s) (ho : Orderly s e) (h : step s e = some t) :
    ∀ u ∈ t.urbs, ∀ v ∈ t.urbs, u.outstanding = true → v.outstanding = true →
      u.tran = v.tran → u = v := by
  have single := hs.single
  have inj := hs.inj
  cases urbEffect h with
  | keep | drop => grind -linarith
  | queue he =>
    have none := (ho.submitted hs he).1
    grind -linarith [Sys.newUrb]
  | stage hu hout hus =>
    rw [hus]
    intro v hv w hw vo wo hvw
    obtain ⟨v, hv, rfl⟩ := mem_setStage.1 hv
    obtain ⟨w, hw, rfl⟩ := mem_setStage.1 hw
    grind -linarith

theorem Orderly.accepted (ho : Orderly s e) {s' : Sys} {u : TranId} {k : SubmitChoice} {r : Error}
    (he : s.submission e = some (u, k)) (sub : Submission s u k r s') (hr : r = .success) :
    s.ctx.loopLocked = true :=
  ho.locked u k he (sub.of_success hr).1 (sub.of_success hr).2

theorem kernel_step (hs : Tracked s) (ho : Orderly s e) (h : step s e = some t) :
    ∀ u ∈ t.urbs, u.outstanding = true → (t.trans u.tran).active = 1 := by
  have kernel := hs.kernel
  have free := hs.free
  have reaped := hs.reaped
  have inj := hs.inj
  cases step_trans h with
  | submit _ sub =>
    have := ho.accepted rfl sub
    grind -linarith [Sys.newUrb]
  | bulkAccepted hpc sub | bulkRefused hpc sub =>
    have := ho.accepted (submission_bulk hpc) sub
    grind -linarith [Sys.newUrb]
  | reap | complete => grind -linarith [mem_setStage, Urb.outstanding]
  | _ => grind -linarith

theorem reaped_step (hs : Tracked s) (ho : Orderly s e) (h : step s e = some t) (th : Tid)
    (d : Round) (k : Nat) (u : TranId) (hpc : t.pc th = .reaped d k u) :
    (t.trans u).active = 1 ∧ ∀ v ∈ t.urbs, v.outstanding = true → v.tran ≠ u := by
  have kernel := hs.kernel
  have reaped := hs.reaped
  have single := hs.single
  have free := hs.free
  have inj := hs.inj
  have unique := hs.exclusive.unique
  unfold Sys.Inside at unique
  cases step_trans h with
  | submit _ sub =>
    have := ho.submitted hs (e := .submit _ _) rfl
    grind -linarith [Sys.newUrb]
  | bulkAccepted hb sub | bulkRefused hb sub =>
    have := ho.submitted hs (submission_bulk hb)
    grind -linarith [Sys.newUrb]
  | reap | complete => grind -linarith [mem_setStage, Urb.outstanding]
  | _ => grind -linarith [Pc.inside]

theorem tracked_step (hs : Tracked s) (ho : Orderly s e) (h : step s e = some t) : Tracked t where
  exclusive := exclusive_step hs.exclusive ho.owned h
  fresh := (queue_step hs.fresh hs.inj h).1
  inj := (queue_step hs.fresh hs.inj h).2
  single := single_step hs ho h
  kernel := kernel_step hs ho h
  reaped := reaped_step hs ho h
  callback := callback_step hs h
  free := free_step hs h
  unsubmitted := unsubmitted_step hs h
  waiter := (bulkOwned_step hs.bulkOwned h).waiter
  returned := returned_step hs h

/-- A call comes back from its wait only when the transfer is not active. -/
theorem returns_inactive (h : step s e = some t) {th : Tid} {w : Waiter} {r : Error}
    (before : s.pc th ≠ .waitReturned w r) (after : t.pc th = .waitReturned w r) :
    (t.trans w.tran).active = 0 := by
  cases step_trans h <;> grind -linarith [Sys.Arrives]

end

/-- In an orderly run a wait that returns success leaves a transfer without a
URB in the kernel and without a running callback, and `libusby_bulk_transfer`
frees only such a transfer. -/
theorem completion (es : List Event)
    (orderly : eventLoop.Steps (fun s e _ => Orderly s e) .initial es) :
    eventLoop.Steps WaitsOut .initial es := by
  refine (Machine.Steps.invariant (I := Tracked) ?_ orderly tracked_initial).2
  intro s e t hs ho h
  have ht := tracked_step hs ho h
  refine ⟨ht, ⟨fun th w before after => ?_, fun th w r _ hpc hb => ?_⟩⟩
  · exact ht.quiet (returns_inactive h before after)
  · exact hs.quiet (hs.returned th w r hpc hb)

theorem orderly_other {s : Sys} {e : Event} (hsub : s.submission e = none)
    (henter : ∀ th, e ≠ .enter th) : Orderly s e where
  locked t k he := by simp [hsub] at he
  owned := by
    rintro ⟨th, watch, he, -⟩
    exact henter th he
  once t k he := by
    subst he
    cases hsub

theorem orderly_enter {s : Sys} {th : Tid} (h : s.ctx.loopEnabled = true ∨ s.ctx.loopLocked = false) :
    Orderly s (.enter th) where
  locked t k he := by cases he
  owned := by
    rintro ⟨th, watch, -, -, he, hl⟩
    simp [he, hl] at h
  once t k he := by cases he

/-- Call 0 runs the loop while call 1 is a `libusby_bulk_transfer`. -/
def served : List Event :=
  [.openHandle 0 5, .callRun 0, .enter 0, .head 0 true, .callBulk 1 0 0 0x81 8,
    .bulkSubmit 1 ⟨true, none⟩, .enter 1, .pollReturn 0 (some true), .drain 0 true, .relock 0,
    .head 0 true, .complete 0 0 8, .pollReturn 0 (some false), .reap 0 (some 0), .lockReaped 0,
    .recheck 1]

/-- The loop is enabled whenever somebody enters, and owned when the URB is submitted. -/
theorem orderly_served : eventLoop.Steps (fun s e _ => Orderly s e) .initial served := by
  have other {s e es t} (ht : step s e = some t) (hsub : s.submission e = none)
      (henter : ∀ th, e ≠ .enter th) (h : eventLoop.Steps (fun s e _ => Orderly s e) t es) :
      eventLoop.Steps (fun s e _ => Orderly s e) s (e :: es) := .cons ht (orderly_other hsub henter) h
  refine other rfl rfl (by simp) (other rfl rfl (by simp) ?_)
  refine .cons rfl (orderly_enter (.inl rfl)) ?_
  refine other rfl rfl (by simp) (other rfl rfl (by simp) ?_)
  refine .cons rfl ⟨fun _ _ _ _ _ => rfl, by rintro ⟨_, _, ⟨⟩, -⟩, by rintro _ _ ⟨⟩⟩ ?_
  refine .cons rfl (orderly_enter (.inl rfl)) ?_
  refine other rfl rfl (by simp) (other rfl rfl (by simp) (other rfl rfl (by simp) ?_))
  refine other rfl rfl (by simp) (other rfl rfl (by simp) (other rfl rfl (by simp) ?_))
  exact other rfl rfl (by simp) (other rfl rfl (by simp) (other rfl rfl (by simp) trivial))

theorem completion_served :
    (∃ s, eventLoop.exec .initial served = some s ∧ s.pc 1 = .waitReturned ⟨0, true⟩ .success) ∧
      eventLoop.Steps WaitsOut .initial served :=
  ⟨⟨_, rfl, rfl⟩, completion served orderly_served⟩

/-- `libusby_bulk_transfer` with nobody in the loop; the next step of call 0 is
the test at the head of the loop. -/
def unserved : List Event :=
  [.openHandle 0 5, .callBulk 0 0 0 0x81 8, .bulkSubmit 0 ⟨true, none⟩, .enter 0]

theorem unserved_returns : ∃ s t, eventLoop.exec .initial unserved = some s ∧
    step s (.head 0 true) = some t ∧ s.pc 0 = .loopHead ⟨some ⟨0, true⟩, 0⟩ .success ∧
    t.pc 0 = .waitReturned ⟨0, true⟩ .success ∧ t.Outstanding 0 :=
  ⟨_, _, rfl, rfl, rfl, rfl, _, .head _, rfl, rfl⟩

/-- A wait can return success while the URB of its transfer is still in the
kernel. -/
theorem completion_fails : ¬ ∀ es, eventLoop.Steps WaitsOut .initial es := by
  intro h
  obtain ⟨s, t, hs, ht, before, after, out⟩ := unserved_returns
  have last := (Machine.Steps.of_snoc (h (unserved ++ [Event.head 0 true])) hs).2 t ht
  exact (last.returns 0 ⟨0, true⟩ (by simp [before]) after).kernel out

end Libusby.Linux.EventLoop
