import Libusby.Linux.EventLoop.Step

/-!
# What a step of the event loop can do

`Trans s e t` lists the branches of `step`, one constructor each, with the guard
of the branch and the state after it. `step_trans` is the only proof that looks
inside `step`; the invariants are proved by cases on `Trans`.
-/

namespace Libusby.Linux.EventLoop

open WatchTable

namespace Sys

/-- The submission of `t` reaches the table, with `table` and `i` the result of
the search and the growth. -/
structure Watches (s : Sys) (t : TranId) (k : SubmitChoice) (table : WatchTable) (i : Nat) :
    Prop where
  type_ne : (s.trans t).pub.type ≠ .isochronous
  mutex : s.mutex = none
  watch : s.ctx.watchedFds.watch (s.tranFd t) k.reallocOk = some (table, i)

/-- The state after an accepted submission of `t` that left `table`. -/
def accept (s : Sys) (t : TranId) (table : WatchTable) : Sys :=
  { s with
    ctx := { s.ctx with
      watchedFds := table
      pipe := if s.ctx.loopLocked then s.ctx.pipe + 1 else s.ctx.pipe }
    trans := Function.update s.trans t
      { s.trans t with active := if s.ctx.loopLocked then 1 else (s.trans t).active }
    urbs := s.urbs ++ [s.newUrb t]
    nextUrb := s.nextUrb + 1 }

/-- The state after a rejected submission that left `table`. -/
def reject (s : Sys) (table : WatchTable) : Sys :=
  { s with ctx := { s.ctx with watchedFds := table } }

end Sys

/-- Where line 224 leads. -/
def Waiter.outcome (w : Waiter) (r : Error) (active : Nat) : Pc :=
  if active ≠ 0 then .parkedTran w r false else .waitReturned w r

@[grind =] theorem waitActive_pc (s : Sys) (th x : Tid) (w : Waiter) (r : Error) :
    (s.waitActive th w r).pc x =
      if x = th then w.outcome r (s.trans w.tran).active else s.pc x := by
  simp only [Sys.waitActive, Sys.setPc_pc, Waiter.outcome]

theorem Waiter.outcome_cases (w : Waiter) (r : Error) (n : Nat) :
    n ≠ 0 ∧ w.outcome r n = .parkedTran w r false ∨ n = 0 ∧ w.outcome r n = .waitReturned w r := by
  unfold Waiter.outcome
  split <;> simp_all

grind_pattern Waiter.outcome_cases => w.outcome r n

@[simp] theorem Waiter.inside_outcome (w : Waiter) (r : Error) (n : Nat) :
    (w.outcome r n).inside = false := by
  unfold Waiter.outcome
  split <;> rfl

/-- Where line 202 leads. -/
def exitPc (s : Sys) (r : Error) : Option Waiter → Pc
  | none => .runReturned r
  | some w => w.outcome r (s.trans w.tran).active

@[simp] theorem inside_exitPc (s : Sys) (watch : Option Waiter) (r : Error) :
    (exitPc s r watch).inside = false := by
  cases watch
  · rfl
  · exact Waiter.inside_outcome ..

theorem exitPc_cases (s : Sys) (r : Error) (watch : Option Waiter) :
    watch = none ∧ exitPc s r watch = .runReturned r ∨
      ∃ w, watch = some w ∧ exitPc s r watch = w.outcome r (s.trans w.tran).active := by
  cases watch <;> simp [exitPc]

grind_pattern exitPc_cases => exitPc s r watch

@[grind =] theorem leaveLoop_pc (s : Sys) (th x : Tid) (watch : Option Waiter) (r : Error) :
    (s.leaveLoop th watch r).pc x = if x = th then exitPc s r watch else s.pc x := by
  cases watch <;> simp only [Sys.leaveLoop, waitActive_pc, Sys.setPc_pc, exitPc]

section
variable (s : Sys) (th : Tid) (t : TranId) (w : Waiter) (watch : Option Waiter) (r : Error)

@[simp, grind =] theorem waitActive_mutex : (s.waitActive th w r).mutex = none := rfl
@[simp, grind =] theorem waitActive_ctx : (s.waitActive th w r).ctx = s.ctx := rfl
@[simp, grind =] theorem waitActive_trans : (s.waitActive th w r).trans t = s.trans t := rfl
@[simp, grind =] theorem waitActive_urbs : (s.waitActive th w r).urbs = s.urbs := rfl
@[simp, grind =] theorem leaveLoop_mutex : (s.leaveLoop th watch r).mutex = none := by
  cases watch <;> rfl

@[simp, grind =] theorem leaveLoop_ctx :
    (s.leaveLoop th watch r).ctx = { s.ctx with loopLocked := false } := by
  cases watch <;> rfl

@[simp, grind =] theorem leaveLoop_trans : (s.leaveLoop th watch r).trans t = s.trans t := by
  cases watch <;> rfl

@[simp, grind =] theorem leaveLoop_urbs : (s.leaveLoop th watch r).urbs = s.urbs := by
  cases watch <;> rfl

@[simp] theorem leaveLoop_nextUrb : (s.leaveLoop th watch r).nextUrb = s.nextUrb := by
  cases watch <;> rfl

end

section
variable {s s' : Sys} {th : Tid} {d : Round} {k : Nat} {t : TranId}

theorem finishUrb_pc (h : s.finishUrb th d k t = some s') (x : Tid) :
    s'.pc x = if x = th then .reaping { d with i := d.i + 1 }
      else if (s.trans t).active = 2 then (s.pc x).wakeTran t else s.pc x := by
  obtain ⟨table, -, rfl⟩ := Option.map_eq_some_iff.1 h
  by_cases h2 : (s.trans t).active = 2 <;> simp [h2, Sys.setActive]

theorem finishUrb_trans (h : s.finishUrb th d k t = some s') (u : TranId) :
    s'.trans u = if u = t ∧ (s.trans t).active = 2 then { s.trans t with active := 0 }
      else s.trans u := by
  obtain ⟨table, -, rfl⟩ := Option.map_eq_some_iff.1 h
  by_cases h2 : (s.trans t).active = 2 <;> simp [h2, Sys.setActive]

grind_pattern finishUrb_pc => s.finishUrb th d k t, some s', s'.pc x
grind_pattern finishUrb_trans => s.finishUrb th d k t, some s', s'.trans u

@[grind →] theorem finishUrb_mutex (h : s.finishUrb th d k t = some s') : s'.mutex = s.mutex := by
  obtain ⟨table, -, rfl⟩ := Option.map_eq_some_iff.1 h
  simp only [Sys.setPc_mutex]
  split <;> rfl

@[grind →] theorem finishUrb_urbs (h : s.finishUrb th d k t = some s') :
    s'.urbs = s.urbs.filter (·.id ≠ k) ∧ s'.nextUrb = s.nextUrb := by
  obtain ⟨table, -, rfl⟩ := Option.map_eq_some_iff.1 h
  refine ⟨rfl, ?_⟩
  by_cases h2 : (s.trans t).active = 2 <;> simp [h2, Sys.setActive, Sys.setPc, Sys.setTran]

@[grind →] theorem finishUrb_ctx (h : s.finishUrb th d k t = some s') :
    usbfsUnwatchFd s.ctx.watchedFds d.i = some s'.ctx.watchedFds ∧
      s'.ctx.loopLocked = s.ctx.loopLocked ∧ s'.ctx.loopEnabled = s.ctx.loopEnabled := by
  obtain ⟨table, hu, rfl⟩ := Option.map_eq_some_iff.1 h
  exact ⟨hu, rfl, rfl⟩

@[grind →] theorem finishUrb_pipe (h : s.finishUrb th d k t = some s') :
    s'.ctx.pipe = s.ctx.pipe := by
  obtain ⟨table, -, rfl⟩ := Option.map_eq_some_iff.1 h
  rfl

end

/-- The three ways in which `usbyb_submit_transfer` returns. -/
inductive Submission (s : Sys) (t : TranId) (k : SubmitChoice) : Error → Sys → Prop
  | unsupported : (s.trans t).pub.type = .isochronous → Submission s t k .notSupported s
  | rejected {errno table i table'} : s.Watches t k table i → k.rejected = some errno →
      usbfsUnwatchFd table i = some table' →
      Submission s t k (usbfsError errno) (s.reject table')
  | accepted {table i} : s.Watches t k table i → k.rejected = none → s.tranFd t ∈ s.openFds →
      Submission s t k .success (s.accept t table)

theorem usbfsError_ne_success (e : Errno) : usbfsError e ≠ .success := by cases e <;> decide

theorem submit_submission {s s' : Sys} {t : TranId} {k : SubmitChoice} {r : Error}
    (h : s.submit t k = some (r, s')) : Submission s t k r s' := by
  unfold Sys.submit at h
  split at h
  case isFalse => cases h
  case isTrue may =>
    simp only [Option.map_eq_some_iff, Prod.exists, Prod.mk.injEq] at h
    obtain ⟨r, ctx, tr, hsub, rfl, rfl⟩ := h
    unfold usbybSubmitTransfer at hsub
    split at hsub
    case isTrue hiso =>
      cases hsub
      simpa [Sys.setTran] using Submission.unsupported hiso
    case isFalse hiso =>
      obtain ⟨hmutex, hopen⟩ := may.resolve_left hiso
      obtain ⟨⟨table, i⟩, hw, hsub⟩ := Option.bind_eq_some_iff.1 hsub
      have watches : s.Watches t k table i := ⟨hiso, hmutex, hw⟩
      cases hk : k.rejected with
      | some errno =>
        rw [hk] at hsub
        simp only [submitUrb, Option.map_eq_some_iff, Prod.mk.injEq] at hsub
        obtain ⟨table', hu, rfl, rfl, rfl⟩ := hsub
        simpa [Sys.setTran, Sys.reject, usbfsError_ne_success] using
          Submission.rejected watches hk hu
      | none =>
        rw [hk] at hsub
        have := Submission.accepted watches hk (hopen hk)
        simp only [submitUrb] at hsub
        split at hsub <;> cases hsub <;> simpa [Sys.accept, Sys.setTran, *] using this

section
variable {s s' : Sys} {t : TranId} {k : SubmitChoice} {r : Error}

theorem Submission.pc_eq (h : Submission s t k r s') (x : Tid) : s'.pc x = s.pc x := by
  cases h <;> rfl

@[grind →] theorem Submission.mutex_eq (h : Submission s t k r s') : s'.mutex = s.mutex := by
  cases h <;> rfl

@[grind →] theorem Submission.flags (h : Submission s t k r s') :
    s'.ctx.loopLocked = s.ctx.loopLocked ∧ s'.ctx.loopEnabled = s.ctx.loopEnabled := by
  cases h <;> exact ⟨rfl, rfl⟩

/-- A submission marks a transfer as active only if the flag is set. -/
theorem Submission.trans_eq (h : Submission s t k r s') (u : TranId) :
    s'.trans u = if u = t ∧ s.ctx.loopLocked = true ∧ r = .success then
      { s.trans t with active := 1 } else s.trans u := by
  cases h with
  | unsupported => simp
  | @rejected e => simp [Sys.reject, usbfsError_ne_success e]
  | accepted =>
    by_cases hu : u = t
    · subst hu
      by_cases hl : s.ctx.loopLocked = true <;> simp [Sys.accept, hl]
    · simp [Sys.accept, hu]

@[grind →] theorem Submission.urbs_eq (h : Submission s t k r s') :
    s'.urbs = (if r = .success then s.urbs ++ [s.newUrb t] else s.urbs) ∧
      s'.nextUrb = if r = .success then s.nextUrb + 1 else s.nextUrb := by
  cases h with
  | unsupported => simp
  | @rejected e => simp [Sys.reject, usbfsError_ne_success e]
  | accepted => simp [Sys.accept]

/-- The kernel accepts a URB only for a supported type. -/
theorem Submission.of_success (h : Submission s t k r s') (hr : r = .success) :
    (s.trans t).pub.type ≠ .isochronous ∧ k.rejected = none := by
  cases h with
  | unsupported => cases hr
  | @rejected e => exact absurd hr (usbfsError_ne_success e)
  | accepted w hk => exact ⟨w.type_ne, hk⟩

grind_pattern Submission.pc_eq => Submission s t k r s', s'.pc x
grind_pattern Submission.trans_eq => Submission s t k r s', s'.trans u

end

namespace Sys

/-- Call `th` is at line 109 with the lock, to run the loop for `watch`. -/
structure Arrives (s : Sys) (th : Tid) (watch : Option Waiter) : Prop where
  mutex : s.mutex = none
  pc : (s.pc th = .runCall ∧ watch = none) ∨
    (∃ w, s.pc th = .waitCall w ∧ watch = some w ∧ s.ctx.loopLocked = false) ∨
    ∃ b, s.pc th = .parkedCtx watch b

/-- Lines 111 and 112: the call owns the loop from here on. -/
def acquire (s : Sys) (th : Tid) (watch : Option Waiter) : Sys :=
  { s.setPc th (.loopHead ⟨watch, 0⟩ .success) with
    ctx := { s.ctx with loopLocked := true }, mutex := some th }

/-- The descriptors that the next `poll` waits for. -/
def snapshot (s : Sys) : List Int := s.ctx.watchedFds.live.map (·.fd)

/-- The test of line 113 or the allocation at line 120 ends the loop with `r'`. -/
def EndsLoop (s : Sys) (f : Frame) (r : Error) (reallocOk : Bool) (r' : Error) : Prop :=
  (¬ s.keepsPolling f r ∧ r' = r) ∨
    (s.keepsPolling f r ∧ f.pollfdsCap < s.snapshot.length + 1 ∧ reallocOk = false ∧ r' = .noMem)

variable (s : Sys) (th x : Tid) (watch : Option Waiter)

@[grind =] theorem acquire_pc :
    (s.acquire th watch).pc x = if x = th then .loopHead ⟨watch, 0⟩ .success else s.pc x := by
  simp only [acquire, setPc_pc]

@[simp, grind =] theorem acquire_mutex : (s.acquire th watch).mutex = some th := rfl
@[simp, grind =] theorem acquire_trans (t : TranId) :
    (s.acquire th watch).trans t = s.trans t := rfl
@[simp, grind =] theorem acquire_urbs : (s.acquire th watch).urbs = s.urbs := rfl
@[simp, grind =] theorem acquire_ctx :
    (s.acquire th watch).ctx = { s.ctx with loopLocked := true } := rfl

end Sys

inductive Trans (s : Sys) : Event → Sys → Prop
  | alloc {t} : (s.trans t).owner = .free → Trans s (.alloc t) (s.setTran t { owner := .client })
  | fill {t p} : (s.trans t).owner = .client → Trans s (.fill t p) (s.setPub t p)
  | openHandle {h fd} : s.wrfd h = -1 → 0 ≤ fd → fd ∉ s.openFds → Trans s (.openHandle h fd)
      { s with wrfd := Function.update s.wrfd h fd, openFds := fd :: s.openFds }
  | closeHandle {h} : s.wrfd h ≠ -1 →
      (∀ u ∈ s.urbs, u.fd = s.wrfd h → u.outstanding = false) → Trans s (.closeHandle h)
      { s with wrfd := Function.update s.wrfd h (-1), openFds := s.openFds.erase (s.wrfd h) }
  | submit {t k r s'} : (s.trans t).owner = .client → Submission s t k r s' →
      Trans s (.submit t k) s'
  | stop : s.mutex = none → Trans s .stop
      { s with
        ctx := { s.ctx with
          loopEnabled := false
          pipe := if s.ctx.loopLocked then s.ctx.pipe + 1 else s.ctx.pipe }
        pc := fun x => (s.pc x).wakeCtx }
  | reset : s.mutex = none → Trans s .reset { s with ctx := { s.ctx with loopEnabled := true } }
  | callRun {th} : s.pc th = .idle → Trans s (.callRun th) (s.setPc th .runCall)
  | callWait {th t} : s.pc th = .idle → (s.trans t).owner = .client →
      Trans s (.callWait th t) (s.setPc th (.waitCall ⟨t, false⟩))
  | callBulk {th t h ep len} : s.pc th = .idle → (s.trans t).owner = .free →
      Trans s (.callBulk th t h ep len)
        ((s.setTran t ⟨libusbyFillBulkTransfer h ep len false, 0, .bulk th⟩).setPc th (.bulkSubmit t))
  | bulkAccepted {th t k s'} : s.pc th = .bulkSubmit t → Submission s t k .success s' →
      Trans s (.bulkSubmit th k) (s'.setPc th (.waitCall ⟨t, true⟩))
  | bulkRefused {th t k r s'} : s.pc th = .bulkSubmit t → Submission s t k r s' → r ≠ .success →
      Trans s (.bulkSubmit th k) ((s'.setOwner t .free).setPc th .idle)
  | parkCtx {th watch} : s.Arrives th watch → s.ctx.loopEnabled = true → s.ctx.loopLocked = true →
      Trans s (.enter th) (s.setPc th (.parkedCtx watch false))
  | acquire {th watch} : s.Arrives th watch →
      ¬ (s.ctx.loopEnabled = true ∧ s.ctx.loopLocked = true) →
      Trans s (.enter th) (s.acquire th watch)
  | waitOutside {th w} : s.mutex = none → s.pc th = .waitCall w → s.ctx.loopLocked = true →
      Trans s (.enter th) (s.waitActive th w .success)
  | poll {th f r b} : s.pc th = .loopHead f r → s.keepsPolling f r → Trans s (.head th b)
      { s.setPc th (.polling { f with pollfdsCap := max f.pollfdsCap (s.snapshot.length + 1) }
          s.snapshot) with mutex := none }
  | leaveLoop {th f r b r'} : s.pc th = .loopHead f r → s.EndsLoop f r b r' →
      Trans s (.head th b) (s.leaveLoop th f.watchTran r')
  | pollError {th f fds} : s.pc th = .polling f fds →
      Trans s (.pollReturn th none) (s.setPc th (.relock f .io))
  | pollReturn {th f fds b} : s.pc th = .polling f fds → (b = true → s.ctx.pipe ≠ 0) →
      Trans s (.pollReturn th (some b)) (s.setPc th (.reaping ⟨f, fds, 0, b⟩))
  | skip {th d fd} : s.pc th = .reaping d → d.pollfds[d.i]? = some fd →
      Trans s (.reap th none) (s.setPc th (.reaping { d with i := d.i + 1 }))
  | reap {th d u status len} : s.pc th = .reaping d → u ∈ s.urbs →
      d.pollfds[d.i]? = some u.fd → u.stage = .completed status len →
      Trans s (.reap th (some u.id))
        { (s.setPub u.tran ((s.trans u.tran).pub.store status len)).setPc th
            (.reaped d u.id u.tran) with urbs := setStage u.id .reaped s.urbs }
  | callback {th d k t} : s.pc th = .reaped d k t → s.mutex = none →
      (s.trans t).pub.callback = true →
      Trans s (.lockReaped th) ((s.setActive t 2).setPc th (.inCallback d k t))
  | noCallback {th d k t s'} : s.pc th = .reaped d k t → s.mutex = none →
      (s.setActive t 2).finishUrb th d k t = some s' → Trans s (.lockReaped th) s'
  | callbackReturn {th d k t s'} : s.pc th = .inCallback d k t → s.mutex = none →
      s.finishUrb th d k t = some s' → Trans s (.callbackReturn th) s'
  | drain {th d b r n} : s.pc th = .reaping d → d.pollfds.length ≤ d.i → n ≤ s.ctx.pipe →
      Trans s (.drain th b)
        { s.setPc th (.relock d.frame r) with ctx := { s.ctx with pipe := s.ctx.pipe - n } }
  | relock {th f r} : s.pc th = .relock f r → s.mutex = none →
      Trans s (.relock th) { s.setPc th (.loopHead f r) with mutex := some th }
  | recheck {th w r b} : s.pc th = .parkedTran w r b → s.mutex = none →
      Trans s (.recheck th) (s.waitActive th w r)
  | leaveRun {th r} : s.pc th = .runReturned r → Trans s (.leave th) (s.setPc th .idle)
  | leaveWait {th w r} : s.pc th = .waitReturned w r → w.bulk = false →
      Trans s (.leave th) (s.setPc th .idle)
  | leaveBulk {th w r} : s.pc th = .waitReturned w r → w.bulk = true →
      Trans s (.leave th) ((s.setOwner w.tran .free).setPc th .idle)
  | complete {u status len} : u ∈ s.urbs → u.stage = .pending →
      Trans s (.complete u.id status len)
        { s with urbs := setStage u.id (.completed status len) s.urbs }

theorem mem_of_find_id {us : List Urb} {k : Nat} {u : Urb} (h : us.find? (·.id = k) = some u) :
    u ∈ us ∧ u.id = k :=
  ⟨List.mem_of_find?_eq_some h, by simpa using List.find?_some h⟩

theorem step_trans {s s' : Sys} {e : Event} (h : step s e = some s') : Trans s e s' := by
  cases e with
  | alloc t | fill t p | stop | reset | callRun th | callWait th t | callBulk th t hd ep len
  | closeHandle hd | openHandle hd fd =>
    simp only [step] at h
    split at h <;> cases h
    first | exact .alloc ‹_› | exact .fill ‹_› | exact .stop ‹_› | exact .reset ‹_›
          | exact .callRun ‹_› | exact .callWait ‹_ ∧ _›.1 ‹_ ∧ _›.2
          | exact .callBulk ‹_ ∧ _›.1 ‹_ ∧ _›.2 | exact .closeHandle ‹_ ∧ _›.1 ‹_ ∧ _›.2
          | exact .openHandle ‹_ ∧ _ ∧ _›.1 ‹_ ∧ _ ∧ _›.2.1 ‹_ ∧ _ ∧ _›.2.2
  | submit t k =>
    simp only [step] at h
    split at h
    · simp only [Option.map_eq_some_iff, Prod.exists, exists_eq_right] at h
      obtain ⟨r, h⟩ := h
      exact .submit ‹_› (submit_submission h)
    · cases h
  | bulkSubmit th k =>
    simp only [step] at h
    split at h
    case h_1 t hpc =>
      simp only [Option.map_eq_some_iff, Prod.exists] at h
      obtain ⟨r, s1, h, rfl⟩ := h
      have sub := submit_submission h
      by_cases hr : r = .success
      · subst hr
        simpa using Trans.bulkAccepted hpc sub
      · simpa [hr] using Trans.bulkRefused hpc sub hr
    case h_2 => cases h
  | enter th =>
    have entered {watch} (a : s.Arrives th watch) : Trans s (.enter th) (s.enterLoop th watch) := by
      unfold Sys.enterLoop
      split
      case isTrue l => exact .parkCtx a l.1 l.2
      case isFalse l => exact .acquire a l
    simp only [step] at h
    split at h
    case isFalse => cases h
    case isTrue hm =>
      split at h
      case h_1 hpc =>
        cases h
        exact entered ⟨hm, .inl ⟨hpc, rfl⟩⟩
      case h_2 w hpc =>
        split at h <;> cases h
        case isTrue hl => exact .waitOutside hm hpc hl
        case isFalse hl =>
          exact entered ⟨hm, .inr (.inl ⟨w, hpc, rfl, Bool.eq_false_iff.2 hl⟩)⟩
      case h_3 watch b hpc =>
        cases h
        exact entered ⟨hm, .inr (.inr ⟨b, hpc⟩)⟩
      case h_4 => cases h
  | head th b =>
    simp only [step] at h
    split at h
    case h_1 f r hpc =>
      split at h
      · split at h <;> cases h
        · exact .leaveLoop hpc (.inr ⟨‹s.keepsPolling f r›, ‹_ < _ ∧ _›.1, ‹_ < _ ∧ _›.2, rfl⟩)
        · exact .poll hpc ‹_›
      · cases h
        exact .leaveLoop hpc (.inl ⟨‹_›, rfl⟩)
    case h_2 => cases h
  | pollReturn th b =>
    simp only [step] at h
    split at h
    · cases h
      exact .pollError ‹_›
    · split at h <;> cases h
      exact .pollReturn ‹_› ‹_›
    · cases h
  | reap th k =>
    simp only [step] at h
    split at h
    case h_1 d hpc =>
      split at h
      case h_1 hfd =>
        cases h
        exact .skip hpc hfd
      case h_2 fd k hfd =>
        split at h
        case h_1 hfind =>
          split at h <;> cases h
          obtain ⟨hu, rfl⟩ := mem_of_find_id hfind
          subst fd
          exact .reap hpc hu hfd rfl
        case h_2 => cases h
      case h_3 => cases h
    case h_2 => cases h
  | lockReaped th =>
    simp only [step] at h
    split at h
    case h_1 d k t hpc =>
      split at h
      case isFalse => cases h
      case isTrue hm =>
        split at h
        · cases h
          exact .callback hpc hm ‹_›
        · exact .noCallback hpc hm h
    case h_2 => cases h
  | callbackReturn th =>
    simp only [step] at h
    split at h
    case h_1 d k t hpc =>
      split at h
      · exact .callbackReturn hpc ‹_› h
      · cases h
    case h_2 => cases h
  | drain th b =>
    simp only [step] at h
    split at h
    case h_1 d hpc =>
      split at h
      case isTrue => cases h
      case isFalse hi =>
        have hi : d.pollfds.length ≤ d.i := Nat.le_of_not_lt hi
        have keep (r) : Trans s (.drain th b) (s.setPc th (.relock d.frame r)) :=
          .drain (n := 0) hpc hi (Nat.zero_le _)
        split at h
        · cases h
          exact keep _
        split at h
        · cases h
          exact keep _
        split at h <;> cases h
        exact .drain (n := 1) hpc hi (by omega)
    case h_2 => cases h
  | relock th =>
    simp only [step] at h
    split at h
    · split at h <;> cases h
      exact .relock ‹_› ‹_›
    · cases h
  | recheck th =>
    simp only [step] at h
    split at h
    · split at h <;> cases h
      exact .recheck ‹_› ‹_›
    · cases h
  | leave th =>
    simp only [step] at h
    split at h
    · cases h
      exact .leaveRun ‹_›
    · split at h <;> cases h
      · exact .leaveBulk ‹_› ‹_›
      · exact .leaveWait ‹_› (Bool.eq_false_iff.2 ‹_›)
    · cases h
  | complete k status len =>
    simp only [step] at h
    split at h
    case h_1 hfind =>
      cases h
      obtain ⟨hu, rfl⟩ := mem_of_find_id hfind
      exact .complete hu rfl
    case h_2 => cases h

end Libusby.Linux.EventLoop
