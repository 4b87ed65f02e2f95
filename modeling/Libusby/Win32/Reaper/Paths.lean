import Libusby.Win32.Reaper.Conservation

/-!
# The two paths of a transfer on libusb0

`usbyb_perform_transfer` waits for its request, `usbyb_submit_transfer` leaves the request to
the reaper. Both paths store the outcome in the same way and call the callback. Only a
`DeviceIoControl` that fails at once is an outcome on the one path and an error on the other.
-/

namespace Libusby.Win32.Reaper

open Foundations Libusby.Core

/-- What `GetOverlappedResult` reports, also where nobody has to ask it. -/
def outcome (io : DeviceIoResult) : Option Win32Error × Nat :=
  (io.deviceIoControl.bind fun _ => io.getOverlappedResult, io.dwTransferred)

/-- The transfer after `usbyb_update_finished_transfer`. -/
def finished (sent : Transfer) (o : Option Win32Error × Nat) : Transfer :=
  usbybUpdateFinishedTransfer sent (o.1.getD .success) o.2

/-- The client neither fills nor submits the transfer. -/
def Event.leaves (t : TranId) : Event → Prop
  | .fill u _ | .submit u .. => u ≠ t
  | _ => True

/-- A run in which transfer `t` is submitted with the result `e` and, where that is
`LIBUSBY_SUCCESS`, reaped with the outcome of `io`. Other calls do what they like. -/
structure AsyncPath (c : Checks) (s : Sys) (t : TranId) (io : DeviceIoResult) (es : List Event)
    (e : Error) (s' : Sys) : Prop where
  run : (reaper c).exec s (.submit t io.deviceIoControl io.dwTransferred :: es) = some s'
  result : (s.submit t io.deviceIoControl io.dwTransferred).map Prod.fst = some e
  leaves : ∀ e ∈ es, e.leaves t
  outcome : ∀ res n, .complete t res n ∈ es → (res, n) = outcome io
  idle : (s'.trans t).submitted = false
  past : ¬s'.CallbackDue t

/-- The same result, status and length, and as many calls of the callback. -/
structure Agree {Req : Type} (p : Performed Req) (e : Error) (pub : Transfer)
    (callbacks : Nat) : Prop where
  result : p.r = e.code
  status : p.tran.status = pub.status
  actualLength : p.tran.actualLength = pub.actualLength
  callbacks : p.callbacks = callbacks

/-- The transfer whose outcome is stored while it is on the list. -/
def Pc.stored : Pc → Option TranId
  | .finished _ t => some t
  | _ => none

def Sys.Stored (s : Sys) (t : TranId) : Prop := ∃ th, (s.pc th).stored = some t

/-- The outcome of transfer `t` is stored. -/
def stores (t : TranId) (s : Sys) : Event → Bool
  | .getResult th =>
    match s.pc th with
    | .reaping _ u => u = t
    | _ => false
  | _ => false

/-- Transfer `t` is not submitted, and its callback was called if it has one. -/
structure Settled (s : Sys) (t : TranId) (pub : Transfer) : Prop where
  idle : (s.trans t).submitted = false
  past : ¬s.CallbackDue t
  pub : (s.trans t).pub = pub

/-- How far transfer `t` is that was submitted with the fields `sent`, and how often its callback
was called. -/
inductive Stage (s : Sys) (t : TranId) (sent : Transfer) (o : Option Win32Error × Nat) :
    Nat → Prop
  | queued (submitted : (s.trans t).submitted = true) (waiting : ¬s.Stored t)
      (before : ¬s.CallbackDue t) (pub : (s.trans t).pub = sent)
      (outcome : ∀ r, (s.trans t).overlapped.result = some r → r = o) : Stage s t sent o 0
  | stored (submitted : (s.trans t).submitted = true) (stored : s.Stored t)
      (before : ¬s.CallbackDue t) (pub : (s.trans t).pub = finished sent o) : Stage s t sent o 0
  | due (idle : (s.trans t).submitted = false) (due : s.CallbackDue t)
      (pub : (s.trans t).pub = finished sent o) : Stage s t sent o 0
  | past (settled : Settled s t (finished sent o)) :
      Stage s t sent o (if sent.callback then 1 else 0)

variable {c : Checks} {s s' : Sys} {e : Event} {th : Tid} {t : TranId} {p : Pc} {n : Nat}
  {sent pub : Transfer} {o : Option Win32Error × Nat}

@[simp] theorem finished_callback : (finished sent o).callback = sent.callback := by
  unfold finished usbybUpdateFinishedTransfer
  split
  · split_ifs <;> rfl
  · rfl
  · rfl

/-! ## What a step does to one transfer -/

theorem accepts_of_leaves (h : e.leaves t) : accepts t s e = false := by
  cases e with
  | submit u res n =>
    have other : u ≠ t := h
    simp [accepts, other]
  | _ => rfl

theorem callsBack_eq (h : (callsBack t s e || hasNoCallback t s e) = true) :
    callsBack t s e = (s.trans t).pub.callback := by
  cases e with
  | callback th =>
    simp only [callsBack, hasNoCallback] at *
    split at h
    case h_1 u _ =>
      by_cases same : u = t
      · subst same
        simp
      · simp [same] at h
    case h_2 => simp at h
  | _ => simp [callsBack, hasNoCallback] at h

/-- Only the reaper is where `f` looks, so its program point is all that matters. -/
theorem Consistent.somewhere {f : Pc → Option TranId} (h : Consistent s)
    (hf : ∀ p, f p = some t → p.inside = true) (reaping : s.Reaping th) :
    (∃ x, f (s.pc x) = some t) ↔ f (s.pc th) = some t := by
  constructor
  · rintro ⟨x, hx⟩
    exact h.token.unique (hf _ hx) reaping ▸ hx
  · exact fun hx => ⟨th, hx⟩

theorem Pc.listed_of_stored (h : p.stored = some t) : p.listed = some t := by
  cases p <;> first | exact h | cases h

theorem Consistent.submitted_of_stored (h : Consistent s) (stored : s.Stored t) :
    (s.trans t).submitted = true := by
  obtain ⟨th, hth⟩ := stored
  exact h.listed th t (Pc.listed_of_stored hth)

theorem Consistent.stored_iff (h : Consistent s) (pc : s.pc th = p) (inside : p.inside = true) :
    s.Stored t ↔ p.stored = some t := by
  rw [Sys.Stored, h.somewhere _ (Sys.reaping_of pc inside), pc]
  exact fun _ stored => Pc.inside_of_listed (Pc.listed_of_stored stored)

theorem stored_moves (h : Consistent s) (hs : step c s e = some s') :
    Moves (stores t s e) (reaps t s e) (s.Stored t) (s'.Stored t) := by
  have next := h.step hs
  cases step_rule hs with
  | fill | reject | accept | complete | stop | reset | refuse => exact .rest rfl rfl Iff.rfl
  | @getResult th hTarget u pub pc done =>
    have before : ¬s.Stored t := by
      rw [h.stored_iff pc rfl]
      nofun
    have after : _ ↔ some u = some t := next.stored_iff (if_pos rfl) rfl
    by_cases hu : u = t
    · exact .start (by simp [stores, pc, hu]) rfl before (after.2 (congrArg some hu))
    · exact .rest (by simp [stores, pc, hu]) rfl (iff_of_false (by simp [after, hu]) before)
  | @unlink th hTarget u pc =>
    have before : s.Stored t ↔ some u = some t := h.stored_iff pc rfl
    have after : ¬((s.dequeued u).setPc th (.unlinked hTarget u)).Stored t := by
      rw [next.stored_iff (if_pos rfl) rfl]
      nofun
    by_cases hu : u = t
    · exact .finish rfl (by simp [reaps, pc, hu]) (before.2 (congrArg some hu)) after
    · exact .rest rfl (by simp [reaps, pc, hu]) (iff_of_false after (by simp [before, hu]))
  | react pc returns result =>
    refine .rest rfl rfl (somewhere_same rfl ?_)
    rw [pc]
    obtain rfl | ⟨-, rfl⟩ | ⟨-, rfl⟩ | ⟨x, rfl⟩ := react_cases result <;> rfl
  | callWait pc | callRun pc | waitTarget pc | waitLock pc | waitFailed pc | armFailed pc | arm pc
  | found pc | next pc | notFound pc | callback pc | noCallback pc | callbackReturn pc | signal pc
  | resubmitted pc | leave pc | ret pc => exact .rest rfl rfl (somewhere_same rfl (pc ▸ rfl))

/-- The outcome of a request is stored once it is known. -/
theorem pub_stores (hs : step c s e = some s') (h : stores t s e = true) :
    ∃ r, (s.trans t).overlapped.result = some r ∧
      (s'.trans t).pub = finished (s.trans t).pub r := by
  cases e with
  | getResult th =>
    simp only [stores] at h
    split at h
    case h_2 => cases h
    case h_1 u pc =>
      obtain rfl := of_decide_eq_true h
      simp only [step, pc, Option.map_eq_some_iff] at hs
      obtain ⟨r, result, rfl⟩ := hs
      exact ⟨r, result, by simp [finished]⟩
  | _ => cases h

theorem pub_step (hs : step c s e = some s') (leaves : e.leaves t) (h : stores t s e = false) :
    (s'.trans t).pub = (s.trans t).pub := by
  cases step_rule hs with
  | fill =>
    rw [Sys.setTran_trans, if_neg (Ne.symm leaves)]
  | @getResult th hTarget u pub pc =>
    have other : t ≠ u := by
      rintro rfl
      simp [stores, pc] at h
    rw [Sys.setPc_trans, Sys.setTran_trans, if_neg other]
  | reject | accept | complete | unlink | signal => exact Sys.setTran_keeps _ _ _ _ (·.pub) rfl
  | _ => rfl

/-- The outcome of a request is the one that the driver reports. -/
theorem outcome_kept (hs : step c s e = some s') (leaves : e.leaves t)
    (reports : ∀ res n, e = .complete t res n → (res, n) = o)
    (h : ∀ r, (s.trans t).overlapped.result = some r → r = o) :
    ∀ r, (s'.trans t).overlapped.result = some r → r = o := by
  cases step_rule hs with
  | @fill u _ _ | @reject u _ _ _ | @accept u _ _ _ =>
    simpa [Sys.enqueued, Ne.symm (show u ≠ t from leaves)] using h
  | @complete u res n =>
    by_cases hu : t = u
    · subst hu
      simpa using reports res n rfl
    · simpa [hu] using h
  | getResult | unlink | signal =>
    intro r hr
    refine h r (Eq.trans (Eq.symm ?_) hr)
    exact Sys.setTran_keeps _ _ _ _ (·.overlapped.result) rfl
  | _ => exact h

/-! ## From the submission to the callback -/

theorem submitted_of_stores (hc : Consistent s) (h : stores t s e = true) :
    (s.trans t).submitted = true := by
  cases e with
  | getResult th =>
    simp only [stores] at h
    split at h
    case h_1 pc => exact hc.listed th t (by rw [pc, ← of_decide_eq_true h]; rfl)
    case h_2 => cases h
  | _ => cases h

/-- A transfer that is not submitted stays as it is while the client leaves it alone. -/
theorem pub_idle (hc : Consistent s) (hs : step c s e = some s') (leaves : e.leaves t)
    (idle : (s.trans t).submitted = false) :
    (s'.trans t).submitted = false ∧ reaps t s e = false ∧
      (s'.trans t).pub = (s.trans t).pub := by
  obtain ⟨noReap, submitted⟩ := (submission_moves (t := t) hc hs).of_idle (by simp [idle])
  refine ⟨by simpa [accepts_of_leaves leaves] using submitted, noReap, pub_step hs leaves ?_⟩
  rw [Bool.eq_false_iff]
  intro stores
  cases idle.symm.trans (submitted_of_stores hc stores)

theorem Settled.step (h : Settled s t pub) (hc : Consistent s) (hs : Reaper.step c s e = some s')
    (leaves : e.leaves t) : Settled s' t pub ∧ callsBack t s e = false := by
  obtain ⟨idle, noReap, same⟩ := pub_idle hc hs leaves h.idle
  obtain ⟨noCall, due⟩ := (callbackDue_moves (t := t) hc hs).of_idle h.past
  exact ⟨⟨idle, by simp [due, noReap], same.trans h.pub⟩, (Bool.or_eq_false_iff.1 noCall).1⟩

theorem Stage.step (h : Stage s t sent o n) (hc : Consistent s) (hs : Reaper.step c s e = some s')
    (leaves : e.leaves t) (reports : ∀ res n, e = .complete t res n → (res, n) = o) :
    Stage s' t sent o (n + (callsBack t s e).toNat) := by
  have submission := submission_moves (t := t) hc hs
  have storage := stored_moves (t := t) hc hs
  have callback := callbackDue_moves (t := t) hc hs
  cases h with
  | queued submitted waiting before pub outcome =>
    obtain ⟨noReap, stored⟩ := storage.of_idle waiting
    obtain ⟨noCall, due⟩ := callback.of_idle before
    have submitted := (submission.of_busy submitted).2.2 noReap
    have before : ¬s'.CallbackDue t := by simp [due, noReap]
    rw [(Bool.or_eq_false_iff.1 noCall).1]
    cases hstores : stores t s e with
    | false =>
      exact .queued submitted (by simp [stored, hstores]) before
        ((pub_step hs leaves hstores).trans pub) (outcome_kept hs leaves reports outcome)
    | true =>
      obtain ⟨r, result, stored'⟩ := pub_stores hs hstores
      rw [pub, outcome r result] at stored'
      exact .stored submitted (stored.2 hstores) before stored'
  | stored submitted stored before pub =>
    obtain ⟨noStore, stored⟩ := storage.of_busy stored
    obtain ⟨noCall, due⟩ := callback.of_idle before
    have submitted := (submission.of_busy submitted).2
    have pub := (pub_step hs leaves noStore).trans pub
    rw [(Bool.or_eq_false_iff.1 noCall).1]
    cases hreaps : reaps t s e with
    | false => exact .stored (submitted.2 hreaps) (stored.2 hreaps) (by simp [due, hreaps]) pub
    | true => exact .due (by simpa [hreaps] using submitted) (due.2 hreaps) pub
  | due idle due pub =>
    obtain ⟨idle, -, same⟩ := pub_idle hc hs leaves idle
    have due := (callback.of_busy due).2
    cases hcall : callsBack t s e || hasNoCallback t s e with
    | false =>
      rw [(Bool.or_eq_false_iff.1 hcall).1]
      exact .due idle (due.2 hcall) (same.trans pub)
    | true =>
      have settled : Settled s' t (finished sent o) :=
        ⟨idle, by simp [due, hcall], same.trans pub⟩
      rw [callsBack_eq hcall, pub, finished_callback]
      cases set : sent.callback <;> simpa [set] using Stage.past settled
  | past settled =>
    obtain ⟨settled, noCall⟩ := settled.step hc hs leaves
    rw [noCall]
    exact .past settled

section
variable {io : DeviceIoResult} {es : List Event} {err : Error}

/-- The start of a stage: the submission that succeeds. -/
theorem stage_enqueued (hc : Consistent s) (before : ¬s.CallbackDue t)
    (idle : (s.trans t).submitted = false)
    (issued : io.deviceIoControl = none ∨ io.deviceIoControl = some .ioPending) :
    Stage (s.enqueued t (Sys.issued io.deviceIoControl io.dwTransferred)) t (s.trans t).pub
      (outcome io) 0 := by
  refine .queued (by simp [Sys.enqueued]) ?_ before (by simp [Sys.enqueued]) ?_
  · intro stored
    cases idle.symm.trans (hc.submitted_of_stored stored)
  · rcases issued with done | pending
    · simp [Sys.enqueued, Sys.issued, outcome, done]
    · simp [Sys.enqueued, Sys.issued, pending]

theorem Settled.run (h : Settled s t pub) (hc : Consistent s)
    (run : (reaper c).exec s es = some s') (leaves : ∀ e ∈ es, e.leaves t) :
    Settled s' t pub ∧ (reaper c).occurrences (callsBack t) s es = 0 := by
  have counted : Consistent s' ∧ Settled s' t pub ∧
      0 + (reaper c).occurrences (callsBack t) s es = 0 := by
    refine Machine.counted (J := fun s n => Consistent s ∧ Settled s t pub ∧ n = 0) run
      ⟨hc, h, rfl⟩ ?_
    rintro s e s' n he ⟨hc, h, rfl⟩ hs
    obtain ⟨settled, noCall⟩ := h.step hc hs (leaves e he)
    exact ⟨hc.step hs, settled, by simp [noCall]⟩
  exact ⟨counted.2.1, by simpa using counted.2.2⟩

theorem Stage.run (h : Stage s t sent o 0) (hc : Consistent s)
    (run : (reaper c).exec s es = some s') (leaves : ∀ e ∈ es, e.leaves t)
    (reports : ∀ res n, .complete t res n ∈ es → (res, n) = o) :
    Stage s' t sent o ((reaper c).occurrences (callsBack t) s es) := by
  have counted := Machine.counted (J := fun s n => Consistent s ∧ Stage s t sent o n)
    (p := callsBack t) run ⟨hc, h⟩ ?_
  · simpa using counted.2
  rintro s e s' n he ⟨hc, h⟩ hs
  exact ⟨hc.step hs, h.step hc hs (leaves e he) fun res n same => reports res n (same ▸ he)⟩

/-- A transfer that is through the reaper has its outcome, and its callback was called once. -/
theorem Stage.reaped (h : Stage s t sent o n) (idle : (s.trans t).submitted = false)
    (past : ¬s.CallbackDue t) :
    (s.trans t).pub = finished sent o ∧ n = if sent.callback then 1 else 0 := by
  cases h with
  | queued submitted => cases idle.symm.trans submitted
  | stored submitted => cases idle.symm.trans submitted
  | due _ due => exact absurd due past
  | past settled => exact ⟨settled.pub, rfl⟩

theorem finished_outcome
    (issued : io.deviceIoControl = none ∨ io.deviceIoControl = some .ioPending) :
    finished sent (outcome io) = usbybUpdateFinishedTransfer sent io.dwError io.dwTransferred := by
  rcases issued with done | pending
  · simp [finished, outcome, DeviceIoResult.dwError, done]
  · simp [finished, outcome, DeviceIoResult.dwError, pending]

/-- The three results of `usbyb_submit_transfer`. -/
theorem submit_cases {res : Option Win32Error} (h : s.submit t res n = some (err, s')) :
    usbybPrepareTransferSubmission (s.trans t).pub = .ok (.error err) ∧ s' = s ∨
      (∃ sub, usbybPrepareTransferSubmission (s.trans t).pub = .ok (.ok sub)) ∧
        (err = .io ∧ ¬(res = none ∨ res = some .ioPending) ∨
          err = .success ∧ (res = none ∨ res = some .ioPending) ∧
            s' = s.enqueued t (Sys.issued res n)) := by
  unfold Sys.submit at h
  split at h
  case h_1 => cases h
  case h_2 prepared =>
    cases h
    exact .inl ⟨prepared, rfl⟩
  case h_3 sub prepared =>
    split_ifs at h with failed
    · cases h
      exact .inr ⟨⟨sub, prepared⟩, .inl ⟨rfl, not_or.2 failed⟩⟩
    · cases h
      exact .inr ⟨⟨sub, prepared⟩, .inr ⟨rfl, or_iff_not_and_not.2 failed, rfl⟩⟩

theorem usbybUpdateFinishedTransfer_deliver (tran : Transfer) (k : Nat) (data : List UInt8)
    (dwError : Win32Error) (n : Nat) :
    usbybUpdateFinishedTransfer (tran.deliver k data) dwError n =
      (usbybUpdateFinishedTransfer tran dwError n).deliver k data := by
  cases dwError with
  | success =>
    by_cases control : tran.type = .control <;>
      simp [usbybUpdateFinishedTransfer, Transfer.deliver, control]
  | operationAborted | ioPending | other => rfl

theorem usbybPerformTransfer_refused {p : Performed DeviceIo}
    (refused : usbybPrepareTransferSubmission sent = .ok (.error err))
    (h : usbybPerformTransfer (fun _ => io) sent = .ok p) :
    Agree p err sent 0 := by
  simp only [usbybPerformTransfer, refused, ok_bind] at h
  cases h
  exact ⟨rfl, rfl, rfl, rfl⟩

theorem usbybPerformTransfer_prepared {p : Performed DeviceIo} {sub : Submission}
    (prepared : usbybPrepareTransferSubmission sent = .ok (.ok sub))
    (h : usbybPerformTransfer (fun _ => io) sent = .ok p) :
    Agree p .success (usbybUpdateFinishedTransfer sent io.dwError io.dwTransferred)
      (if sent.callback then 1 else 0) := by
  simp only [usbybPerformTransfer, prepared, ok_bind, bind_eq_ok] at h
  obtain ⟨data, -, h⟩ := h
  cases h
  rw [usbybUpdateFinishedTransfer_deliver]
  constructor
  · rfl
  · rfl
  · rfl
  · exact congrArg (fun b : Bool => if b then 1 else 0) (finished_callback (o := (io.dwError, _)))

/-- The submission and what follows it. -/
theorem AsyncPath.start (async : AsyncPath c s t io es err s') : ∃ s₁,
    (s.trans t).submitted = false ∧
      s.submit t io.deviceIoControl io.dwTransferred = some (err, s₁) ∧
      step c s (.submit t io.deviceIoControl io.dwTransferred) = some s₁ ∧
      (reaper c).exec s₁ es = some s' ∧
      (reaper c).occurrences (callsBack t) s
          (.submit t io.deviceIoControl io.dwTransferred :: es) =
        (reaper c).occurrences (callsBack t) s₁ es := by
  obtain ⟨s₁, hstep, run⟩ := Machine.exec_cons.1 async.run
  have count : (reaper c).occurrences (callsBack t) s
      (.submit t io.deviceIoControl io.dwTransferred :: es) =
        (reaper c).occurrences (callsBack t) s₁ es := by
    simp [Machine.occurrences, hstep, callsBack]
  have hsubmit : step c s (.submit t io.deviceIoControl io.dwTransferred) = some s₁ := hstep
  simp only [step, Option.ite_none_right_eq_some, Option.map_eq_some_iff] at hsubmit
  obtain ⟨idle, ⟨err', s₁⟩, submitted, rfl⟩ := hsubmit
  have result := async.result
  rw [submitted] at result
  cases result
  exact ⟨s₁, idle, submitted, hstep, run, count⟩

/-- Unless its callback is about to be called, a transfer that is submitted comes to the same
as one that is performed, whatever the other calls do meanwhile: it is refused, or its request
is done or pending when `DeviceIoControl` returns. -/
theorem submitted_agrees_iff {p : Performed DeviceIo} (reach : (reaper c).Reachable s)
    (before : ¬s.CallbackDue t) (async : AsyncPath c s t io es err s')
    (sync : usbybPerformTransfer (fun _ => io) (s.trans t).pub = .ok p) :
    Agree p err (s'.trans t).pub ((reaper c).occurrences (callsBack t) s
        (.submit t io.deviceIoControl io.dwTransferred :: es)) ↔
      (∃ e, usbybPrepareTransferSubmission (s.trans t).pub = .ok (.error e)) ∨
        io.deviceIoControl = none ∨ io.deviceIoControl = some .ioPending := by
  have hc := Consistent.of_reachable reach
  obtain ⟨s₁, idle, submitted, hstep, run, count⟩ := async.start
  rw [count]
  rcases submit_cases submitted with
    ⟨refused, rfl⟩ | ⟨⟨sub, prepared⟩, ⟨rfl, failed⟩ | ⟨rfl, issued, rfl⟩⟩
  · obtain ⟨settled, uncalled⟩ := Settled.run ⟨idle, before, rfl⟩ hc run async.leaves
    rw [settled.pub, uncalled]
    exact iff_of_true (usbybPerformTransfer_refused refused sync) (.inl ⟨_, refused⟩)
  · have agrees := usbybPerformTransfer_prepared prepared sync
    refine iff_of_false (fun agree => ?_) ?_
    · have same : Error.success.code = Error.io.code := agrees.result.symm.trans agree.result
      cases same
    · rintro (⟨e, refused⟩ | issued)
      · cases prepared.symm.trans refused
      · exact failed issued
  · have stage := stage_enqueued hc before idle issued
    obtain ⟨pub, calls⟩ :=
      (stage.run (hc.step hstep) run async.leaves async.outcome).reaped async.idle async.past
    rw [pub, calls, finished_outcome issued]
    exact iff_of_true (usbybPerformTransfer_prepared prepared sync) (.inr issued)

end

/-- A client that finds the completion event signalled has seen the callback called. -/
theorem past_of_signalled (reach : (reaper c).Reachable s)
    (signalled : (s.trans t).hCompletionEvent = true) : ¬s.CallbackDue t := by
  rintro ⟨th, due⟩
  exact ((Consistent.of_reachable reach).completion t signalled).2 ⟨th, Pc.reaped_of_due due⟩

/-- Two bytes are read, with a callback. -/
def bulkRead : Transfer where
  type := .bulk
  endpoint := 0x81
  length := 2
  buffer := [0, 0]
  callback := true

def bulkReadFilled : Sys := ({} : Sys).setTran 7 { pub := bulkRead }

/-- Call 0 runs the loop, and the request of transfer 7 ends with two bytes. -/
def reapedOnce : List Event :=
  [.callRun 0, .wait 0 1, .arm 0 true, .complete 7 none 2, .waitMultiple 0 2, .search 0,
    .getResult 0, .unlink 0, .callback 0, .callbackReturn 0, .signal 0]

theorem submitted_agrees_iff_bulkRead : ∃ (s' : Sys) (p : Performed DeviceIo),
    Agree p .success (s'.trans 7).pub ((reaper .source).occurrences (callsBack 7) bulkReadFilled
      (.submit 7 (some .ioPending) 2 :: reapedOnce)) ∧
    p.tran.actualLength = 2 ∧ p.callbacks = 1 := by
  have reach : (reaper .source).Reachable bulkReadFilled := ⟨[.fill 7 bulkRead], rfl⟩
  have later : (reaper .source).Reachable _ :=
    ⟨.fill 7 bulkRead :: .submit 7 (some .ioPending) 2 :: reapedOnce, rfl⟩
  have async : AsyncPath .source bulkReadFilled 7 ⟨some .ioPending, none, 2, [7, 8]⟩ reapedOnce
      .success _ :=
    { run := rfl
      result := rfl
      leaves := by simp [reapedOnce, Event.leaves]
      outcome := by simp [reapedOnce, outcome]
      idle := rfl
      past := past_of_signalled later rfl }
  exact ⟨_, _, (submitted_agrees_iff reach (past_of_signalled reach rfl) async rfl).2
    (.inr (.inr rfl)), rfl, rfl⟩

end Libusby.Win32.Reaper
