import Libusby.Win32.Reaper.Queue

/-!
# Cancellation on libusb0

`usbyb_cancel_transfer` asks the driver to abort a request while the transfer is queued,
under the mutex, and leaves everything else to the reaper. The state of the driver is the
set of requests that it was asked to abort since they were issued.
-/

namespace Libusby.Win32.Reaper

open Foundations Libusby.Core

/-- The context of a cancellation: `dev_handle->dev`, and whether `CancelIoEx` was found. -/
structure Backend where
  dev : Nat → Nat
  cancelIoEx : Bool

structure Cancellable where
  sys : Sys := {}
  asked : TranId → Bool := fun _ => false

/-- A step of the reaper or of its environment, or a call of `usbyb_cancel_transfer`. -/
inductive CancelEvent where
  | reaper (e : Event)
  | cancel (t : TranId) (delivered : Bool)
  deriving DecidableEq, Repr

/-- The request of transfer `u` goes to the same endpoint as that of `t`. -/
def Backend.SameEndpoint (b : Backend) (s : Sys) (t u : TranId) : Prop :=
  b.dev (s.trans u).pub.devHandle = b.dev (s.trans t).pub.devHandle ∧
    (s.trans u).pub.endpoint = (s.trans t).pub.endpoint

instance (b : Backend) (s : Sys) (t u : TranId) : Decidable (b.SameEndpoint s t u) :=
  inferInstanceAs (Decidable (_ ∧ _))

/-- The requests that the driver is asked to abort: those that it has and that
`CancelIoEx` finds by its `OVERLAPPED`, or `LIBUSB_IOCTL_ABORT_ENDPOINT` by its endpoint. -/
def Backend.Aborts (b : Backend) (s : Sys) (t u : TranId) : Prop :=
  (s.trans u).submitted = true ∧ (s.trans u).overlapped.result = none ∧
    if b.cancelIoEx then u = t else b.SameEndpoint s t u

instance (b : Backend) (s : Sys) (t u : TranId) : Decidable (b.Aborts s t u) :=
  inferInstanceAs (Decidable (_ ∧ _ ∧ _))

/-- The critical section of `usbyb_cancel_transfer`, and its result; `delivered` says whether
the call that asks the driver succeeds, which nobody looks at. -/
def Backend.usbybCancelTransfer (b : Backend) (x : Cancellable) (t : TranId) (delivered : Bool) :
    Error × Cancellable :=
  if (x.sys.trans t).submitted ∧ delivered = true then
    (.success, { x with asked := fun u => x.asked u || decide (b.Aborts x.sys t u) })
  else (.success, x)

/-- What the driver was asked to abort before a new request of a transfer is forgotten. -/
def Event.forgets (asked : TranId → Bool) : Event → TranId → Bool
  | .submit t _ _ => Function.update asked t false
  | _ => asked

def Backend.step (b : Backend) (c : Checks) (x : Cancellable) : CancelEvent → Option Cancellable
  | .reaper e => (Reaper.step c x.sys e).map fun sys => ⟨sys, e.forgets x.asked⟩
  | .cancel t delivered => some (b.usbybCancelTransfer x t delivered).2

/-- The reaper with calls of `usbyb_cancel_transfer` at any time. -/
def Backend.machine (b : Backend) (c : Checks) : Machine Cancellable CancelEvent := ⟨{}, b.step c⟩

/-- The driver aborts a request only when it was asked to. -/
def Cancellable.AbortsOnRequest (x : Cancellable) (e : CancelEvent) : Prop :=
  ∀ t n, e = .reaper (.complete t (some .operationAborted) n) → x.asked t = true

/-- The events of the reaper in a run. -/
def CancelEvent.reaper? : CancelEvent → Option Event
  | .reaper e => some e
  | .cancel .. => none

variable {b : Backend} {c : Checks} {s s' : Sys} {x x' : Cancellable} {e : Event}
  {es : List CancelEvent} {th : Tid} {t u : TranId} {hTarget : Handle} {p : Pc}
  {delivered : Bool}

/-- A cancellation changes nothing that the reaper sees. -/
theorem usbybCancelTransfer_sys : (b.usbybCancelTransfer x t delivered).2.sys = x.sys := by
  unfold Backend.usbybCancelTransfer
  split_ifs <;> rfl

theorem usbybCancelTransfer_asked (h : (b.usbybCancelTransfer x t delivered).2.asked u = true) :
    x.asked u = true ∨ (x.sys.trans t).submitted = true ∧ b.Aborts x.sys t u := by
  unfold Backend.usbybCancelTransfer at h
  split_ifs at h with queued
  · simp only [Bool.or_eq_true, decide_eq_true_eq] at h
    exact h.imp_right fun aborts => ⟨queued.1, aborts⟩
  · exact .inl h

theorem cancel_erases (h : (b.machine c).exec {} es = some x) :
    (reaper c).exec {} (es.filterMap CancelEvent.reaper?) = some x.sys := by
  refine Machine.exec_induction (motive := fun es (x : Cancellable) =>
    (reaper c).exec {} (es.filterMap CancelEvent.reaper?) = some x.sys) rfl ?_ h
  intro es x e x' _ ih hs
  rw [List.filterMap_append]
  cases e with
  | cancel t delivered =>
    cases hs
    rw [usbybCancelTransfer_sys]
    exact (congrArg _ (List.append_nil _)).trans ih
  | reaper e =>
    obtain ⟨sys, step, rfl⟩ := Option.map_eq_some_iff.1 hs
    exact Machine.exec_snoc.2 ⟨x.sys, ih, step⟩

/-! ## What a reap stores -/

/-- What the reaper has stored is the result of the request. -/
def OutcomeStored (s : Sys) : Prop :=
  ∀ th hTarget t, s.pc th = .finished hTarget t → ∃ res n pub,
    (s.trans t).overlapped.result = some (res, n) ∧
      (s.trans t).pub = usbybUpdateFinishedTransfer pub (res.getD .success) n

namespace OutcomeStored

theorem init : OutcomeStored {} := nofun

/-- A step that leaves the reaped transfers alone. -/
theorem frame (h : OutcomeStored s) (hc : Consistent s) (pc : s'.pc = s.pc)
    (same : ∀ u, (s.trans u).submitted = true → (s.trans u).overlapped.result ≠ none →
      s'.trans u = s.trans u) : OutcomeStored s' := by
  intro y hTarget u hy
  rw [pc] at hy
  obtain ⟨res, n, pub, done, stored⟩ := h y hTarget u hy
  have submitted := hc.listed y u (by rw [hy]; rfl)
  rw [same u submitted (by simp [done])]
  exact ⟨res, n, pub, done, stored⟩

/-- A step of one thread that stores nothing. -/
theorem move (h : OutcomeStored s) (pc : s'.pc = (s.setPc th p).pc)
    (pub : ∀ t, (s'.trans t).pub = (s.trans t).pub)
    (overlapped : ∀ t, (s'.trans t).overlapped = (s.trans t).overlapped)
    (hp : ∀ hTarget t, p ≠ .finished hTarget t) : OutcomeStored s' := by
  intro y hTarget u hy
  rw [pc, Sys.setPc_pc] at hy
  split_ifs at hy
  · exact absurd hy (hp hTarget u)
  · rw [pub, overlapped]
    exact h y hTarget u hy

theorem idle (ht : (s.trans t).submitted = false) (tr : UsbybTransfer) (u : TranId)
    (hu : (s.trans u).submitted = true) : (s.setTran t tr).trans u = s.trans u := by
  rw [Sys.setTran_trans, if_neg]
  rintro rfl
  exact nomatch ht.symm.trans hu

theorem step (h : OutcomeStored s) (hc : Consistent s) (hs : Reaper.step c s e = some s') :
    OutcomeStored s' := by
  have stepped := hs
  cases step_rule hs with
  | refuse | stop | reset => exact h
  | fill ht | reject ht | accept ht =>
    exact h.frame hc rfl fun u hu _ => OutcomeStored.idle ht _ u hu
  | @complete t res n submitted =>
    simp only [Reaper.step, Option.ite_none_right_eq_some] at stepped
    refine h.frame hc rfl fun u _ done => ?_
    rw [Sys.setTran_trans, if_neg]
    rintro rfl
    exact done stepped.1.2
  | @getResult th hTarget t pub pc done =>
    intro y hTarget' u hy
    simp only [Reaper.step, pc, Option.map_eq_some_iff] at stepped
    obtain ⟨⟨res, n⟩, result, stored⟩ := stepped
    rw [← stored] at hy ⊢
    rw [Sys.setPc_pc] at hy
    split_ifs at hy with same
    · cases hy
      exact ⟨res, n, (s.trans t).pub, by simp [result], by simp⟩
    · have second := hc.token.unique (Sys.reaping_of (s := s) hy rfl) (Sys.reaping_of pc rfl)
      exact absurd second same
  | unlink | signal =>
    exact h.move rfl (fun _ => Sys.setTran_keeps _ _ _ _ (·.pub) rfl)
      (fun _ => Sys.setTran_keeps _ _ _ _ (·.overlapped) rfl) (by rintro _ _ ⟨⟩)
  | react pc returns result =>
    refine h.move rfl (fun _ => rfl) (fun _ => rfl) ?_
    obtain rfl | ⟨-, rfl⟩ | ⟨-, rfl⟩ | ⟨x, rfl⟩ := react_cases result <;> rintro _ _ ⟨⟩
  | callWait | callRun | waitTarget | waitLock | waitFailed | armFailed | arm | found | next
  | notFound | callback | noCallback | callbackReturn | resubmitted | leave | ret =>
    exact h.move rfl (fun _ => rfl) (fun _ => rfl) (by rintro _ _ ⟨⟩)

theorem of_reachable (h : (reaper c).Reachable s) : OutcomeStored s := by
  refine (h.invariant (I := fun s => Consistent s ∧ OutcomeStored s) ⟨Consistent.init, init⟩ ?_).2
  exact fun _ _ _ hs ht => ⟨hs.1.step ht, hs.2.step hs.1 ht⟩

end OutcomeStored

/-! ## Who asked -/

/-- In the run, a cancellation of a queued transfer asked the driver to abort the request of
transfer `t`, which was with the driver, and `t` was not submitted again since. -/
def Backend.AskedIn (b : Backend) (c : Checks) (es : List CancelEvent) (t : TranId) : Prop :=
  ∃ es₁ u delivered es₂ y, es = es₁ ++ .cancel u delivered :: es₂ ∧
    (b.machine c).exec {} es₁ = some y ∧ (y.sys.trans u).submitted = true ∧ b.Aborts y.sys u t ∧
    ∀ res n, CancelEvent.reaper (.submit t res n) ∉ es₂

theorem Backend.AskedIn.snoc {e : CancelEvent} (h : b.AskedIn c es t)
    (he : ∀ res n, e ≠ .reaper (.submit t res n)) : b.AskedIn c (es ++ [e]) t := by
  obtain ⟨es₁, u, delivered, es₂, y, rfl, hy, submitted, aborts, since⟩ := h
  refine ⟨es₁, u, delivered, es₂ ++ [e], y, by simp, hy, submitted, aborts, fun res n => ?_⟩
  rw [List.mem_append, List.mem_singleton, not_or]
  exact ⟨since res n, (he res n).symm⟩

theorem forgets_asked {asked : TranId → Bool} (h : e.forgets asked t = true) :
    asked t = true ∧ ∀ res n, e ≠ .submit t res n := by
  cases e with
  | submit u res n =>
    by_cases same : t = u
    · simp [Event.forgets, same] at h
    · refine ⟨by simpa [Event.forgets, same] using h, ?_⟩
      rintro _ _ ⟨⟩
      exact same rfl
  | _ => exact ⟨h, nofun⟩

theorem asked_in (h : (b.machine c).exec {} es = some x) (asked : x.asked t = true) :
    b.AskedIn c es t := by
  refine Machine.exec_induction (motive := fun es (x : Cancellable) =>
    x.asked t = true → b.AskedIn c es t) (fun none => Bool.noConfusion none) ?_ h asked
  intro es x e x' hx ih hs asked
  cases e with
  | cancel u delivered =>
    cases hs
    rcases usbybCancelTransfer_asked asked with before | ⟨submitted, aborts⟩
    · exact (ih before).snoc nofun
    · exact ⟨es, u, delivered, [], x, rfl, hx, submitted, aborts, fun _ _ => List.not_mem_nil⟩
  | reaper e =>
    obtain ⟨sys, -, rfl⟩ := Option.map_eq_some_iff.1 hs
    obtain ⟨before, other⟩ := forgets_asked asked
    exact (ih before).snoc fun res n same => other res n (CancelEvent.reaper.inj same)

/-- A queued request that was aborted is one that the driver was asked to abort. -/
def Cancellable.Honest (x : Cancellable) : Prop :=
  ∀ t n, (x.sys.trans t).submitted = true →
    (x.sys.trans t).overlapped.result = some (some .operationAborted, n) → x.asked t = true

/-- What a step of the reaper may do to the request of a queued transfer. -/
theorem result_step (hs : step c s e = some s') (submitted : (s'.trans t).submitted = true)
    {n : Nat} (done : (s'.trans t).overlapped.result = some (some .operationAborted, n)) :
    (s.trans t).submitted = true ∧ (∀ res n, e ≠ .submit t res n) ∧
        (s.trans t).overlapped.result = some (some .operationAborted, n) ∨
      e = .complete t (some .operationAborted) n := by
  cases step_rule hs with
  | refuse idle =>
    refine .inl ⟨submitted, ?_, done⟩
    rintro _ _ ⟨⟩
    cases idle.symm.trans submitted
  | @fill u pub idle =>
    have other : t ≠ u := by
      rintro rfl
      simp [idle] at submitted
    rw [Sys.setTran_trans, if_neg other] at submitted done
    exact .inl ⟨submitted, by rintro _ _ ⟨⟩, done⟩
  | @reject u res n idle =>
    have other : t ≠ u := by
      rintro rfl
      simp [idle] at submitted
    rw [Sys.setTran_trans, if_neg other] at submitted done
    refine .inl ⟨submitted, ?_, done⟩
    rintro _ _ ⟨⟩
    exact other rfl
  | @accept u res n idle =>
    by_cases other : t = u
    · subst other
      cases res <;> simp [Sys.enqueued, Sys.issued] at done
    · simp only [Sys.enqueued, Sys.setTran_trans, if_neg other] at submitted done
      refine .inl ⟨submitted, ?_, done⟩
      rintro _ _ ⟨⟩
      exact other rfl
  | @complete u res n =>
    by_cases other : t = u
    · subst other
      simp only [Sys.setTran_trans, if_true, Option.some.injEq, Prod.mk.injEq] at done
      obtain ⟨rfl, rfl⟩ := done
      exact .inr rfl
    · rw [Sys.setTran_trans, if_neg other] at submitted done
      exact .inl ⟨submitted, by rintro _ _ ⟨⟩, done⟩
  | @unlink th hTarget u =>
    by_cases other : t = u
    · simp [Sys.dequeued, other] at submitted
    · simp only [Sys.dequeued, Sys.setPc_trans, Sys.setTran_trans, if_neg other] at submitted done
      exact .inl ⟨submitted, by rintro _ _ ⟨⟩, done⟩
  | @getResult th hTarget u | @signal th hTarget u =>
    by_cases other : t = u
    · subst other
      simp only [Sys.setPc_trans, Sys.setTran_trans, if_true] at submitted done
      exact .inl ⟨submitted, by rintro _ _ ⟨⟩, done⟩
    · simp only [Sys.setPc_trans, Sys.setTran_trans, if_neg other] at submitted done
      exact .inl ⟨submitted, by rintro _ _ ⟨⟩, done⟩
  | _ => exact .inl ⟨submitted, by rintro _ _ ⟨⟩, done⟩

theorem Cancellable.Honest.step {e : CancelEvent} (h : x.Honest) (he : x.AbortsOnRequest e)
    (hs : b.step c x e = some x') : x'.Honest := by
  intro t n submitted done
  cases e with
  | cancel u delivered =>
    cases hs
    rw [usbybCancelTransfer_sys] at submitted done
    have before := h t n submitted done
    unfold Backend.usbybCancelTransfer
    split_ifs
    · simp [before]
    · exact before
  | reaper e =>
    obtain ⟨sys, step, rfl⟩ := Option.map_eq_some_iff.1 hs
    rcases result_step step submitted done with ⟨before, other, aborted⟩ | rfl
    · have asked := h t n before aborted
      cases e with
      | submit u res m =>
        have : t ≠ u := by
          rintro rfl
          exact other res m rfl
        simpa [Event.forgets, this] using asked
      | _ => exact asked
    · exact he t n rfl

theorem cancelled_iff {tran : Transfer} {e : Win32Error} {n : Nat} :
    (usbybUpdateFinishedTransfer tran e n).status = .cancelled ↔ e = .operationAborted := by
  cases e with
  | success =>
    unfold usbybUpdateFinishedTransfer
    split_ifs <;> simp
  | operationAborted | ioPending | other => simp [usbybUpdateFinishedTransfer]

/-- Cancellations at any time are a run of the reaper without them, so they lose no transfer
and finish none twice. If the driver aborts only what it is asked to, a transfer is reported as
cancelled only if a call of `usbyb_cancel_transfer` asked for it while this very submission was
queued: for this transfer, or without `CancelIoEx` for one on the same endpoint. -/
theorem cancelled_on_request (b : Backend) (c : Checks) {es : List CancelEvent} {x : Cancellable}
    (hx : (b.machine c).exec {} es = some x)
    (hd : (b.machine c).Steps (fun x e _ => x.AbortsOnRequest e) {} es) :
    (reaper c).exec {} (es.filterMap CancelEvent.reaper?) = some x.sys ∧
      ∀ th hTarget t, x.sys.pc th = .finished hTarget t →
        (x.sys.trans t).pub.status = .cancelled → b.AskedIn c es t := by
  have erased := cancel_erases hx
  refine ⟨erased, fun th hTarget t pc cancelled => asked_in hx ?_⟩
  have honest : x.Honest := by
    have always := (Machine.Steps.invariant (I := Cancellable.Honest) (Q := fun _ _ _ => True)
      (fun _ _ _ h he hs => ⟨h.step he hs, trivial⟩) hd nofun).1
    exact always.exec hx
  have reachable : (reaper c).Reachable x.sys := ⟨_, erased⟩
  have submitted : (x.sys.trans t).submitted = true :=
    (Consistent.of_reachable reachable).listed th t (by rw [pc]; rfl)
  obtain ⟨res, n, pub, done, stored⟩ := OutcomeStored.of_reachable reachable th hTarget t pc
  rw [stored, cancelled_iff] at cancelled
  cases res with
  | none => cases cancelled
  | some e =>
    cases cancelled
    exact honest t n submitted done

/-- Without `CancelIoEx` the cancellation of one transfer ends another one on its endpoint. -/
theorem cancelled_on_request_endpoint : ∃ x,
    (Backend.machine ⟨id, false⟩ .source).exec {} [.reaper (.fill 7 { type := .bulk }),
      .reaper (.submit 7 (some .ioPending) 0), .reaper (.fill 8 { type := .bulk }),
      .reaper (.submit 8 (some .ioPending) 0), .cancel 7 true,
      .reaper (.complete 8 (some .operationAborted) 0), .reaper (.callRun 0), .reaper (.wait 0 1),
      .reaper (.arm 0 true), .reaper (.waitMultiple 0 3), .reaper (.search 0), .reaper (.search 0),
      .reaper (.getResult 0)] = some x ∧
    (x.sys.trans 8).pub.status = .cancelled ∧
    ∃ fs, (reaper .source).exec {} fs = some x.sys := by
  refine ⟨_, rfl, rfl, ?_⟩
  have run : (Backend.machine ⟨id, false⟩ .source).exec {} [.reaper (.fill 7 { type := .bulk }),
    .reaper (.submit 7 (some .ioPending) 0), .reaper (.fill 8 { type := .bulk }),
    .reaper (.submit 8 (some .ioPending) 0), .cancel 7 true,
    .reaper (.complete 8 (some .operationAborted) 0), .reaper (.callRun 0), .reaper (.wait 0 1),
    .reaper (.arm 0 true), .reaper (.waitMultiple 0 3), .reaper (.search 0), .reaper (.search 0),
    .reaper (.getResult 0)] = some _ := rfl
  refine ⟨_, (cancelled_on_request ⟨id, false⟩ .source run ?_).1⟩
  refine .cons rfl nofun (.cons rfl nofun (.cons rfl nofun (.cons rfl nofun (.cons rfl nofun
    (.cons rfl ?_ (.cons rfl nofun (.cons rfl nofun (.cons rfl nofun (.cons rfl nofun
    (.cons rfl nofun (.cons rfl nofun (.cons rfl nofun trivial))))))))))))
  rintro _ _ ⟨⟩
  rfl

end Libusby.Win32.Reaper
