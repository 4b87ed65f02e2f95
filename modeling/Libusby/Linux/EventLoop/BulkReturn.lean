import Libusby.Core.BulkTransfer
import Libusby.Linux.EventLoop.Completion

/-!
# What `libusby_bulk_transfer` returns on Linux

`libusby_bulk_transfer` returns what its wait returns, and reads neither the status of
the transfer nor whether the URB is back. So its result tells the outcome in the orderly
runs in which the kernel completes its URBs with success and its own loop meets no error
(`always_bulkTells`).
-/

namespace Libusby.Linux.EventLoop

open Foundations Libusby.Core

/-- The call of `poll`, `read` or `realloc` that fails in this step. -/
def Event.fails : Event → Option Tid
  | .pollReturn th none => some th
  | .drain th false => some th
  | .head th false => some th
  | _ => none

/-- The conditions under which a result of `libusby_bulk_transfer` can be relied on. -/
structure BulkSucceeds (s : Sys) (e : Event) : Prop where
  orderly : Orderly s e
  urb : ∀ k status len th, e = .complete k status len → ∀ u ∈ s.urbs, u.id = k →
    (s.trans u.tran).owner = .bulk th → status = 0
  loop : ∀ th w, e.fails = some th → (s.pc th).waiter = some w → w.bulk = false

/-- The code that the loop or the wait is about to return. -/
def Pc.result : Pc → Error
  | .loopHead _ r | .relock _ r | .parkedTran _ r _ | .waitReturned _ r => r
  | _ => .success

/-- The result of a `libusby_bulk_transfer` tells whether its URB is back and its status
is `LIBUSBY_TRANSFER_COMPLETED`. -/
def BulkTells (s : Sys) : Prop :=
  ∀ th w r, s.pc th = .waitReturned w r → w.bulk = true →
    (bulkResult r.code (s.trans w.tran).pub.actualLength).Tells
      (¬ s.Outstanding w.tran ∧ (s.trans w.tran).pub.status = TransferStatus.completed.code)

/-- A `libusby_bulk_transfer` whose submission is refused in this step returns an error. -/
def RefusalTells (s : Sys) (e : Event) (_ : Sys) : Prop :=
  ∀ th k t r s₁, e = .bulkSubmit th k → s.pc th = .bulkSubmit t → s.submit t k = some (r, s₁) →
    r ≠ .success → (bulkResult r.code (s₁.trans t).pub.actualLength).Tells False

/-- The transfers of `libusby_bulk_transfer` never report an error. -/
structure Spotless (s : Sys) : Prop where
  tracked : Tracked s
  result : ∀ th w, (s.pc th).waiter = some w → w.bulk = true → (s.pc th).result = .success
  status : ∀ t th, (s.trans t).owner = .bulk th →
    (s.trans t).pub.status = TransferStatus.completed.code
  urb : ∀ u ∈ s.urbs, ∀ th status len, (s.trans u.tran).owner = .bulk th →
    u.stage = .completed status len → status = 0

theorem spotless_initial : Spotless .initial := by
  constructor <;> simp [Sys.initial, Pc.waiter]
  exact tracked_initial

@[grind =] theorem result_wakeCtx (p : Pc) : p.wakeCtx.result = p.result := by cases p <;> rfl

@[grind =] theorem result_wakeTran (p : Pc) (t : TranId) : (p.wakeTran t).result = p.result := by
  cases p <;> rfl

@[grind =] theorem result_outcome (w : Waiter) (r : Error) (n : Nat) :
    (w.outcome r n).result = r := by
  grind -linarith [Pc.result]

@[grind =] theorem result_exitPc (s : Sys) (w : Waiter) (r : Error) :
    (exitPc s r (some w)).result = r := result_outcome ..

section
variable {s t : Sys} {e : Event}

theorem drain_success {th : Tid} {d : Round} (h : step s (.drain th true) = some t)
    (hpc : s.pc th = .reaping d) : t.pc th = .relock d.frame .success := by
  simp only [step, hpc, Bool.true_eq_false, if_false] at h
  split_ifs at h <;> cases h <;> simp

theorem result_step (hs : Spotless s) (hc : BulkSucceeds s e) (h : step s e = some t) (th : Tid)
    (w : Waiter) (hw : (t.pc th).waiter = some w) (hb : w.bulk = true) :
    (t.pc th).result = .success := by
  have result := hs.result
  have loop := hc.loop
  cases step_trans h with
  | @drain x d b r n hpc =>
    cases b with
    | false => grind -linarith [Pc.waiter, Pc.result, Event.fails]
    | true =>
      have := drain_success h hpc
      grind -linarith [Pc.waiter, Pc.result]
  | _ => grind -linarith [Sys.Arrives, Pc.waiter, Pc.result, Event.fails, Sys.EndsLoop]

theorem status_step (hs : Spotless s) (h : step s e = some t) (u : TranId) (th : Tid)
    (ho : (t.trans u).owner = .bulk th) :
    (t.trans u).pub.status = TransferStatus.completed.code := by
  have status := hs.status
  have urb := hs.urb
  cases step_trans h <;> grind -linarith [libusbyFillBulkTransfer, PubTransfer.store]

theorem urb_step (hs : Spotless s) (hc : BulkSucceeds s e) (h : step s e = some t) :
    ∀ u ∈ t.urbs, ∀ th status len, (t.trans u.tran).owner = .bulk th →
      u.stage = .completed status len → status = 0 := by
  have urb := hs.urb
  have kernel := hs.tracked.kernel
  have free := hs.tracked.free
  have succeeds := hc.urb
  cases step_trans h <;>
    grind -linarith [Sys.newUrb, mem_setStage, Urb.outstanding, libusbyFillBulkTransfer]

theorem spotless_step (hs : Spotless s) (hc : BulkSucceeds s e) (h : step s e = some t) :
    Spotless t where
  tracked := tracked_step hs.tracked hc.orderly h
  result := result_step hs hc h
  status := status_step hs h
  urb := urb_step hs hc h

theorem Spotless.bulkTells (hs : Spotless s) : BulkTells s := by
  intro th w r hpc hb
  have waiter : (s.pc th).waiter = some w := by rw [hpc]; rfl
  have success : r = .success := by simpa [hpc, Pc.result] using hs.result th w waiter hb
  have quiet := hs.tracked.quiet (hs.tracked.returned th w r hpc hb)
  have completed := hs.status w.tran th (hs.tracked.waiter th w waiter hb)
  rw [bulkResult_tells_iff, success]
  exact ⟨fun _ => ⟨quiet.kernel, completed⟩, fun _ => by decide⟩

end

/-- In every run that meets the conditions every `libusby_bulk_transfer` tells the outcome
of its transfer. -/
theorem always_bulkTells (es : List Event)
    (h : eventLoop.Steps (fun s e _ => BulkSucceeds s e) .initial es) :
    eventLoop.Always BulkTells .initial es :=
  ((Machine.Steps.invariant (Q := fun _ _ _ => True)
    (fun _ _ _ hs hc ht => ⟨spotless_step hs hc ht, trivial⟩) h spotless_initial).1).mono
    fun _ => Spotless.bulkTells

theorem steps_refusalTells (s : Sys) (es : List Event) : eventLoop.Steps RefusalTells s es := by
  refine .of_step fun s e t _ th k u r s₁ _ _ hsub hr => bulkResult_tells_iff.2 ?_
  have negative : r.code < 0 := by
    cases submit_submission hsub with
    | unsupported => decide
    | @rejected errno => cases errno <;> decide
    | accepted => exact absurd rfl hr
  exact ⟨fun h => absurd negative (Int.not_lt.2 h), False.elim⟩

/-- Call 0 runs the loop while call 1 is a `libusby_bulk_transfer` that the device stalls. -/
def stalled : List Event :=
  [.openHandle 0 5, .callRun 0, .enter 0, .head 0 true, .callBulk 1 0 0 0x81 8,
    .bulkSubmit 1 ⟨true, none⟩, .enter 1, .pollReturn 0 (some true), .drain 0 true, .relock 0,
    .head 0 true, .complete 0 (-32) 0, .pollReturn 0 (some false), .reap 0 (some 0),
    .lockReaped 0, .recheck 1]

theorem stalled_untold : ∃ s, eventLoop.exec .initial stalled = some s ∧ ¬ BulkTells s := by
  refine ⟨_, rfl, fun tells => ?_⟩
  have told := (tells 1 ⟨0, true⟩ .success rfl rfl).r.1 (by decide)
  exact absurd told.2 (by decide)

end Libusby.Linux.EventLoop
