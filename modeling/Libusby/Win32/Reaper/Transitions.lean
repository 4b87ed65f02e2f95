import Libusby.Win32.Reaper.Step

/-!
# Transitions of the libusb0 reaper

`Rule` lists what a step can do, one constructor for each branch, and `step_rule` says
that it lists everything. The invariants of the other modules are derived from it.
-/

namespace Libusby.Win32.Reaper

open Foundations Libusby.Core

inductive Rule (c : Checks) (s : Sys) : Event → Sys → Prop
  | fill {t pub} (idle : (s.trans t).submitted = false) :
    Rule c s (.fill t pub) (s.setTran t { s.trans t with pub })
  | refuse {t res n e} (idle : (s.trans t).submitted = false)
    (result : s.submit t res n = some (e, s)) (failed : e ≠ .success) :
    Rule c s (.submit t res n) s
  | reject {t res n} (idle : (s.trans t).submitted = false)
    (result : s.submit t res n =
      some (.io, s.setTran t { s.trans t with overlapped := Sys.issued res n })) :
    Rule c s (.submit t res n) (s.setTran t { s.trans t with overlapped := Sys.issued res n })
  | accept {t res n} (idle : (s.trans t).submitted = false)
    (result : s.submit t res n = some (.success, s.enqueued t (Sys.issued res n))) :
    Rule c s (.submit t res n) (s.enqueued t (Sys.issued res n))
  | complete {t res n} (submitted : (s.trans t).submitted = true) :
    Rule c s (.complete t res n) (s.setTran t { s.trans t with
      overlapped := { hEvent := true, result := some (res, n) } })
  | stop : Rule c s .stop { s with ctx := { s.ctx with hEventLoopStopped := true } }
  | reset : Rule c s .reset { s with ctx := { s.ctx with hEventLoopStopped := false } }
  | callWait {th t} (pc : s.pc th = .idle) :
    Rule c s (.callWait th t) (s.setPc th (.calling (.completion t)))
  | callRun {th} (pc : s.pc th = .idle) :
    Rule c s (.callRun th) (s.setPc th (.calling .eventLoopStopped))
  | waitTarget {th hTarget} (pc : s.pc th = .calling hTarget)
    (signalled : s.signalled hTarget = true) :
    Rule c s (.wait th 0) (s.setPc th (.returned hTarget Error.success.code))
  | waitLock {th hTarget} (pc : s.pc th = .calling hTarget) (free : s.ctx.hReaperLock = true) :
    Rule c s (.wait th 1)
      { s.setPc th (.arming hTarget) with ctx := { s.ctx with hReaperLock := false } }
  | waitFailed {th res hTarget} (pc : s.pc th = .calling hTarget) :
    Rule c s (.wait th res) (s.setPc th (.returned hTarget Error.io.code))
  | armFailed {th reallocOk hTarget r} (pc : s.pc th = .arming hTarget)
    (result : s.arm c hTarget reallocOk = .ok (.error r)) :
    Rule c s (.arm th reallocOk) (s.setPc th (.leaving hTarget r))
  | arm {th reallocOk hTarget ctx handleCount} (pc : s.pc th = .arming hTarget)
    (result : s.arm c hTarget reallocOk = .ok (.ok (ctx, handleCount))) :
    Rule c s (.arm th reallocOk) { s.setPc th (.waiting hTarget handleCount) with ctx }
  | react {th res hTarget handleCount p} (pc : s.pc th = .waiting hTarget handleCount)
    (returns : s.WaitReturns handleCount res)
    (result : s.ctx.react c hTarget handleCount res = .ok p) :
    Rule c s (.waitMultiple th res) (s.setPc th p)
  | found {th hTarget h i t} (pc : s.pc th = .searching hTarget h i (some t)) :
    Rule c s (.search th) (s.setPc th (.reaping hTarget t))
  | next {th hTarget h i t} (pc : s.pc th = .searching hTarget h i (some t)) :
    Rule c s (.search th) (s.setPc th (.searching hTarget h (i + 1) (s.ctx.trani.next t)))
  | notFound {th hTarget h i cur} (pc : s.pc th = .searching hTarget h i cur) :
    Rule c s (.search th) (s.setPc th (.arming hTarget))
  | getResult {th hTarget t pub} (pc : s.pc th = .reaping hTarget t)
    (done : (s.trans t).overlapped.result ≠ none) :
    Rule c s (.getResult th)
      ((s.setTran t { s.trans t with pub }).setPc th (.finished hTarget t))
  | unlink {th hTarget t} (pc : s.pc th = .finished hTarget t) :
    Rule c s (.unlink th) ((s.dequeued t).setPc th (.unlinked hTarget t))
  | callback {th hTarget t} (pc : s.pc th = .unlinked hTarget t)
    (set : (s.trans t).pub.callback = true) :
    Rule c s (.callback th) (s.setPc th (.inCallback hTarget t))
  | noCallback {th hTarget t} (pc : s.pc th = .unlinked hTarget t)
    (unset : (s.trans t).pub.callback = false) :
    Rule c s (.callback th) (s.setPc th (.called hTarget t))
  | callbackReturn {th hTarget t} (pc : s.pc th = .inCallback hTarget t) :
    Rule c s (.callbackReturn th) (s.setPc th (.called hTarget t))
  | signal {th hTarget t} (pc : s.pc th = .called hTarget t)
    (idle : (s.trans t).submitted = false) :
    Rule c s (.signal th)
      ((s.setTran t { s.trans t with hCompletionEvent := true }).setPc th (.arming hTarget))
  | resubmitted {th hTarget t} (pc : s.pc th = .called hTarget t) :
    Rule c s (.signal th) (s.setPc th (.arming hTarget))
  | leave {th hTarget r} (pc : s.pc th = .leaving hTarget r) :
    Rule c s (.leave th)
      { s.setPc th (.returned hTarget r) with ctx := { s.ctx with hReaperLock := true } }
  | ret {th hTarget r} (pc : s.pc th = .returned hTarget r) : Rule c s (.ret th) (s.setPc th .idle)

variable {c : Checks} {s s' : Sys} {t : TranId} {hTarget : Handle}

section
variable (s) (t) (o : Overlapped) (th : Tid)

@[simp, grind =] theorem enqueued_pc : (s.enqueued t o).pc = s.pc := rfl
@[simp, grind =] theorem dequeued_pc : (s.dequeued t).pc = s.pc := rfl

@[simp, grind =] theorem enqueued_hReaperLock :
    (s.enqueued t o).ctx.hReaperLock = s.ctx.hReaperLock := rfl

@[simp, grind =] theorem dequeued_hReaperLock :
    (s.dequeued t).ctx.hReaperLock = s.ctx.hReaperLock := rfl

end

theorem submit_rule {res : Option Win32Error} {n : Nat} {e : Error}
    (idle : (s.trans t).submitted = false) (h : s.submit t res n = some (e, s')) :
    Rule c s (.submit t res n) s' := by
  have result := h
  unfold Sys.submit at h
  split at h
  case h_1 => cases h
  case h_2 hp =>
    cases h
    have := usbybPrepareTransferSubmission_error hp
    exact .refuse idle result (by simp [this])
  case h_3 =>
    split at h
    · cases h
      exact .reject idle result
    · cases h
      exact .accept idle result

theorem step_rule {e : Event} (h : step c s e = some s') : Rule c s e s' := by
  cases e with
  | fill t pub =>
    simp only [step, Option.ite_none_right_eq_some, Option.some.injEq] at h
    obtain ⟨idle, rfl⟩ := h
    exact .fill idle
  | submit t res n =>
    simp only [step, Option.ite_none_right_eq_some, Option.map_eq_some_iff] at h
    obtain ⟨idle, ⟨e, t⟩, hsub, rfl⟩ := h
    exact submit_rule idle hsub
  | complete t res n =>
    simp only [step, Option.ite_none_right_eq_some, Option.some.injEq] at h
    obtain ⟨⟨submitted, -⟩, rfl⟩ := h
    exact .complete submitted
  | stop =>
    cases h
    exact .stop
  | reset =>
    cases h
    exact .reset
  | callWait th t =>
    simp only [step, Option.ite_none_right_eq_some, Option.some.injEq] at h
    obtain ⟨pc, rfl⟩ := h
    exact .callWait pc
  | callRun th =>
    simp only [step, Option.ite_none_right_eq_some, Option.some.injEq] at h
    obtain ⟨pc, rfl⟩ := h
    exact .callRun pc
  | wait th res =>
    simp only [step] at h
    split at h
    case h_1 hTarget pc =>
      split_ifs at h with zero signalled one free
      · cases h
        subst zero
        exact .waitTarget pc signalled
      · cases h
        subst one
        exact .waitLock pc free.2
      · cases h
        exact .waitFailed pc
    case h_2 => cases h
  | arm th reallocOk =>
    simp only [step] at h
    split at h
    case h_1 hTarget pc =>
      split at h
      case h_1 => cases h
      case h_2 r result =>
        cases h
        exact .armFailed pc result
      case h_3 ctx handleCount result =>
        cases h
        exact .arm pc result
    case h_2 => cases h
  | waitMultiple th res =>
    simp only [step] at h
    split at h
    case h_1 hTarget handleCount pc =>
      split_ifs at h with returns
      obtain ⟨p, hp, rfl⟩ := Option.map_eq_some_iff.1 h
      exact .react pc returns (toOption_eq_some.1 hp)
    case h_2 => cases h
  | search th =>
    simp only [step] at h
    split at h
    case h_1 hTarget h' i t pc =>
      split_ifs at h
      · cases h
        exact .found pc
      · cases h
        exact .next pc
      · cases h
        exact .notFound pc
    case h_2 hTarget h' i pc =>
      cases h
      exact .notFound pc
    case h_3 => cases h
  | getResult th =>
    simp only [step] at h
    split at h
    case h_1 hTarget t pc =>
      obtain ⟨⟨res, n⟩, done, rfl⟩ := Option.map_eq_some_iff.1 h
      exact .getResult pc (by simp [done])
    case h_2 => cases h
  | unlink th =>
    simp only [step] at h
    split at h
    case h_1 hTarget t pc =>
      cases h
      exact .unlink pc
    case h_2 => cases h
  | callback th =>
    simp only [step] at h
    split at h
    case h_1 hTarget t pc =>
      split_ifs at h with set
      · cases h
        exact .callback pc set
      · cases h
        exact .noCallback pc (Bool.eq_false_iff.2 set)
    case h_2 => cases h
  | callbackReturn th =>
    simp only [step] at h
    split at h
    case h_1 hTarget t pc =>
      cases h
      exact .callbackReturn pc
    case h_2 => cases h
  | signal th =>
    simp only [step] at h
    split at h
    case h_1 hTarget t pc =>
      split_ifs at h with idle
      · cases h
        exact .signal pc idle
      · cases h
        exact .resubmitted pc
    case h_2 => cases h
  | leave th =>
    simp only [step] at h
    split at h
    case h_1 hTarget r pc =>
      cases h
      exact .leave pc
    case h_2 => cases h
  | ret th =>
    simp only [step] at h
    split at h
    case h_1 hTarget r pc =>
      cases h
      exact .ret pc
    case h_2 => cases h

/-- Where a wait leads. -/
theorem react_cases {n : Nat} {res : UInt32} {p : Pc} (h : s.ctx.react c hTarget n res = .ok p) :
    p = .leaving hTarget Error.io.code ∨
    res = 0 ∧ p = .leaving hTarget Error.success.code ∨
    res = 1 ∧ p = .arming hTarget ∨
    ∃ x, p = .searching hTarget x 0 s.ctx.trani.first := by
  unfold Context.react at h
  split_ifs at h with failed zero one
  · cases h
    exact .inl rfl
  · cases h
    exact .inr (.inl ⟨zero, rfl⟩)
  · cases h
    exact .inr (.inr (.inl ⟨one, rfl⟩))
  · split at h
    case h_1 x _ =>
      cases h
      exact .inr (.inr (.inr ⟨x, rfl⟩))
    case h_2 => cases h

/-- What preparing the wait leaves alone. -/
theorem arm_frame {reallocOk : Bool} {ctx : Context} {n : Nat}
    (h : s.arm c hTarget reallocOk = .ok (.ok (ctx, n))) :
    ctx.trani = s.ctx.trani ∧ ctx.tranCount = s.ctx.tranCount ∧
      ctx.hReaperLock = s.ctx.hReaperLock := by
  unfold Sys.arm at h
  split at h
  split_ifs at h
  · cases h
  · simp only [bind_eq_ok] at h
    obtain ⟨_, -, _, -, _, -, h⟩ := h
    cases h
    exact ⟨rfl, rfl, rfl⟩

end Libusby.Win32.Reaper
