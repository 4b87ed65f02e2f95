import Libusby.Foundations.Pairing
import Libusby.Win32.Reaper.Handles

/-!
# Every submission is reaped once, every reap calls back once

The steps of a run are counted by what they do with one transfer. A submission that
succeeds and the reap pair up, so do a reap and the place where the callback is called,
and the call of the callback and its return.
-/

namespace Libusby.Win32.Reaper

open Foundations Libusby.Core

variable {c : Checks} {s s' : Sys} {e : Event} {th : Tid} {t : TranId} {p : Pc}

/-- `usbyb_submit_transfer` returns `LIBUSBY_SUCCESS` for transfer `t`. -/
def accepts (t : TranId) (s : Sys) : Event → Bool
  | .submit u res n => u = t ∧ (s.submit u res n).map Prod.fst = some .success
  | _ => false

/-- Transfer `t` is taken off the list. -/
def reaps (t : TranId) (s : Sys) : Event → Bool
  | .unlink th =>
    match s.pc th with
    | .finished _ u => u = t
    | _ => false
  | _ => false

/-- The callback of transfer `t` is called. -/
def callsBack (t : TranId) (s : Sys) : Event → Bool
  | .callback th =>
    match s.pc th with
    | .unlinked _ u => u = t ∧ (s.trans u).pub.callback = true
    | _ => false
  | _ => false

/-- Transfer `t` has no callback when it would be called. -/
def hasNoCallback (t : TranId) (s : Sys) : Event → Bool
  | .callback th =>
    match s.pc th with
    | .unlinked _ u => u = t ∧ (s.trans u).pub.callback = false
    | _ => false
  | _ => false

/-- The callback of transfer `t` returns. -/
def callbackReturns (t : TranId) (s : Sys) : Event → Bool
  | .callbackReturn th =>
    match s.pc th with
    | .inCallback _ u => u = t
    | _ => false
  | _ => false

theorem hasNoCallback_of_callsBack (h : callsBack t s e = true) : hasNoCallback t s e = false := by
  cases e with
  | callback th =>
    simp only [callsBack, hasNoCallback] at *
    split at h
    case h_1 u _ =>
      obtain ⟨-, set⟩ := of_decide_eq_true h
      simp [set]
    case h_2 => cases h
  | _ => rfl

/-- The transfer whose callback is about to be called. -/
def Pc.due : Pc → Option TranId
  | .unlinked _ t => some t
  | _ => none

/-- The transfer whose callback is running. -/
def Pc.running : Pc → Option TranId
  | .inCallback _ t => some t
  | _ => none

/-- The callback of transfer `t` is about to be called. -/
def Sys.CallbackDue (s : Sys) (t : TranId) : Prop := ∃ th, (s.pc th).due = some t

/-- The callback of transfer `t` is running. -/
def Sys.CallbackRunning (s : Sys) (t : TranId) : Prop := ∃ th, (s.pc th).running = some t

theorem Pc.reaped_of_due (h : p.due = some t) : p.reaped = some t := by
  cases p <;> first | exact h | cases h

theorem Pc.reaped_of_running (h : p.running = some t) : p.reaped = some t := by
  cases p <;> first | exact h | cases h

section
variable {f : Pc → Option TranId}

/-- A step of one thread that does not concern `f`. -/
theorem somewhere_same (pc : s'.pc = (s.setPc th p).pc) (same : f p = f (s.pc th)) :
    (∃ x, f (s'.pc x) = some t) ↔ ∃ x, f (s.pc x) = some t := by
  apply exists_congr
  intro x
  rw [pc, Sys.setPc_pc]
  split_ifs with hx
  · rw [hx, same]
  · rfl

/-- Only the reaper has a transfer off the list, so what it does is all that happens. -/
theorem Consistent.moves (h : Consistent s) (hf : ∀ p t, f p = some t → p.reaped = some t)
    (reaping : s.Reaping th) (pc : s'.pc = (s.setPc th p).pc) {starts ends : Bool}
    (moves : Moves starts ends (f (s.pc th) = some t) (f p = some t)) :
    Moves starts ends (∃ x, f (s.pc x) = some t) (∃ x, f (s'.pc x) = some t) := by
  have only (x : Tid) (hx : f (s.pc x) = some t) : x = th :=
    h.token.unique (Pc.inside_of_reaped (hf _ _ hx)) reaping
  have before : (∃ x, f (s.pc x) = some t) ↔ f (s.pc th) = some t :=
    ⟨fun ⟨x, hx⟩ => only x hx ▸ hx, fun h => ⟨th, h⟩⟩
  have after : (∃ x, f (s'.pc x) = some t) ↔ f p = some t := by
    constructor
    · rintro ⟨x, hx⟩
      rw [pc, Sys.setPc_pc] at hx
      split_ifs at hx with same
      · exact hx
      · exact absurd (only x hx) same
    · intro hp
      refine ⟨th, ?_⟩
      rw [pc, Sys.setPc_pc, if_pos rfl, hp]
  rwa [before, after]

end

theorem submission_moves (h : Consistent s) (hs : step c s e = some s') :
    Moves (accepts t s e) (reaps t s e) ((s.trans t).submitted = true)
      ((s'.trans t).submitted = true) := by
  cases step_rule hs with
  | @accept u res n idle result =>
    by_cases hu : u = t
    · subst hu
      refine .start ?_ rfl (by simp [idle]) ?_
      · simp [accepts, result]
      · simp [Sys.enqueued]
    · refine .rest ?_ rfl ?_
      · simp [accepts, hu]
      · simp [Sys.enqueued, Ne.symm hu]
  | @unlink th hTarget u pc =>
    have submitted : (s.trans u).submitted = true := h.listed th u (by rw [pc]; rfl)
    by_cases hu : u = t
    · subst hu
      refine .finish rfl ?_ submitted ?_
      · simp [reaps, pc]
      · simp [Sys.dequeued]
    · refine .rest rfl ?_ ?_
      · simp [reaps, pc, hu]
      · simp [Sys.dequeued, Ne.symm hu]
  | refuse idle result failed => exact .rest (by simp [accepts, result, failed]) rfl Iff.rfl
  | reject idle result =>
    refine .rest (by simp [accepts, result]) rfl (Iff.of_eq (congrArg (· = true) ?_))
    exact Sys.setTran_keeps _ _ _ _ (·.submitted) rfl
  | fill | complete | signal | getResult =>
    refine .rest rfl rfl (Iff.of_eq (congrArg (· = true) ?_))
    exact Sys.setTran_keeps _ _ _ _ (·.submitted) rfl
  | _ => exact .rest rfl rfl Iff.rfl

/-- A wait never leads to a callback. -/
theorem react_reaped {hTarget : Handle} {n : Nat} {res : UInt32}
    (h : s.ctx.react c hTarget n res = .ok p) : p.reaped = none := by
  obtain rfl | ⟨-, rfl⟩ | ⟨-, rfl⟩ | ⟨x, rfl⟩ := react_cases h <;> rfl

theorem Pc.due_of_reaped (h : p.reaped = none) : p.due = none := by
  cases p <;> first | rfl | cases h

theorem Pc.running_of_reaped (h : p.reaped = none) : p.running = none := by
  cases p <;> first | rfl | cases h

theorem callbackDue_moves (h : Consistent s) (hs : step c s e = some s') :
    Moves (reaps t s e) (callsBack t s e || hasNoCallback t s e) (s.CallbackDue t)
      (s'.CallbackDue t) := by
  cases step_rule hs with
  | fill | reject | accept | complete | stop | reset | refuse => exact .rest rfl rfl Iff.rfl
  | @unlink th hTarget u pc =>
    apply h.moves (fun _ _ => Pc.reaped_of_due) (Sys.reaping_of pc rfl) rfl
    rw [pc]
    by_cases hu : u = t
    · exact .start (by simp [reaps, pc, hu]) rfl nofun (congrArg some hu)
    · exact .rest (by simp [reaps, pc, hu]) rfl (by simp [Pc.due, hu])
  | @callback th hTarget u pc set | @noCallback th hTarget u pc set =>
    apply h.moves (fun _ _ => Pc.reaped_of_due) (Sys.reaping_of pc rfl) rfl
    rw [pc]
    by_cases hu : u = t
    · subst hu
      exact .finish rfl (by simp [callsBack, hasNoCallback, pc, set]) rfl nofun
    · exact .rest rfl (by simp [callsBack, hasNoCallback, pc, hu]) (by simp [Pc.due, hu])
  | react pc returns result =>
    refine .rest rfl rfl (somewhere_same rfl ?_)
    rw [Pc.due_of_reaped (react_reaped result), pc]
    rfl
  | callWait pc | callRun pc | waitTarget pc | waitLock pc | waitFailed pc | armFailed pc | arm pc
  | found pc | next pc | notFound pc | getResult pc | callbackReturn pc | signal pc
  | resubmitted pc | leave pc | ret pc => exact .rest rfl rfl (somewhere_same rfl (pc ▸ rfl))

theorem callbackRunning_moves (h : Consistent s) (hs : step c s e = some s') :
    Moves (callsBack t s e) (callbackReturns t s e) (s.CallbackRunning t)
      (s'.CallbackRunning t) := by
  cases step_rule hs with
  | fill | reject | accept | complete | stop | reset | refuse => exact .rest rfl rfl Iff.rfl
  | @callback th hTarget u pc set =>
    apply h.moves (fun _ _ => Pc.reaped_of_running) (Sys.reaping_of pc rfl) rfl
    rw [pc]
    by_cases hu : u = t
    · subst hu
      exact .start (by simp [callsBack, pc, set]) rfl nofun rfl
    · exact .rest (by simp [callsBack, pc, hu]) rfl (by simp [Pc.running, hu])
  | @callbackReturn th hTarget u pc =>
    apply h.moves (fun _ _ => Pc.reaped_of_running) (Sys.reaping_of pc rfl) rfl
    rw [pc]
    by_cases hu : u = t
    · exact .finish rfl (by simp [callbackReturns, pc, hu]) (congrArg some hu) nofun
    · exact .rest rfl (by simp [callbackReturns, pc, hu]) (by simp [Pc.running, hu])
  | @noCallback th hTarget u pc unset =>
    refine .rest ?_ rfl (somewhere_same rfl (pc ▸ rfl))
    simp only [callsBack, pc, unset]
    simp
  | react pc returns result =>
    refine .rest rfl rfl (somewhere_same rfl ?_)
    rw [Pc.running_of_reaped (react_reaped result), pc]
    rfl
  | callWait pc | callRun pc | waitTarget pc | waitLock pc | waitFailed pc | armFailed pc | arm pc
  | found pc | next pc | notFound pc | getResult pc | unlink pc | signal pc | resubmitted pc
  | leave pc | ret pc => exact .rest rfl rfl (somewhere_same rfl (pc ▸ rfl))

/-! ## What a call that returns saw -/

/-- What the call will return or has returned. -/
def Pc.outcome : Pc → Option (Handle × Int)
  | .leaving hTarget r | .returned hTarget r => some (hTarget, r)
  | _ => none

/-- Thread `th` finds its target signalled, in the first wait or as the reaper. -/
def FindsTarget (s : Sys) (th : Tid) (hTarget : Handle) : Event → Prop
  | .wait x res => x = th ∧ res = 0 ∧ s.pc th = .calling hTarget
  | .waitMultiple x res => x = th ∧ res = 0 ∧ ∃ n, s.pc th = .waiting hTarget n
  | _ => False

theorem asInt_dword (e : Error) : asInt (dword e) = e.code := by cases e <;> rfl

/-- Only a failure is returned before the wait. -/
theorem arm_error {hTarget : Handle} {ok : Bool} {r : Int}
    (h : s.arm c hTarget ok = .ok (.error r)) : r ≠ Error.success.code := by
  unfold Sys.arm at h
  generalize usbyiReserveHandleList s.ctx.handleList (2 + s.ctx.tranCount) ok = reserved at h
  obtain ⟨e, handleList⟩ := reserved
  simp only at h
  split_ifs at h with failed
  · cases h
    rw [asInt_dword]
    intro success
    have : e = .success := by cases e <;> first | rfl | exact absurd success (by decide)
    subst this
    exact absurd (failed.symm.trans c.reserve_success) nofun
  · simp only [bind_eq_ok] at h
    obtain ⟨_, -, _, -, _, -, h⟩ := h
    cases h

theorem signalled_of_findsTarget {hTarget : Handle} (hr : HandlesReady s)
    (hs : step c s e = some s') (h : FindsTarget s th hTarget e) : s.signalled hTarget = true := by
  cases e with
  | wait x res =>
    obtain ⟨rfl, rfl, pc⟩ := h
    simp only [step, pc] at hs
    by_contra idle
    simp [idle] at hs
  | waitMultiple x res =>
    obtain ⟨rfl, rfl, n, pc⟩ := h
    simp only [step, pc, Option.ite_none_right_eq_some] at hs
    have armed := hr.armed x hTarget n pc
    obtain ⟨-, first, -⟩ := hs.1 (show 0 < n from Nat.lt_of_lt_of_le (by decide) armed.two_le)
    simpa [Sys.signalledAt, armed.target] using first
  | _ => exact h.elim

theorem outcome_setPc {x : Tid} {o : Handle × Int} (pc : s'.pc = (s.setPc x p).pc)
    (h : (s'.pc th).outcome = some o) :
    x = th ∧ p.outcome = some o ∨ x ≠ th ∧ (s.pc th).outcome = some o := by
  rw [pc, Sys.setPc_pc] at h
  split_ifs at h with same
  · exact .inl ⟨same.symm, h⟩
  · exact .inr ⟨Ne.symm same, h⟩

/-- `LIBUSBY_SUCCESS` comes from a wait that found the target signalled. -/
theorem outcome_step {hTarget : Handle} (hs : step c s e = some s')
    (h : (s'.pc th).outcome = some (hTarget, Error.success.code)) :
    e ≠ .ret th ∧ ((s.pc th).outcome = some (hTarget, Error.success.code) ∨
      FindsTarget s th hTarget e) := by
  cases step_rule hs with
  | fill | reject | accept | complete | stop | reset | refuse => exact ⟨nofun, .inl h⟩
  | waitTarget pc =>
    rcases outcome_setPc rfl h with ⟨rfl, hp⟩ | ⟨-, h⟩
    · cases hp
      exact ⟨nofun, .inr ⟨rfl, rfl, pc⟩⟩
    · exact ⟨nofun, .inl h⟩
  | waitFailed pc =>
    rcases outcome_setPc rfl h with ⟨rfl, hp⟩ | ⟨-, h⟩
    · cases hp
    · exact ⟨nofun, .inl h⟩
  | armFailed pc result =>
    rcases outcome_setPc rfl h with ⟨rfl, hp⟩ | ⟨-, h⟩
    · cases hp
      exact absurd rfl (arm_error result)
    · exact ⟨nofun, .inl h⟩
  | react pc returns result =>
    rcases outcome_setPc rfl h with ⟨rfl, hp⟩ | ⟨-, h⟩
    · rcases react_cases result with rfl | ⟨rfl, rfl⟩ | ⟨-, rfl⟩ | ⟨x, rfl⟩
      · cases hp
      · cases hp
        exact ⟨nofun, .inr ⟨rfl, rfl, _, pc⟩⟩
      · cases hp
      · cases hp
    · exact ⟨nofun, .inl h⟩
  | leave pc =>
    rcases outcome_setPc rfl h with ⟨rfl, hp⟩ | ⟨-, h⟩
    · rw [pc]
      exact ⟨nofun, .inl hp⟩
    · exact ⟨nofun, .inl h⟩
  | ret pc =>
    rcases outcome_setPc rfl h with ⟨rfl, hp⟩ | ⟨other, h⟩
    · cases hp
    · exact ⟨fun same => other (Event.ret.inj same), .inl h⟩
  | callWait | callRun | waitLock | arm | found | next | notFound | getResult | unlink | callback
  | noCallback | callbackReturn | signal | resubmitted =>
    rcases outcome_setPc rfl h with ⟨rfl, hp⟩ | ⟨-, h⟩
    · cases hp
    · exact ⟨nofun, .inl h⟩

/-- The step of the run at which the call of thread `th` found its target signalled. -/
theorem outcome_success {es : List Event} {hTarget : Handle}
    (h : (reaper c).exec {} es = some s)
    (success : (s.pc th).outcome = some (hTarget, Error.success.code)) :
    ∃ es₁ e es₂ u, es = es₁ ++ e :: es₂ ∧ (reaper c).exec {} es₁ = some u ∧
      FindsTarget u th hTarget e ∧ u.signalled hTarget = true ∧ Event.ret th ∉ es₂ := by
  refine Machine.exec_induction (motive := fun es s =>
    (s.pc th).outcome = some (hTarget, Error.success.code) → ∃ es₁ e es₂ u, es = es₁ ++ e :: es₂ ∧
      (reaper c).exec {} es₁ = some u ∧ FindsTarget u th hTarget e ∧ u.signalled hTarget = true ∧
      Event.ret th ∉ es₂) ?_ ?_ h success
  · intro idle
    cases idle
  intro es u e v hu ih hv success
  rcases outcome_step hv success with ⟨notRet, before | finds⟩
  · obtain ⟨es₁, e', es₂, w, rfl, hw, finds, signalled, inside⟩ := ih before
    refine ⟨es₁, e', es₂ ++ [e], w, by simp, hw, finds, signalled, ?_⟩
    simp [inside, Ne.symm notRet]
  · exact ⟨es, e, [], u, rfl, hu, finds,
      signalled_of_findsTarget (HandlesReady.of_reachable ⟨es, hu⟩) hv finds,
      List.not_mem_nil⟩

/-! ## The accounts of a run -/

section
variable (c) (es : List Event) (t : TranId)

/-- How many submissions of transfer `t` succeeded in the run. -/
def submissions : Nat := (reaper c).occurrences (accepts t) {} es

def reapsOf : Nat := (reaper c).occurrences (reaps t) {} es

def callbacks : Nat := (reaper c).occurrences (callsBack t) {} es

/-- How many reaps of transfer `t` found no callback. -/
def callbacksUnset : Nat := (reaper c).occurrences (hasNoCallback t) {} es

def callbacksReturned : Nat := (reaper c).occurrences (callbackReturns t) {} es

end

section
variable {es : List Event} (h : (reaper c).exec {} es = some s) (t : TranId)
include h

theorem pending_submission :
    Pending ((s.trans t).submitted = true) (submissions c es t) (reapsOf c es t) :=
  Machine.pending h Consistent.init (by simp) (fun _ _ _ => Consistent.step)
    fun _ _ _ => submission_moves

theorem pending_callback :
    Pending (s.CallbackDue t) (reapsOf c es t) (callbacks c es t + callbacksUnset c es t) := by
  have := Machine.pending (P := fun s => s.CallbackDue t) h Consistent.init nofun
    (fun _ _ _ => Consistent.step) fun _ _ _ => callbackDue_moves (t := t)
  rwa [Machine.occurrences_or h fun _ _ => hasNoCallback_of_callsBack] at this

theorem pending_return :
    Pending (s.CallbackRunning t) (callbacks c es t) (callbacksReturned c es t) :=
  Machine.pending (P := fun s => s.CallbackRunning t) h Consistent.init nofun
    (fun _ _ _ => Consistent.step) fun _ _ _ => callbackRunning_moves

end

/-- In every state of every run the list, the counter and the flags describe one queue,
each transfer on it is one submission that is not reaped yet, each reap follows the end of
its request and calls back once, and a completion event is signalled only for a transfer
that is neither queued nor being reaped. A wait for a transfer that returns
`LIBUSBY_SUCCESS` saw such a moment. -/
theorem transfers_conserved (c : Checks) {es : List Event} {s : Sys}
    (h : (reaper c).exec {} es = some s) :
    (∃ q, s.ctx.trani.Chain q ∧ s.ctx.tranCount = q.length ∧
      (∀ t, t ∈ q ↔ (s.trans t).submitted = true) ∧
      (∀ t, Pending (t ∈ q) (submissions c es t) (reapsOf c es t)) ∧
      ∀ t, (s.trans t).hCompletionEvent = true → t ∉ q ∧ ¬s.BeingReaped t) ∧
    (∀ th hTarget t, s.pc th = .finished hTarget t → (s.trans t).overlapped.result ≠ none) ∧
    (∀ t, Pending (s.CallbackDue t) (reapsOf c es t)
      (callbacks c es t + callbacksUnset c es t)) ∧
    (∀ t, Pending (s.CallbackRunning t) (callbacks c es t) (callbacksReturned c es t)) ∧
    ∀ th t, s.pc th = .returned (.completion t) Error.success.code →
      ∃ es₁ e es₂ u, es = es₁ ++ e :: es₂ ∧ (reaper c).exec {} es₁ = some u ∧
        FindsTarget u th (.completion t) e ∧ Event.ret th ∉ es₂ ∧
        (u.trans t).submitted = false ∧ ¬u.BeingReaped t ∧
        submissions c es₁ t = reapsOf c es₁ t ∧
        reapsOf c es₁ t = callbacks c es₁ t + callbacksUnset c es₁ t ∧
        callbacks c es₁ t = callbacksReturned c es₁ t := by
  have hc : Consistent s := Consistent.of_reachable ⟨es, h⟩
  obtain ⟨q, hq⟩ := hc.queue
  refine ⟨⟨q, hq.chain, hq.count, hq.mem, fun t => ?_, fun t ht => ?_⟩,
    ReapsDone.of_reachable ⟨es, h⟩, pending_callback h, pending_return h, fun th t returned => ?_⟩
  · rw [hq.mem]
    exact pending_submission h t
  · obtain ⟨idle, free⟩ := hc.completion t ht
    exact ⟨by simp [hq.mem, idle], free⟩
  · obtain ⟨es₁, e, es₂, u, rfl, hu, finds, signalled, inside⟩ :=
      outcome_success h (congrArg Pc.outcome returned)
    have hc : Consistent u := Consistent.of_reachable ⟨es₁, hu⟩
    obtain ⟨idle, free⟩ := hc.completion t signalled
    refine ⟨es₁, e, es₂, u, rfl, hu, finds, inside, idle, free, ?_, ?_, ?_⟩
    · exact (pending_submission hu t).idle (by simp [idle])
    · exact (pending_callback hu t).idle fun ⟨x, hx⟩ => free ⟨x, Pc.reaped_of_due hx⟩
    · exact (pending_return hu t).idle fun ⟨x, hx⟩ => free ⟨x, Pc.reaped_of_running hx⟩

/-- One transfer is submitted, reaped by the thread that waits for it, and found completed. -/
theorem transfers_conserved_once : ∃ s,
    (reaper .source).exec {} [.fill 7 { type := .bulk }, .submit 7 none 0, .callWait 0 7, .wait 0 1,
      .arm 0 true, .waitMultiple 0 2, .search 0, .getResult 0, .unlink 0, .callback 0, .signal 0,
      .arm 0 true, .waitMultiple 0 0, .leave 0] = some s ∧
    s.pc 0 = .returned (.completion 7) 0 ∧ ∃ q, s.ctx.trani.Chain q ∧ s.ctx.tranCount = q.length := by
  refine ⟨_, rfl, rfl, ?_⟩
  obtain ⟨⟨q, chain, count, -⟩, -⟩ := transfers_conserved .source (rfl : (reaper .source).exec {}
    [.fill 7 { type := .bulk }, .submit 7 none 0, .callWait 0 7, .wait 0 1, .arm 0 true,
      .waitMultiple 0 2, .search 0, .getResult 0, .unlink 0, .callback 0, .signal 0, .arm 0 true,
      .waitMultiple 0 0, .leave 0] = some _)
  exact ⟨q, chain, count⟩

end Libusby.Win32.Reaper
