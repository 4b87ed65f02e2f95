import Libusby.Linux.EventLoop.Ownership

/-!
# Handing the polling loop over

The call that leaves the loop clears `loop_locked` without a broadcast on
`ctx_cond`, and a waiter that parks on its transfer relies on whoever is inside.
`handover_iff` says exactly which steps strand a parked call: the last call
inside leaves while another one (or itself) still needs the loop, or a call
woken from a transfer's `cond` finds the transfer active again with nobody
inside.
-/

namespace Libusby.Linux.EventLoop

open Foundations

/-- Nobody waits for the loop, unless it is stopped, and nobody waits for an
active transfer, apart from calls that a broadcast has already reached. -/
structure NoneStranded (s : Sys) : Prop where
  ctx : s.ctx.loopEnabled = true → ∀ x watch, s.pc x ≠ .parkedCtx watch false
  tran : ∀ x w r, s.pc x = .parkedTran w r false → (s.trans w.tran).active = 0

/-- With `ctx_mutex` free and nobody inside the loop, nobody depends on it. -/
def HandedOver (s : Sys) : Prop := s.mutex = none → (∀ x, ¬ s.Inside x) → NoneStranded s

/-- The last call inside leaves although a parked call, or its own transfer,
still needs the loop. -/
def LeavesBehind (s : Sys) (e : Event) : Prop :=
  ∃ th b f r r', e = .head th b ∧ s.pc th = .loopHead f r ∧ s.EndsLoop f r b r' ∧
    (∀ x, s.Inside x → x = th) ∧
    ¬ (NoneStranded s ∧ ∀ w ∈ f.watchTran, (s.trans w.tran).active = 0)

/-- A call woken from its transfer's `cond` goes back to sleep with nobody
inside. -/
def SleepsAgain (s : Sys) (e : Event) : Prop :=
  ∃ th w r b, e = .recheck th ∧ s.pc th = .parkedTran w r b ∧ s.mutex = none ∧
    (∀ x, ¬ s.Inside x) ∧ (s.trans w.tran).active ≠ 0

/-- What every reachable state satisfies: the flag has an owner, the mutex is
held inside the loop only, and a stopped loop has woken everybody. -/
structure Coherent (s : Sys) : Prop where
  locked : s.ctx.loopLocked = true → ∃ x, s.Inside x
  mutex : ∀ th, s.mutex = some th → s.Inside th
  stopped : s.ctx.loopEnabled = false → ∀ x watch, s.pc x ≠ .parkedCtx watch false

theorem coherent_initial : Coherent .initial where
  locked := by simp [Sys.initial]
  mutex := by simp [Sys.initial]
  stopped := by simp [Sys.initial]

theorem coherent_step {s t : Sys} {e : Event} (hs : Coherent s) (h : step s e = some t) :
    Coherent t where
  locked := locked_inside hs.locked h
  mutex th hm := by
    have hth := hs.mutex th
    unfold Sys.Inside at *
    cases step_trans h <;> grind -linarith [Sys.Arrives, Pc.inside]
  stopped he x watch := by
    have hst := fun he => hs.stopped he x watch
    cases step_trans h <;> grind -linarith [Sys.Arrives]

/-- With nobody inside, before and after, a step that does not go back to sleep
strands nobody. -/
theorem noneStranded_step {s t : Sys} {e : Event} (hs : Coherent s) (hn : NoneStranded s)
    (hc : ¬ SleepsAgain s e) (h : step s e = some t) (out : ∀ x, ¬ s.Inside x)
    (out' : ∀ x, ¬ t.Inside x) : NoneStranded t := by
  have unlocked : s.ctx.loopLocked = false := by
    by_contra hl
    obtain ⟨x, ix⟩ := hs.locked (by simpa using hl)
    exact out x ix
  have trans := step_trans h
  unfold SleepsAgain Sys.Inside at *
  constructor
  · intro he x watch
    have here := fun he => hn.ctx he x watch
    have stopped := fun he => hs.stopped he x watch
    cases trans <;> grind -linarith [Sys.Arrives]
  · intro x w r hx
    have here := hn.tran x w r
    have outx' := out' x
    cases trans <;> grind -linarith [Pc.inside]

/-- The last call to leave passes the loop on if nobody, itself included, needs
it any more. -/
theorem noneStranded_leave {s : Sys} {th : Tid} {f : Frame} {r' : Error} (hn : NoneStranded s)
    (done : ∀ w ∈ f.watchTran, (s.trans w.tran).active = 0) :
    NoneStranded (s.leaveLoop th f.watchTran r') where
  ctx he x watch := by
    have here := fun he => hn.ctx he x watch
    grind -linarith
  tran x w r hx := by
    have here := hn.tran x w r
    grind -linarith

theorem handedOver_step {s t : Sys} {e : Event} (hs : Coherent s) (ho : HandedOver s)
    (leaves : ¬ LeavesBehind s e) (sleeps : ¬ SleepsAgain s e) (h : step s e = some t) :
    HandedOver t := by
  intro _ out'
  have stay (out : ∀ x, ¬ s.Inside x) : NoneStranded t := by
    have free : s.mutex = none := by
      cases hm : s.mutex with
      | none => rfl
      | some th => exact absurd (hs.mutex th hm) (out th)
    exact noneStranded_step hs (ho free out) sleeps h out out'
  cases loopEffect h with
  | keep _ hx => exact stay fun x ix => out' x ((hx x).2 ix)
  | @acquire th watch _ _ _ ht =>
    exact absurd (ht ▸ (acquire_inside th th watch).2 (.inl rfl)) (out' th)
  | @leave th f r b r' he hpc l ht =>
    subst ht
    have only : ∀ x, s.Inside x → x = th := by
      intro x ix
      by_contra hx
      exact out' x ((leaveLoop_inside ..).2 ⟨hx, ix⟩)
    have needs : NoneStranded s ∧ ∀ w ∈ f.watchTran, (s.trans w.tran).active = 0 := by
      by_contra hn
      exact leaves ⟨th, b, f, r, r', he, hpc, l, only, hn⟩
    exact noneStranded_leave needs.1 needs.2

/-- If nobody is stranded after the last call has left, nobody needed it. -/
theorem not_leavesBehind {s t : Sys} {e : Event} (h : step s e = some t) (ho : HandedOver t) :
    ¬ LeavesBehind s e := by
  rintro ⟨th, b, f, r, r', rfl, hpc, l, only, needs⟩
  cases (step_leave hpc l).symm.trans h
  have out (x) : ¬ (s.leaveLoop th f.watchTran r').Inside x := by
    rw [leaveLoop_inside]
    exact fun ⟨hx, ix⟩ => hx (only x ix)
  have hn := ho (by simp) out
  refine needs ⟨⟨fun he x watch => ?_, fun x w q hx => ?_⟩, fun w hw => ?_⟩
  · have := hn.ctx (by simpa using he) x watch
    grind -linarith
  · have := hn.tran x w q
    grind -linarith
  · by_contra ha
    have := hn.tran th w r'
    grind -linarith

theorem not_sleepsAgain {s t : Sys} {e : Event} (h : step s e = some t) (ho : HandedOver t) :
    ¬ SleepsAgain s e := by
  rintro ⟨th, w, r, b, rfl, hpc, hm, out, ha⟩
  have ht : t = s.waitActive th w r := by
    simpa [step, hpc, hm] using h.symm
  subst ht
  have hn := ho rfl fun x => by
    rw [Sys.Inside, waitActive_pc]
    by_cases hx : x = th
    · simp [hx]
    · simpa [hx, Sys.Inside] using out x
  have := hn.tran th w r
  grind -linarith

/-- In every state of a run with `ctx_mutex` free and nobody in the polling loop,
nobody is parked who needs it, exactly when the last call inside never leaves
such a call (or itself) behind and no call woken from a transfer's `cond` goes
back to sleep with the loop empty. -/
theorem handover_iff (es : List Event) :
    eventLoop.Always HandedOver .initial es ↔
      eventLoop.Steps (fun s e _ => ¬ LeavesBehind s e ∧ ¬ SleepsAgain s e) .initial es := by
  constructor
  · intro h
    refine Machine.Always.steps (I := fun _ => True) (fun _ _ _ _ _ => trivial) ?_ h trivial
    exact fun s e t _ _ ht ho => ⟨not_leavesBehind ht ho, not_sleepsAgain ht ho⟩
  · intro h
    refine ((Machine.Steps.invariant (I := fun s => Coherent s ∧ HandedOver s)
      (Q := fun _ _ _ => True) ?_ h ⟨coherent_initial, ?_⟩).1).mono fun _ => And.right
    · exact fun s e t hs hc ht =>
        ⟨⟨coherent_step hs.1 ht, handedOver_step hs.1 hs.2 hc.1 hc.2 ht⟩, trivial⟩
    · exact fun _ _ => ⟨by simp [Sys.initial], by simp [Sys.initial]⟩

/-- `e` is the beginning of call `x`. -/
def Event.begins (x : Tid) : Event → Bool
  | .callRun th | .callWait th _ | .callBulk th _ _ _ _ => th = x
  | _ => false

theorem idle_step {s t : Sys} {e : Event} {x : Tid} (hx : s.pc x = .idle)
    (hb : e.begins x = false) (h : step s e = some t) : t.pc x = .idle := by
  cases step_trans h <;> grind -linarith [Event.begins, Sys.Arrives]

/-- A call that does not begin stays idle. -/
theorem idle_exec {s t : Sys} {es : List Event} {x : Tid} (hx : s.pc x = .idle)
    (hb : ∀ e ∈ es, e.begins x = false) (h : eventLoop.exec s es = some t) : t.pc x = .idle := by
  induction es generalizing s with
  | nil => cases h; exact hx
  | cons e es ih =>
    obtain ⟨u, hu, h⟩ := Machine.exec_cons.1 h
    exact ih (idle_step hx (hb e (by simp)) hu) (fun f hf => hb f (by simp [hf])) h

/-- Call 1 parks on `ctx_cond` while call 0 polls; `poll` fails and call 0 leaves. -/
def abandonment : List Event :=
  [.callRun 0, .enter 0, .head 0 true, .callRun 1, .enter 1, .pollReturn 0 none, .relock 0,
    .head 0 true]

theorem abandonment_strands : ∃ s, eventLoop.exec .initial abandonment = some s ∧
    s.mutex = none ∧ s.ctx.loopEnabled = true ∧ s.pc 1 = .parkedCtx none false ∧
    s.pc 0 = .runReturned .io := ⟨_, rfl, rfl, rfl, rfl, rfl⟩

theorem handover_fails : ¬ ∀ es, eventLoop.Always HandedOver .initial es := by
  intro h
  obtain ⟨s, hs, free, enabled, h1, h0⟩ := abandonment_strands
  refine (((h abandonment).exec hs) free fun x => ?_).ctx enabled 1 none h1
  by_cases x0 : x = 0
  · simp [Sys.Inside, x0, h0, Pc.inside]
  by_cases x1 : x = 1
  · simp [Sys.Inside, x1, h1, Pc.inside]
  have idle : s.pc x = .idle := by
    refine idle_exec rfl ?_ hs
    simp [abandonment, Event.begins, Ne.symm x0, Ne.symm x1]
  simp [Sys.Inside, idle, Pc.inside]

end Libusby.Linux.EventLoop
