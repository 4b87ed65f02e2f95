import Libusby.Linux.EventLoop.Transitions

/-!
# Who owns the polling loop

`loop_locked` is taken at line 111 after a wait that also ends when
`loop_enabled` is 0, and it is released at line 202 whoever else is inside. So
the flag is the mutual exclusion of the loop exactly in the runs in which no
call passes line 109 while the flag is set (`ownership_iff`).
-/

namespace Libusby.Linux.EventLoop

open Foundations

/-- The effect of a step on the flag and on the calls inside the loop. -/
inductive LoopEffect (s : Sys) (e : Event) (t : Sys) : Prop
  | keep : t.ctx.loopLocked = s.ctx.loopLocked → (∀ x, t.Inside x ↔ s.Inside x) → LoopEffect s e t
  | acquire {th watch} : e = .enter th → s.Arrives th watch →
      ¬ (s.ctx.loopEnabled = true ∧ s.ctx.loopLocked = true) → t = s.acquire th watch →
      LoopEffect s e t
  | leave {th f r b r'} : e = .head th b → s.pc th = .loopHead f r → s.EndsLoop f r b r' →
      t = s.leaveLoop th f.watchTran r' → LoopEffect s e t

theorem finishUrb_inside {s s' : Sys} {th : Tid} {d : Round} {k : Nat} {t : TranId}
    (h : s.finishUrb th d k t = some s') (hth : s.Inside th) (x : Tid) :
    s'.Inside x ↔ s.Inside x := by
  rw [Sys.Inside, finishUrb_pc h]
  by_cases hx : x = th
  · subst hx
    simpa [Pc.inside] using hth
  · rw [if_neg hx]
    split <;> simp [Sys.Inside]

theorem leaveLoop_inside (s : Sys) (th x : Tid) (watch : Option Waiter) (r : Error) :
    (s.leaveLoop th watch r).Inside x ↔ x ≠ th ∧ s.Inside x := by
  rw [Sys.Inside, leaveLoop_pc]
  by_cases hx : x = th <;> simp [Sys.Inside, hx]

theorem Sys.Arrives.outside {s : Sys} {th : Tid} {watch : Option Waiter}
    (h : s.Arrives th watch) : ¬ s.Inside th := by
  obtain ⟨h, -⟩ | ⟨w, h, -⟩ | ⟨b, h⟩ := h.pc <;> simp [Sys.Inside, h, Pc.inside]

theorem acquire_inside {s : Sys} (th x : Tid) (watch : Option Waiter) :
    (s.acquire th watch).Inside x ↔ x = th ∨ s.Inside x := by
  rw [Sys.Inside, Sys.acquire_pc]
  by_cases hx : x = th <;> simp [Sys.Inside, hx, Pc.inside]

/-- A call that is not stopped at line 109 takes the flag. -/
theorem step_enter {s : Sys} {th : Tid} {watch : Option Waiter} (a : s.Arrives th watch)
    (l : ¬ (s.ctx.loopEnabled = true ∧ s.ctx.loopLocked = true)) :
    step s (.enter th) = some (s.acquire th watch) := by
  have entered : s.enterLoop th watch = s.acquire th watch := if_neg l
  obtain ⟨hpc, rfl⟩ | ⟨w, hpc, rfl, hl⟩ | ⟨b, hpc⟩ := a.pc <;>
    simp [step, a.mutex, *]

/-- A call that moves between two points on the same side of the loop. -/
theorem LoopEffect.moved {s t : Sys} {e : Event} {th : Tid} {p : Pc}
    (hpc : ∀ x, t.pc x = if x = th then p else s.pc x)
    (hf : t.ctx.loopLocked = s.ctx.loopLocked) (hp : p.inside = (s.pc th).inside) :
    LoopEffect s e t := by
  refine .keep hf fun x => ?_
  rw [Sys.Inside, hpc]
  by_cases hx : x = th
  · subst hx
    simp [Sys.Inside, hp]
  · simp [Sys.Inside, hx]

/-- A call whose loop ends releases the flag. -/
theorem step_leave {s : Sys} {th : Tid} {f : Frame} {r r' : Error} {b : Bool}
    (hpc : s.pc th = .loopHead f r) (l : s.EndsLoop f r b r') :
    step s (.head th b) = some (s.leaveLoop th f.watchTran r') := by
  rcases l with ⟨hk, rfl⟩ | ⟨hk, hcap, rfl, rfl⟩
  · simp [step, hpc, hk]
  · rw [Sys.snapshot] at hcap
    simp only [step, hpc, if_pos hk, and_true, if_pos hcap]

theorem loopEffect {s t : Sys} {e : Event} (h : step s e = some t) : LoopEffect s e t := by
  cases step_trans h with
  | alloc | fill | openHandle | closeHandle | reset | complete => exact .keep rfl fun _ => Iff.rfl
  | submit _ sub =>
    exact .keep (sub.flags.1) fun x => by rw [Sys.Inside, sub.pc_eq]; rfl
  | stop => exact .keep rfl fun x => by simp [Sys.Inside]
  | bulkAccepted hpc sub | bulkRefused hpc sub =>
    exact .moved (fun x => by rw [Sys.setPc_pc]; exact congrArg _ (sub.pc_eq x))
      (by simpa [Sys.setOwner] using sub.flags.1) (by rw [hpc]; rfl)
  | acquire a l => exact .acquire rfl a l rfl
  | leaveLoop hpc l => exact .leave rfl hpc l rfl
  | noCallback hpc _ fin | callbackReturn hpc _ fin =>
    refine .keep (finishUrb_ctx fin).2.1 fun x => (finishUrb_inside fin ?_ x).trans Iff.rfl
    simp [Sys.Inside, Sys.setActive, hpc, Pc.inside]
  | callRun hpc | callWait hpc | callBulk hpc | pollError hpc | pollReturn hpc | skip hpc
  | reap hpc | callback hpc | drain hpc | relock hpc | leaveRun hpc | leaveWait hpc | leaveBulk hpc
  | poll hpc => exact .moved (fun x => Sys.setPc_pc ..) rfl (by rw [hpc]; rfl)
  | parkCtx a =>
    exact .moved (fun x => Sys.setPc_pc ..) rfl (by simpa [Sys.Inside, Pc.inside] using a.outside)
  | waitOutside _ hpc | recheck hpc =>
    exact .moved (fun x => waitActive_pc ..) rfl (by rw [hpc, Waiter.inside_outcome]; rfl)

/-- While the flag is set somebody is inside, in every reachable state. -/
theorem locked_inside {s t : Sys} {e : Event} (hs : s.ctx.loopLocked = true → ∃ x, s.Inside x)
    (h : step s e = some t) : t.ctx.loopLocked = true → ∃ x, t.Inside x := by
  cases loopEffect h with
  | keep hf hx => simpa [hf, hx] using hs
  | @acquire th watch _ _ _ ht => exact fun _ => ⟨th, ht ▸ (acquire_inside th th watch).2 (.inl rfl)⟩
  | leave _ _ _ ht => simp [ht]

/-- At most one call is inside, and while `ctx_mutex` is free the flag says
whether there is one. -/
structure Owned (s : Sys) : Prop where
  unique : ∀ x y, s.Inside x → s.Inside y → x = y
  flag : s.mutex = none → (s.ctx.loopLocked = true ↔ ∃ x, s.Inside x)

/-- The call gets past line 109 although the flag is set. -/
def PassesLocked (s : Sys) (e : Event) : Prop :=
  ∃ th watch, e = .enter th ∧ s.Arrives th watch ∧ s.ctx.loopEnabled = false ∧
    s.ctx.loopLocked = true

/-- The invariant of the runs in which no call passes a set flag. -/
structure Exclusive (s : Sys) : Prop where
  unique : ∀ x y, s.Inside x → s.Inside y → x = y
  flag : s.ctx.loopLocked = true ↔ ∃ x, s.Inside x

theorem exclusive_initial : Exclusive .initial where
  unique x y hx := by simp [Sys.Inside, Sys.initial, Pc.inside] at hx
  flag := by simp [Sys.Inside, Sys.initial, Pc.inside]

theorem Exclusive.owned {s : Sys} (h : Exclusive s) : Owned s := ⟨h.unique, fun _ => h.flag⟩

theorem exclusive_step {s t : Sys} {e : Event} (hs : Exclusive s) (hc : ¬ PassesLocked s e)
    (h : step s e = some t) : Exclusive t := by
  cases loopEffect h with
  | keep hf hx =>
    exact ⟨fun x y ix iy => hs.unique x y ((hx x).1 ix) ((hx y).1 iy), by simpa [hf, hx] using hs.flag⟩
  | @acquire th watch he a l ht =>
    subst ht
    have hfree : s.ctx.loopLocked = false := by
      by_contra hl
      have hl : s.ctx.loopLocked = true := by simpa using hl
      exact hc ⟨th, watch, he, a, by simpa [hl] using l, hl⟩
    have hnone : ∀ x, ¬ s.Inside x := fun x ix => by
      simpa [hfree] using hs.flag.2 ⟨x, ix⟩
    refine ⟨fun x y ix iy => ?_, ?_⟩
    · rw [acquire_inside] at ix iy
      exact (ix.resolve_right (hnone x)).trans (iy.resolve_right (hnone y)).symm
    · exact ⟨fun _ => ⟨th, (acquire_inside th th watch).2 (.inl rfl)⟩, fun _ => rfl⟩
  | @leave th f r b r' _ hpc _ ht =>
    subst ht
    have only : ∀ x, s.Inside x → x = th := fun x ix =>
      hs.unique x th ix (by simp [Sys.Inside, hpc, Pc.inside])
    refine ⟨fun x y ix => ?_, ?_⟩
    · rw [leaveLoop_inside] at ix
      exact absurd (only x ix.2) ix.1
    · simp only [leaveLoop_ctx, Bool.false_eq_true, false_iff, leaveLoop_inside]
      rintro ⟨x, hx, ix⟩
      exact hx (only x ix)

/-- The loop has at most one owner, and the flag tells whether it has one,
throughout a run exactly when no call of the run gets past line 109 while the
flag is set. -/
theorem ownership_iff (es : List Event) :
    eventLoop.Always Owned .initial es ↔
      eventLoop.Steps (fun s e _ => ¬ PassesLocked s e) .initial es := by
  constructor
  · intro h
    refine Machine.Always.steps (I := fun s => s.ctx.loopLocked = true → ∃ x, s.Inside x)
      (fun s e t hs ht => locked_inside hs ht) ?_ h (by simp [Sys.initial])
    rintro s e t inside hs ht ht' ⟨th, watch, rfl, a, hen, hl⟩
    -- the call that arrives and the one that is inside are both inside afterwards
    obtain ⟨x, ix⟩ := inside hl
    have hx : x ≠ th := fun hx => a.outside (hx ▸ ix)
    cases (step_enter a (by simp [hen])).symm.trans ht
    exact hx (ht'.unique x th ((acquire_inside th x watch).2 (.inr ix))
      ((acquire_inside th th watch).2 (.inl rfl)))
  · intro h
    exact (Machine.Steps.invariant (Q := fun _ _ _ => True)
      (fun s e t hs hc ht => ⟨exclusive_step hs hc ht, trivial⟩) h exclusive_initial).1.mono
      fun _ => Exclusive.owned

/-- Call 0 polls, the loop is stopped, and call 1 comes in before 0 has woken up. -/
def intrusion : List Event :=
  [.callRun 0, .enter 0, .head 0 true, .stop, .callRun 1, .enter 1]

theorem intrusion_two_inside : ∃ s, eventLoop.exec .initial intrusion = some s ∧
    s.Inside 0 ∧ s.Inside 1 := ⟨_, rfl, rfl, rfl⟩

/-- Two calls can be inside the polling loop at once. -/
theorem ownership_fails : ¬ ∀ es, eventLoop.Always Owned .initial es := by
  intro h
  obtain ⟨s, hs, h0, h1⟩ := intrusion_two_inside
  exact absurd (((h intrusion).exec hs).unique 0 1 h0 h1) (by decide)

end Libusby.Linux.EventLoop
