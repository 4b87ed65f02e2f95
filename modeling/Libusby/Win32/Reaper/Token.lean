import Libusby.Foundations.Token
import Libusby.Win32.Reaper.Transitions

/-!
# The reaper lock is a token

`hReaperLock` is signalled, or exactly one thread is in the reaping section, after every
run and for whatever tests that section makes for a failure.
-/

namespace Libusby.Win32.Reaper

open Foundations Libusby.Core

variable {c : Checks} {s s' : Sys} {e : Event} {th : Tid} {hTarget : Handle} {p : Pc}

/-- The lock is free, or one thread is reaping. -/
def TokenConserved (s : Sys) : Prop := Token.Conserved s.ctx.hReaperLock s.Reaping

/-- A step of one thread that neither enters nor leaves the reaping section. -/
theorem TokenConserved.stay (h : TokenConserved s) (lock : s'.ctx.hReaperLock = s.ctx.hReaperLock)
    (pc : s'.pc = (s.setPc th p).pc) (same : p.inside = (s.pc th).inside) : TokenConserved s' := by
  unfold TokenConserved at *
  rw [lock]
  apply h.congr
  intro x
  unfold Sys.Reaping
  rw [pc, Sys.setPc_pc]
  split_ifs with hx
  · rw [hx, same]
  · rfl

/-- A step that changes no program point. -/
theorem TokenConserved.frame (h : TokenConserved s)
    (lock : s'.ctx.hReaperLock = s.ctx.hReaperLock) (pc : s'.pc = s.pc) : TokenConserved s' := by
  unfold TokenConserved Sys.Reaping at *
  rwa [lock, pc]

theorem TokenConserved.enter (h : TokenConserved s) (free : s.ctx.hReaperLock = true)
    (lock : s'.ctx.hReaperLock = false) (pc : s'.pc = (s.setPc th p).pc)
    (inside : p.inside = true) : TokenConserved s' := by
  unfold TokenConserved at *
  rw [free] at h
  rw [lock]
  apply h.take (k := th)
  intro x
  unfold Sys.Reaping
  rw [pc, Sys.setPc_pc]
  split_ifs with hx
  · simp [hx, inside]
  · simp [hx]

theorem TokenConserved.exit (h : TokenConserved s) (lock : s'.ctx.hReaperLock = true)
    (pc : s'.pc = (s.setPc th p).pc) (inside : (s.pc th).inside = true)
    (outside : p.inside = false) : TokenConserved s' := by
  unfold TokenConserved at *
  rw [lock]
  apply h.give (k := th) inside
  intro x
  unfold Sys.Reaping
  rw [pc, Sys.setPc_pc]
  split_ifs with hx
  · simp [hx, outside]
  · simp [hx]

theorem react_inside {handleCount : Nat} {res : UInt32}
    (h : s.ctx.react c hTarget handleCount res = .ok p) : p.inside = true := by
  obtain rfl | ⟨-, rfl⟩ | ⟨-, rfl⟩ | ⟨x, rfl⟩ := react_cases h <;> rfl

theorem tokenConserved_init : TokenConserved {} := .inl ⟨rfl, fun _ h => nomatch h⟩

theorem tokenConserved_step (h : TokenConserved s) (hs : step c s e = some s') :
    TokenConserved s' := by
  cases step_rule hs with
  | fill | reject | accept | complete | stop | reset => exact h.frame rfl rfl
  | refuse => exact h
  | callWait pc | callRun pc | waitTarget pc | waitFailed pc => exact h.stay rfl rfl (pc ▸ rfl)
  | waitLock pc free => exact h.enter free rfl rfl rfl
  | arm pc result => exact h.stay (arm_frame result).2.2 rfl (pc ▸ rfl)
  | react pc returns result => exact h.stay rfl rfl ((react_inside result).trans (pc ▸ rfl))
  | armFailed pc | found pc | next pc | notFound pc | getResult pc | unlink pc | callback pc
  | noCallback pc | callbackReturn pc | signal pc | resubmitted pc | ret pc =>
    exact h.stay rfl rfl (pc ▸ rfl)
  | leave pc => exact h.exit rfl rfl (pc ▸ rfl) rfl

theorem tokenConserved (h : (reaper c).Reachable s) : TokenConserved s :=
  h.invariant tokenConserved_init fun _ _ _ => tokenConserved_step

/-- There is never a second reaper. -/
theorem TokenConserved.unique (h : TokenConserved s) {x y : Tid} (hx : s.Reaping x)
    (hy : s.Reaping y) : x = y := Token.Conserved.unique h hx hy

/-- Exactly one of the lock and a reaper is there, so a thread that waits for its target or
the lock finds a reaper, or one of its two objects is signalled and its wait returns. -/
theorem reaperLock_conserved (h : (reaper c).Reachable s) :
    (s.ctx.hReaperLock = true ∧ (∀ x, ¬s.Reaping x) ∨
      s.ctx.hReaperLock = false ∧ ∃! x, s.Reaping x) ∧
    ∀ th hTarget, s.pc th = .calling hTarget → (∃ x, s.Reaping x) ∨
      s.ctx.hReaperLock = true ∧ ∃ res ≤ 1, ∃ s', step c s (.wait th res) = some s' := by
  have token : TokenConserved s := tokenConserved h
  refine ⟨token, fun th hTarget pc => ?_⟩
  rcases token with ⟨free, -⟩ | ⟨-, x, hx, -⟩
  · right
    refine ⟨free, ?_⟩
    by_cases signalled : s.signalled hTarget = true
    · refine ⟨0, by decide, s.setPc th (.returned hTarget Error.success.code), ?_⟩
      simp [step, pc, signalled]
    · refine ⟨1, by decide, { s.setPc th (.arming hTarget) with
        ctx := { s.ctx with hReaperLock := false } }, ?_⟩
      simp [step, pc, signalled, free]
  · exact .inl ⟨x, hx⟩

/-- A second thread waits for a transfer while the first one runs the event loop. -/
theorem reaperLock_conserved_two : ∃ s,
    (reaper .source).exec {} [.callRun 0, .wait 0 1, .callWait 1 7] = some s ∧
      (∃ x, s.Reaping x) := by
  refine ⟨_, rfl, ?_⟩
  have reachable : (reaper .source).Reachable _ := ⟨[.callRun 0, .wait 0 1, .callWait 1 7], rfl⟩
  rcases (reaperLock_conserved reachable).2 1 (.completion 7) rfl with waits | ⟨free, -⟩
  · exact waits
  · cases free

end Libusby.Win32.Reaper
