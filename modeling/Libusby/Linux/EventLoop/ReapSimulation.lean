import Libusby.Linux.EventLoop.Ownership
import Libusby.Linux.EventLoop.ReapLoop

/-!
# The loop over the polled descriptors in the event loop

While one call polls and reaps and no other is inside the loop, whatever the threads do is a run
of `reapLoop`: the tables are the same, and so are the positions.
-/

namespace Libusby.Linux.EventLoop

open Foundations

/-- The polled descriptors and the position of a call that polls or reaps. -/
def Pc.visit : Pc → Option (List Int × Nat)
  | .polling _ pollfds => some (pollfds, 0)
  | .reaping d | .reaped d _ _ | .inCallback d _ _ => some (d.pollfds, d.i)
  | _ => none

/-- `poll` fails, or the loop over the descriptors is over. -/
def Event.endsRound (th : Tid) : Event → Prop
  | .pollReturn x none | .drain x _ => x = th
  | _ => False

/-- The loop is at the position of the call and has its table. -/
def Shadows (th : Tid) (pollfds : List Int) (s : Sys) (u : ReapLoop) : Prop :=
  (s.pc th).visit = some (pollfds, u.i) ∧ u.ctx.watchedFds = s.ctx.watchedFds

section
variable {s t : Sys} {e : Event} {th x : Tid} {pollfds : List Int} {u : ReapLoop} {ctx : Context}
  {i : Nat} {d : Round} {k : Nat} {tran : TranId} {choice : SubmitChoice} {r : Error}

theorem visit_inside {p : Pc} {v : List Int × Nat} (h : p.visit = some v) : p.inside = true := by
  cases p <;> first | rfl | cases h

@[simp] theorem visit_wakeCtx (p : Pc) : p.wakeCtx.visit = p.visit := by
  cases p <;> rfl

/-- A submission does the same to equal tables. -/
theorem Submission.shadowed (sub : Submission s tran choice r t)
    (hu : u.ctx.watchedFds = s.ctx.watchedFds) :
    ∃ v, u.step (.submit ⟨s.trans tran, s.tranFd tran, choice⟩) = some v ∧ v.i = u.i ∧
      v.ctx.watchedFds = t.ctx.watchedFds := by
  suffices submits : ∃ result ctx' tran', usbybSubmitTransfer u.ctx (s.trans tran) (s.tranFd tran)
      choice = some (result, ctx', tran') ∧ ctx'.watchedFds = t.ctx.watchedFds by
    obtain ⟨result, ctx', tran', h, same⟩ := submits
    exact ⟨_, congrArg (Option.map _) h, rfl, same⟩
  cases sub with
  | unsupported iso => exact ⟨_, _, _, if_pos iso, hu⟩
  | rejected w rejected unwatched =>
    rw [usbybSubmitTransfer, if_neg w.type_ne, hu, w.watch, Option.bind_some, rejected]
    exact ⟨_, _, _, congrArg (Option.map _) unwatched, rfl⟩
  | accepted w accepted =>
    rw [usbybSubmitTransfer, if_neg w.type_ne, hu, w.watch, Option.bind_some, accepted]
    simp only [submitUrb]
    split_ifs <;> exact ⟨_, _, _, rfl, rfl⟩

/-- A step that leaves the table and the position alone. -/
theorem Shadows.stay (h : Shadows th pollfds s u) (pc : (t.pc th).visit = (s.pc th).visit)
    (table : t.ctx.watchedFds = s.ctx.watchedFds) :
    ∃ rs v, (reapLoop ctx).exec u rs = some v ∧ Shadows th pollfds t v :=
  ⟨[], u, rfl, pc.trans h.1, h.2.trans table.symm⟩

theorem Shadows.submit {s' : Sys} (h : Shadows th pollfds s u)
    (sub : Submission s tran choice r s') (pc : (t.pc th).visit = (s.pc th).visit)
    (table : t.ctx.watchedFds = s'.ctx.watchedFds) :
    ∃ rs v, (reapLoop ctx).exec u rs = some v ∧ Shadows th pollfds t v := by
  obtain ⟨v, hv, position, same⟩ := sub.shadowed h.2
  refine ⟨[.submit ⟨s.trans tran, s.tranFd tran, choice⟩], v, Machine.exec_cons.2 ⟨v, hv, rfl⟩, ?_,
    same.trans table.symm⟩
  rw [pc, position]
  exact h.1

theorem Shadows.finish (h : Shadows th pollfds s u)
    (visit : (s.pc th).visit = some (d.pollfds, d.i)) (fin : s.finishUrb th d k tran = some t) :
    ∃ rs v, (reapLoop ctx).exec u rs = some v ∧ Shadows th pollfds t v := by
  obtain ⟨fds, position⟩ := Prod.mk.inj (Option.some.inj (visit.symm.trans h.1))
  obtain ⟨unwatched, -⟩ := finishUrb_ctx fin
  rw [position, ← h.2] at unwatched
  have hv : u.step .reap = some _ := congrArg (Option.map _) unwatched
  refine ⟨[.reap], _, Machine.exec_cons.2 ⟨_, hv, rfl⟩, ?_, rfl⟩
  rw [finishUrb_pc fin, if_pos rfl]
  exact congrArg some (Prod.ext fds (congrArg (· + 1) position))

theorem Shadows.elsewhere (h : Shadows th pollfds s u) (out : (s.pc x).visit = none) : th ≠ x := by
  rintro rfl
  cases out.symm.trans h.1

theorem Shadows.here (h : Shadows th pollfds s u) (hpc : (s.pc th).visit = some (d.pollfds, i)) :
    pollfds = d.pollfds ∧ u.i = i := by
  have same := Prod.mk.inj (Option.some.inj (h.1.symm.trans hpc))
  exact same

/-- The event loop steps, and `reapLoop` follows. -/
theorem Shadows.step (h : Shadows th pollfds s u) (alone : ∀ x, s.Inside x → x = th)
    (inRound : ¬e.endsRound th) (hs : step s e = some t) :
    ∃ rs v, (reapLoop ctx).exec u rs = some v ∧ Shadows th pollfds t v := by
  have inside : s.Inside th := visit_inside h.1
  have moved (x : Tid) (p : Pc) (ne : th ≠ x) : ((s.setPc x p).pc th).visit = (s.pc th).visit := by
    rw [Sys.setPc_pc, if_neg ne]
  cases step_trans hs with
  | alloc | fill | openHandle | closeHandle | reset | complete => exact h.stay rfl rfl
  | submit _ sub => exact h.submit sub (congrArg Pc.visit (sub.pc_eq th)) rfl
  | stop => exact h.stay (visit_wakeCtx _) rfl
  | callRun hpc | callWait hpc | callBulk hpc | leaveRun hpc | leaveWait hpc | leaveBulk hpc
  | relock hpc | poll hpc => exact h.stay (moved _ _ (h.elsewhere (by rw [hpc]; rfl))) rfl
  | bulkAccepted hpc sub | bulkRefused hpc sub =>
    refine h.submit sub ?_ rfl
    rw [Sys.setPc_pc, if_neg (h.elsewhere (by rw [hpc]; rfl))]
    exact congrArg Pc.visit (sub.pc_eq th)
  | parkCtx a | acquire a =>
    refine h.stay (moved _ _ ?_) rfl
    rintro rfl
    exact a.outside inside
  | waitOutside _ hpc | recheck hpc =>
    refine h.stay ?_ rfl
    rw [waitActive_pc, if_neg (h.elsewhere (by rw [hpc]; rfl))]
  | leaveLoop hpc =>
    refine h.stay ?_ (by rw [leaveLoop_ctx])
    rw [leaveLoop_pc, if_neg (h.elsewhere (by rw [hpc]; rfl))]
  | @pollError x _ _ hpc =>
    cases alone x (by rw [Sys.Inside, hpc]; rfl)
    exact absurd rfl inRound
  | @pollReturn x _ _ _ hpc =>
    cases alone x (by rw [Sys.Inside, hpc]; rfl)
    refine h.stay ?_ rfl
    rw [Sys.setPc_pc, if_pos rfl, hpc]
    rfl
  | @skip x d _ hpc =>
    cases alone x (by rw [Sys.Inside, hpc]; rfl)
    refine ⟨[.skip], _, rfl, ?_, h.2⟩
    obtain ⟨fds, position⟩ := h.here (d := d) (by rw [hpc]; rfl)
    rw [Sys.setPc_pc, if_pos rfl, fds]
    exact congrArg some (Prod.ext rfl (congrArg (· + 1) position.symm))
  | @reap x d _ _ _ hpc =>
    cases alone x (by rw [Sys.Inside, hpc]; rfl)
    refine h.stay ?_ rfl
    rw [Sys.setPc_pc, if_pos rfl, hpc]
    rfl
  | @callback x d _ _ hpc =>
    cases alone x (by rw [Sys.Inside, hpc]; rfl)
    refine h.stay ?_ rfl
    rw [Sys.setPc_pc, if_pos rfl, hpc]
    rfl
  | @noCallback x d _ tran _ hpc _ fin =>
    cases alone x (by rw [Sys.Inside, hpc]; rfl)
    have active : Shadows th pollfds (s.setActive tran 2) u := h
    exact active.finish (by rw [Sys.setActive, Sys.setTran_pc, hpc]; rfl) fin
  | @callbackReturn x d _ _ _ hpc _ fin =>
    cases alone x (by rw [Sys.Inside, hpc]; rfl)
    exact h.finish (by rw [hpc]; rfl) fin
  | @drain x d _ _ _ hpc =>
    cases alone x (by rw [Sys.Inside, hpc]; rfl)
    exact absurd rfl inRound

theorem exec_position {rs : List ReapEvent} {v : ReapLoop} (h : (reapLoop ctx).exec u rs = some v) :
    v.i = u.i + (visits rs).length := by
  induction rs generalizing u with
  | nil =>
    cases h
    rfl
  | cons e rs ih =>
    obtain ⟨w, hw, h⟩ := Machine.exec_cons.1 h
    have rest := ih h
    cases e with
    | submit q =>
      obtain ⟨_, -, rfl⟩ := Option.map_eq_some_iff.1 hw
      exact rest
    | skip =>
      cases hw
      rw [rest, visits, List.length_cons]
      exact Nat.add_right_comm ..
    | reap =>
      obtain ⟨_, -, rfl⟩ := Option.map_eq_some_iff.1 hw
      rw [rest, visits, List.length_cons]
      exact Nat.add_right_comm ..

/-- From the call of `poll` to the end of the loop over the descriptors, with no other call inside,
the event loop does what a run of `reapLoop` over all positions does to the table. -/
theorem round_simulated {f : Frame} {es : List Event} (polls : s.pc th = .polling f pollfds)
    (alone : eventLoop.Steps (fun s e _ => (∀ x, s.Inside x → x = th) ∧ ¬e.endsRound th) s es)
    (hx : eventLoop.exec s es = some t) (ends : t.pc th = .reaping d)
    (last : d.i = d.pollfds.length) :
    ∃ rs v, (reapLoop s.ctx).exec (reapLoop s.ctx).init rs = some v ∧
      v.ctx.watchedFds = t.ctx.watchedFds ∧ (visits rs).length = pollfds.length := by
  have start : Shadows th pollfds s (reapLoop s.ctx).init := ⟨by rw [polls]; rfl, rfl⟩
  obtain ⟨rs, v, exec, shadows⟩ := alone.simulates (N := reapLoop s.ctx)
    (R := Shadows th pollfds) (fun s e t u h sound hs => h.step sound.1 sound.2 hs) hx start
  refine ⟨rs, v, exec, shadows.2, ?_⟩
  obtain ⟨fds, position⟩ := shadows.here (d := d) (by rw [ends]; rfl)
  have passed := exec_position exec
  rw [fds, ← last, ← position, passed]
  exact (Nat.zero_add _).symm

end

end Libusby.Linux.EventLoop
