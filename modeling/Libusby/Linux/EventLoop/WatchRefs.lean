import Libusby.Linux.EventLoop.Transitions

/-!
# The watch table and the URBs

Each record of `watched_fds` should count the URBs of its descriptor that the
event loop has not finished with. `usbyb_submit_transfer` starts a record at 0
and never increments it, and `usbfs_unwatch_fd` decrements it, so no count is
ever positive and no record is ever removed: the table is right exactly until
the first submission reaches it (`watched_iff`).
-/

namespace Libusby.Linux.EventLoop

open Foundations WatchTable

/-- The table against the URBs in the kernel and in the loop's hands. -/
structure Watched (s : Sys) : Prop where
  present : ∀ fd, fd ∈ s.ctx.watchedFds.live.map (·.fd) ↔ ∃ u ∈ s.urbs, u.fd = fd
  once : (s.ctx.watchedFds.live.map (·.fd)).Nodup
  count : ∀ w ∈ s.ctx.watchedFds.live, w.refcount = (s.urbs.filter (·.fd = w.fd)).length

/-- The step is a submission of a supported type, which gets to the table. -/
def ReachesTable (s : Sys) (e : Event) : Prop :=
  (∃ t k, e = .submit t k ∧ (s.trans t).pub.type ≠ .isochronous) ∨
    ∃ th t k, e = .bulkSubmit th k ∧ s.pc th = .bulkSubmit t ∧ (s.trans t).pub.type ≠ .isochronous

/-- A record exists although its descriptor has more URBs than the record says. -/
def Miscounted (s : Sys) : Prop :=
  ∃ w ∈ s.ctx.watchedFds.live, w.refcount < (s.urbs.filter (·.fd = w.fd)).length

theorem Miscounted.not_watched {s : Sys} (h : Miscounted s) : ¬ Watched s := by
  obtain ⟨w, hw, hlt⟩ := h
  intro hs
  have := hs.count w hw
  omega

section
variable {s s' : Sys} {t : TranId} {k : SubmitChoice} {r : Error}

theorem Submission.uncounted (sub : Submission s t k r s') (hs : s.ctx.watchedFds.Uncounted) :
    s'.ctx.watchedFds.Uncounted := by
  cases sub with
  | unsupported => exact hs
  | rejected w _ hu => exact ((hs.watch w.watch).unwatch hu).1
  | accepted w => exact hs.watch w.watch

/-- After a submission the descriptor has a record whose count is too small:
with the URB queued it is not positive, and without it it is negative. -/
theorem Submission.miscounted (sub : Submission s t k r s') (hs : s.ctx.watchedFds.Uncounted)
    (htype : (s.trans t).pub.type ≠ .isochronous) : Miscounted s' := by
  cases sub with
  | unsupported h => exact absurd h htype
  | @rejected _ table i table' w _ hu =>
    obtain ⟨⟨v, hv, -⟩, -⟩ := watch_spec w.watch
    obtain ⟨-, hcount, u, hcell, hcells⟩ := (hs.watch w.watch).unwatch hu
    have hi : i < table.count := by
      rw [← table.length_live]
      exact (List.getElem?_eq_some_iff.1 hv).1
    have neg : u.refcount ≤ 0 := hs.watch w.watch u (List.mem_of_getElem? hcell)
    have hlive : table'.live[i]? = some { u with refcount := u.refcount - 1 } := by
      rw [live_getElem? (by omega), hcells, List.getElem?_set_self]
      exact (List.getElem?_eq_some_iff.1 hcell).1
    exact ⟨_, List.mem_of_getElem? hlive, by simp; omega⟩
  | @accepted table i w =>
    obtain ⟨⟨v, hv, hfd⟩, -⟩ := watch_spec w.watch
    have hv := List.mem_of_getElem? hv
    have neg : v.refcount ≤ 0 := hs.watch w.watch v (List.mem_of_mem_take hv)
    have queued : s.newUrb t ∈ (s.accept t table).urbs.filter (·.fd = v.fd) := by
      simp [Sys.accept, Sys.newUrb, hfd]
    have := List.length_pos_of_mem queued
    exact ⟨v, hv, by omega⟩

theorem Submission.mutex_free (sub : Submission s t k r s')
    (htype : (s.trans t).pub.type ≠ .isochronous) : s'.mutex = none := by
  cases sub with
  | unsupported h => exact absurd h htype
  | rejected w | accepted w => exact w.mutex

end

/-- No count is ever positive. -/
theorem uncounted_step {s t : Sys} {e : Event} (hs : s.ctx.watchedFds.Uncounted)
    (h : step s e = some t) : t.ctx.watchedFds.Uncounted := by
  cases step_trans h with
  | submit _ sub | bulkAccepted _ sub | bulkRefused _ sub => exact sub.uncounted hs
  | noCallback _ _ fin | callbackReturn _ _ fin => exact (hs.unwatch (finishUrb_ctx fin).1).1
  | leaveLoop => simpa using hs
  | _ => exact hs

theorem miscounted_step {s t : Sys} {e : Event} (hs : s.ctx.watchedFds.Uncounted)
    (hr : ReachesTable s e) (h : step s e = some t) : t.mutex = none ∧ Miscounted t := by
  rcases hr with ⟨u, k, rfl, htype⟩ | ⟨th, u, k, rfl, hpc, htype⟩
  · cases step_trans h with
    | submit _ sub => exact ⟨sub.mutex_free htype, sub.miscounted hs htype⟩
  · cases step_trans h with
    | bulkAccepted hb sub | bulkRefused hb sub =>
      cases hpc.symm.trans hb
      exact ⟨sub.mutex_free htype, sub.miscounted hs htype⟩

/-- Nothing has been submitted: no record and no URB. -/
structure Unused (s : Sys) : Prop where
  count : s.ctx.watchedFds.count = 0
  urbs : s.urbs = []

theorem Unused.watched {s : Sys} (hs : Unused s) : Watched s := by
  have hlive : s.ctx.watchedFds.live = [] := by simp [live, hs.count]
  exact ⟨by simp [hlive, hs.urbs], by simp [hlive], by simp [hlive]⟩

theorem Submission.unused {s s' : Sys} {t : TranId} {k : SubmitChoice} {r : Error}
    (sub : Submission s t k r s') (hs : Unused s)
    (htype : (s.trans t).pub.type = .isochronous) : Unused s' := by
  cases sub with
  | unsupported => exact hs
  | rejected w | accepted w => exact absurd htype w.type_ne

theorem unused_step {s t : Sys} {e : Event} (hs : Unused s) (hu : s.ctx.watchedFds.Uncounted)
    (hr : ¬ ReachesTable s e) (h : step s e = some t) : Unused t := by
  have unused {s' : Sys} (hc : s'.ctx.watchedFds.count = s.ctx.watchedFds.count)
      (hus : s'.urbs = s.urbs) : Unused s' := ⟨hc.trans hs.count, hus.trans hs.urbs⟩
  cases step_trans h with
  | @submit u k _ _ _ sub =>
    apply sub.unused hs
    by_contra htype
    exact hr (.inl ⟨u, k, rfl, htype⟩)
  | @bulkAccepted th u k _ hpc sub | @bulkRefused th u k _ _ hpc sub =>
    have := sub.unused hs (by
      by_contra htype
      exact hr (.inr ⟨th, u, k, rfl, hpc, htype⟩))
    exact ⟨this.count, this.urbs⟩
  | reap _ hmem | complete hmem => simp [hs.urbs] at hmem
  | noCallback _ _ fin | callbackReturn _ _ fin =>
    refine ⟨(hu.unwatch (finishUrb_ctx fin).1).2.1.trans hs.count, ?_⟩
    rw [(finishUrb_urbs fin).1]
    exact List.filter_eq_nil_iff.2 (by simp [Sys.setActive, hs.urbs])
  | leaveLoop => exact unused (by simp) (by simp)
  | _ => exact unused rfl rfl

/-- The watch table is right in every state of a run with `ctx_mutex` free exactly
when no submission of a supported type is part of the run. -/
theorem watched_iff (es : List Event) :
    eventLoop.Always (fun s => s.mutex = none → Watched s) .initial es ↔
      eventLoop.Steps (fun s e _ => ¬ ReachesTable s e) .initial es := by
  constructor
  · intro h
    refine Machine.Always.steps (I := fun s => s.ctx.watchedFds.Uncounted)
      (fun s e t hs ht => uncounted_step hs ht) ?_ h uncounted_empty
    intro s e t hu _ ht watched hr
    obtain ⟨free, mis⟩ := miscounted_step hu hr ht
    exact mis.not_watched (watched free)
  · intro h
    refine ((Machine.Steps.invariant (I := fun s => Unused s ∧ s.ctx.watchedFds.Uncounted)
      (Q := fun _ _ _ => True) ?_ h ⟨⟨rfl, rfl⟩, uncounted_empty⟩).1).mono ?_
    · intro s e t hs hr ht
      exact ⟨⟨unused_step hs.1 hs.2 hr ht, uncounted_step hs.2 ht⟩, trivial⟩
    · exact fun s hs _ => hs.1.watched

/-- One bulk transfer is submitted; its descriptor is watched with count 0. -/
def firstSubmit : List Event :=
  [.openHandle 0 5, .callBulk 0 0 0 0x81 8, .bulkSubmit 0 ⟨true, none⟩]

theorem firstSubmit_count : ∃ s, eventLoop.exec .initial firstSubmit = some s ∧ s.mutex = none ∧
    s.ctx.watchedFds.live = [⟨5, 0⟩] ∧ (s.urbs.filter (·.fd = 5)).length = 1 :=
  ⟨_, rfl, rfl, rfl, rfl⟩

/-- The count of a watched descriptor need not be the number of its URBs. -/
theorem watched_fails :
    ¬ ∀ es, eventLoop.Always (fun s => s.mutex = none → Watched s) .initial es := by
  intro h
  obtain ⟨s, hs, free, hlive, hlen⟩ := firstSubmit_count
  have := ((h firstSubmit).exec hs free).count ⟨5, 0⟩ (by simp [hlive])
  rw [hlen] at this
  exact absurd this (by decide)

end Libusby.Linux.EventLoop
