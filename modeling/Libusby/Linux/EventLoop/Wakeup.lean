import Libusby.Linux.EventLoop.Ownership
import Libusby.Linux.EventLoop.WatchRefs

/-!
# The wake-up pipe

A call that polls sees a snapshot of the watch table and is woken by a byte in the
pipe. Bytes are written only while `loop_locked` is set, and each round reads one.
-/

namespace Libusby.Linux.EventLoop

open Foundations WatchTable

theorem Submission.pipe_eq {s s' : Sys} {t : TranId} {k : SubmitChoice} {r : Error}
    (h : Submission s t k r s') : s'.ctx.pipe =
      if r = .success ∧ s.ctx.loopLocked = true then s.ctx.pipe + 1 else s.ctx.pipe := by
  cases h with
  | unsupported => simp
  | @rejected e => simp [Sys.reject, usbfsError_ne_success e]
  | accepted => simp [Sys.accept]

/-- A call that polls after a step polled before it, and no byte was read, or it has
taken the snapshot in this step. -/
theorem polling_step {s t : Sys} {e : Event} {th : Tid} {f : Frame} {fds : List Int}
    (hs : Exclusive s) (h : step s e = some t) (hp : t.pc th = .polling f fds) :
    s.pc th = .polling f fds ∧ s.ctx.pipe ≤ t.ctx.pipe ∨
      s.ctx.loopEnabled = true ∧ fds = s.snapshot ∧ t.ctx = s.ctx ∧ t.urbs = s.urbs := by
  have alone (x : Tid) (d : Round) (hx : s.pc x = .reaping d) : s.pc th ≠ .polling f fds := by
    intro hth
    have same := hs.unique x th (by simp [Sys.Inside, hx, Pc.inside])
      (by simp [Sys.Inside, hth, Pc.inside])
    rw [same, hth] at hx
    cases hx
  cases step_trans h <;> grind -linarith [Submission.pipe_eq, Sys.keepsPolling]

/-! ## Stop requests -/

/-- With the loop stopped and `ctx_mutex` free, a call that polls will be woken. -/
def StopSeen (s : Sys) : Prop :=
  s.ctx.loopEnabled = false → s.mutex = none → ∀ th f fds, s.pc th = .polling f fds → 0 < s.ctx.pipe

/-- The same, whether `ctx_mutex` is free or not. -/
def StopPending (s : Sys) : Prop :=
  s.ctx.loopEnabled = false → ∀ th f fds, s.pc th = .polling f fds → 0 < s.ctx.pipe

/-- Only a stop request disables the loop, and it writes a byte if the flag is set. -/
theorem disabled_step {s t : Sys} {e : Event} (h : step s e = some t)
    (ht : t.ctx.loopEnabled = false) : s.ctx.loopEnabled = false ∨
      e = .stop ∧ (s.ctx.loopLocked = true → t.ctx.pipe = s.ctx.pipe + 1) := by
  cases step_trans h with
  | stop => exact .inr ⟨rfl, fun locked => by simp [locked]⟩
  | submit _ sub | bulkAccepted _ sub | bulkRefused _ sub => exact .inl (sub.flags.2.symm.trans ht)
  | noCallback _ _ fin | callbackReturn _ _ fin => exact .inl ((finishUrb_ctx fin).2.2.symm.trans ht)
  | reset => cases ht
  | leaveLoop => exact .inl (by simpa using ht)
  | _ => exact .inl ht

theorem stopPending_step {s t : Sys} {e : Event} (hs : Exclusive s) (pending : StopPending s)
    (h : step s e = some t) : StopPending t := by
  intro ht th f fds hp
  rcases polling_step hs h hp with ⟨polled, mono⟩ | ⟨enabled, -, hctx, -⟩
  · have inside : s.Inside th := by simp [Sys.Inside, polled, Pc.inside]
    rcases disabled_step h ht with disabled | ⟨-, written⟩
    · have := pending disabled th f fds polled
      omega
    · have := written (hs.flag.2 ⟨th, inside⟩)
      omega
  · rw [hctx, enabled] at ht
    cases ht

/-- No stop request is lost in a run in which no call passes line 109 while the flag
is set. -/
theorem stop_seen (es : List Event)
    (h : eventLoop.Steps (fun s e _ => ¬ PassesLocked s e) .initial es) :
    eventLoop.Always StopSeen .initial es := by
  have initial : StopPending .initial := fun enabled => by cases enabled
  refine ((Machine.Steps.invariant (I := fun s => Exclusive s ∧ StopPending s)
    (Q := fun _ _ _ => True) ?_ h ⟨exclusive_initial, initial⟩).1).mono ?_
  · intro s e t hs hc ht
    exact ⟨⟨exclusive_step hs.1 hc ht, stopPending_step hs.1 hs.2 ht⟩, trivial⟩
  · exact fun s hs disabled _ => hs.2 disabled

/-- Call 0 polls, and the loop is stopped. -/
def stopped : List Event := [.callRun 0, .enter 0, .head 0 true, .stop]

theorem stop_seen_stopped :
    (∃ s f fds, eventLoop.exec .initial stopped = some s ∧ s.ctx.loopEnabled = false ∧
      s.mutex = none ∧ s.pc 0 = .polling f fds) ∧ eventLoop.Always StopSeen .initial stopped := by
  refine ⟨⟨_, _, _, rfl, rfl, rfl, rfl⟩, stop_seen stopped (.cons rfl (by rintro ⟨_, _, ⟨⟩, -⟩) ?_)⟩
  refine .cons rfl (by rintro ⟨_, _, -, -, ⟨⟩, -⟩) ?_
  refine .cons rfl (by rintro ⟨_, _, ⟨⟩, -⟩) ?_
  exact .cons rfl (by rintro ⟨_, _, ⟨⟩, -⟩) trivial

/-- A call that comes in while the loop is stopped clears the flag under call 0, which
then misses the second stop request. -/
def missedStop : List Event :=
  intrusion ++ [.head 1 true, .leave 1, .reset, .pollReturn 0 (some true), .drain 0 true, .relock 0,
    .head 0 true, .stop]

theorem missedStop_unseen : ∃ s, eventLoop.exec .initial missedStop = some s ∧ ¬ StopSeen s := by
  refine ⟨_, rfl, fun seen => ?_⟩
  exact absurd (seen rfl rfl 0 _ _ rfl) (by decide)

/-- A stop request can be lost. -/
theorem stop_seen_fails : ¬ ∀ es, eventLoop.Always StopSeen .initial es := by
  intro h
  obtain ⟨s, hs, unseen⟩ := missedStop_unseen
  exact unseen ((h missedStop).exec hs)

/-! ## Submissions -/

/-- A call that polls has every descriptor with a URB in the kernel in its array, or will
be woken. -/
def SubmitSeen (s : Sys) : Prop :=
  ∀ th f fds, s.pc th = .polling f fds →
    ∀ u ∈ s.urbs, u.outstanding = true → u.fd ∈ fds ∨ 0 < s.ctx.pipe

/-- The invariant of the runs that are never stopped. Every URB is in the table, since
no record is ever removed. -/
structure Seen (s : Sys) : Prop where
  enabled : s.ctx.loopEnabled = true
  exclusive : Exclusive s
  uncounted : s.ctx.watchedFds.Uncounted
  listed : ∀ u ∈ s.urbs, u.fd ∈ s.snapshot
  polled : ∀ th f fds, s.pc th = .polling f fds → ∀ u ∈ s.urbs, u.fd ∈ fds ∨ 0 < s.ctx.pipe

theorem seen_initial : Seen .initial where
  enabled := rfl
  exclusive := exclusive_initial
  uncounted := uncounted_empty
  listed u hu := by cases hu
  polled th f fds hp := by cases hp

theorem mem_snapshot {s : Sys} {fd : Int} :
    fd ∈ s.snapshot ↔ ∃ w ∈ s.ctx.watchedFds.live, w.fd = fd := by
  simp [Sys.snapshot]

theorem Submission.listed {s s' : Sys} {t : TranId} {k : SubmitChoice} {r : Error}
    (sub : Submission s t k r s') (hs : s.ctx.watchedFds.Uncounted)
    (listed : ∀ u ∈ s.urbs, u.fd ∈ s.snapshot) : ∀ u ∈ s'.urbs, u.fd ∈ s'.snapshot := by
  intro u hu
  cases sub with
  | unsupported => exact listed u hu
  | rejected w _ hun =>
    obtain ⟨v, hv, hfd⟩ := mem_snapshot.1 (listed u hu)
    rw [Sys.snapshot, Sys.reject, (hs.watch w.watch).unwatch_fds hun]
    exact List.mem_map.2 ⟨v, watch_live w.watch hv, hfd⟩
  | accepted w =>
    obtain ⟨⟨v, hv, hfd⟩, -⟩ := watch_spec w.watch
    rw [mem_snapshot]
    simp only [Sys.accept, List.mem_append, List.mem_singleton] at hu ⊢
    rcases hu with hu | rfl
    · obtain ⟨v, hv, hfd⟩ := mem_snapshot.1 (listed u hu)
      exact ⟨v, watch_live w.watch hv, hfd⟩
    · exact ⟨v, List.mem_of_getElem? hv, hfd⟩

theorem listed_step {s t : Sys} {e : Event} (hs : s.ctx.watchedFds.Uncounted)
    (listed : ∀ u ∈ s.urbs, u.fd ∈ s.snapshot) (h : step s e = some t) :
    ∀ u ∈ t.urbs, u.fd ∈ t.snapshot := by
  cases step_trans h with
  | submit _ sub | bulkAccepted _ sub | bulkRefused _ sub => exact sub.listed hs listed
  | noCallback _ _ fin | callbackReturn _ _ fin =>
    intro u hu
    rw [(finishUrb_urbs fin).1] at hu
    rw [Sys.snapshot, hs.unwatch_fds (finishUrb_ctx fin).1]
    exact listed u (List.mem_of_mem_filter hu)
  | leaveLoop => simpa [Sys.snapshot] using listed
  | reap | complete =>
    intro u hu
    obtain ⟨v, hv, rfl⟩ := List.mem_map.1 hu
    have := listed v hv
    split <;> exact this
  | _ => exact listed

/-- A new URB comes with a byte if the flag is set. -/
theorem submitted_step {s t : Sys} {e : Event} {u : Urb} (h : step s e = some t)
    (hu : u ∈ t.urbs) :
    (∃ v ∈ s.urbs, v.fd = u.fd) ∨ (s.ctx.loopLocked = true → t.ctx.pipe = s.ctx.pipe + 1) := by
  have submitted {s' : Sys} {i : TranId} {k : SubmitChoice} {r : Error}
      (sub : Submission s i k r s') (hu : u ∈ s'.urbs) : (∃ v ∈ s.urbs, v.fd = u.fd) ∨
        (s.ctx.loopLocked = true → s'.ctx.pipe = s.ctx.pipe + 1) := by
    rw [sub.urbs_eq.1] at hu
    by_cases accepted : r = .success
    · exact .inr fun locked => by rw [sub.pipe_eq, if_pos ⟨accepted, locked⟩]
    · rw [if_neg accepted] at hu
      exact .inl ⟨u, hu, rfl⟩
  cases step_trans h with
  | submit _ sub | bulkAccepted _ sub | bulkRefused _ sub =>
    have := submitted sub hu
    exact this
  | noCallback _ _ fin | callbackReturn _ _ fin =>
    rw [(finishUrb_urbs fin).1] at hu
    exact .inl ⟨u, List.mem_of_mem_filter hu, rfl⟩
  | leaveLoop => exact .inl ⟨u, by simpa using hu, rfl⟩
  | reap | complete =>
    obtain ⟨v, hv, rfl⟩ := List.mem_map.1 hu
    refine .inl ⟨v, hv, ?_⟩
    split <;> rfl
  | _ => exact .inl ⟨u, hu, rfl⟩

theorem seen_step {s t : Sys} {e : Event} (hs : Seen s) (he : e ≠ .stop)
    (h : step s e = some t) : Seen t where
  enabled := by
    by_contra disabled
    rcases disabled_step h (by simpa using disabled) with before | ⟨stop, -⟩
    · rw [hs.enabled] at before
      cases before
    · exact he stop
  exclusive := exclusive_step hs.exclusive (by
    rintro ⟨_, _, -, -, disabled, -⟩
    rw [hs.enabled] at disabled
    cases disabled) h
  uncounted := uncounted_step hs.uncounted h
  listed := listed_step hs.uncounted hs.listed h
  polled th f fds hp u hu := by
    rcases polling_step hs.exclusive h hp with ⟨polled, mono⟩ | ⟨-, rfl, hctx, hurbs⟩
    · have inside : s.Inside th := by simp [Sys.Inside, polled, Pc.inside]
      rcases submitted_step h hu with ⟨v, hv, hfd⟩ | written
      · rcases hs.polled th f fds polled v hv with array | byte
        · exact .inl (hfd ▸ array)
        · exact .inr (by omega)
      · have := written (hs.exclusive.flag.2 ⟨th, inside⟩)
        exact .inr (by omega)
    · exact .inl (hs.listed u (hurbs ▸ hu))

/-- No submission is missed in a run without stop requests. -/
theorem submit_seen (es : List Event) (h : .stop ∉ es) :
    eventLoop.Always SubmitSeen .initial es := by
  have running : eventLoop.Steps (fun _ e _ => e ≠ .stop) .initial es :=
    .of_forall fun e he hstop => h (hstop ▸ he)
  refine ((Machine.Steps.invariant (I := Seen) (Q := fun _ _ _ => True) ?_ running
    seen_initial).1).mono ?_
  · exact fun s e t hs he ht => ⟨seen_step hs he ht, trivial⟩
  · exact fun s hs th f fds hp u hu _ => hs.polled th f fds hp u hu

/-- Call 0 polls while a transfer is submitted on a descriptor that is not in its array. -/
def submittedLate : List Event :=
  [.openHandle 0 5, .callRun 0, .enter 0, .head 0 true, .callBulk 1 0 0 0x81 8,
    .bulkSubmit 1 ⟨true, none⟩]

theorem submit_seen_submittedLate :
    (∃ s f, eventLoop.exec .initial submittedLate = some s ∧ s.pc 0 = .polling f [] ∧
      s.Outstanding 0) ∧ eventLoop.Always SubmitSeen .initial submittedLate :=
  ⟨⟨_, _, rfl, rfl, _, .head _, rfl, rfl⟩, submit_seen submittedLate (by decide)⟩

end Libusby.Linux.EventLoop
