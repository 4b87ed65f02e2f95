import Libusby.Foundations.Pairing
import Libusby.Linux.EventLoop.Lifecycle

/-!
# Every URB is completed, reaped and called back once

The steps of a run are counted by what they do with one URB. Whatever the calls inside and
outside the loop do, and however many are inside, the steps of the life of a URB follow one
another, each of them once.
-/

namespace Libusby.Linux.EventLoop

open Foundations

variable {s s' : Sys} {e : Event} {th x : Tid} {t : TranId} {k : Nat} {es : List Event}

/-- The call whose step the event is. -/
def Event.actor : Event → Option Tid
  | .callRun th | .callWait th _ | .callBulk th .. | .bulkSubmit th _ | .enter th | .head th _
  | .pollReturn th _ | .reap th _ | .lockReaped th | .callbackReturn th | .drain th _ | .relock th
  | .recheck th | .leave th => some th
  | _ => none

/-- The transfer of the URB `k` has no callback when it would be called. -/
def Sys.skipsCallback (s : Sys) (k : Nat) : Event → Bool
  | .lockReaped th =>
    match s.pc th with
    | .reaped _ j t => j = k ∧ (s.trans t).pub.callback = false
    | _ => false
  | _ => false

/-- The callback for the URB `k` returns. -/
def Sys.callbackReturns (s : Sys) (k : Nat) : Event → Bool
  | .callbackReturn th =>
    match s.pc th with
    | .inCallback _ j _ => j = k
    | _ => false
  | _ => false

/-! ## The life of one URB -/

/-- What happens to a URB: the kernel accepts it and completes it, the loop reaps it and is
finished with it. -/
inductive UrbEvent where
  | accept | complete | reap | finish
  deriving DecidableEq, Repr

/-- A URB goes through its stages in one order; `none` is a URB that nobody has. -/
inductive UrbLife : Option Stage → Option UrbEvent → Option Stage → Prop
  | accept : UrbLife none (some .accept) (some .pending)
  | complete {status len} :
    UrbLife (some .pending) (some .complete) (some (.completed status len))
  | reap {status len} : UrbLife (some (.completed status len)) (some .reap) (some .reaped)
  | finish : UrbLife (some .reaped) (some .finish) none
  | rest {g} : UrbLife g none g

def Sys.stageOf (s : Sys) (k : Nat) : Option Stage := (s.urbs.find? (·.id = k)).map (·.stage)

/-- The kernel gets the URB of transfer `t` and takes it, as the number `k`. -/
def Sys.Accepts (s : Sys) (k : Nat) (t : TranId) (c : SubmitChoice) : Prop :=
  s.nextUrb = k ∧ (s.trans t).pub.type ≠ .isochronous ∧ c.rejected = none

instance (s : Sys) (k : Nat) (t : TranId) (c : SubmitChoice) : Decidable (s.Accepts k t c) :=
  inferInstanceAs (Decidable (_ ∧ _ ∧ _))

/-- What the step does with the URB `k`. -/
def Sys.urbEvent (s : Sys) (k : Nat) : Event → Option UrbEvent
  | .submit t c => if s.Accepts k t c then some .accept else none
  | .bulkSubmit th c =>
    match s.pc th with
    | .bulkSubmit t => if s.Accepts k t c then some .accept else none
    | _ => none
  | .complete j _ _ => if j = k then some .complete else none
  | .reap _ (some j) => if j = k then some .reap else none
  | .lockReaped th => if s.skipsCallback k (.lockReaped th) then some .finish else none
  | .callbackReturn th => if s.callbackReturns k (.callbackReturn th) then some .finish else none
  | _ => none

theorem find_id_of_mem (hs : Numbered s) {u : Urb} (hu : u ∈ s.urbs) :
    s.urbs.find? (·.id = u.id) = some u := by
  cases hf : s.urbs.find? (·.id = u.id) with
  | none => simpa using List.find?_eq_none.1 hf u hu
  | some v =>
    obtain ⟨hv, hid⟩ := mem_of_find_id hf
    rw [hs.inj v hv u hu hid]

theorem stageOf_eq (hs : Numbered s) {u : Urb} (hu : u ∈ s.urbs) :
    s.stageOf u.id = some u.stage := by
  rw [Sys.stageOf, find_id_of_mem hs hu]
  rfl

theorem stageOf_none (gone : ∀ u ∈ s.urbs, u.id ≠ k) : s.stageOf k = none := by
  unfold Sys.stageOf
  rw [List.find?_eq_none.2 (by simpa using gone)]
  rfl

/-- A step that changes another URB. -/
theorem stageOf_setStage {j : Nat} {g : Stage} (hus : s'.urbs = setStage j g s.urbs) (other : j ≠ k) :
    s'.stageOf k = s.stageOf k := by
  unfold Sys.stageOf setStage at *
  rw [hus, List.find?_map]
  have same : ((fun u : Urb => decide (u.id = k)) ∘
      fun u => if u.id = j then { u with stage := g } else u) = fun u => decide (u.id = k) := by
    funext u
    by_cases hj : u.id = j <;> simp [hj]
  rw [same]
  cases hf : s.urbs.find? (·.id = k) with
  | none => rfl
  | some u =>
    obtain ⟨-, hid⟩ := mem_of_find_id hf
    simp [hid, Ne.symm other]

theorem stageOf_filter {j : Nat} (hus : s'.urbs = s.urbs.filter (·.id ≠ j)) (other : j ≠ k) :
    s'.stageOf k = s.stageOf k := by
  unfold Sys.stageOf
  rw [hus, List.find?_filter]
  congr 2
  funext u
  by_cases hk : u.id = k <;> simp [hk, Ne.symm other]

theorem stageOf_new {u : Urb} (hus : s'.urbs = s.urbs ++ [u]) (new : ∀ v ∈ s.urbs, v.id ≠ u.id) :
    s'.stageOf u.id = some u.stage := by
  unfold Sys.stageOf
  rw [hus, List.find?_append, List.find?_eq_none.2 (by simpa using new)]
  simp

theorem stageOf_append {u : Urb} (hus : s'.urbs = s.urbs ++ [u]) (other : u.id ≠ k) :
    s'.stageOf k = s.stageOf k := by
  unfold Sys.stageOf
  rw [hus, List.find?_append]
  simp [other]

/-- The URB that is reaped and whose callback is to be called. -/
def Pc.due : Pc → Option Nat
  | .reaped _ k _ => some k
  | _ => none

/-- The URB whose callback is running. -/
def Pc.running : Pc → Option Nat
  | .inCallback _ k _ => some k
  | _ => none

theorem Pc.urb_of_due {p : Pc} (h : p.due = some k) : ∃ t, p.urb = some (k, t) := by
  cases p <;> cases h
  exact ⟨_, rfl⟩

theorem Pc.urb_of_running {p : Pc} (h : p.running = some k) : ∃ t, p.urb = some (k, t) := by
  cases p <;> cases h
  exact ⟨_, rfl⟩

/-- The callback for the URB `k` is due. -/
def Sys.CallbackDue (s : Sys) (k : Nat) : Prop := ∃ th, (s.pc th).due = some k

/-- The callback for the URB `k` is running. -/
def Sys.UrbCallbackRunning (s : Sys) (k : Nat) : Prop := ∃ th, (s.pc th).running = some k

/-- What a step may do to another call is to wake it. -/
theorem others_step (h : step s e = some s') (other : e.actor ≠ some x) :
    s'.pc x = s.pc x ∨ s'.pc x = (s.pc x).wakeCtx ∨ ∃ t, s'.pc x = (s.pc x).wakeTran t := by
  cases step_trans h <;> grind -linarith [Event.actor]

section
variable {f : Pc → Option Nat} {starts ends : Bool}

/-- What `f` reads off a call does not change when the call is woken. -/
def WakeStable (f : Pc → Option Nat) : Prop :=
  (∀ p, f p.wakeCtx = f p) ∧ ∀ p t, f (p.wakeTran t) = f p

theorem wakeStable_due : WakeStable Pc.due := ⟨fun p => by cases p <;> rfl, fun p t => by cases p <;> rfl⟩

theorem wakeStable_running : WakeStable Pc.running :=
  ⟨fun p => by cases p <;> rfl, fun p t => by cases p <;> rfl⟩

theorem WakeStable.others (hf : WakeStable f) (h : step s e = some s') (other : e.actor ≠ some x) :
    f (s'.pc x) = f (s.pc x) := by
  obtain same | same | ⟨t, same⟩ := others_step h other
  · rw [same]
  · rw [same, hf.1]
  · rw [same, hf.2]

/-- A step that takes up or goes on with a URB. -/
def Event.works : Event → Bool
  | .reap _ (some _) | .lockReaped _ | .callbackReturn _ => true
  | _ => false

theorem quiet_step (h : step s e = some s') (actor : e.actor = some th) (idle : e.works = false) :
    (s.pc th).urb = none ∧ (s'.pc th).urb = none := by
  cases step_trans h <;> grind -linarith [Event.actor, Event.works, Pc.urb, Sys.Arrives]

/-- A step that does not work on a URB. -/
theorem WakeStable.rest (hf : WakeStable f) (worked : ∀ p k, f p = some k → ∃ t, p.urb = some (k, t))
    (h : step s e = some s') (idle : e.works = false) :
    (∃ x, f (s'.pc x) = some k) ↔ ∃ x, f (s.pc x) = some k := by
  have none {p : Pc} (hp : p.urb = none) : f p ≠ some k := by
    intro hk
    obtain ⟨t, hk⟩ := worked p k hk
    exact nomatch hp.symm.trans hk
  apply exists_congr
  intro x
  by_cases own : e.actor = some x
  · obtain ⟨before, after⟩ := quiet_step h own idle
    exact iff_of_false (none after) (none before)
  · rw [hf.others h own]

/-- A URB is worked on by one call, so what that call does is all that happens. -/
theorem WakeStable.moves (hf : WakeStable f) (worked : ∀ p k, f p = some k → ∃ t, p.urb = some (k, t))
    (hs : Numbered s) (h : step s e = some s') (actor : e.actor = some th)
    (moves : Moves starts ends (f (s.pc th) = some k) (f (s'.pc th) = some k)) :
    Moves starts ends (∃ x, f (s.pc x) = some k) (∃ x, f (s'.pc x) = some k) := by
  have others (x : Tid) (hx : x ≠ th) : f (s'.pc x) = f (s.pc x) :=
    hf.others h fun same => hx (Option.some.inj (same.symm.trans actor))
  have alone {u : Sys} (hu : Numbered u) (x y : Tid) (hx : f (u.pc x) = some k)
      (hy : f (u.pc y) = some k) : x = y := by
    obtain ⟨t, hx⟩ := worked _ _ hx
    obtain ⟨t', hy⟩ := worked _ _ hy
    exact hu.alone x y k t t' hx hy
  cases moves with
  | start starts ends idle busy =>
    refine .start starts ends ?_ ⟨th, busy⟩
    rintro ⟨x, hx⟩
    by_cases same : x = th
    · exact idle (same ▸ hx)
    · exact same (alone (numbered_step hs h) x th ((others x same).trans hx) busy)
  | finish starts ends busy idle =>
    refine .finish starts ends ⟨th, busy⟩ ?_
    rintro ⟨x, hx⟩
    by_cases same : x = th
    · exact idle (same ▸ hx)
    · exact same (alone hs x th ((others x same).symm.trans hx) busy)
  | rest starts ends same =>
    refine .rest starts ends (exists_congr fun x => ?_)
    by_cases hx : x = th
    · rw [hx, same]
    · rw [others x hx]

end

theorem Submission.life {c : SubmitChoice} {r : Error} (hs : Numbered s)
    (sub : Submission s t c r s') :
    UrbLife (s.stageOf k) (if s.Accepts k t c then some .accept else none) (s'.stageOf k) := by
  cases sub with
  | unsupported htype =>
    rw [if_neg fun accepted => accepted.2.1 htype]
    exact .rest
  | rejected w hk =>
    rw [if_neg fun accepted => nomatch accepted.2.2.symm.trans hk]
    exact .rest
  | @accepted table i w hk =>
    by_cases same : s.nextUrb = k
    · subst same
      have new (u : Urb) (hu : u ∈ s.urbs) : u.id ≠ s.nextUrb := Nat.ne_of_lt (hs.fresh u hu)
      have after : (s.accept t table).stageOf s.nextUrb = some .pending :=
        stageOf_new (u := s.newUrb t) rfl new
      rw [if_pos ⟨rfl, w.type_ne, hk⟩, stageOf_none new, after]
      exact .accept
    · have after : (s.accept t table).stageOf k = s.stageOf k :=
        stageOf_append (u := s.newUrb t) rfl same
      rw [if_neg fun accepted => same accepted.1, after]
      exact .rest

/-- The stage of one URB changes from `before` to `after`. -/
theorem UrbLife.stage {u : Urb} {g g' : Stage} {event : UrbEvent} (hs : Numbered s)
    (hs' : Numbered s') (hu : u ∈ s.urbs) (hg : u.stage = g) (hus : s'.urbs = setStage u.id g' s.urbs)
    (life : UrbLife (some g) (some event) (some g')) :
    UrbLife (s.stageOf k) (if u.id = k then some event else none) (s'.stageOf k) := by
  by_cases same : u.id = k
  · subst same
    have moved : { u with stage := g' } ∈ s'.urbs := hus ▸ (setStage_mem hu).1 rfl
    have after : s'.stageOf u.id = some g' := stageOf_eq hs' moved
    rwa [if_pos rfl, stageOf_eq hs hu, hg, after]
  · rw [if_neg same, stageOf_setStage hus same]
    exact .rest

/-- The loop is finished with a URB. -/
theorem UrbLife.drop {j : Nat} (hs : Numbered s) (working : (s.pc th).urb = some (j, t))
    (hus : s'.urbs = s.urbs.filter (·.id ≠ j)) :
    UrbLife (s.stageOf k) (if j = k then some .finish else none) (s'.stageOf k) := by
  by_cases same : j = k
  · subst same
    obtain ⟨u, hu, rfl, hg⟩ := hs.reaped th _ t working
    have gone : ∀ v ∈ s'.urbs, v.id ≠ u.id := by
      rw [hus]
      intro v hv
      simpa using (List.mem_filter.1 hv).2
    rw [if_pos rfl, stageOf_eq hs hu, hg, stageOf_none gone]
    exact .finish
  · rw [if_neg same, stageOf_filter hus same]
    exact .rest

/-- The loop is finished with a URB at its lock only if there is no callback. -/
theorem unset_of_finish {d : Round} {j : Nat} (h : step s (.lockReaped th) = some s')
    (hpc : s.pc th = .reaped d j t) (fin : (s.setActive t 2).finishUrb th d j t = some s') :
    (s.trans t).pub.callback = false := by
  rw [← Bool.not_eq_true]
  intro set
  have called := congrArg (fun s => s.pc th) (step_callback h hpc set)
  simp [finishUrb_pc fin] at called

/-- Every step takes every URB one step on in its life, or leaves it alone. -/
theorem urbLife_step (hs : Numbered s) (h : step s e = some s') (k : Nat) :
    UrbLife (s.stageOf k) (s.urbEvent k e) (s'.stageOf k) := by
  have hs' := numbered_step hs h
  cases step_trans h with
  | submit _ sub => exact sub.life hs
  | bulkAccepted hpc sub | bulkRefused hpc sub =>
    have life := sub.life (k := k) hs
    simp only [Sys.urbEvent, hpc]
    exact life
  | complete hu hg => exact .stage hs hs' hu hg rfl .complete
  | reap _ hu _ hg => exact .stage hs hs' hu hg rfl .reap
  | noCallback hpc _ fin =>
    have unset := unset_of_finish h hpc fin
    simp only [Sys.urbEvent, Sys.skipsCallback, hpc, unset, and_true, decide_eq_true_eq]
    exact .drop hs (by rw [hpc]; rfl) (finishUrb_urbs fin).1
  | callbackReturn hpc _ fin =>
    simp only [Sys.urbEvent, Sys.callbackReturns, hpc, decide_eq_true_eq]
    exact .drop hs (by rw [hpc]; rfl) (finishUrb_urbs fin).1
  | callback hpc hm hcb =>
    simp only [Sys.urbEvent, Sys.skipsCallback, hpc, hcb, Bool.true_eq_false, and_false,
      decide_false, Bool.false_eq_true, if_false]
    exact .rest
  | @leaveLoop th f r b r' =>
    have same : (s.leaveLoop th f.watchTran r').stageOf k = s.stageOf k := by simp [Sys.stageOf]
    rw [same]
    exact .rest
  | _ => exact .rest

section
variable {g g' : Option Stage} {event : Option UrbEvent}

theorem UrbLife.pending_moves (life : UrbLife g event g') :
    Moves (event = some .accept) (event = some .complete) (g = some .pending)
      (g' = some .pending) := by
  cases life with
  | accept => exact .start rfl rfl nofun rfl
  | complete => exact .finish rfl rfl rfl nofun
  | reap => exact .rest rfl rfl (by simp)
  | finish => exact .rest rfl rfl (by simp)
  | rest => exact .rest rfl rfl Iff.rfl

theorem UrbLife.completed_moves (life : UrbLife g event g') :
    Moves (event = some .complete) (event = some .reap)
      (∃ status len, g = some (.completed status len))
      (∃ status len, g' = some (.completed status len)) := by
  cases life with
  | accept => exact .rest rfl rfl (by simp)
  | complete => exact .start rfl rfl (by simp) ⟨_, _, rfl⟩
  | reap => exact .finish rfl rfl ⟨_, _, rfl⟩ (by simp)
  | finish => exact .rest rfl rfl (by simp)
  | rest => exact .rest rfl rfl Iff.rfl

theorem UrbLife.reaped_moves (life : UrbLife g event g') :
    Moves (event = some .reap) (event = some .finish) (g = some .reaped) (g' = some .reaped) := by
  cases life with
  | accept => exact .rest rfl rfl (by simp)
  | complete => exact .rest rfl rfl (by simp)
  | reap => exact .start rfl rfl nofun rfl
  | finish => exact .finish rfl rfl rfl nofun
  | rest => exact .rest rfl rfl Iff.rfl

end

/-! ## The callback -/

theorem skips_of_callsBack (h : s.callsBack k e = true) : s.skipsCallback k e = false := by
  cases e with
  | lockReaped th =>
    cases hpc : s.pc th with
    | reaped d j t =>
      simp only [Sys.callsBack, hpc, Bool.and_eq_true, decide_eq_true_eq] at h
      simp [Sys.skipsCallback, hpc, h.2]
    | _ => simp [Sys.callsBack, hpc] at h
  | _ => rfl

theorem callbackDue_moves (hs : Numbered s) (h : step s e = some s') :
    Moves (s.urbEvent k e = some .reap) (s.callsBack k e || s.skipsCallback k e)
      (s.CallbackDue k) (s'.CallbackDue k) := by
  have rest (idle : e.works = false) : s'.CallbackDue k ↔ s.CallbackDue k :=
    wakeStable_due.rest (fun _ _ => Pc.urb_of_due) h idle
  have moves {th : Tid} {starts ends : Bool} (actor : e.actor = some th)
      (m : Moves starts ends ((s.pc th).due = some k) ((s'.pc th).due = some k)) :=
    wakeStable_due.moves (fun _ _ => Pc.urb_of_due) hs h actor m
  cases e with
  | submit t c | complete j status len =>
    refine .rest ?_ rfl (rest rfl)
    simp only [Sys.urbEvent]
    split_ifs <;> rfl
  | bulkSubmit th c =>
    refine .rest (decide_eq_false ?_) rfl (rest rfl)
    simp only [Sys.urbEvent]
    split
    · split_ifs <;> exact nofun
    · exact nofun
  | reap th j =>
    cases step_trans h with
    | skip => exact .rest rfl rfl (rest rfl)
    | @reap _ d u status len hpc hu =>
      apply moves rfl
      by_cases same : u.id = k
      · refine .start (by simp [Sys.urbEvent, same]) rfl (by simp [hpc, Pc.due]) ?_
        simp [Pc.due, same]
      · refine .rest (by simp [Sys.urbEvent, same]) rfl ?_
        simp [hpc, Pc.due, same]
  | lockReaped th =>
    have none : decide (s.urbEvent k (.lockReaped th) = some .reap) = false := by
      simp only [Sys.urbEvent]
      split_ifs <;> rfl
    rw [none]
    cases step_trans h with
    | @callback _ d j t hpc hm set =>
      apply moves rfl
      by_cases same : j = k
      · refine .finish rfl ?_ (by simp [hpc, Pc.due, same]) (by simp [Pc.due])
        simp [Sys.callsBack, hpc, same, set]
      · refine .rest rfl ?_ (by simp [hpc, Pc.due, same])
        simp [Sys.callsBack, Sys.skipsCallback, hpc, same]
    | @noCallback _ d j t _ hpc hm fin =>
      have unset := unset_of_finish h hpc fin
      apply moves rfl
      by_cases same : j = k
      · refine .finish rfl ?_ (by simp [hpc, Pc.due, same]) (by simp [finishUrb_pc fin, Pc.due])
        simp [Sys.skipsCallback, hpc, same, unset]
      · refine .rest rfl ?_ (by simp [hpc, finishUrb_pc fin, Pc.due, same])
        simp [Sys.callsBack, Sys.skipsCallback, hpc, same]
  | callbackReturn th =>
    have none : decide (s.urbEvent k (.callbackReturn th) = some .reap) = false := by
      simp only [Sys.urbEvent]
      split_ifs <;> rfl
    rw [none]
    cases step_trans h with
    | callbackReturn hpc hm fin =>
      exact moves rfl (.rest rfl rfl (by simp [hpc, finishUrb_pc fin, Pc.due]))
  | _ => exact .rest rfl rfl (rest rfl)

theorem callbackRunning_moves (hs : Numbered s) (h : step s e = some s') :
    Moves (s.callsBack k e) (s.callbackReturns k e) (s.UrbCallbackRunning k)
      (s'.UrbCallbackRunning k) := by
  have rest (idle : e.works = false) : s'.UrbCallbackRunning k ↔ s.UrbCallbackRunning k :=
    wakeStable_running.rest (fun _ _ => Pc.urb_of_running) h idle
  have moves {th : Tid} {starts ends : Bool} (actor : e.actor = some th)
      (m : Moves starts ends ((s.pc th).running = some k) ((s'.pc th).running = some k)) :=
    wakeStable_running.moves (fun _ _ => Pc.urb_of_running) hs h actor m
  cases e with
  | reap th j =>
    cases step_trans h with
    | skip => exact .rest rfl rfl (rest rfl)
    | reap hpc => exact moves rfl (.rest rfl rfl (by simp [hpc, Pc.running]))
  | lockReaped th =>
    cases step_trans h with
    | @callback _ d j t hpc hm set =>
      apply moves rfl
      by_cases same : j = k
      · refine .start ?_ rfl (by simp [hpc, Pc.running]) (by simp [Pc.running, same])
        simp [Sys.callsBack, hpc, same, set]
      · refine .rest ?_ rfl (by simp [hpc, Pc.running, same])
        simp [Sys.callsBack, hpc, same]
    | @noCallback _ d j t _ hpc hm fin =>
      have unset := unset_of_finish h hpc fin
      refine moves rfl (.rest ?_ rfl (by simp [hpc, finishUrb_pc fin, Pc.running]))
      simp [Sys.callsBack, hpc, unset]
  | callbackReturn th =>
    cases step_trans h with
    | @callbackReturn _ d j t _ hpc hm fin =>
      apply moves rfl
      by_cases same : j = k
      · refine .finish rfl ?_ (by simp [hpc, Pc.running, same])
          (by simp [finishUrb_pc fin, Pc.running])
        simp [Sys.callbackReturns, hpc, same]
      · refine .rest rfl ?_ (by simp [hpc, finishUrb_pc fin, Pc.running, same])
        simp [Sys.callbackReturns, hpc, same]
  | _ => exact .rest rfl rfl (rest rfl)

/-! ## The accounts of a run -/

section
variable (es : List Event) (k : Nat)

/-- How often the step `event` of the life of the URB `k` happens in the run. -/
def urbCount (event : UrbEvent) : Nat :=
  eventLoop.occurrences (fun s e => s.urbEvent k e = some event) .initial es

/-- How often the callback for the URB `k` is called in the run. -/
def callbacksOf : Nat := eventLoop.occurrences (fun s e => s.callsBack k e) .initial es

/-- How often the loop finds no callback for the URB `k`. -/
def callbacksUnset : Nat := eventLoop.occurrences (fun s e => s.skipsCallback k e) .initial es

def callbacksReturned : Nat := eventLoop.occurrences (fun s e => s.callbackReturns k e) .initial es

end

theorem Submission.numbers {c : SubmitChoice} {r : Error} (sub : Submission s t c r s') (k : Nat) :
    (if k < s'.nextUrb then 1 else 0) =
      (if k < s.nextUrb then 1 else 0) + (decide (s.Accepts k t c)).toNat := by
  cases sub with
  | unsupported htype =>
    have refused : ¬s.Accepts k t c := fun accepted => accepted.2.1 htype
    simp [refused]
  | rejected w hk =>
    have refused : ¬s.Accepts k t c := fun accepted => nomatch accepted.2.2.symm.trans hk
    rw [decide_eq_false refused]
    rfl
  | accepted w hk =>
    have accepted : decide (s.Accepts k t c) = decide (s.nextUrb = k) :=
      decide_eq_decide.2 (and_iff_left ⟨w.type_ne, hk⟩)
    rw [accepted]
    simp only [Sys.accept]
    rcases Nat.lt_trichotomy k s.nextUrb with lt | rfl | gt
    · simp [lt, Nat.lt_succ_of_lt lt, Nat.ne_of_gt lt]
    · simp
    · simp [Nat.ne_of_lt gt, Nat.not_lt_of_lt gt, Nat.not_lt.2 gt]

theorem urbEvent_ne_accept (none : s.submission e = none) (k : Nat) :
    s.urbEvent k e ≠ some .accept := by
  cases e with
  | submit => cases none
  | bulkSubmit th c =>
    cases hpc : s.pc th with
    | bulkSubmit t => simp [Sys.submission, hpc] at none
    | _ => simp [Sys.urbEvent, hpc]
  | reap th j =>
    cases j with
    | none => rintro ⟨⟩
    | some j =>
      simp only [Sys.urbEvent]
      split_ifs <;> rintro ⟨⟩
  | complete | lockReaped | callbackReturn =>
    simp only [Sys.urbEvent]
    split_ifs <;> rintro ⟨⟩
  | _ => rintro ⟨⟩

/-- Only an accepted submission gives a number. -/
theorem accept_step (h : step s e = some s') (k : Nat) :
    (if k < s'.nextUrb then 1 else 0) =
      (if k < s.nextUrb then 1 else 0) + (decide (s.urbEvent k e = some .accept)).toNat := by
  have keeps (same : s'.nextUrb = s.nextUrb) (none : s.submission e = none) :
      (if k < s'.nextUrb then 1 else 0) =
        (if k < s.nextUrb then 1 else 0) + (decide (s.urbEvent k e = some .accept)).toNat := by
    rw [same, decide_eq_false (urbEvent_ne_accept none k)]
    rfl
  cases step_trans h with
  | submit _ sub =>
    rw [sub.numbers k]
    simp only [Sys.urbEvent]
    split_ifs <;> simp [*]
  | bulkAccepted hpc sub | bulkRefused hpc sub =>
    refine (sub.numbers k).trans ?_
    simp only [Sys.urbEvent, hpc]
    split_ifs <;> simp [*]
  | noCallback _ _ fin | callbackReturn _ _ fin => exact keeps (finishUrb_urbs fin).2 rfl
  | leaveLoop => exact keeps (leaveLoop_nextUrb ..) rfl
  | _ => exact keeps rfl rfl

/-- A number is given to one URB, in the order of the submissions. -/
theorem urbCount_accept (h : eventLoop.exec .initial es = some s) (k : Nat) :
    urbCount es k .accept = if k < s.nextUrb then 1 else 0 := by
  refine Machine.exec_induction (motive := fun es (s : Sys) =>
    urbCount es k .accept = if k < s.nextUrb then 1 else 0) rfl ?_ h
  intro es s e s' hx ih hs
  rw [urbCount, Machine.occurrences_snoc hx hs, accept_step hs k]
  exact congrArg (· + _) ih

/-- The kernel completes what it has accepted. -/
theorem urbCount_complete (h : eventLoop.exec .initial es = some s) (k : Nat) :
    Pending (s.stageOf k = some .pending) (urbCount es k .accept) (urbCount es k .complete) :=
  Machine.pending (P := fun s => s.stageOf k = some .pending) h numbered_initial nofun
    (fun _ _ _ => numbered_step) fun _ _ _ hs ht => (urbLife_step hs ht k).pending_moves

/-- In every run, whatever its interleaving and however many calls are inside the loop: the
kernel accepts the URB `k` once if the number was given, completes it once, the loop reaps
it once, and calls back once or finds no callback; what is missing is under way. -/
theorem urbs_conserved (h : eventLoop.exec .initial es = some s) (k : Nat) :
    urbCount es k .accept = (if k < s.nextUrb then 1 else 0) ∧
    Pending (s.stageOf k = some .pending) (urbCount es k .accept) (urbCount es k .complete) ∧
    Pending (∃ status len, s.stageOf k = some (.completed status len)) (urbCount es k .complete)
      (urbCount es k .reap) ∧
    Pending (s.stageOf k = some .reaped) (urbCount es k .reap) (urbCount es k .finish) ∧
    Pending (s.CallbackDue k) (urbCount es k .reap) (callbacksOf es k + callbacksUnset es k) ∧
    Pending (s.UrbCallbackRunning k) (callbacksOf es k) (callbacksReturned es k) := by
  refine ⟨urbCount_accept h k, urbCount_complete h k, ?_, ?_, ?_, ?_⟩
  · exact Machine.pending
      (P := fun s => ∃ status len, s.stageOf k = some (.completed status len)) h numbered_initial
      nofun (fun _ _ _ => numbered_step) fun _ _ _ hs ht => (urbLife_step hs ht k).completed_moves
  · exact Machine.pending (P := fun s => s.stageOf k = some .reaped) h numbered_initial nofun
      (fun _ _ _ => numbered_step) fun _ _ _ hs ht => (urbLife_step hs ht k).reaped_moves
  · have := Machine.pending (P := fun s => s.CallbackDue k) h numbered_initial nofun
      (fun _ _ _ => numbered_step) fun _ _ _ => callbackDue_moves (k := k)
    rwa [Machine.occurrences_or h fun _ _ => skips_of_callsBack] at this
  · exact Machine.pending (P := fun s => s.UrbCallbackRunning k) h numbered_initial nofun
      (fun _ _ _ => numbered_step) fun _ _ _ => callbackRunning_moves

/-- A transfer whose callback is running. -/
theorem urbs_conserved_called : ∃ s,
    eventLoop.exec .initial [.openHandle 0 5, .alloc 7, .fill 7 { type := .bulk, callback := true },
      .submit 7 ⟨true, none⟩, .complete 0 0 8, .callRun 1, .enter 1, .head 1 true,
      .pollReturn 1 (some false), .reap 1 (some 0), .lockReaped 1] = some s ∧
    ∃ es, callbacksOf es 0 = callbacksReturned es 0 + 1 ∧ urbCount es 0 .accept = 1 := by
  refine ⟨_, rfl, ?_⟩
  have run : eventLoop.exec .initial [.openHandle 0 5, .alloc 7,
    .fill 7 { type := .bulk, callback := true }, .submit 7 ⟨true, none⟩, .complete 0 0 8, .callRun 1,
    .enter 1, .head 1 true, .pollReturn 1 (some false), .reap 1 (some 0), .lockReaped 1] =
      some _ := rfl
  obtain ⟨accepted, -, -, -, -, ⟨-, called⟩ | ⟨idle, -⟩⟩ := urbs_conserved run 0
  · exact ⟨_, called, accepted⟩
  · exact absurd ⟨1, rfl⟩ idle

end Libusby.Linux.EventLoop
