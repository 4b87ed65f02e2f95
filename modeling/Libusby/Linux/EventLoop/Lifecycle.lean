import Libusby.Linux.EventLoop.Completion

/-!
# The life of a URB

From its submission to the end of the callback, whatever the other calls do meanwhile:
the result of the URB is stored once, and the callback is called once if there is one
(`Phase`). The client has to leave the transfer alone for that.
-/

namespace Libusby.Linux.EventLoop

open Foundations

/-- The URB that the call is working on, with its transfer. -/
def Pc.urb : Pc → Option (Nat × TranId)
  | .reaped _ k t | .inCallback _ k t => some (k, t)
  | _ => none

/-- Every URB has a number of its own, and at most one call works on it. -/
structure Numbered (s : Sys) : Prop where
  fresh : ∀ u ∈ s.urbs, u.id < s.nextUrb
  inj : ∀ u ∈ s.urbs, ∀ v ∈ s.urbs, u.id = v.id → u = v
  reaped : ∀ th k t, (s.pc th).urb = some (k, t) → ∃ u ∈ s.urbs, u.id = k ∧ u.stage = .reaped
  alone : ∀ x y k t u, (s.pc x).urb = some (k, t) → (s.pc y).urb = some (k, u) → x = y

theorem numbered_initial : Numbered .initial := by
  constructor <;> simp [Sys.initial, Pc.urb]

theorem bulkOwned_initial : BulkOwned .initial := by
  constructor <;> simp [Sys.initial, Pc.waiter]

@[grind =] theorem urb_wakeCtx (p : Pc) : p.wakeCtx.urb = p.urb := by cases p <;> rfl

@[grind =] theorem urb_wakeTran (p : Pc) (t : TranId) : (p.wakeTran t).urb = p.urb := by
  cases p <;> rfl

@[grind =] theorem urb_outcome (w : Waiter) (r : Error) (n : Nat) : (w.outcome r n).urb = none := by
  grind -linarith [Pc.urb]

@[grind =] theorem urb_exitPc (s : Sys) (r : Error) (watch : Option Waiter) :
    (exitPc s r watch).urb = none := by
  grind -linarith [Pc.urb]

section
variable {s t : Sys} {e : Event}

theorem reaped_urb_step (hs : Numbered s) (h : step s e = some t) (th : Tid) (k : Nat) (i : TranId)
    (hw : (t.pc th).urb = some (k, i)) : ∃ u ∈ t.urbs, u.id = k ∧ u.stage = .reaped := by
  have reaped := hs.reaped
  have inj := hs.inj
  have alone := hs.alone
  cases step_trans h with
  | @reap x d u st len hpc hu hfd hg =>
    have moved := setStage_mem (k := u.id) (g := .reaped) hu
    have others (v : Urb) (hv : v ∈ s.urbs) :=
      setStage_mem (k := u.id) (g := .reaped) hv
    grind -linarith [Pc.urb]
  | @complete u st len hu hg =>
    have others (v : Urb) (hv : v ∈ s.urbs) :=
      setStage_mem (k := u.id) (g := .completed st len) hv
    grind -linarith [Pc.urb]
  | _ => grind -linarith [Pc.urb]

theorem alone_step (hs : Numbered s) (h : step s e = some t) (x y : Tid) (k : Nat) (i j : TranId)
    (hx : (t.pc x).urb = some (k, i)) (hy : (t.pc y).urb = some (k, j)) : x = y := by
  have reaped := hs.reaped
  have inj := hs.inj
  have alone := hs.alone
  cases step_trans h <;> grind -linarith [Pc.urb]

theorem numbered_step (hs : Numbered s) (h : step s e = some t) : Numbered t where
  fresh := (queue_step hs.fresh hs.inj h).1
  inj := (queue_step hs.fresh hs.inj h).2
  reaped := reaped_urb_step hs h
  alone := alone_step hs h

end

theorem reachable_numbered {s : Sys} (h : eventLoop.Reachable s) : Numbered s :=
  h.invariant numbered_initial fun _ _ _ => numbered_step

theorem reachable_bulkOwned {s : Sys} (h : eventLoop.Reachable s) : BulkOwned s :=
  h.invariant bulkOwned_initial fun _ _ _ => bulkOwned_step

/-- The client neither fills nor submits the transfer. -/
def Event.leaves (t : TranId) : Event → Prop
  | .fill u _ | .submit u _ => u ≠ t
  | _ => True

/-- The step calls the callback for the URB `k`. -/
def Sys.callsBack (s : Sys) (k : Nat) : Event → Bool
  | .lockReaped th =>
    match s.pc th with
    | .reaped _ i t => i = k && (s.trans t).pub.callback
    | _ => false
  | _ => false

/-- How often the callback is called for the URB `k` in a run. -/
def callbacks (k : Nat) (s : Sys) : List Event → Nat
  | [] => 0
  | e :: es =>
    match step s e with
    | none => 0
    | some t => (if s.callsBack k e then 1 else 0) + callbacks k t es

/-- How far the URB `k` is that was submitted for `t` with the fields `pub`, and how often
its callback was called. -/
inductive Phase (s : Sys) (t : TranId) (k : Nat) (pub : PubTransfer) (status len : Int) : Nat → Prop
  | pending {u} : u ∈ s.urbs → u.id = k → u.tran = t → u.stage = .pending →
      (s.trans t).pub = pub → Phase s t k pub status len 0
  | completed {u} : u ∈ s.urbs → u.id = k → u.tran = t → u.stage = .completed status len →
      (s.trans t).pub = pub → Phase s t k pub status len 0
  | reaped {th d} : s.pc th = .reaped d k t → (s.trans t).pub = pub.store status len →
      Phase s t k pub status len 0
  | called {th d} : s.pc th = .inCallback d k t → (s.trans t).pub = pub.store status len →
      pub.callback = true → Phase s t k pub status len 1
  | finished : (∀ u ∈ s.urbs, u.id ≠ k) → (s.trans t).pub = pub.store status len →
      Phase s t k pub status len (if pub.callback then 1 else 0)

/-- The state between the submission of `t` as the URB `k` and the client's next use of it. -/
structure Underway (s : Sys) (t : TranId) (k : Nat) (pub : PubTransfer) (status len : Int)
    (n : Nat) : Prop where
  numbered : Numbered s
  bulkOwned : BulkOwned s
  client : (s.trans t).owner = .client
  issued : k < s.nextUrb
  only : ∀ u ∈ s.urbs, u.outstanding = true → u.tran = t → u.id = k
  phase : Phase s t k pub status len n

section
variable {s s' : Sys} {e : Event} {t : TranId} {k n : Nat} {pub : PubTransfer} {status len : Int}

theorem client_step (hs : BulkOwned s) (h : step s e = some s')
    (client : (s.trans t).owner = .client) : (s'.trans t).owner = .client := by
  have unsubmitted := hs.unsubmitted
  have waiter := hs.waiter
  cases step_trans h with
  | @leaveBulk th w r hpc hb =>
    have := waiter th w (by rw [hpc]; rfl) hb
    grind -linarith
  | _ => grind -linarith

theorem only_step (hs : Underway s t k pub status len n) (h : step s e = some s')
    (leaves : e.leaves t) : ∀ u ∈ s'.urbs, u.outstanding = true → u.tran = t → u.id = k := by
  have only := hs.only
  have client := hs.client
  have unsubmitted := hs.bulkOwned.unsubmitted
  cases step_trans h with
  | reap _ hu _ hg | complete hu hg =>
    have inj := hs.numbered.inj
    intro v hv
    obtain ⟨w, hw, rfl⟩ := mem_setStage.1 hv
    grind -linarith [Urb.outstanding]
  | _ => grind -linarith [Sys.newUrb, Event.leaves]

/-- The fields of the transfer change only when its URB is reaped. -/
theorem pub_step (hs : Underway s t k pub status len n) (h : step s e = some s')
    (leaves : e.leaves t) :
    (s'.trans t).pub = (s.trans t).pub ∨ ∃ th d u st l, s.pc th = .reaping d ∧ u ∈ s.urbs ∧
      u.id = k ∧ u.stage = .completed st l ∧ s'.pc th = .reaped d k t ∧
      (s'.trans t).pub = (s.trans t).pub.store st l := by
  have only := hs.only
  have client := hs.client
  have unsubmitted := hs.bulkOwned.unsubmitted
  cases step_trans h <;> grind -linarith [Event.leaves, Urb.outstanding]

/-- A URB that is still in the queue and not reaped in this step stays in the queue. -/
theorem phase_pending (hs : Underway s t k pub status len n) (h : step s e = some s')
    {u : Urb} (hu : u ∈ s.urbs) (hk : u.id = k) (hg : u.stage ≠ .reaped) :
    u ∈ s'.urbs ∨ (∃ st l, e = .complete k st l ∧ u.stage = .pending ∧
      { u with stage := .completed st l } ∈ s'.urbs) ∨
    ∃ th d st l, u.stage = .completed st l ∧ s'.pc th = .reaped d k u.tran ∧
      (s'.trans u.tran).pub = (s.trans u.tran).pub.store st l := by
  have inj := hs.numbered.inj
  have reaped := hs.numbered.reaped
  cases step_trans h with
  | @reap x d v st len hpc hv hfd hstage =>
    obtain ⟨moved, kept⟩ := setStage_mem (k := v.id) (g := .reaped) hu
    by_cases hid : u.id = v.id
    · obtain rfl := inj u hu v hv hid
      exact .inr (.inr ⟨x, d, st, len, hstage, by simp [hk], by simp [Sys.setPub]⟩)
    · exact .inl (kept hid)
  | @complete v st len hv hstage =>
    obtain ⟨moved, kept⟩ := setStage_mem (k := v.id) (g := .completed st len) hu
    by_cases hid : u.id = v.id
    · obtain rfl := inj u hu v hv hid
      exact .inr (.inl ⟨st, len, hk ▸ rfl, hstage, moved rfl⟩)
    · exact .inl (kept hid)
  | @noCallback x d i j _ hpc _ fin | @callbackReturn x d i j _ hpc _ fin =>
    obtain ⟨v, hv, hid, hstage⟩ := reaped x i j (by rw [hpc]; rfl)
    refine .inl ?_
    rw [(finishUrb_urbs fin).1]
    refine List.mem_filter.2 ⟨hu, ?_⟩
    have other : u.id ≠ i := fun same => hg (inj u hu v hv (same.trans hid.symm) ▸ hstage)
    simpa using other
  | _ => grind -linarith

theorem step_callback {th : Tid} {d : Round} {i : Nat} {j : TranId}
    (h : step s (.lockReaped th) = some s') (hpc : s.pc th = .reaped d i j)
    (callback : (s.trans j).pub.callback = true) :
    s' = (s.setActive j 2).setPc th (.inCallback d i j) := by
  simp only [step, hpc, if_pos callback] at h
  split at h <;> cases h
  rfl

/-- A call that works on the URB goes on with it, calls the callback or is done with it. -/
theorem phase_worked (hs : Underway s t k pub status len n) (h : step s e = some s') {th : Tid}
    (hw : (s.pc th).urb = some (k, t)) :
    s'.pc th = s.pc th ∧ s.callsBack k e = false ∨
    (∃ d, s.pc th = .reaped d k t ∧ s'.pc th = .inCallback d k t ∧
      (s.trans t).pub.callback = true ∧ s.callsBack k e = true) ∨
    (∀ u ∈ s'.urbs, u.id ≠ k) ∧ s.callsBack k e = false ∧
      ((∃ d, s.pc th = .reaped d k t) → (s.trans t).pub.callback = false) := by
  have alone := hs.numbered.alone
  cases step_trans h with
  | @noCallback x d i j _ hpc _ fin =>
    by_cases callback : (s.trans j).pub.callback = true
    · rw [step_callback h hpc callback] at fin ⊢
      grind -linarith [Pc.urb, Sys.callsBack]
    · grind -linarith [Pc.urb, Sys.callsBack]
  | _ => grind -linarith [Pc.urb, Sys.callsBack, Sys.Arrives]

theorem callsBack_urb (h : s.callsBack k e = true) : ∃ th i, (s.pc th).urb = some (k, i) := by
  unfold Sys.callsBack at h
  split at h
  case h_1 th =>
    split at h
    case h_1 hpc =>
      obtain ⟨rfl, -⟩ : _ = k ∧ _ := by simpa using h
      exact ⟨th, _, by rw [hpc]; rfl⟩
    case h_2 => cases h
  case h_2 => cases h

/-- Nobody works on a URB that is not reaped, or not in the queue any more. -/
theorem Numbered.callsBack_eq (hs : Numbered s)
    (h : ∀ u ∈ s.urbs, u.id = k → u.stage ≠ .reaped) : s.callsBack k e = false := by
  by_contra calls
  obtain ⟨th, i, hw⟩ := callsBack_urb (by simpa using calls)
  obtain ⟨u, hu, hk, hg⟩ := hs.reaped th k i hw
  exact h u hu hk hg

theorem issued_step (h : step s e = some s') (issued : k < s.nextUrb) : k < s'.nextUrb := by
  cases urbEffect h <;> grind -linarith

theorem gone_step (h : step s e = some s') (gone : ∀ u ∈ s.urbs, u.id ≠ k) (hk : k < s.nextUrb) :
    ∀ u ∈ s'.urbs, u.id ≠ k := by
  cases urbEffect h <;> grind -linarith [mem_setStage, Sys.newUrb]

/-- The result of a URB that is not completed, or is reaped already, is not stored. -/
theorem pub_kept (hs : Underway s t k pub status len n) (h : step s e = some s')
    (leaves : e.leaves t) (done : ∀ u ∈ s.urbs, u.id = k → ∀ st l, u.stage ≠ .completed st l) :
    (s'.trans t).pub = (s.trans t).pub := by
  rcases pub_step hs h leaves with same | ⟨_, _, u, st, l, -, hu, hk, hg, -⟩
  · exact same
  · exact absurd hg (done u hu hk st l)

theorem phase_step (hs : Underway s t k pub status len n) (h : step s e = some s')
    (leaves : e.leaves t) (outcome : ∀ st l, e = .complete k st l → st = status ∧ l = len) :
    Phase s' t k pub status len (n + if s.callsBack k e then 1 else 0) := by
  have one (u v : Urb) (hu : u ∈ s.urbs) (hk : u.id = k) (hv : v ∈ s.urbs) (hvk : v.id = k) : v = u :=
    hs.numbered.inj v hv u hu (hvk.trans hk.symm)
  have worked (th : Tid) (hw : (s.pc th).urb = some (k, t)) :
      (s'.trans t).pub = (s.trans t).pub := by
    obtain ⟨u, hu, hk, hg⟩ := hs.numbered.reaped th k t hw
    exact pub_kept hs h leaves fun v hv hvk => by simp [one u v hu hk hv hvk, hg]
  cases hs.phase with
  | @pending u hu hk ht hg hp =>
    rw [hs.numbered.callsBack_eq fun v hv hvk => by simp [one u v hu hk hv hvk, hg]]
    have kept := pub_kept hs h leaves fun v hv hvk => by simp [one u v hu hk hv hvk, hg]
    obtain stays | ⟨st, l, he, -, hu'⟩ | ⟨_, _, _, _, hg', -⟩ :=
      phase_pending hs h hu hk (by simp [hg])
    · exact .pending stays hk ht hg (kept.trans hp)
    · obtain ⟨rfl, rfl⟩ := outcome st l he
      exact .completed hu' hk ht rfl (kept.trans hp)
    · rw [hg] at hg'
      cases hg'
  | @completed u hu hk ht hg hp =>
    rw [hs.numbered.callsBack_eq fun v hv hvk => by simp [one u v hu hk hv hvk, hg]]
    obtain stays | ⟨_, _, -, hg', -⟩ | ⟨th, d, st, l, hg', hpc, stored⟩ :=
      phase_pending hs h hu hk (by simp [hg])
    · rcases pub_step hs h leaves with same | ⟨th, d, v, st, l, -, hv, hvk, hvg, hpc, stored⟩
      · exact .completed stays hk ht hg (same.trans hp)
      · rw [one u v hu hk hv hvk, hg] at hvg
        cases hvg
        exact .reaped hpc (by rw [stored, hp])
    · rw [hg] at hg'
      cases hg'
    · rw [hg] at hg'
      cases hg'
      rw [ht] at hpc stored
      exact .reaped hpc (by rw [stored, hp])
  | @reaped th d hpc hp =>
    have hw : (s.pc th).urb = some (k, t) := by rw [hpc]; rfl
    have kept := (worked th hw).trans hp
    have callback : (s.trans t).pub.callback = pub.callback := by rw [hp]; rfl
    rcases phase_worked hs h hw with ⟨hpc', hcb⟩ | ⟨d', -, hpc', hcb, calls⟩ | ⟨gone, hcb, none⟩
    · rw [hcb]
      exact .reaped (hpc'.trans hpc) kept
    · rw [calls]
      exact .called hpc' kept (callback ▸ hcb)
    · rw [hcb]
      have finished := Phase.finished gone kept
      rwa [← callback, none ⟨d, hpc⟩] at finished
  | @called th d hpc hp callback =>
    have hw : (s.pc th).urb = some (k, t) := by rw [hpc]; rfl
    have kept := (worked th hw).trans hp
    rcases phase_worked hs h hw with ⟨hpc', hcb⟩ | ⟨d', hpc', -⟩ | ⟨gone, hcb, -⟩
    · rw [hcb]
      exact .called (hpc'.trans hpc) kept callback
    · rw [hpc] at hpc'
      cases hpc'
    · rw [hcb]
      have finished := Phase.finished gone kept
      rwa [if_pos callback] at finished
  | finished gone hp =>
    rw [hs.numbered.callsBack_eq fun u hu hk => absurd hk (gone u hu)]
    refine .finished (gone_step h gone hs.issued) ?_
    exact (pub_kept hs h leaves fun u hu hk => absurd hk (gone u hu)).trans hp

theorem underway_step (hs : Underway s t k pub status len n) (h : step s e = some s')
    (leaves : e.leaves t) (outcome : ∀ st l, e = .complete k st l → st = status ∧ l = len) :
    Underway s' t k pub status len (n + if s.callsBack k e then 1 else 0) where
  numbered := numbered_step hs.numbered h
  bulkOwned := bulkOwned_step hs.bulkOwned h
  client := client_step hs.bulkOwned h hs.client
  issued := issued_step h hs.issued
  only := only_step hs h leaves
  phase := phase_step hs h leaves outcome

theorem underway_run {es : List Event} (hs : Underway s t k pub status len n)
    (h : eventLoop.exec s es = some s') (leaves : ∀ e ∈ es, e.leaves t)
    (outcome : ∀ st l, .complete k st l ∈ es → st = status ∧ l = len) :
    Underway s' t k pub status len (n + callbacks k s es) := by
  induction es generalizing s n with
  | nil =>
    cases h
    exact hs
  | cons e es ih =>
    obtain ⟨u, hu, h⟩ := Machine.exec_cons.1 h
    have next := underway_step hs hu (leaves e (List.mem_cons_self ..))
      fun st l he => outcome st l (he ▸ List.mem_cons_self ..)
    have count : callbacks k s (e :: es) = (if s.callsBack k e then 1 else 0) + callbacks k u es := by
      rw [callbacks, show step s e = some u from hu]
    rw [count, ← Nat.add_assoc]
    exact ih next h (fun f hf => leaves f (List.mem_cons_of_mem _ hf))
      fun st l hf => outcome st l (List.mem_cons_of_mem _ hf)

/-- When the loop is done with the URB its result is stored, and the callback was called
once if there is one. -/
theorem Underway.finished (hs : Underway s t k pub status len n) (gone : ∀ u ∈ s.urbs, u.id ≠ k) :
    (s.trans t).pub = pub.store status len ∧ n = if pub.callback then 1 else 0 := by
  have worked (th : Tid) (hw : (s.pc th).urb = some (k, t)) : False := by
    obtain ⟨u, hu, hk, -⟩ := hs.numbered.reaped th k t hw
    exact gone u hu hk
  cases hs.phase with
  | pending hu hk | completed hu hk => exact absurd hk (gone _ hu)
  | reaped hpc | called hpc => exact (worked _ (by rw [hpc]; rfl)).elim
  | finished _ hp => exact ⟨hp, rfl⟩

/-- An accepted submission of a transfer that has no URB in the kernel. -/
theorem underway_submit {c : SubmitChoice} (reach : eventLoop.Reachable s)
    (idle : ¬ s.Outstanding t) (supported : (s.trans t).pub.type ≠ .isochronous)
    (accepted : c.rejected = none) (h : step s (.submit t c) = some s') :
    Underway s' t s.nextUrb (s.trans t).pub status len 0 := by
  have numbered := reachable_numbered reach
  have bulkOwned := reachable_bulkOwned reach
  cases step_trans h with
  | submit client sub =>
    cases sub with
    | unsupported htype => exact absurd htype supported
    | rejected _ hr =>
      rw [accepted] at hr
      cases hr
    | @accepted table i w =>
      refine ⟨numbered_step numbered h, bulkOwned_step bulkOwned h, client_step bulkOwned h client,
        Nat.lt_succ_self _, fun u hu ho ht => ?_, ?_⟩
      · simp only [Sys.accept, List.mem_append, List.mem_singleton] at hu
        rcases hu with hu | rfl
        · exact absurd ⟨u, hu, ht, ho⟩ idle
        · rfl
      · refine .pending (u := s.newUrb t) (List.mem_append_right _ (List.mem_singleton_self _)) rfl
          rfl rfl ?_
        simp [Sys.accept]

end

end Libusby.Linux.EventLoop
