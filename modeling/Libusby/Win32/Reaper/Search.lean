import Libusby.Win32.Reaper.Sleep

/-!
# The search after a wait

A wait that does not fail reports a queued request that is done. Its transfer stays on the
list until the search reaches it, whatever is submitted in the meantime, so the search finds
it and `GetOverlappedResult` returns at once.
-/

namespace Libusby.Win32.Reaper

open Foundations Libusby.Core

variable {c : Checks} {s s' : Sys} {e : Event} {th : Tid} {t : TranId} {hTarget hTarget' h h' : Handle}
  {p : Pc} {i n : Nat} {res : UInt32} {cur : Option TranId} {as bs : List TranId}

/-- If the event is the end of a wait on the array, the wait did not fail. -/
def Sys.WaitSucceeds (s : Sys) (e : Event) : Prop :=
  ∀ th res hTarget n, e = .waitMultiple th res → s.pc th = .waiting hTarget n → res.toNat < n

/-- A search that has passed `as` has transfer `t`, whose request signals `h`, ahead of it. -/
structure Ahead (s : Sys) (h : Handle) (i : Nat) (cur : Option TranId) (t : TranId)
    (as bs : List TranId) : Prop where
  handle : h = .overlapped t
  queue : Queue s (as ++ bs)
  position : as.length = i
  here : cur = bs.head?
  mem : t ∈ bs
  done : (s.trans t).overlapped.result ≠ none

namespace Ahead

theorem submitted (ha : Ahead s h i cur t as bs) : (s.trans t).submitted = true :=
  (ha.queue.mem t).1 (List.mem_append_right _ ha.mem)

theorem frame (ha : Ahead s h i cur t as bs) (trani : s'.ctx.trani = s.ctx.trani)
    (count : s'.ctx.tranCount = s.ctx.tranCount)
    (submitted : ∀ t, (s'.trans t).submitted = (s.trans t).submitted)
    (done : (s'.trans t).overlapped.result ≠ none) : Ahead s' h i cur t as bs where
  handle := ha.handle
  queue := ha.queue.frame trani count submitted
  position := ha.position
  here := ha.here
  mem := ha.mem
  done := done

theorem enqueued {u : TranId} (ha : Ahead s h i cur t as bs) (idle : (s.trans u).submitted = false)
    (o : Overlapped) : Ahead (s.enqueued u o) h i cur t as (bs ++ [u]) where
  handle := ha.handle
  queue := List.append_assoc as bs [u] ▸ ha.queue.enqueued idle o
  position := ha.position
  here := by
    rw [ha.here, List.head?_append_of_ne_nil _ (List.ne_nil_of_mem ha.mem)]
  mem := List.mem_append_left _ ha.mem
  done := by
    have other : t ≠ u := by
      rintro rfl
      exact nomatch idle.symm.trans ha.submitted
    simpa [Sys.enqueued, other] using ha.done

/-- One iteration: the transfer is found, or it is still ahead. -/
theorem search (ha : Ahead s h i cur t as bs) (pc : s.pc th = .searching hTarget h i cur) :
    step c s (.search th) = some (s.setPc th (.reaping hTarget t)) ∨
      ∃ u bs', bs = u :: bs' ∧
        step c s (.search th) = some (s.setPc th (.searching hTarget h (i + 1) bs'.head?)) ∧
        Ahead s h (i + 1) bs'.head? t (as ++ [u]) bs' := by
  obtain ⟨rfl, queue, rfl, rfl, mem, done⟩ := ha
  cases bs with
  | nil => cases mem
  | cons u bs =>
    have within : (as.length : Int) < s.ctx.tranCount := by
      rw [queue.count, List.length_append, List.length_cons]
      omega
    rw [List.head?_cons] at pc
    simp only [step, pc, if_pos within]
    by_cases found : u = t
    · exact .inl (by rw [found, if_pos rfl])
    · refine .inr ⟨u, bs, rfl, ?_, rfl, ?_, ?_, rfl, ?_, done⟩
      · rw [if_neg (by simpa using found), queue.chain.next]
      · rw [List.append_assoc]
        exact queue
      · rw [List.length_append, List.length_singleton]
      · exact (List.mem_cons.1 mem).resolve_left (Ne.symm found)

end Ahead

/-- The list when a search begins. -/
theorem Queue.ahead {q : List TranId} (hq : Queue s q) (ht : t ∈ q)
    (done : (s.trans t).overlapped.result ≠ none) :
    Ahead s (.overlapped t) 0 s.ctx.trani.first t [] q where
  handle := rfl
  queue := hq
  position := rfl
  here := hq.chain.first
  mem := ht
  done := done

/-- Every search has its transfer ahead of it, and what is found is done. -/
structure Tracked (s : Sys) : Prop where
  searching : ∀ th hTarget h i cur, s.pc th = .searching hTarget h i cur →
    ∃ t as bs, Ahead s h i cur t as bs
  reaping : ∀ th hTarget t, s.pc th = .reaping hTarget t → (s.trans t).overlapped.result ≠ none

namespace Tracked

theorem init : Tracked {} := ⟨nofun, nofun⟩

/-- A step that leaves the list alone and undoes no request. -/
theorem frame (h : Tracked s) (hc : Consistent s) (pc : s'.pc = s.pc)
    (trani : s'.ctx.trani = s.ctx.trani) (count : s'.ctx.tranCount = s.ctx.tranCount)
    (submitted : ∀ t, (s'.trans t).submitted = (s.trans t).submitted)
    (done : ∀ t, (s.trans t).submitted = true → (s.trans t).overlapped.result ≠ none →
      (s'.trans t).overlapped.result ≠ none) : Tracked s' where
  searching x hTarget h' i cur hx := by
    rw [pc] at hx
    obtain ⟨t, as, bs, ha⟩ := h.searching x hTarget h' i cur hx
    exact ⟨t, as, bs, ha.frame trani count submitted (done t ha.submitted ha.done)⟩
  reaping x hTarget t hx := by
    rw [pc] at hx
    exact done t (hc.listed x t (by rw [hx]; rfl)) (h.reaping x hTarget t hx)

/-- A step of one thread that neither searches nor has found a transfer. -/
theorem move (h : Tracked s) (pc : s'.pc = (s.setPc th p).pc)
    (trani : s'.ctx.trani = s.ctx.trani) (count : s'.ctx.tranCount = s.ctx.tranCount)
    (submitted : ∀ t, (s'.trans t).submitted = (s.trans t).submitted)
    (overlapped : ∀ t, (s'.trans t).overlapped = (s.trans t).overlapped)
    (hs : ∀ hTarget h i cur, p ≠ .searching hTarget h i cur)
    (hr : ∀ hTarget t, p ≠ .reaping hTarget t) : Tracked s' where
  searching x hTarget h' i cur hx := by
    rw [pc, Sys.setPc_pc] at hx
    split_ifs at hx
    · exact absurd hx (hs hTarget h' i cur)
    · obtain ⟨t, as, bs, ha⟩ := h.searching x hTarget h' i cur hx
      exact ⟨t, as, bs, ha.frame trani count submitted (by rw [overlapped]; exact ha.done)⟩
  reaping x hTarget t hx := by
    rw [pc, Sys.setPc_pc] at hx
    split_ifs at hx
    · exact absurd hx (hr hTarget t)
    · rw [overlapped]
      exact h.reaping x hTarget t hx

/-- The only reaper begins or goes on with a search. -/
theorem searches (h : Tracked s) (ha : Ahead s h' i cur t as bs) :
    Tracked (s.setPc th (.searching hTarget h' i cur)) where
  searching x hTarget' h'' i' cur' hx := by
    rw [Sys.setPc_pc] at hx
    split_ifs at hx
    · cases hx
      exact ⟨t, as, bs, ha.frame rfl rfl (fun _ => rfl) ha.done⟩
    · obtain ⟨u, as', bs', ha'⟩ := h.searching x hTarget' h'' i' cur' hx
      exact ⟨u, as', bs', ha'.frame rfl rfl (fun _ => rfl) ha'.done⟩
  reaping x hTarget' u hx := by
    rw [Sys.setPc_pc] at hx
    split_ifs at hx
    exact h.reaping x hTarget' u hx

theorem found (h : Tracked s) (done : (s.trans t).overlapped.result ≠ none) :
    Tracked (s.setPc th (.reaping hTarget t)) where
  searching x hTarget' h' i' cur' hx := by
    rw [Sys.setPc_pc] at hx
    split_ifs at hx
    obtain ⟨u, as', bs', ha'⟩ := h.searching x hTarget' h' i' cur' hx
    exact ⟨u, as', bs', ha'.frame rfl rfl (fun _ => rfl) ha'.done⟩
  reaping x hTarget' u hx := by
    rw [Sys.setPc_pc] at hx
    split_ifs at hx
    · cases hx
      exact done
    · exact h.reaping x hTarget' u hx

theorem search (h : Tracked s) (pc : s.pc th = .searching hTarget h' i cur)
    (hs : step c s (.search th) = some s') : Tracked s' := by
  obtain ⟨t, as, bs, ha⟩ := h.searching th hTarget h' i cur pc
  obtain found | ⟨u, bs', rfl, next, ha'⟩ := ha.search (c := c) pc
  · rw [found] at hs
    cases hs
    exact h.found ha.done
  · rw [next] at hs
    cases hs
    exact h.searches ha'

theorem step (h : Tracked s) (hc : Consistent s) (hw : AllWatched s) (hg : Signals s)
    (succeeds : s.WaitSucceeds e) (hs : Reaper.step .source s e = some s') : Tracked s' := by
  have stepped := hs
  cases step_rule hs with
  | refuse => exact h
  | @fill t pub =>
    refine h.frame hc rfl rfl rfl (fun _ => Sys.setTran_keeps _ _ _ _ (·.submitted) rfl)
      fun u _ done => ?_
    have same : ((s.setTran t { s.trans t with pub }).trans u).overlapped =
        (s.trans u).overlapped := Sys.setTran_keeps _ _ _ _ (·.overlapped) rfl
    rwa [same]
  | @reject t res n idle =>
    refine h.frame hc rfl rfl rfl (fun _ => Sys.setTran_keeps _ _ _ _ (·.submitted) rfl)
      fun u submitted done => ?_
    have other : u ≠ t := by
      rintro rfl
      cases idle.symm.trans submitted
    rwa [Sys.setTran_trans, if_neg other]
  | @complete t res n =>
    refine h.frame hc rfl rfl rfl (fun _ => Sys.setTran_keeps _ _ _ _ (·.submitted) rfl)
      fun u _ done => ?_
    rw [Sys.setTran_trans]
    split_ifs
    · exact Option.some_ne_none _
    · exact done
  | stop | reset => exact h.frame hc rfl rfl rfl (fun _ => rfl) fun _ _ => id
  | @accept t res n idle =>
    refine ⟨fun y hTarget x i cur hy => ?_, fun y hTarget u hy => ?_⟩
    · obtain ⟨u, as, bs, ha⟩ := h.searching y hTarget x i cur hy
      exact ⟨u, as, bs ++ [t], ha.enqueued idle _⟩
    · have other : u ≠ t := by
        rintro rfl
        have listed := hc.listed y u (by rw [show s.pc y = _ from hy]; rfl)
        cases idle.symm.trans listed
      simpa [Sys.enqueued, other] using h.reaping y hTarget u hy
  | @react th res hTarget n p pc returns result =>
    obtain ⟨q₀, q₁, watched⟩ := hw th hTarget n pc
    have inside := succeeds th res hTarget n rfl pc
    obtain ⟨rfl, -⟩ | ⟨rfl, -⟩ | ⟨t, submitted, done, rfl⟩ :=
      watched.leads hg inside returns result
    · exact h.move rfl rfl rfl (fun _ => rfl) (fun _ => rfl) (by rintro _ _ _ _ ⟨⟩)
        (by rintro _ _ ⟨⟩)
    · exact h.move rfl rfl rfl (fun _ => rfl) (fun _ => rfl) (by rintro _ _ _ _ ⟨⟩)
        (by rintro _ _ ⟨⟩)
    · exact h.searches (watched.queue.ahead ((watched.queue.mem t).2 submitted) done)
  | found pc | next pc | notFound pc => exact h.search pc stepped
  | @unlink th hTarget t pc =>
    -- a searching or reaping thread would be a second reaper
    have only {y : Tid} {q : Pc} (hy : s.pc y = q) (inside : q.inside = true) : y = th :=
      hc.token.unique (Sys.reaping_of hy inside) (Sys.reaping_of pc rfl)
    refine ⟨fun y hTarget' x i cur hy => ?_, fun y hTarget' u hy => ?_⟩
    all_goals
      rw [Sys.setPc_pc] at hy
      split_ifs at hy with same
      exact absurd (only hy rfl) same
  | arm pc result =>
    obtain ⟨trani, count, -⟩ := arm_frame result
    exact h.move rfl trani count (fun _ => rfl) (fun _ => rfl) (by rintro _ _ _ _ ⟨⟩)
        (by rintro _ _ ⟨⟩)
  | getResult | signal =>
    exact h.move rfl rfl rfl (fun _ => Sys.setTran_keeps _ _ _ _ (·.submitted) rfl)
      (fun _ => Sys.setTran_keeps _ _ _ _ (·.overlapped) rfl) (by rintro _ _ _ _ ⟨⟩)
        (by rintro _ _ ⟨⟩)
  | callWait | callRun | waitTarget | waitLock | waitFailed | armFailed | callback | noCallback
  | callbackReturn | resubmitted | leave | ret =>
    exact h.move rfl rfl rfl (fun _ => rfl) (fun _ => rfl) (by rintro _ _ _ _ ⟨⟩)
        (by rintro _ _ ⟨⟩)

end Tracked

/-- What holds in every state of a run whose waits on the array succeed. -/
structure Running (s : Sys) : Prop where
  consistent : Consistent s
  ready : HandlesReady s
  targets : Targets s
  watched : AllWatched s
  signals : Signals s
  reaped : ReapsDone s
  tracked : Tracked s

namespace Running

theorem init : Running {} :=
  ⟨Consistent.init, HandlesReady.init, Targets.init, AllWatched.init, Signals.init, ReapsDone.init,
    Tracked.init⟩

theorem step (h : Running s) (succeeds : s.WaitSucceeds e)
    (hs : Reaper.step .source s e = some s') : Running s' where
  consistent := h.consistent.step hs
  ready := h.ready.step h.consistent hs
  targets := h.targets.step hs
  watched := h.watched.step h.consistent h.targets hs
  signals := h.signals.step hs
  reaped := h.reaped.step h.consistent hs
  tracked := h.tracked.step h.consistent h.watched h.signals succeeds hs

theorem of_exec {es : List Event} (hx : (reaper .source).exec {} es = some s)
    (hw : (reaper .source).Steps (fun s e _ => s.WaitSucceeds e) {} es) : Running s := by
  have always := (Machine.Steps.invariant (Q := fun _ _ _ => True)
    (fun _ _ _ h succeeds hs => ⟨Running.step h succeeds hs, trivial⟩) hw init).1
  exact always.exec hx

end Running

@[simp] theorem Sys.setPc_setPc (p' : Pc) : (s.setPc th p).setPc th p' = s.setPc th p' := by
  simp [Sys.setPc]

theorem Ahead.finds (ha : Ahead s h i cur t as bs) (pc : s.pc th = .searching hTarget h i cur) :
    ∃ k ≤ bs.length, (reaper c).exec s (List.replicate k (.search th)) =
      some (s.setPc th (.reaping hTarget t)) := by
  induction bs generalizing s i cur as with
  | nil => exact absurd ha.mem List.not_mem_nil
  | cons u bs ih =>
    obtain found | ⟨u', bs', same, next, ha'⟩ := ha.search (c := c) pc
    · exact ⟨1, by simp, Machine.exec_cons.2 ⟨_, found, rfl⟩⟩
    · cases same
      have moved : Ahead (s.setPc th (.searching hTarget h (i + 1) bs.head?)) h (i + 1) bs.head? t
          (as ++ [u]) bs := ha'.frame rfl rfl (fun _ => rfl) ha'.done
      obtain ⟨k, le, run⟩ := ih moved (by simp)
      rw [Sys.setPc_setPc] at run
      exact ⟨k + 1, Nat.succ_le_succ le, Machine.exec_cons.2 ⟨_, next, run⟩⟩

/-- In every state of a run whose waits on the array succeed, a search reaches a queued
transfer whose request signalled the event in question, without leaving the list, and a
reaper that found a transfer does not block in `GetOverlappedResult`. -/
theorem search_finds {es : List Event} (hx : (reaper .source).exec {} es = some s)
    (hw : (reaper .source).Steps (fun s e _ => s.WaitSucceeds e) {} es) (th : Tid)
    (hTarget : Handle) :
    (∀ h i cur, s.pc th = .searching hTarget h i cur →
      ∃ t, h = .overlapped t ∧ (s.trans t).submitted = true ∧
        (s.trans t).overlapped.result ≠ none ∧ ∃ k : Nat, (i + k : Int) ≤ s.ctx.tranCount ∧
          (reaper .source).exec s (List.replicate k (.search th)) =
            some (s.setPc th (.reaping hTarget t))) ∧
    ∀ t, s.pc th = .reaping hTarget t → ∃ s', step .source s (.getResult th) = some s' := by
  have running := Running.of_exec hx hw
  refine ⟨fun h i cur pc => ?_, fun t pc => ?_⟩
  · obtain ⟨t, as, bs, ha⟩ := running.tracked.searching th hTarget h i cur pc
    obtain ⟨k, le, run⟩ := ha.finds (c := .source) pc
    refine ⟨t, ha.handle, ha.submitted, ha.done, k, ?_, run⟩
    rw [ha.queue.count, List.length_append, ha.position]
    omega
  · obtain ⟨result, done⟩ := Option.ne_none_iff_exists'.1 (running.tracked.reaping th hTarget t pc)
    simp only [step, pc, done]
    exact ⟨_, rfl⟩

/-- The second of two requests is done first, and a third joins during the search. -/
theorem search_finds_second : ∃ s,
    (reaper .source).exec {} [.fill 7 { type := .bulk }, .submit 7 (some .ioPending) 0,
      .fill 8 { type := .bulk }, .submit 8 none 5, .callRun 0, .wait 0 1, .arm 0 true,
      .waitMultiple 0 3, .fill 9 { type := .bulk }, .submit 9 none 5] = some s ∧
    ∃ t, Handle.overlapped 8 = .overlapped t ∧ (s.trans t).submitted = true := by
  refine ⟨_, rfl, ?_⟩
  have run : (reaper .source).exec {} [.fill 7 { type := .bulk }, .submit 7 (some .ioPending) 0,
    .fill 8 { type := .bulk }, .submit 8 none 5, .callRun 0, .wait 0 1, .arm 0 true,
    .waitMultiple 0 3, .fill 9 { type := .bulk }, .submit 9 none 5] = some _ := rfl
  have finds := fun waits => (search_finds run waits 0 .eventLoopStopped).1
  refine (finds ?_ (.overlapped 8) 0 (some 7) rfl).imp fun t ht => ⟨ht.1, ht.2.1⟩
  refine .cons rfl nofun (.cons rfl nofun (.cons rfl nofun (.cons rfl nofun (.cons rfl nofun
    (.cons rfl nofun (.cons rfl nofun (.cons rfl ?_ (.cons rfl nofun
    (.cons rfl nofun trivial)))))))))
  rintro _ _ _ _ ⟨⟩ ⟨⟩
  decide

end Libusby.Win32.Reaper
