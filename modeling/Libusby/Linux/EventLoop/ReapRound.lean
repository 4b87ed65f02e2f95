import Libusby.Linux.EventLoop.ReapBooks
import Libusby.Linux.EventLoop.WatchRefs

/-!
# When a round gives up the right records

A round whose steps are steady gives up the right records, and no other round does. The
references of the table tell of a submission that was rejected, and the record that moved to a
position already visited tells of a step that was not steady.
-/

namespace Libusby.Linux

open Foundations

namespace EventLoop

namespace ReapLoop

variable {ctx : Context} {s t : ReapLoop} {e : ReapEvent} {es : List ReapEvent} {q : SubmitCall}
  {before : List WatchedFd} {ready : List Bool} {w r : WatchedFd} {p j : Nat}

/-! ## The end of a run -/

/-- Every URB that is reaped and every rejected submission costs a reference. -/
theorem references_exec (hx : (reapLoop ctx).exec s es = some t)
    (inside : (reapLoop ctx).Steps (fun s e _ => s.InTable e) s es) :
    references t.live + (visits es).count true + rejections es = references s.live := by
  induction es generalizing s with
  | nil =>
    cases hx
    simp [visits, rejections]
  | cons e es ih =>
    obtain ⟨u, hu, hx⟩ := Machine.exec_cons.1 hx
    obtain ⟨here, later⟩ := inside u hu
    have rest := ih hx later
    cases e with
    | submit q =>
      obtain ⟨-, -, ⟨rejected, lost⟩ | ⟨accepted, extended⟩⟩ := step_submit hu
      · rw [rejections, if_pos rejected, visits]
        omega
      · have same : references u.live = references s.live := by
          rcases extended with same | ⟨added, -⟩
          · rw [same]
          · rw [added, references_append]
            exact Int.add_zero _
        rw [rejections, if_neg accepted, visits]
        omega
    | skip =>
      cases hu
      rw [rejections, visits, List.count_cons_of_ne (by decide)]
      exact rest
    | reap =>
      obtain ⟨table, hunwatch, ht⟩ := Option.map_eq_some_iff.1 hu
      cases ht
      have lost : references table.live = references s.live - 1 :=
        WatchTable.unwatch_references hunwatch here
      change references t.live + _ + _ = references table.live at rest
      rw [rejections, visits, List.count_cons_self]
      omega

/-- Without rejections a record stays at a position that the loop has passed. -/
theorem exec_passed (hx : (reapLoop ctx).exec s es = some t)
    (inside : (reapLoop ctx).Steps (fun s e _ => s.InTable e) s es) (none : rejections es = 0)
    (hp : p < s.i) (hr : s.live[p]? = some r) : t.live[p]? = some r := by
  induction es generalizing s with
  | nil =>
    cases hx
    exact hr
  | cons e es ih =>
    obtain ⟨u, hu, rest⟩ := Machine.exec_cons.1 hx
    obtain ⟨here, later⟩ := inside u hu
    cases e with
    | submit q =>
      obtain ⟨position, -, ⟨rejected, -⟩ | ⟨-, extended⟩⟩ := step_submit hu
      · rw [rejections, if_pos rejected] at none
        omega
      · apply ih rest later (by rw [rejections] at none; omega) (position ▸ hp)
        rcases extended with same | ⟨added, -⟩
        · rwa [same]
        · rw [added, List.getElem?_append_left (List.getElem?_eq_some_iff.1 hr).1, hr]
    | skip =>
      cases hu
      exact ih rest later none (Nat.lt_succ_of_lt hp) hr
    | reap =>
      obtain ⟨table, hunwatch, ht⟩ := Option.map_eq_some_iff.1 hu
      cases ht
      apply ih rest later none (Nat.lt_succ_of_lt hp)
      exact (WatchTable.unwatch_before hunwatch here hp).trans hr

/-! ## The references of the right records -/

/-- The records with what was reaped at their positions taken off. -/
def charge (before : List WatchedFd) (ready : List Bool) : List WatchedFd :=
  List.zipWith (fun w b => { w with refcount := w.refcount - if b then 1 else 0 }) before ready

theorem references_charge (size : ready.length = before.length) :
    references (charge before ready) + ready.count true = references before := by
  induction before generalizing ready with
  | nil =>
    rw [List.length_nil, List.length_eq_zero_iff] at size
    rw [size]
    rfl
  | cons w before ih =>
    cases ready with
    | nil => cases size
    | cons b ready =>
      have rest := ih (Nat.succ.inj size)
      unfold charge at rest ⊢
      rw [List.zipWith_cons_cons, references_cons, references_cons]
      cases b with
      | false =>
        rw [List.count_cons_of_ne (by decide)]
        simp only [Bool.false_eq_true, if_false]
        omega
      | true =>
        rw [List.count_cons_self]
        simp only [if_true]
        omega

theorem map_charge (size : ready.length = before.length) :
    (charge before ready).map (·.fd) = before.map (·.fd) := by
  induction before generalizing ready with
  | nil => rfl
  | cons w before ih =>
    cases ready with
    | nil => cases size
    | cons b ready => exact congrArg (w.fd :: ·) (ih (Nat.succ.inj size))

theorem mem_charge (size : ready.length = before.length) {v : WatchedFd} :
    v ∈ charge before ready ↔
      ∃ j, ∃ w : WatchedFd, before[j]? = some w ∧
        v = { w with refcount := w.refcount - reaps ready j } := by
  unfold charge
  rw [List.mem_iff_getElem?]
  constructor
  · rintro ⟨j, hj⟩
    obtain ⟨w, b, hw, hb, rfl⟩ := List.getElem?_zipWith_eq_some.1 hj
    refine ⟨j, w, hw, ?_⟩
    rw [reaps, hb]
    cases b <;> rfl
  · rintro ⟨j, w, hw, rfl⟩
    obtain ⟨lt, -⟩ := List.getElem?_eq_some_iff.1 hw
    rw [← size] at lt
    refine ⟨j, List.getElem?_zipWith_eq_some.2 ⟨w, ready[j], hw, List.getElem?_eq_getElem lt, ?_⟩⟩
    rw [reaps, List.getElem?_eq_getElem lt]
    cases ready[j] <;> rfl

theorem counted_iff (size : ready.length = before.length)
    (released : Released before ready t) (v : WatchedFd) :
    v ∈ t.live.filter (·.refcount ≠ 0) ↔ v ∈ (charge before ready).filter (·.refcount ≠ 0) := by
  rw [List.mem_filter, List.mem_filter, mem_charge size]
  constructor
  · rintro ⟨hv, counted⟩
    have nonzero : v.refcount ≠ 0 := of_decide_eq_true counted
    refine ⟨?_, counted⟩
    by_cases known : ∃ w ∈ before, w.fd = v.fd
    · obtain ⟨w, hw, same⟩ := known
      obtain ⟨j, hj⟩ := List.getElem?_of_mem hw
      refine ⟨j, w, hj, ?_⟩
      have more : w.refcount ≠ reaps ready j := fun none =>
        nonzero (released.gone j w hj none v hv same.symm).1
      have kept := released.counts j w hj more
      exact List.inj_on_of_nodup_map released.distinct hv kept same.symm
    · refine absurd (released.others v hv fun w hw same => known ⟨w, hw, same⟩).1 nonzero
  · rintro ⟨⟨j, w, hj, rfl⟩, counted⟩
    have nonzero : w.refcount - reaps ready j ≠ 0 := of_decide_eq_true counted
    exact ⟨released.counts j w hj (by omega), counted⟩

/-- The right records have lost as many references as URBs were reaped. -/
theorem references_released (size : ready.length = before.length)
    (unique : (before.map (·.fd)).Nodup) (released : Released before ready t) :
    references t.live + ready.count true = references before := by
  have charged : (charge before ready).Nodup := by
    apply List.Nodup.of_map WatchedFd.fd
    rw [map_charge size]
    exact unique
  have same := (List.perm_ext_iff_of_nodup (released.distinct.of_map.filter _)
    (charged.filter _)).2 (counted_iff size released)
  rw [← references_filter t.live, references_perm same, references_filter, references_charge size]

/-! ## Rounds -/

/-- The record that moves to the position that is visited keeps a reference that is reaped. -/
theorem steady_of_exec (books : Books before ready s (.reap :: es))
    (hx : (reapLoop ctx).exec s (.reap :: es) = some t)
    (inside : (reapLoop ctx).Steps (fun s e _ => s.InTable e) s (.reap :: es))
    (none : rejections es = 0) (released : Released before ready t) : Steady ready s .reap := by
  intro w hlive last more reaped
  obtain ⟨u, hu, hx⟩ := Machine.exec_cons.1 hx
  obtain ⟨-, later⟩ := inside u hu
  obtain ⟨table, hunwatch, ht⟩ := Option.map_eq_some_iff.1 hu
  cases ht
  have ahead := books.ahead (s.live.length - 1) (by omega) reaped
  obtain ⟨r, hr⟩ : ∃ r, s.live[s.live.length - 1]? = some r :=
    ⟨_, List.getElem?_eq_getElem (by omega)⟩
  rw [hr] at ahead
  have moved : table.live[s.i]? = some r := by
    rcases WatchTable.unwatch_live hunwatch hlive with ⟨-, removed⟩ | ⟨more, -⟩
    · rw [removed]
      exact (getElem?_swapRemove_self hlive more).trans hr
    · exact absurd last more
  have kept := exec_passed hx later none (Nat.lt_succ_self s.i) moved
  have one : reaps ready (s.live.length - 1) = 1 := if_pos reaped
  by_cases single : r.refcount = reaps ready (s.live.length - 1)
  · have zero := (released.gone _ r ahead.symm single r (List.mem_of_getElem? kept) rfl).1
    omega
  · have charged := released.counts _ r ahead.symm single
    have same := List.inj_on_of_nodup_map released.distinct charged (List.mem_of_getElem? kept) rfl
    have := congrArg WatchedFd.refcount same
    simp only at this
    omega

theorem books_init (ctx : Context) (es : List ReapEvent)
    (distinct : (ctx.watchedFds.live.map (·.fd)).Nodup)
    (counted : ∀ w ∈ ctx.watchedFds.live, 1 ≤ w.refcount)
    (snapshot : (visits es).length = ctx.watchedFds.count) :
    Books ctx.watchedFds.live (visits es) { ctx } es := by
  have size : (visits es).length = ctx.watchedFds.live.length := by
    rw [snapshot, WatchTable.length_live]
  refine ⟨size, distinct, counted, List.drop_zero, fun j _ _ => rfl, ?_⟩
  have zero (j : Nat) : reaps ((visits es).take 0) j = 0 := by
    rw [reaps_take, if_neg (Nat.not_lt_zero j)]
  constructor
  case distinct => exact distinct
  case counts =>
    intro j w hj _
    rw [zero, Int.sub_zero]
    exact List.mem_of_getElem? hj
  case gone =>
    intro j w hj none
    have := counted w (List.mem_of_getElem? hj)
    rw [zero] at none
    omega
  case others => exact fun v hv unknown => absurd rfl (unknown v hv)

/-- A steady step succeeds inside the table and keeps the books. -/
theorem step_steady (books : Books before ready s (e :: es)) (steady : Steady ready s e) :
    ∃ t, s.step e = some t ∧ Books before ready t es ∧ s.InTable e := by
  cases e with
  | submit q =>
    have accepted : ¬q.Rejected := by
      rintro ⟨supported, rejected⟩
      rcases steady with unsupported | ⟨none, -⟩
      · exact supported unsupported
      · exact rejected none
    have run : ∃ t, s.step (.submit q) = some t := by
      rcases steady with unsupported | ⟨none, room⟩
      · exact ⟨_, by rw [step, usbybSubmitTransfer, if_pos unsupported]; rfl⟩
      · by_cases unsupported : q.tran.pub.type = .isochronous
        · exact ⟨_, by rw [step, usbybSubmitTransfer, if_pos unsupported]; rfl⟩
        · obtain ⟨ctx', tran', h⟩ := usbybSubmitTransfer_accepted unsupported none room
          exact ⟨_, by rw [step, h]; rfl⟩
    obtain ⟨t, ht⟩ := run
    exact ⟨t, ht, books.submit ht accepted, s.inTable_submit q⟩
  | skip => exact ⟨_, rfl, books.skip, trivial⟩
  | reap =>
    obtain ⟨w, -, hlive, inside⟩ := books.record
    obtain ⟨table, hunwatch, -⟩ := WatchTable.unwatch_changes hlive
    have ht : s.step .reap = some _ := congrArg (Option.map _) hunwatch
    exact ⟨_, ht, books.reap ht steady, inside⟩

/-- What a run to the right records says of each of its steps. -/
structure Ends (ctx : Context) (before : List WatchedFd) (ready : List Bool) (t s : ReapLoop)
    (es : List ReapEvent) : Prop where
  books : Books before ready s es
  exec : (reapLoop ctx).exec s es = some t
  inside : (reapLoop ctx).Steps (fun s e _ => s.InTable e) s es
  accepted : rejections es = 0

theorem Ends.steady (h : Ends ctx before ready t s (e :: es)) (released : Released before ready t) :
    Steady ready s e := by
  cases e with
  | submit q =>
    obtain ⟨u, hu, -⟩ := Machine.exec_cons.1 h.exec
    obtain ⟨⟨result, ctx', tran'⟩, hsubmit, -⟩ := Option.map_eq_some_iff.1 hu
    refine or_iff_not_imp_left.2 fun supported => ?_
    have accepted : ¬q.Rejected := fun rejected => by
      have := h.accepted
      rw [rejections, if_pos rejected] at this
      omega
    rw [usbybSubmitTransfer, if_neg supported] at hsubmit
    obtain ⟨watched, hwatch, -⟩ := Option.bind_eq_some_iff.1 hsubmit
    refine ⟨?_, WatchTable.watch_isSome.1 (by rw [hwatch]; rfl)⟩
    by_contra rejected
    exact accepted ⟨supported, rejected⟩
  | skip => trivial
  | reap => exact steady_of_exec h.books h.exec h.inside h.accepted released

theorem Ends.next {u : ReapLoop} (h : Ends ctx before ready t s (e :: es))
    (steady : Steady ready s e) (hu : s.step e = some u) : Ends ctx before ready t u es := by
  obtain ⟨v, hv, hx⟩ := Machine.exec_cons.1 h.exec
  cases hu.symm.trans hv
  obtain ⟨w, hw, books, -⟩ := step_steady h.books steady
  cases hu.symm.trans hw
  refine ⟨books, hx, (h.inside u hu).2, ?_⟩
  have none := h.accepted
  cases e with
  | submit q =>
    rw [rejections] at none
    omega
  | skip => exact none
  | reap => exact none

end ReapLoop

open ReapLoop

/-- A round gives up the right records exactly if its steps are steady. -/
theorem releases_iff (ctx : Context) (es : List ReapEvent)
    (distinct : (ctx.watchedFds.live.map (·.fd)).Nodup)
    (counted : ∀ w ∈ ctx.watchedFds.live, 1 ≤ w.refcount)
    (snapshot : (visits es).length = ctx.watchedFds.count) :
    Releases ctx es ↔ (reapLoop ctx).Before (Steady (visits es)) (reapLoop ctx).init es := by
  have start := books_init ctx es distinct counted snapshot
  constructor
  · rintro ⟨t, exec, inside, released⟩
    have spent := references_exec exec inside
    have right := references_released start.size start.unique released
    have same : references (reapLoop ctx).init.live = references ctx.watchedFds.live := rfl
    have ends : Ends ctx ctx.watchedFds.live (visits es) t (reapLoop ctx).init es :=
      ⟨start, exec, inside, by omega⟩
    exact Machine.Before.of_forces (J := Ends ctx ctx.watchedFds.live (visits es) t)
      (fun s e es h => h.steady released) (fun s e es u h steady hu => h.next steady hu) ends
  · intro steady
    obtain ⟨t, exec, books, inside⟩ := Machine.Before.exec
      (J := Books ctx.watchedFds.live (visits es)) (Q := fun s e _ => s.InTable e)
      (fun s e es books steady => step_steady books steady) steady start
    refine ⟨t, exec, inside, ?_⟩
    have all : (visits es).take t.i = visits es :=
      List.take_of_length_le (List.drop_eq_nil_iff.1 books.left)
    exact all ▸ books.released

/-- The counts of a run are never positive, so the table that a round starts from is empty where
every record has a reference. -/
theorem live_eq_nil {s : Sys} (h : eventLoop.Reachable s)
    (counted : ∀ w ∈ s.ctx.watchedFds.live, 1 ≤ w.refcount) : s.ctx.watchedFds.live = [] := by
  have uncounted : s.ctx.watchedFds.Uncounted :=
    h.invariant (I := fun s => s.ctx.watchedFds.Uncounted) WatchTable.uncounted_empty
      fun _ _ _ => uncounted_step
  refine List.eq_nil_iff_forall_not_mem.2 fun w hw => ?_
  have := counted w hw
  have := uncounted w (List.mem_of_mem_take hw)
  omega

/-- Two transfers for descriptor 5 are filled, and call 1 polls in the event loop. -/
def untilPoll : List Event :=
  [.openHandle 0 5, .alloc 7, .fill 7 { type := .bulk }, .alloc 8, .fill 8 { type := .bulk },
    .callRun 1, .enter 1, .head 1 true]

/-- The context in which it does so. -/
def emptyContext : Context := { loopLocked := true }

/-- A submission that is accepted writes to the pipe, and one is rejected. -/
def afterPoll : List Event :=
  [.submit 7 ⟨true, none⟩, .pollReturn 1 (some true), .submit 8 ⟨true, some .other⟩]

/-- A bulk transfer on descriptor 5. -/
def bulkCall (choice : SubmitChoice) : SubmitCall := ⟨{ pub := { type := .bulk } }, 5, choice⟩

/-- A submission that is accepted during the round adds its record. -/
theorem releases_submitted : ∃ s f, eventLoop.exec .initial untilPoll = some s ∧
    s.pc 1 = .polling f [] ∧ s.ctx = emptyContext ∧
    Releases emptyContext [.submit (bulkCall ⟨true, none⟩)] := by
  refine ⟨_, _, rfl, rfl, rfl, ?_⟩
  refine (releases_iff emptyContext [.submit (bulkCall ⟨true, none⟩)] (by decide) (by decide)
    rfl).2 ⟨.inr ⟨rfl, .inr (.inr ⟨rfl, by decide⟩)⟩, fun _ _ => trivial⟩

/-- A submission that is rejected during the round takes a reference that nobody had. -/
theorem not_releases : (∃ s f s' d, eventLoop.exec .initial untilPoll = some s ∧
      s.pc 1 = .polling f [] ∧ s.ctx = emptyContext ∧
      eventLoop.exec s afterPoll = some s' ∧ s'.pc 1 = .reaping d ∧ d.pollfds = [] ∧
      s'.ctx.watchedFds.live = [⟨5, -1⟩] ∧
      ¬Releases s.ctx [.submit (bulkCall ⟨true, none⟩), .submit (bulkCall ⟨true, some .other⟩)]) ∧
    ¬∀ ctx es, (ctx.watchedFds.live.map (·.fd)).Nodup →
      (∀ w ∈ ctx.watchedFds.live, 1 ≤ w.refcount) →
      (visits es).length = ctx.watchedFds.count → Releases ctx es := by
  have fails : ¬Releases emptyContext
      [.submit (bulkCall ⟨true, none⟩), .submit (bulkCall ⟨true, some .other⟩)] := by
    rintro ⟨t, exec, -, released⟩
    cases exec
    have other := (released.others ⟨5, -1⟩ (List.mem_singleton_self _) nofun).1
    cases other
  refine ⟨⟨_, _, _, _, rfl, rfl, rfl, rfl, rfl, rfl, rfl, fails⟩, fun all => ?_⟩
  exact fails (all emptyContext _ (by decide) (by decide) rfl)

/-- With references that are counted, which no run has, the record of the second descriptor moves
to the position of the first and is not found when its own URB is reaped. -/
example : ¬Releases { watchedFds := ⟨[⟨5, 1⟩, ⟨6, 2⟩], 2, by decide⟩ } [.reap, .reap] := by
  rintro ⟨t, -, inside, -⟩
  have second : 1 < 1 := ((inside _ rfl).2 _ rfl).1
  exact absurd second (Nat.lt_irrefl 1)

end EventLoop

end Libusby.Linux
