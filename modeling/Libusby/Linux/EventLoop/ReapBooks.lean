import Mathlib.Algebra.BigOperators.Group.List.Basic
import Mathlib.Algebra.Ring.Int.Defs
import Mathlib.Data.List.Nodup
import Libusby.Linux.EventLoop.ReapLoop

/-!
# The right records

The books of the loop say that the records have lost what was reaped at the positions visited so
far, and that the records to be reaped are still where they were. Steady steps keep them. In the
other direction the references of the whole table show that no submission was rejected, and a
record that moved to a position already visited keeps a reference that it should have lost.
-/

namespace Libusby.Linux

open Foundations

/-- All references of the records. -/
def references (ws : List WatchedFd) : Int := (ws.map (·.refcount)).sum

section
variable {t t' : WatchTable} {fd : Int} {i j p : Nat} {w r : WatchedFd} {ws ws' : List WatchedFd}

theorem references_cons (w : WatchedFd) (ws : List WatchedFd) :
    references (w :: ws) = w.refcount + references ws := by
  rw [references, List.map_cons, List.sum_cons, references]

theorem references_append (ws ws' : List WatchedFd) :
    references (ws ++ ws') = references ws + references ws' := by
  rw [references, List.map_append, List.sum_append, references, references]

theorem references_perm (h : ws.Perm ws') : references ws = references ws' :=
  (h.map _).sum_eq

/-- Records without references do not count. -/
theorem references_filter (ws : List WatchedFd) :
    references (ws.filter (·.refcount ≠ 0)) = references ws := by
  induction ws with
  | nil => rfl
  | cons w ws ih =>
    by_cases zero : w.refcount = 0
    · rw [List.filter_cons_of_neg (by simpa using zero), ih, references_cons, zero, Int.zero_add]
    · rw [List.filter_cons_of_pos (by simpa using zero), references_cons, references_cons, ih]

/-- What is left of a record that loses a reference. -/
def WatchedFd.less (w : WatchedFd) : List WatchedFd :=
  if w.refcount = 1 then [] else [{ w with refcount := w.refcount - 1 }]

theorem references_less (w : WatchedFd) : references w.less = w.refcount - 1 := by
  unfold WatchedFd.less
  split_ifs with last
  · rw [last]
    rfl
  · simp [references]

theorem mem_less {v : WatchedFd} : v ∈ w.less ↔
    w.refcount ≠ 1 ∧ v = { w with refcount := w.refcount - 1 } := by
  unfold WatchedFd.less
  split_ifs with last <;> simp [last]

/-- Records of other descriptors stay, and no record is new but the one that is left. -/
theorem mem_of_less {rest : List WatchedFd} (before : ws.Perm (w :: rest))
    (after : ws'.Perm (w.less ++ rest)) (distinct : (ws.map (·.fd)).Nodup) (v : WatchedFd) :
    v ∈ ws' ↔ v ∈ w.less ∨ v ∈ ws ∧ v.fd ≠ w.fd := by
  have once : (w.fd :: rest.map (·.fd)).Nodup := (before.map WatchedFd.fd).nodup_iff.1 distinct
  have other : v ∈ rest ↔ v ∈ ws ∧ v.fd ≠ w.fd := by
    rw [before.mem_iff, List.mem_cons]
    constructor
    · intro hv
      exact ⟨.inr hv, fun same => (List.nodup_cons.1 once).1 (same ▸ List.mem_map_of_mem hv)⟩
    · rintro ⟨rfl | hv, ne⟩
      · exact absurd rfl ne
      · exact hv
  rw [after.mem_iff, List.mem_append, other]

theorem nodup_less {rest : List WatchedFd} (before : ws.Perm (w :: rest))
    (after : ws'.Perm (w.less ++ rest)) (distinct : (ws.map (·.fd)).Nodup) :
    (ws'.map (·.fd)).Nodup := by
  have once : (w.fd :: rest.map (·.fd)).Nodup := (before.map WatchedFd.fd).nodup_iff.1 distinct
  rw [(after.map _).nodup_iff, List.map_append]
  unfold WatchedFd.less
  split_ifs
  · exact (List.nodup_cons.1 once).2
  · exact once

namespace WatchTable

/-- The table loses a reference of one record. -/
theorem unwatch_perm (h : usbfsUnwatchFd t i = some t') (hw : t.live[i]? = some w) :
    ∃ rest, t.live.Perm (w :: rest) ∧ t'.live.Perm (w.less ++ rest) := by
  unfold WatchedFd.less
  rcases unwatch_live h hw with ⟨last, removed⟩ | ⟨more, kept⟩
  · rw [if_pos last, removed]
    exact ⟨_, swapRemove_perm hw, .refl _⟩
  · rw [if_neg more, kept]
    obtain ⟨lt, rfl⟩ := List.getElem?_eq_some_iff.1 hw
    exact ⟨_, (List.getElem_cons_eraseIdx_perm lt).symm, List.set_perm_cons_eraseIdx lt _⟩

theorem exists_record (hi : i < t.count) : ∃ w, t.live[i]? = some w := by
  rw [← t.length_live] at hi
  exact ⟨_, List.getElem?_eq_getElem hi⟩

theorem unwatch_references (h : usbfsUnwatchFd t i = some t') (hi : i < t.count) :
    references t'.live = references t.live - 1 := by
  obtain ⟨w, hw⟩ := exists_record hi
  obtain ⟨rest, before, after⟩ := unwatch_perm h hw
  rw [references_perm before, references_perm after, references_append, references_less,
    references_cons]
  omega

/-- Positions before the one that loses a reference keep their records. -/
theorem unwatch_before (h : usbfsUnwatchFd t i = some t') (hi : i < t.count) (hp : p < i) :
    t'.live[p]? = t.live[p]? := by
  obtain ⟨w, hw⟩ := exists_record hi
  rcases unwatch_live h hw with ⟨-, removed⟩ | ⟨-, kept⟩
  · rw [removed, getElem?_swapRemove_of_ne hw (by rw [length_live]; omega) (Nat.ne_of_lt hp)]
  · rw [kept, List.getElem?_set_ne (Nat.ne_of_gt hp)]

end WatchTable

end

namespace EventLoop

/-- The kernel rejects the request. -/
def SubmitCall.Rejected (q : SubmitCall) : Prop :=
  q.tran.pub.type ≠ .isochronous ∧ q.choice.rejected ≠ none

instance (q : SubmitCall) : Decidable q.Rejected := inferInstanceAs (Decidable (_ ∧ _))

def rejections : List ReapEvent → Nat
  | [] => 0
  | .submit q :: es => (if q.Rejected then 1 else 0) + rejections es
  | .skip :: es => rejections es
  | .reap :: es => rejections es

/-- The records stay, and one for the descriptor may follow them. -/
def Extends (ws ws' : List WatchedFd) (fd : Int) : Prop :=
  ws' = ws ∨ ws' = ws ++ [⟨fd, 0⟩] ∧ ∀ w ∈ ws, w.fd ≠ fd

namespace ReapLoop

variable {ctx : Context} {s t : ReapLoop} {e : ReapEvent} {es : List ReapEvent} {q : SubmitCall}
  {before : List WatchedFd} {ready done : List Bool} {w r : WatchedFd} {p j : Nat}

theorem step_submit (hs : s.step (.submit q) = some t) :
    t.i = s.i ∧ t.submitted = (s.i, q.wrfd) :: s.submitted ∧
      (q.Rejected ∧ references t.live = references s.live - 1 ∨
        ¬q.Rejected ∧ Extends s.live t.live q.wrfd) := by
  obtain ⟨⟨result, ctx', tran'⟩, h, ht⟩ := Option.map_eq_some_iff.1 hs
  cases ht
  refine ⟨rfl, rfl, ?_⟩
  by_cases unsupported : q.tran.pub.type = .isochronous
  · rw [usbybSubmitTransfer, if_pos unsupported] at h
    cases h
    exact .inr ⟨fun rejected => rejected.1 unsupported, .inl rfl⟩
  rw [usbybSubmitTransfer, if_neg unsupported] at h
  obtain ⟨⟨table, i⟩, hwatch, h⟩ := Option.bind_eq_some_iff.1 h
  have extended := WatchTable.watch_append hwatch
  cases hrej : q.choice.rejected with
  | none =>
    have accepted : ¬q.Rejected := fun rejected => rejected.2 hrej
    rw [hrej] at h
    simp only [submitUrb] at h
    split_ifs at h
    all_goals cases h
    · exact .inr ⟨accepted, extended.imp_left (congrArg WatchTable.live)⟩
    · exact .inr ⟨accepted, extended.imp_left (congrArg WatchTable.live)⟩
  | some errno =>
    rw [hrej] at h
    obtain ⟨table', hunwatch, h⟩ := Option.map_eq_some_iff.1 h
    cases h
    have inside : i < table.count := by
      rcases WatchTable.watch_cases hwatch with ⟨rfl, known⟩ | ⟨-, new, -⟩
      · exact known
      · exact new
    have same : references table.live = references s.live := by
      rcases extended with rfl | ⟨added, -⟩
      · rfl
      · rw [added, references_append]
        exact Int.add_zero _
    refine .inl ⟨⟨unsupported, fun none => ?_⟩, ?_⟩
    · cases hrej.symm.trans none
    · rw [← same]
      exact WatchTable.unwatch_references hunwatch inside

/-- Every call of `usbfs_unwatch_fd` in a submission is inside the table. -/
theorem inTable_submit (s : ReapLoop) (q : SubmitCall) : s.InTable (.submit q) := by
  intro table i hwatch
  rcases WatchTable.watch_cases hwatch with ⟨rfl, known⟩ | ⟨-, new, -⟩
  · exact known
  · exact new

/-! ## The books -/

theorem reaps_take (ready : List Bool) (i j : Nat) :
    reaps (ready.take i) j = if j < i then reaps ready j else 0 := by
  rw [reaps, List.getElem?_take]
  split_ifs <;> simp_all [reaps]

theorem reaps_take_succ {i : Nat} (ne : j ≠ i) :
    reaps (ready.take (i + 1)) j = reaps (ready.take i) j := by
  have same : j < i + 1 ↔ j < i := by omega
  simp only [reaps_take, same]

/-- What is known of the table when the loop has come to a position, with the events that are
left. -/
structure Books (before : List WatchedFd) (ready : List Bool) (s : ReapLoop)
    (es : List ReapEvent) : Prop where
  size : ready.length = before.length
  unique : (before.map (·.fd)).Nodup
  counted : ∀ w ∈ before, 1 ≤ w.refcount
  left : ready.drop s.i = visits es
  ahead : ∀ j, s.i ≤ j → ready[j]? = some true → s.live[j]? = before[j]?
  released : Released before (ready.take s.i) s

namespace Books

theorem same_position (h : Books before ready s es) {i : Nat} (hi : before[i]? = some w)
    (hj : before[j]? = some r) (same : r.fd = w.fd) : j = i := by
  have fdI : (before.map (·.fd))[i]? = some w.fd := by rw [List.getElem?_map, hi]; rfl
  have fdJ : (before.map (·.fd))[j]? = some w.fd := by rw [List.getElem?_map, hj, ← same]; rfl
  obtain ⟨lt, -⟩ := List.getElem?_eq_some_iff.1 fdJ
  exact (List.getElem?_inj lt h.unique).1 (fdJ.trans fdI.symm)

/-- A position that is reaped later is in the table. -/
theorem ahead_lt (h : Books before ready s es) (hj : s.i ≤ j) (hr : ready[j]? = some true) :
    j < s.live.length := by
  have same := h.ahead j hj hr
  obtain ⟨inside, -⟩ := List.getElem?_eq_some_iff.1 hr
  rw [h.size] at inside
  rw [List.getElem?_eq_getElem inside] at same
  exact (List.getElem?_eq_some_iff.1 same).1

/-- Records are only added at the end, without references. -/
theorem submit (h : Books before ready s (.submit q :: es)) (hs : s.step (.submit q) = some t)
    (accepted : ¬q.Rejected) : Books before ready t es := by
  obtain ⟨position, submitted, ⟨rejected, -⟩ | ⟨-, extended⟩⟩ := step_submit hs
  · exact absurd rejected accepted
  have earlier {n : Nat} {fd : Int} (hn : (n, fd) ∈ s.submitted) : (n, fd) ∈ t.submitted :=
    submitted ▸ List.mem_cons_of_mem _ hn
  have kept (v : WatchedFd) (hv : v ∈ s.live) : v ∈ t.live := by
    rcases extended with same | ⟨added, -⟩
    · rwa [same]
    · exact added ▸ List.mem_append_left _ hv
  have only (v : WatchedFd) (hv : v ∈ t.live) :
      v ∈ s.live ∨ v.refcount = 0 ∧ (s.i, v.fd) ∈ t.submitted := by
    rcases extended with same | ⟨added, -⟩
    · exact .inl (same ▸ hv)
    · rw [added, List.mem_append, List.mem_singleton] at hv
      refine hv.imp_right ?_
      rintro rfl
      exact ⟨rfl, submitted ▸ List.mem_cons_self ..⟩
  refine ⟨h.size, h.unique, h.counted, position ▸ h.left, fun j hj hr => ?_, ?_⟩
  · have here := h.ahead j (position ▸ hj) hr
    rcases extended with same | ⟨added, -⟩
    · rwa [same]
    · have lt := h.ahead_lt (position ▸ hj) hr
      rw [added, List.getElem?_append_left lt, here]
  · rw [position]
    constructor
    case distinct =>
      rcases extended with same | ⟨added, new⟩
      · exact same ▸ h.released.distinct
      · rw [added, List.map_append, List.nodup_append]
        refine ⟨h.released.distinct, List.nodup_singleton _, ?_⟩
        intro fd hfd fd' hfd'
        obtain ⟨w, hw, rfl⟩ := List.mem_map.1 hfd
        rw [List.map_singleton, List.mem_singleton] at hfd'
        exact hfd' ▸ new w hw
    case counts => exact fun j w hj more => kept _ (h.released.counts j w hj more)
    case gone =>
      intro j w hj none v hv same
      rcases only v hv with old | ⟨zero, new⟩
      · obtain ⟨zero, n, later, hn⟩ := h.released.gone j w hj none v old same
        exact ⟨zero, n, later, earlier hn⟩
      · have passed : j < s.i := by
          by_contra ahead
          rw [reaps_take, if_neg ahead] at none
          have := h.counted w (List.mem_of_getElem? hj)
          omega
        exact ⟨zero, s.i, passed, new⟩
    case others =>
      intro v hv unknown
      rcases only v hv with old | ⟨zero, new⟩
      · obtain ⟨zero, n, hn⟩ := h.released.others v old unknown
        exact ⟨zero, n, earlier hn⟩
      · exact ⟨zero, s.i, new⟩

theorem visit {b : Bool} (h : ready.drop s.i = b :: visits es) :
    ready[s.i]? = some b ∧ ready.drop (s.i + 1) = visits es := by
  constructor
  · rw [← Nat.add_zero s.i, ← List.getElem?_drop, h, List.getElem?_cons_zero]
  · rw [← List.drop_drop, h, List.drop_succ_cons, List.drop_zero]

theorem skip (h : Books before ready s (.skip :: es)) :
    Books before ready { s with i := s.i + 1 } es := by
  obtain ⟨here, left⟩ := visit h.left
  have same (j : Nat) : reaps (ready.take (s.i + 1)) j = reaps (ready.take s.i) j := by
    by_cases ne : j = s.i
    · rw [ne, reaps_take, reaps_take, if_pos (Nat.lt_succ_self _), if_neg (Nat.lt_irrefl _), reaps,
        here, if_neg (by decide)]
    · exact reaps_take_succ ne
  refine ⟨h.size, h.unique, h.counted, left, fun j hj => h.ahead j (Nat.le_of_succ_le hj), ?_⟩
  constructor
  case distinct => exact h.released.distinct
  case counts =>
    intro j w hj
    rw [same]
    exact h.released.counts j w hj
  case gone =>
    intro j w hj
    rw [same]
    exact h.released.gone j w hj
  case others => exact h.released.others

/-- The record at a position that is reaped next. -/
theorem record (h : Books before ready s (.reap :: es)) :
    ∃ w, before[s.i]? = some w ∧ s.live[s.i]? = some w ∧ s.i < s.ctx.watchedFds.count := by
  obtain ⟨here, -⟩ := visit h.left
  obtain ⟨inside, -⟩ := List.getElem?_eq_some_iff.1 here
  rw [h.size] at inside
  have same := h.ahead s.i (Nat.le_refl _) here
  rw [List.getElem?_eq_getElem inside] at same
  refine ⟨before[s.i], List.getElem?_eq_getElem inside, same, ?_⟩
  rw [← WatchTable.length_live]
  exact (List.getElem?_eq_some_iff.1 same).1

/-- The record at the position loses a reference. -/
theorem reap_released (h : Books before ready s (.reap :: es)) (hs : s.step .reap = some t) :
    Released before (ready.take (s.i + 1)) t := by
  obtain ⟨here, -⟩ := visit h.left
  obtain ⟨w, hw, hlive, -⟩ := h.record
  obtain ⟨table, hunwatch, ht⟩ := Option.map_eq_some_iff.1 hs
  cases ht
  have one : reaps (ready.take (s.i + 1)) s.i = 1 := by
    rw [reaps_take, if_pos (Nat.lt_succ_self _), reaps, if_pos here]
  obtain ⟨rest, old, new⟩ := WatchTable.unwatch_perm hunwatch hlive
  have member := mem_of_less old new h.released.distinct
  constructor
  case distinct => exact nodup_less old new h.released.distinct
  case counts =>
    intro j v hj more
    apply (member _).2
    by_cases same : j = s.i
    · subst same
      cases hw.symm.trans hj
      rw [one] at more ⊢
      exact .inl (mem_less.2 ⟨more, rfl⟩)
    · rw [reaps_take_succ same] at more ⊢
      refine .inr ⟨h.released.counts j v hj more, fun equal => same ?_⟩
      exact h.same_position hw hj equal
  case gone =>
    intro j v hj none u hu equal
    rcases (member u).1 hu with less | ⟨old, other⟩
    · obtain ⟨more, rfl⟩ := mem_less.1 less
      cases h.same_position hw hj equal.symm
      cases hw.symm.trans hj
      exact absurd (none.trans one) more
    · have behind : j ≠ s.i := by
        rintro rfl
        cases hw.symm.trans hj
        exact other equal
      rw [reaps_take_succ behind] at none
      exact h.released.gone j v hj none u old equal
  case others =>
    intro v hv unknown
    rcases (member v).1 hv with less | ⟨old, -⟩
    · obtain ⟨-, rfl⟩ := mem_less.1 less
      exact absurd rfl (unknown w (List.mem_of_getElem? hw))
    · exact h.released.others v old unknown

/-- The records to be reaped stay where they are. -/
theorem reap (h : Books before ready s (.reap :: es)) (hs : s.step .reap = some t)
    (steady : Steady ready s .reap) : Books before ready t es := by
  have released := h.reap_released hs
  obtain ⟨-, left⟩ := visit h.left
  obtain ⟨w, -, hlive, -⟩ := h.record
  obtain ⟨table, hunwatch, ht⟩ := Option.map_eq_some_iff.1 hs
  cases ht
  refine ⟨h.size, h.unique, h.counted, left, fun j hj hr => ?_, released⟩
  have later : s.i + 1 ≤ j := hj
  have same := h.ahead j (by omega) hr
  rcases WatchTable.unwatch_live hunwatch hlive with ⟨last, removed⟩ | ⟨-, kept⟩
  · have lt := h.ahead_lt (by omega) hr
    have notLast : j ≠ s.live.length - 1 := by
      rintro rfl
      exact steady w hlive last (by omega) hr
    have moved := getElem?_swapRemove_of_ne hlive (j := j) (by omega) (by omega)
    change table.live[j]? = _
    rw [removed]
    exact moved.trans same
  · change table.live[j]? = _
    rw [kept, List.getElem?_set_ne (by omega)]
    exact same

end Books

end ReapLoop

end EventLoop

end Libusby.Linux
