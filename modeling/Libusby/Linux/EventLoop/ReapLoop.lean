import Libusby.Foundations.SwapRemove
import Libusby.Linux.EventLoop.SubmitFailure

/-!
# The loop over the polled descriptors

Lines 147 to 176 as far as they concern the table of watched descriptors. The loop visits the
positions that the table had when `poll` was called. At each it finds nothing, or it reaps a URB
and gives up a reference of the record that is at the position by then. Between two visits
callbacks and other threads submit transfers.
-/

namespace Libusby.Linux

open Foundations

namespace WatchTable

variable {t t' : WatchTable} {fd : Int} {ok : Bool} {i j : Nat} {w : WatchedFd}

/-- The search and the growth keep the records, and add one at the end if the descriptor is new. -/
theorem watch_append (h : t.watch fd ok = some (t', i)) :
    t' = t ∨ t'.live = t.live ++ [⟨fd, 0⟩] ∧ ∀ w ∈ t.live, w.fd ≠ fd := by
  rcases watch_cases h with ⟨rfl, -⟩ | ⟨added, -, -⟩
  · exact .inl rfl
  refine .inr ?_
  have new : t.search fd = t.count := by
    by_contra known
    rw [watch, if_neg known] at h
    cases h
    omega
  have pushed {cells : List WatchedFd} (hp : push cells t.count ⟨fd, 0⟩ = some t')
      (hc : cells.take t.count = t.live) : t'.live = t.live ++ [⟨fd, 0⟩] := by
    obtain ⟨lt, hcells, hcount⟩ := push_eq_some hp
    have size : t.count < (cells.set t.count ⟨fd, 0⟩).length := by rwa [List.length_set]
    rw [live, hcells, hcount, List.take_succ_eq_append_getElem size, List.getElem_set_self,
      List.take_set_of_le (Nat.le_refl _), hc]
  refine ⟨?_, fun w hw same => ?_⟩
  · rw [watch, if_pos new] at h
    simp only at h
    split_ifs at h with full
    · obtain ⟨u, hp, hu⟩ := Option.map_eq_some_iff.1 h
      cases hu
      exact pushed hp (List.take_append_of_le_length t.count_le)
    · obtain ⟨u, hp, hu⟩ := Option.map_eq_some_iff.1 h
      cases hu
      exact pushed hp rfl
  · rw [← t.length_live] at new
    have none := List.findIdx_eq_length.1 new w hw
    rw [decide_eq_false_iff_not] at none
    exact none same

/-- What a reference that is given up at a position of the table leaves there. -/
theorem unwatch_live (h : usbfsUnwatchFd t i = some t') (hw : t.live[i]? = some w) :
    w.refcount = 1 ∧ t'.live = swapRemove t.live i ∨
      w.refcount ≠ 1 ∧ t'.live = t.live.set i { w with refcount := w.refcount - 1 } := by
  have hi : i < t.count := by simpa using (List.getElem?_eq_some_iff.1 hw).1
  have hcell := hw
  rw [live_getElem? hi] at hcell
  unfold usbfsUnwatchFd at h
  rw [hcell] at h
  simp only at h
  split_ifs at h with last
  · refine .inl ⟨by omega, ?_⟩
    split at h
    case h_1 none => omega
    case h_2 one =>
      cases h
      have empty : (swapRemove t.live i).length = 0 := by
        rw [length_swapRemove, length_live, one]
      rw [List.eq_nil_of_length_eq_zero empty]
      exact List.take_zero
    case h_3 n more =>
      cases h
      have size : n + 1 < t.cells.length := by
        have := t.count_le
        omega
      have front : t.live = t.cells.take (n + 1) ++ [t.cells[n + 1]] := by
        rw [live, more, List.take_succ_eq_append_getElem size]
      have short : (t.cells.take (n + 1)).length = n + 1 := by
        rw [List.length_take]
        omega
      rw [front, swapRemove_concat (by omega)]
      change List.take (n + 1) ((t.cells.set i _).set i _) = _
      rw [List.set_set, List.take_set]
      rcases Nat.lt_or_eq_of_le (show i ≤ n + 1 by omega) with inside | rfl
      · rw [List.getElem_set_ne (Nat.ne_of_lt inside)]
      · rw [List.set_eq_of_length_le (by omega), List.set_eq_of_length_le (by omega)]
  · cases h
    refine .inr ⟨by omega, ?_⟩
    rw [live, live, List.take_set]

end WatchTable

namespace EventLoop

/-- A call of `usbyb_submit_transfer`. -/
structure SubmitCall where
  tran : Transfer
  wrfd : Int
  choice : SubmitChoice
  deriving DecidableEq, Repr

inductive ReapEvent where
  /-- A callback or another thread submits a transfer. -/
  | submit (q : SubmitCall)
  /-- The descriptor at the position is not ready, or it has no URB to reap. -/
  | skip
  /-- A URB of the descriptor at the position is reaped. -/
  | reap
  deriving DecidableEq, Repr

/-- The context and the position of the loop. `submitted` is for the statements: the position of
the loop and the descriptor of each submission. -/
structure ReapLoop where
  ctx : Context
  i : Nat := 0
  submitted : List (Nat × Int) := []

namespace ReapLoop

def live (s : ReapLoop) : List WatchedFd := s.ctx.watchedFds.live

def step (s : ReapLoop) : ReapEvent → Option ReapLoop
  | .submit q => (usbybSubmitTransfer s.ctx q.tran q.wrfd q.choice).map fun (_, ctx, _) =>
      { s with ctx, submitted := (s.i, q.wrfd) :: s.submitted }
  | .skip => some { s with i := s.i + 1 }
  | .reap => (usbfsUnwatchFd s.ctx.watchedFds s.i).map fun table =>
      { s with ctx := { s.ctx with watchedFds := table }, i := s.i + 1 }

/-- The index that `usbfs_unwatch_fd` is called with, if it is called, is below the count. -/
def InTable (s : ReapLoop) : ReapEvent → Prop
  | .submit q => ∀ table i, s.ctx.watchedFds.watch q.wrfd q.choice.reallocOk = some (table, i) →
      i < table.count
  | .skip => True
  | .reap => s.i < s.ctx.watchedFds.count

end ReapLoop

/-- The loop from the context in which `poll` was called. -/
def reapLoop (ctx : Context) : Machine ReapLoop ReapEvent := ⟨{ ctx }, ReapLoop.step⟩

/-- For each position that is visited, whether a URB was reaped there. -/
def visits : List ReapEvent → List Bool
  | [] => []
  | .submit _ :: es => visits es
  | .skip :: es => false :: visits es
  | .reap :: es => true :: visits es

/-- The number of URBs reaped at a position. -/
def reaps (ready : List Bool) (j : Nat) : Int := if ready[j]? = some true then 1 else 0

/-- The records before the loop have lost as many references as URBs were reaped at their
position; those without references are gone, and there is no other record, unless a submission
has added it since. -/
structure Released (before : List WatchedFd) (ready : List Bool) (s : ReapLoop) : Prop where
  distinct : (s.live.map (·.fd)).Nodup
  counts : ∀ j w, before[j]? = some w → w.refcount ≠ reaps ready j →
    { w with refcount := w.refcount - reaps ready j } ∈ s.live
  gone : ∀ j w, before[j]? = some w → w.refcount = reaps ready j →
    ∀ v ∈ s.live, v.fd = w.fd → v.refcount = 0 ∧ ∃ n > j, (n, v.fd) ∈ s.submitted
  others : ∀ v ∈ s.live, (∀ w ∈ before, w.fd ≠ v.fd) →
    v.refcount = 0 ∧ ∃ n, (n, v.fd) ∈ s.submitted

/-- The loop ends, gives up the right records and stays inside the table. -/
def Releases (ctx : Context) (es : List ReapEvent) : Prop :=
  ∃ t, (reapLoop ctx).exec (reapLoop ctx).init es = some t ∧
    (reapLoop ctx).Steps (fun s e _ => s.InTable e) (reapLoop ctx).init es ∧
    Released ctx.watchedFds.live (visits es) t

/-- A submission does not fail in the table, and the record that moves when the last reference of
another is given up does not come from a position that is to be reaped later. -/
def Steady (ready : List Bool) (s : ReapLoop) : ReapEvent → Prop
  | .submit q => q.tran.pub.type = .isochronous ∨
      q.choice.rejected = none ∧ s.ctx.watchedFds.Watchable q.wrfd q.choice.reallocOk
  | .skip => True
  | .reap => ∀ w, s.live[s.i]? = some w → w.refcount = 1 →
      s.i + 1 < s.live.length → ready[s.live.length - 1]? ≠ some true

end EventLoop

end Libusby.Linux
