import Mathlib.Data.List.Basic
import Libusby.Types

/-!
# The table of watched descriptors

`watched_fds`, `watched_fd_count` and `watched_fd_capacity` of the Linux
context. The capacity is the number of allocated cells; the first `count` cells
are the table that the event loop polls. An access outside the allocated cells
is a fault and has no result.
-/

namespace Libusby.Linux

/-- `struct watched_fd`. The source counts in an `int`; the two agree until a count has gone down
2^31 times. -/
structure WatchedFd where
  fd : Int
  refcount : Int
  deriving DecidableEq, Repr

structure WatchTable where
  cells : List WatchedFd
  count : Nat
  count_le : count ≤ cells.length
  deriving DecidableEq, Repr

namespace WatchTable

def empty : WatchTable := ⟨[], 0, by simp⟩

/-- `watched_fds[0..watched_fd_count)`. -/
def live (t : WatchTable) : List WatchedFd := t.cells.take t.count

@[simp] theorem length_live (t : WatchTable) : t.live.length = t.count := by
  simp [live, t.count_le]

/-- The search loop of `usbyb_submit_transfer`; it stops at `count` when there
is no record of the descriptor. -/
def search (t : WatchTable) (fd : Int) : Nat := t.live.findIdx (·.fd = fd)

/-- Store a record behind the last one; a fault when no cell is left. -/
def push (cells : List WatchedFd) (count : Nat) (w : WatchedFd) : Option WatchTable :=
  if h : count < cells.length then some ⟨cells.set count w, count + 1, by rw [List.length_set]; exact h⟩
  else none

/-- The capacity asked of `realloc` when the table is full. -/
def newcap (capacity : Nat) : Nat := if capacity = 0 then 4 else capacity * 3 / 2

/-- The part of `usbyb_submit_transfer` that finds the record of `fd` or adds
one, with its index. When `realloc` fails the table pointer is null and the
store of the new record is a fault. -/
def watch (t : WatchTable) (fd : Int) (reallocOk : Bool) : Option (WatchTable × Nat) :=
  let i := t.search fd
  if i = t.count then
    if t.count = t.cells.length then
      if reallocOk then
        let fresh := List.replicate (newcap t.cells.length - t.cells.length) ⟨0, 0⟩
        (push (t.cells ++ fresh) t.count ⟨fd, 0⟩).map (·, i)
      else none
    else (push t.cells t.count ⟨fd, 0⟩).map (·, i)
  else some (t, i)

end WatchTable

/-- `usbfs_unwatch_fd`. With `count = 0` the decremented count is `-1` and the
cell before the table is read. -/
def usbfsUnwatchFd (t : WatchTable) (fdindex : Nat) : Option WatchTable :=
  match t.cells[fdindex]? with
  | none => none
  | some w =>
    let cells := t.cells.set fdindex { w with refcount := w.refcount - 1 }
    have hlen : cells.length = t.cells.length := by simp [cells]
    if w.refcount - 1 = 0 then
      match hc : t.count with
      | 0 => none
      | 1 => some ⟨cells, 0, by simp⟩
      | n + 2 =>
        have hn : n + 1 < cells.length := by have := t.count_le; omega
        some ⟨cells.set fdindex cells[n + 1], n + 1, by simp; omega⟩
    else some ⟨cells, t.count, by have := t.count_le; omega⟩

namespace WatchTable

/-! ## What the two operations do -/

theorem push_eq_some {cells : List WatchedFd} {count : Nat} {w : WatchedFd} {t : WatchTable}
    (h : push cells count w = some t) :
    count < cells.length ∧ t.cells = cells.set count w ∧ t.count = count + 1 := by
  unfold push at h
  split at h
  · cases h; exact ⟨‹_›, rfl, rfl⟩
  · cases h

theorem search_le (t : WatchTable) (fd : Int) : t.search fd ≤ t.count := by
  rw [← t.length_live, search]
  exact List.findIdx_le_length

theorem live_getElem? {t : WatchTable} {i : Nat} (h : i < t.count) :
    t.live[i]? = t.cells[i]? := by
  simp [live, h]

theorem search_found {t : WatchTable} {fd : Int} (h : t.search fd ≠ t.count) :
    ∃ w, t.live[t.search fd]? = some w ∧ w.fd = fd := by
  have hlt : t.search fd < t.live.length := by
    have := t.search_le fd
    simp
    omega
  exact ⟨t.live[t.search fd], by simp, of_decide_eq_true (List.findIdx_getElem (w := hlt))⟩

/-- After the search and the growth there is a record of the descriptor at the
index, and every other record is an old one or has no references. -/
theorem watch_spec {t t' : WatchTable} {fd : Int} {ok : Bool} {i : Nat}
    (h : t.watch fd ok = some (t', i)) :
    (∃ w, t'.live[i]? = some w ∧ w.fd = fd) ∧ ∀ w ∈ t'.cells, w ∈ t.cells ∨ w.refcount = 0 := by
  have pushed {cells : List WatchedFd} (hp : push cells t.count ⟨fd, 0⟩ = some t')
      (hc : ∀ w ∈ cells, w ∈ t.cells ∨ w.refcount = 0) :
      (∃ w, t'.live[t.count]? = some w ∧ w.fd = fd) ∧
        ∀ w ∈ t'.cells, w ∈ t.cells ∨ w.refcount = 0 := by
    obtain ⟨hlt, hcells, hcount⟩ := push_eq_some hp
    refine ⟨⟨⟨fd, 0⟩, ?_, rfl⟩, fun w hw => ?_⟩
    · rw [live_getElem? (by omega), hcells]
      simp [hlt]
    · rw [hcells] at hw
      rcases List.mem_or_eq_of_mem_set hw with hw | rfl
      · exact hc w hw
      · exact .inr rfl
  simp only [watch] at h
  split at h
  case isTrue hi =>
    split at h
    · split at h
      · obtain ⟨u, hp, hu⟩ := Option.map_eq_some_iff.1 h
        cases hu
        apply hi ▸ pushed hp
        intro w hw
        rcases List.mem_append.1 hw with hw | hw
        · exact .inl hw
        · exact .inr (by rw [List.eq_of_mem_replicate hw])
      · cases h
    · obtain ⟨u, hp, hu⟩ := Option.map_eq_some_iff.1 h
      cases hu
      exact hi ▸ pushed hp fun w hw => .inl hw
  case isFalse hi =>
    cases h
    exact ⟨search_found hi, fun w hw => .inl hw⟩

/-- The search and the growth keep every record. -/
theorem watch_live {t t' : WatchTable} {fd : Int} {ok : Bool} {i : Nat} {w : WatchedFd}
    (h : t.watch fd ok = some (t', i)) (hw : w ∈ t.live) : w ∈ t'.live := by
  have pushed {cells : List WatchedFd} (hp : push cells t.count ⟨fd, 0⟩ = some t')
      (hc : cells.take t.count = t.live) : w ∈ t'.live := by
    obtain ⟨hlt, hcells, hcount⟩ := push_eq_some hp
    have kept : t'.live.take t.count = t.live := by
      rw [live, hcells, hcount, List.take_take, Nat.min_eq_left (Nat.le_succ _),
        List.take_set_of_le (Nat.le_refl _), hc]
    rw [← kept] at hw
    exact List.mem_of_mem_take hw
  simp only [watch] at h
  split at h
  case isTrue hi =>
    split at h
    · split at h
      · obtain ⟨u, hp, hu⟩ := Option.map_eq_some_iff.1 h
        cases hu
        exact pushed hp (List.take_append_of_le_length t.count_le)
      · cases h
    · obtain ⟨u, hp, hu⟩ := Option.map_eq_some_iff.1 h
      cases hu
      exact pushed hp rfl
  case isFalse hi =>
    cases h
    exact hw

/-- No record has a positive count. -/
def Uncounted (t : WatchTable) : Prop := ∀ w ∈ t.cells, w.refcount ≤ 0

theorem uncounted_empty : Uncounted empty := by simp [Uncounted, empty]

theorem Uncounted.watch {t t' : WatchTable} {fd : Int} {ok : Bool} {i : Nat} (ht : t.Uncounted)
    (h : t.watch fd ok = some (t', i)) : t'.Uncounted := by
  intro w hw
  rcases (watch_spec h).2 w hw with hw | hw
  · exact ht w hw
  · omega

/-- A count that is not positive never reaches 0 from above, so the record
stays. -/
theorem Uncounted.unwatch {t t' : WatchTable} {i : Nat} (ht : t.Uncounted)
    (h : usbfsUnwatchFd t i = some t') : t'.Uncounted ∧ t'.count = t.count ∧
      ∃ w, t.cells[i]? = some w ∧ t'.cells = t.cells.set i { w with refcount := w.refcount - 1 } := by
  unfold usbfsUnwatchFd at h
  split at h
  case h_1 => cases h
  case h_2 w hw =>
    have neg : w.refcount ≤ 0 := ht w (List.mem_of_getElem? hw)
    rw [if_neg (by omega)] at h
    cases h
    refine ⟨fun v hv => ?_, rfl, w, hw, rfl⟩
    rcases List.mem_or_eq_of_mem_set hv with hv | rfl
    · exact ht v hv
    · simp; omega

theorem Uncounted.unwatch_fds {t t' : WatchTable} {i : Nat} (ht : t.Uncounted)
    (h : usbfsUnwatchFd t i = some t') : t'.live.map (·.fd) = t.live.map (·.fd) := by
  obtain ⟨-, hcount, w, hw, hcells⟩ := ht.unwatch h
  obtain ⟨hi, rfl⟩ := List.getElem?_eq_some_iff.1 hw
  have same : (t.cells.map (·.fd)).set i t.cells[i].fd = t.cells.map (·.fd) := by
    have hmap : i < (t.cells.map (·.fd)).length := by simpa using hi
    rw [← List.set_getElem_self hmap, List.getElem_map, List.set_set]
  rw [live, live, hcount, hcells, List.map_take, List.map_take, List.map_set, same]

end WatchTable

end Libusby.Linux
