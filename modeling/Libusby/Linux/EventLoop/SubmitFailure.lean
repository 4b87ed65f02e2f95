import Libusby.Linux.EventLoop.Step

/-!
# What a submission that fails leaves behind

`usbyb_submit_transfer` adds the record of a new descriptor before the `ioctl` and never
counts the reference, but gives it up when the kernel rejects the request. So a rejection
always changes the table, and a table that cannot grow is lost.
-/

namespace Libusby.Linux

namespace WatchTable

variable {t t' : WatchTable} {fd : Int} {ok : Bool} {i : Nat} {w : WatchedFd}

/-- There is a record of the descriptor or room for one. -/
def Watchable (t : WatchTable) (fd : Int) (reallocOk : Bool) : Prop :=
  t.search fd ≠ t.count ∨ t.count < t.cells.length ∨ reallocOk = true ∧ t.cells.length ≠ 1

theorem push_isSome {cells : List WatchedFd} {count : Nat} :
    (push cells count w).isSome ↔ count < cells.length := by
  unfold push
  split_ifs with h <;> simp [h]

theorem lt_newcap {capacity : Nat} : capacity < newcap capacity ↔ capacity ≠ 1 := by
  unfold newcap
  split_ifs <;> omega

theorem watch_isSome : (t.watch fd ok).isSome ↔ t.Watchable fd ok := by
  have le := t.count_le
  have grows : t.cells.length < newcap t.cells.length ↔ t.cells.length ≠ 1 := lt_newcap
  simp only [watch, Watchable]
  split_ifs with new full grown
  · have room : t.count < t.cells.length + (newcap t.cells.length - t.cells.length) ↔
        t.cells.length ≠ 1 := by omega
    simp only [Option.isSome_map, push_isSome, List.length_append, List.length_replicate, room]
    simp [new, full, grown]
  · simp [new, full, grown]
  · simp only [Option.isSome_map, push_isSome]
    omega
  · simp [new]

/-- The record that the search found or added. -/
theorem watch_cases (h : t.watch fd ok = some (t', i)) :
    t' = t ∧ i < t.count ∨
      t'.count = t.count + 1 ∧ i < t'.count ∧ t'.live[i]? = some ⟨fd, 0⟩ := by
  have pushed {cells : List WatchedFd} (hp : push cells t.count ⟨fd, 0⟩ = some t') :
      t'.count = t.count + 1 ∧ t.count < t'.count ∧ t'.live[t.count]? = some ⟨fd, 0⟩ := by
    obtain ⟨hlt, hcells, hcount⟩ := push_eq_some hp
    refine ⟨hcount, by omega, ?_⟩
    rw [live_getElem? (by omega), hcells]
    exact List.getElem?_set_self hlt
  simp only [watch] at h
  split_ifs at h with new full
  · obtain ⟨u, hp, hu⟩ := Option.map_eq_some_iff.1 h
    cases hu
    exact .inr (new ▸ pushed hp)
  · obtain ⟨u, hp, hu⟩ := Option.map_eq_some_iff.1 h
    cases hu
    exact .inr (new ▸ pushed hp)
  · cases h
    have := t.search_le fd
    exact .inl ⟨rfl, by omega⟩

/-- Giving up a reference is a change of the count or of the record. -/
theorem unwatch_changes (hw : t.live[i]? = some w) :
    ∃ t', usbfsUnwatchFd t i = some t' ∧ (w.refcount = 1 ∧ t'.count + 1 = t.count ∨
      w.refcount ≠ 1 ∧ t'.count = t.count ∧
        t'.live[i]? = some { w with refcount := w.refcount - 1 }) := by
  have hi : i < t.count := by simpa using (List.getElem?_eq_some_iff.1 hw).1
  rw [live_getElem? hi] at hw
  have hcell : i < t.cells.length := Nat.lt_of_lt_of_le hi t.count_le
  unfold usbfsUnwatchFd
  rw [hw]
  simp only
  split_ifs with last
  · split
    case h_1 none => omega
    case h_2 one => exact ⟨_, rfl, .inl ⟨by omega, one.symm⟩⟩
    case h_3 n more => exact ⟨_, rfl, .inl ⟨by omega, more.symm⟩⟩
  · refine ⟨_, rfl, .inr ⟨by omega, rfl, ?_⟩⟩
    refine (live_getElem? ?_).trans (List.getElem?_set_self hcell)
    exact hi

end WatchTable

namespace EventLoop

variable {ctx ctx' : Context} {tran tran' : Transfer} {wrfd : Int} {k : SubmitChoice} {r : Error}

theorem usbfsError_negative (errno : Errno) : (usbfsError errno).code < 0 := by
  cases errno <;> decide

/-- A negative result leaves the table, the wake-up pipe and `active` as they were. -/
def LeavesNoTrace (ctx : Context) (tran : Transfer) (wrfd : Int) (k : SubmitChoice) : Prop :=
  ∃ r ctx' tran', usbybSubmitTransfer ctx tran wrfd k = some (r, ctx', tran') ∧
    (r.code < 0 → ctx'.watchedFds.live = ctx.watchedFds.live ∧
      ctx'.watchedFds.count = ctx.watchedFds.count ∧
      ctx'.watchedFds.cells.length = ctx.watchedFds.cells.length ∧
      ctx'.pipe = ctx.pipe ∧ tran'.active = tran.active)

theorem usbybSubmitTransfer_accepted (supported : tran.pub.type ≠ .isochronous)
    (accepted : k.rejected = none) (room : ctx.watchedFds.Watchable wrfd k.reallocOk) :
    ∃ ctx' tran', usbybSubmitTransfer ctx tran wrfd k = some (.success, ctx', tran') := by
  obtain ⟨⟨table, i⟩, hwatch⟩ := Option.isSome_iff_exists.1 (WatchTable.watch_isSome.2 room)
  simp only [usbybSubmitTransfer, if_neg supported, hwatch, Option.bind_some, accepted, submitUrb]
  split_ifs <;> exact ⟨_, _, rfl⟩

/-- A rejected submission changes the table. -/
theorem usbybSubmitTransfer_rejected {errno : Errno} (supported : tran.pub.type ≠ .isochronous)
    (rejected : k.rejected = some errno)
    (h : usbybSubmitTransfer ctx tran wrfd k = some (r, ctx', tran')) :
    r.code < 0 ∧ ctx'.watchedFds.live ≠ ctx.watchedFds.live := by
  simp only [usbybSubmitTransfer, if_neg supported, Option.bind_eq_some_iff, rejected, submitUrb] at h
  obtain ⟨⟨table, i⟩, hwatch, h⟩ := h
  obtain ⟨table', hunwatch, h⟩ := Option.map_eq_some_iff.1 h
  cases h
  refine ⟨usbfsError_negative errno, fun same => ?_⟩
  have count : table'.count = ctx.watchedFds.count := by
    rw [← table'.length_live, same, WatchTable.length_live]
  rcases WatchTable.watch_cases hwatch with ⟨rfl, hi⟩ | ⟨added, hi, new⟩
  · -- a record that was there loses a reference it did not get
    have hlive : i < ctx.watchedFds.live.length := by rwa [WatchTable.length_live]
    obtain ⟨t', ht', last | ⟨-, -, record⟩⟩ :=
      WatchTable.unwatch_changes (List.getElem?_eq_getElem hlive)
    all_goals cases hunwatch.symm.trans ht'
    · omega
    · rw [same, List.getElem?_eq_getElem hlive] at record
      have lost := congrArg WatchedFd.refcount (Option.some.inj record)
      simp only at lost
      omega
  · -- a new record stays with the count `-1`
    rcases WatchTable.unwatch_changes new with ⟨t', ht', ⟨one, -⟩ | ⟨-, kept, -⟩⟩
    all_goals cases hunwatch.symm.trans ht'
    · cases one
    · omega

/-- A failed submission leaves no trace only where nothing can fail after the transfer type
was accepted: the kernel takes the request, and its descriptor is in the table or there is
room for it. -/
theorem leavesNoTrace_iff (ctx : Context) (tran : Transfer) (wrfd : Int) (k : SubmitChoice) :
    LeavesNoTrace ctx tran wrfd k ↔ tran.pub.type = .isochronous ∨
      k.rejected = none ∧ ctx.watchedFds.Watchable wrfd k.reallocOk := by
  by_cases unsupported : tran.pub.type = .isochronous
  · refine iff_of_true ⟨_, _, _, if_pos unsupported, fun _ => ?_⟩ (.inl unsupported)
    exact ⟨rfl, rfl, rfl, rfl, rfl⟩
  constructor
  · rintro ⟨r, ctx', tran', h, same⟩
    refine .inr ⟨?_, ?_⟩
    · cases rejected : k.rejected with
      | none => rfl
      | some errno =>
        obtain ⟨negative, changed⟩ := usbybSubmitTransfer_rejected unsupported rejected h
        exact absurd (same negative).1 changed
    · simp only [usbybSubmitTransfer, if_neg unsupported, Option.bind_eq_some_iff] at h
      obtain ⟨watched, hwatch, -⟩ := h
      exact WatchTable.watch_isSome.1 (by rw [hwatch]; rfl)
  · rintro (contra | ⟨accepted, room⟩)
    · exact absurd contra unsupported
    · obtain ⟨ctx', tran', h⟩ := usbybSubmitTransfer_accepted unsupported accepted room
      exact ⟨_, ctx', tran', h, fun negative => absurd negative (by decide)⟩

/-- The kernel rejects the first bulk transfer on a descriptor: its record stays in the
table with the count `-1`. -/
theorem submit_leaves_trace : ∃ ctx',
    usbybSubmitTransfer {} { pub := { type := .bulk } } 5 ⟨true, some .other⟩ =
      some (.io, ctx', { pub := { type := .bulk } }) ∧
    ctx'.watchedFds.live = [⟨5, -1⟩] ∧
    ¬LeavesNoTrace {} { pub := { type := .bulk } } 5 ⟨true, some .other⟩ := by
  refine ⟨_, rfl, rfl, ?_⟩
  rintro ⟨r, ctx', tran', h, same⟩
  cases h
  obtain ⟨live, -⟩ := same (by decide)
  cases live

end EventLoop

end Libusby.Linux
