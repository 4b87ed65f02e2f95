import Libusby.Win32.Reaper.Queue

/-!
# The handle array of the reaper

Between arming the wait and its return the first `handle_count` cells of the array are
stored, the target in the first of them. The array has room for all handles unless it has
to grow and `realloc` fails; the tests of the source see neither that nor a failed wait.
-/

namespace Libusby.Win32.Reaper

open Foundations Libusby.Core

variable {c : Checks} {s s' : Sys} {e : Event} {th : Tid} {hTarget : Handle} {ok : Bool}
  {handles handles' : List (Option Handle)} {m n : Nat}

/-- The first `n` cells were stored. -/
def Stored (handles : List (Option Handle)) (n : Nat) : Prop :=
  ∀ k < n, ∃ h, handles[k]? = some (some h)

/-- The array is ready for a wait for `n` handles, the first of which is the target. -/
structure Armed (handles : List (Option Handle)) (hTarget : Handle) (n : Nat) : Prop where
  two_le : 2 ≤ n
  target : handles[0]? = some (some hTarget)
  stored : Stored handles n

/-- The array has the size that `capacity` says. -/
def HandleList.Allocated (l : HandleList) : Prop := (l.handles.length : Int) = l.capacity

/-- The list must grow for `2 + tran_count` handles. -/
def HandleList.MustGrow (l : HandleList) (newCapacity : Int) : Prop :=
  l.capacity < max newCapacity 4

instance (l : HandleList) (newCapacity : Int) : Decidable (l.MustGrow newCapacity) :=
  inferInstanceAs (Decidable (_ < _))

theorem storeHandle_eq_ok {k : Nat} {h : Handle} :
    storeHandle handles k h = .ok handles' ↔
      k < handles.length ∧ handles' = handles.set k (some h) := by
  unfold storeHandle
  split_ifs with hk <;> simp [hk, eq_comm]

/-- One more cell is stored and the others stay. -/
theorem Stored.store {h : Handle} (hs : Stored handles n)
    (hh : storeHandle handles n h = .ok handles') :
    Stored handles' (n + 1) ∧ handles'.length = handles.length ∧
      ∀ k < n, handles'[k]? = handles[k]? := by
  obtain ⟨hn, rfl⟩ := storeHandle_eq_ok.1 hh
  refine ⟨fun k hk => ?_, List.length_set, fun k hk => List.getElem?_set_ne (by omega)⟩
  rcases Nat.lt_succ_iff_lt_or_eq.1 hk with hk | rfl
  · rw [List.getElem?_set_ne (by omega)]
    exact hs k hk
  · exact ⟨h, List.getElem?_set_self hn⟩

theorem reserve_allocated {l : HandleList} (newCapacity : Int) (ok : Bool) (h : l.Allocated) :
    (usbyiReserveHandleList l newCapacity ok).2.Allocated := by
  unfold usbyiReserveHandleList
  simp only
  split_ifs
  all_goals first | exact h | skip
  all_goals
    simp only [HandleList.Allocated, resize, List.length_append, List.length_take,
      List.length_replicate]
    omega

/-- Unless the list must grow and `realloc` fails there is enough room. -/
theorem reserve_capacity {l : HandleList} (newCapacity : Int) (ok : Bool)
    (h : l.MustGrow newCapacity → ok = true) :
    max newCapacity 4 ≤ (usbyiReserveHandleList l newCapacity ok).2.capacity := by
  unfold HandleList.MustGrow at h
  unfold usbyiReserveHandleList
  simp only
  split_ifs <;> simp_all <;> omega

theorem collect_stored {cur : Option TranId} {k : Nat} (hs : Stored handles m)
    (h : s.collect hTarget k cur handles m = .ok (handles', n)) :
    Stored handles' n ∧ m ≤ n ∧ handles'.length = handles.length ∧
      ∀ k < m, handles'[k]? = handles[k]? := by
  induction k generalizing cur handles m with
  | zero =>
    cases h
    exact ⟨hs, Nat.le_refl _, rfl, fun _ _ => rfl⟩
  | succ k ih =>
    cases cur with
    | none =>
      cases h
      exact ⟨hs, Nat.le_refl _, rfl, fun _ _ => rfl⟩
    | some t =>
      simp only [Sys.collect] at h
      split_ifs at h with other
      · obtain ⟨hs₁, hstore, h⟩ := bind_eq_ok.1 h
        obtain ⟨stored, length, same⟩ := hs.store hstore
        obtain ⟨stored', le, length', same'⟩ := ih stored h
        refine ⟨stored', by omega, length'.trans length, fun k hk => ?_⟩
        rw [same' k (by omega), same k hk]
      · exact ih hs h

/-- The loop stays inside an array that has room for the whole list. -/
theorem collect_total (hTarget : Handle) (k : Nat) {cur : Option TranId} {q : List TranId}
    (walk : Seg s.ctx.trani.next cur q none) (room : m + q.length ≤ handles.length) :
    ∃ r, s.collect hTarget k cur handles m = .ok r := by
  induction k generalizing cur handles m q with
  | zero => exact ⟨_, rfl⟩
  | succ k ih =>
    cases q with
    | nil =>
      cases walk
      exact ⟨_, rfl⟩
    | cons t q =>
      obtain ⟨rfl, walk⟩ := walk
      rw [List.length_cons] at room
      simp only [Sys.collect]
      split_ifs
      · rw [storeHandle_eq_ok.2 ⟨by omega, rfl⟩]
        exact ih walk (by rw [List.length_set]; omega)
      · exact ih walk (by omega)

theorem arm_armed {ctx : Context} (alloc : s.ctx.handleList.Allocated)
    (h : s.arm c hTarget ok = .ok (.ok (ctx, n))) :
    ctx.handleList.Allocated ∧ Armed ctx.handleList.handles hTarget n := by
  have alloc' := reserve_allocated (2 + s.ctx.tranCount) ok alloc
  unfold Sys.arm at h
  simp only at h
  split_ifs at h
  · cases h
  · simp only [bind_eq_ok] at h
    obtain ⟨h₀, store₀, h₁, store₁, ⟨h₂, k⟩, hcollect, h⟩ := h
    cases h
    have none : Stored (usbyiReserveHandleList s.ctx.handleList (2 + s.ctx.tranCount) ok).2.handles 0 :=
      fun i hi => absurd hi (Nat.not_lt_zero i)
    obtain ⟨stored₀, length₀, -⟩ := none.store store₀
    obtain ⟨stored₁, length₁, same₁⟩ := stored₀.store store₁
    obtain ⟨stored₂, le, length₂, same₂⟩ := collect_stored stored₁ hcollect
    refine ⟨?_, le, ?_, stored₂⟩
    · unfold HandleList.Allocated
      rw [length₂, length₁, length₀]
      exact alloc'
    · rw [same₂ 0 (by omega), same₁ 0 (by omega), (storeHandle_eq_ok.1 store₀).2]
      exact List.getElem?_set_self (storeHandle_eq_ok.1 store₀).1

/-- The array in every state, and during a wait. -/
structure HandlesReady (s : Sys) : Prop where
  allocated : s.ctx.handleList.Allocated
  armed : ∀ th hTarget n, s.pc th = .waiting hTarget n → Armed s.ctx.handleList.handles hTarget n

namespace HandlesReady

theorem init : HandlesReady {} := ⟨rfl, fun _ _ _ h => nomatch h⟩

/-- A step that neither changes the array nor starts a wait. -/
theorem frame {p : Pc} (h : HandlesReady s) (list : s'.ctx.handleList = s.ctx.handleList)
    (pc : s'.pc = (s.setPc th p).pc) (hp : ∀ hTarget n, p ≠ .waiting hTarget n) :
    HandlesReady s' where
  allocated := list ▸ h.allocated
  armed x hTarget n hx := by
    rw [pc, Sys.setPc_pc] at hx
    split_ifs at hx
    · exact absurd hx (hp hTarget n)
    · rw [list]
      exact h.armed x hTarget n hx

theorem step (h : HandlesReady s) (hc : Consistent s) (hs : step c s e = some s') :
    HandlesReady s' := by
  cases step_rule hs with
  | fill | reject | accept | complete | stop | reset | refuse => exact ⟨h.allocated, h.armed⟩
  | @arm th ok hTarget ctx n pc result =>
    obtain ⟨alloc, armed⟩ := arm_armed h.allocated result
    refine ⟨alloc, fun x hTarget' n' hx => ?_⟩
    change (s.setPc th (.waiting hTarget n)).pc x = _ at hx
    rw [Sys.setPc_pc] at hx
    split_ifs at hx with same
    · cases hx
      exact armed
    · -- the other waiting thread would be a second reaper
      have := hc.token.unique (Sys.reaping_of hx rfl) (Sys.reaping_of pc rfl)
      exact absurd this same
  | react pc returns result =>
    refine h.frame rfl rfl ?_
    obtain rfl | ⟨-, rfl⟩ | ⟨-, rfl⟩ | ⟨x, rfl⟩ := react_cases result <;> exact nofun
  | callWait | callRun | waitTarget | waitLock | waitFailed | armFailed
  | found | next | notFound | getResult | unlink | callback | noCallback | callbackReturn
  | signal | resubmitted | leave | ret =>
    exact h.frame rfl rfl nofun

theorem of_reachable (h : (reaper c).Reachable s) : HandlesReady s := by
  refine (h.invariant (I := fun s => Consistent s ∧ HandlesReady s) ⟨Consistent.init, init⟩ ?_).2
  exact fun _ _ _ hs ht => ⟨hs.1.step ht, hs.2.step hs.1 ht⟩

end HandlesReady

end Libusby.Win32.Reaper
