import Libusby.Win32.Reaper.Handles

/-!
# What the reaper waits for

While a thread is in its wait the array holds its target, the event of the list and then
the events of the queued transfers, in the order of the queue. A transfer that joined the
queue since then is not in the array, and the event of the list is signalled for it.
-/

namespace Libusby.Win32.Reaper

open Foundations Libusby.Core

variable {c : Checks} {s s' : Sys} {e : Event} {th : Tid} {t : TranId} {hTarget : Handle}
  {p : Pc} {ok : Bool} {n : Nat} {q : List TranId} {handles handles' : List (Option Handle)}

/-- What `usbyi_win32_reap_until` is called for: a completion event or the end of the loop. -/
def Handle.IsTarget : Handle → Prop
  | .completion _ | .eventLoopStopped => True
  | _ => False

/-- The target of the call that is at this point. -/
def Pc.target : Pc → Option Handle
  | .idle => none
  | .calling hTarget | .arming hTarget | .waiting hTarget _ | .searching hTarget _ _ _
  | .reaping hTarget _ | .finished hTarget _ | .unlinked hTarget _ | .inCallback hTarget _
  | .called hTarget _ | .leaving hTarget _ | .returned hTarget _ => some hTarget

def Targets (s : Sys) : Prop := ∀ th hTarget, (s.pc th).target = some hTarget → hTarget.IsTarget

namespace Targets

theorem init : Targets {} := fun _ _ h => nomatch h

/-- A step of one thread that keeps its target. -/
theorem move (h : Targets s) (pc : s'.pc = (s.setPc th p).pc)
    (same : p.target = (s.pc th).target) : Targets s' := by
  intro x hTarget hx
  rw [pc, Sys.setPc_pc] at hx
  split_ifs at hx
  · exact h th hTarget (same ▸ hx)
  · exact h x hTarget hx

/-- A call begins or ends. -/
theorem call (h : Targets s) (pc : s'.pc = (s.setPc th p).pc)
    (target : ∀ hTarget, p.target = some hTarget → hTarget.IsTarget) : Targets s' := by
  intro x hTarget hx
  rw [pc, Sys.setPc_pc] at hx
  split_ifs at hx
  · exact target hTarget hx
  · exact h x hTarget hx

theorem step (h : Targets s) (hs : step c s e = some s') : Targets s' := by
  cases step_rule hs with
  | fill | refuse | reject | accept | complete | stop | reset => exact h
  | callWait | callRun =>
    apply h.call rfl
    rintro _ ⟨⟩
    trivial
  | ret => exact h.call rfl nofun
  | react pc returns result =>
    refine h.move rfl ?_
    rw [pc]
    obtain rfl | ⟨-, rfl⟩ | ⟨-, rfl⟩ | ⟨x, rfl⟩ := react_cases result <;> rfl
  | waitTarget pc | waitLock pc | waitFailed pc | armFailed pc | arm pc | found pc | next pc
  | notFound pc | getResult pc | unlink pc | callback pc | noCallback pc | callbackReturn pc
  | signal pc | resubmitted pc | leave pc => exact h.move rfl (pc ▸ rfl)

end Targets

theorem storeHandle_take {k : Nat} {h : Handle} (hs : storeHandle handles k h = .ok handles') :
    handles'.take (k + 1) = handles.take k ++ [some h] := by
  obtain ⟨hk, rfl⟩ := storeHandle_eq_ok.1 hs
  rw [List.take_add_one, List.take_set_of_le (Nat.le_refl k), List.getElem?_set_self hk]
  rfl

/-- The loop over the list appends the events of all queued transfers. -/
theorem collect_take (target : hTarget.IsTarget) {cur : Option TranId} {m : Nat}
    (walk : Seg s.ctx.trani.next cur q none)
    (h : s.collect hTarget q.length cur handles m = .ok (handles', n)) :
    n = m + q.length ∧ handles'.take n = handles.take m ++ q.map fun t => some (.overlapped t) := by
  induction q generalizing cur handles m with
  | nil =>
    cases h
    simp
  | cons t q ih =>
    obtain ⟨rfl, walk⟩ := walk
    have other : Handle.overlapped t ≠ hTarget := by
      rintro rfl
      exact target
    simp only [List.length_cons, Sys.collect, if_pos other] at h
    obtain ⟨stored, hstore, h⟩ := bind_eq_ok.1 h
    obtain ⟨rfl, taken⟩ := ih walk h
    refine ⟨by simp only [List.length_cons]; omega, ?_⟩
    rw [taken, storeHandle_take hstore, List.append_assoc]
    rfl

theorem arm_take (hq : Queue s q) (target : hTarget.IsTarget) {ctx : Context}
    (h : s.arm c hTarget ok = .ok (.ok (ctx, n))) :
    ctx.hTransferListUpdated = false ∧ n = 2 + q.length ∧ ctx.handleList.handles.take n =
      some hTarget :: some .transferListUpdated :: q.map fun t => some (.overlapped t) := by
  unfold Sys.arm at h
  simp only at h
  split_ifs at h
  · cases h
  · simp only [bind_eq_ok] at h
    obtain ⟨h₀, store₀, h₁, store₁, ⟨h₂, k⟩, hcollect, h⟩ := h
    cases h
    rw [hq.count, Int.toNat_natCast] at hcollect
    obtain ⟨length, taken⟩ := collect_take target hq.chain.forward hcollect
    refine ⟨rfl, length, ?_⟩
    rw [taken, storeHandle_take store₁, storeHandle_take store₀]
    rfl

/-- The queue when the array was filled is `q₀`, and `q₁` joined it since. -/
structure Watched (s : Sys) (hTarget : Handle) (n : Nat) (q₀ q₁ : List TranId) : Prop where
  queue : Queue s (q₀ ++ q₁)
  length : n = 2 + q₀.length
  handles : s.ctx.handleList.handles.take n =
    some hTarget :: some .transferListUpdated :: q₀.map fun t => some (.overlapped t)
  joined : q₁ ≠ [] → s.ctx.hTransferListUpdated = true

namespace Watched

variable {q₀ q₁ : List TranId}

theorem frame (h : Watched s hTarget n q₀ q₁) (trani : s'.ctx.trani = s.ctx.trani)
    (count : s'.ctx.tranCount = s.ctx.tranCount) (list : s'.ctx.handleList = s.ctx.handleList)
    (updated : s'.ctx.hTransferListUpdated = s.ctx.hTransferListUpdated)
    (submitted : ∀ t, (s'.trans t).submitted = (s.trans t).submitted) :
    Watched s' hTarget n q₀ q₁ where
  queue := h.queue.frame trani count submitted
  length := h.length
  handles := by rw [list, h.handles]
  joined := updated ▸ h.joined

theorem enqueued (h : Watched s hTarget n q₀ q₁) (idle : (s.trans t).submitted = false)
    (o : Overlapped) : Watched (s.enqueued t o) hTarget n q₀ (q₁ ++ [t]) where
  queue := List.append_assoc q₀ q₁ [t] ▸ h.queue.enqueued idle o
  length := h.length
  handles := h.handles
  joined _ := rfl

end Watched

/-- Every thread that is in its wait watches the queue. -/
def AllWatched (s : Sys) : Prop :=
  ∀ th hTarget n, s.pc th = .waiting hTarget n → ∃ q₀ q₁, Watched s hTarget n q₀ q₁

namespace AllWatched

theorem init : AllWatched {} := fun _ _ _ h => nomatch h

/-- A step of one thread that leaves the list and the array alone and starts no wait. -/
theorem move (h : AllWatched s) (pc : s'.pc = (s.setPc th p).pc)
    (trani : s'.ctx.trani = s.ctx.trani) (count : s'.ctx.tranCount = s.ctx.tranCount)
    (list : s'.ctx.handleList = s.ctx.handleList)
    (updated : s'.ctx.hTransferListUpdated = s.ctx.hTransferListUpdated)
    (submitted : ∀ t, (s'.trans t).submitted = (s.trans t).submitted)
    (hp : ∀ hTarget n, p ≠ .waiting hTarget n) : AllWatched s' := by
  intro x hTarget n hx
  rw [pc, Sys.setPc_pc] at hx
  split_ifs at hx
  · exact absurd hx (hp hTarget n)
  · obtain ⟨q₀, q₁, watched⟩ := h x hTarget n hx
    exact ⟨q₀, q₁, watched.frame trani count list updated submitted⟩

/-- A step that concerns only one transfer. -/
theorem frame (h : AllWatched s) (pc : s'.pc = s.pc) (trani : s'.ctx.trani = s.ctx.trani)
    (count : s'.ctx.tranCount = s.ctx.tranCount) (list : s'.ctx.handleList = s.ctx.handleList)
    (updated : s'.ctx.hTransferListUpdated = s.ctx.hTransferListUpdated)
    (submitted : ∀ t, (s'.trans t).submitted = (s.trans t).submitted) : AllWatched s' := by
  intro x hTarget n hx
  rw [pc] at hx
  obtain ⟨q₀, q₁, watched⟩ := h x hTarget n hx
  exact ⟨q₀, q₁, watched.frame trani count list updated submitted⟩

theorem step (h : AllWatched s) (hc : Consistent s) (ht : Targets s)
    (hs : step c s e = some s') : AllWatched s' := by
  cases step_rule hs with
  | refuse => exact h
  | fill | reject | complete =>
    exact h.frame rfl rfl rfl rfl rfl fun _ => Sys.setTran_keeps _ _ _ _ (·.submitted) rfl
  | stop | reset => exact h.frame rfl rfl rfl rfl rfl fun _ => rfl
  | accept idle =>
    intro x hTarget n hx
    obtain ⟨q₀, q₁, watched⟩ := h x hTarget n hx
    exact ⟨q₀, _, watched.enqueued idle _⟩
  | @arm th ok hTarget ctx n pc result =>
    intro x hTarget' n' hx
    change (s.setPc th (.waiting hTarget n)).pc x = _ at hx
    rw [Sys.setPc_pc] at hx
    split_ifs at hx with same
    · cases hx
      obtain ⟨q, hq⟩ := hc.queue
      obtain ⟨trani, count, -⟩ := arm_frame result
      obtain ⟨updated, length, taken⟩ := arm_take hq (ht th hTarget (pc ▸ rfl)) result
      refine ⟨q, [], ?_, length, taken, fun none => absurd rfl none⟩
      rw [List.append_nil]
      exact hq.frame trani count fun _ => rfl
    · have := hc.token.unique (Sys.reaping_of hx rfl) (Sys.reaping_of pc rfl)
      exact absurd this same
  | @unlink th hTarget t pc =>
    intro x hTarget' n hx
    rw [Sys.setPc_pc] at hx
    split_ifs at hx with same
    have := hc.token.unique (Sys.reaping_of hx rfl) (Sys.reaping_of pc rfl)
    exact absurd this same
  | react pc returns result =>
    refine h.move rfl rfl rfl rfl rfl (fun _ => rfl) ?_
    obtain rfl | ⟨-, rfl⟩ | ⟨-, rfl⟩ | ⟨x, rfl⟩ := react_cases result <;> exact nofun
  | getResult | signal =>
    exact h.move rfl rfl rfl rfl rfl
      (fun _ => Sys.setTran_keeps _ _ _ _ (·.submitted) rfl) nofun
  | callWait | callRun | waitTarget | waitLock | waitFailed | armFailed | found | next | notFound
  | callback | noCallback | callbackReturn | resubmitted | leave | ret =>
    exact h.move rfl rfl rfl rfl rfl (fun _ => rfl) nofun

theorem of_reachable (h : (reaper c).Reachable s) : AllWatched s := by
  refine (h.invariant (I := fun s => (Consistent s ∧ Targets s) ∧ AllWatched s)
    ⟨⟨Consistent.init, Targets.init⟩, init⟩ ?_).2
  exact fun _ _ _ hs ht => ⟨⟨hs.1.1.step ht, hs.1.2.step ht⟩, hs.2.step hs.1.1 hs.1.2 ht⟩

end AllWatched

/-- No submission is missed: in every state of every run, a thread in its wait watches its
target, the event of the list and the events of the transfers that were queued when the
wait was prepared, all of which are still queued. Any other queued transfer came later, and
while there is one the event of the list is signalled. -/
theorem submissions_watched (h : (reaper c).Reachable s) (pc : s.pc th = .waiting hTarget n) :
    ∃ q₀ q₁, Queue s (q₀ ++ q₁) ∧ n = 2 + q₀.length ∧
      s.ctx.handleList.handles.take n =
        some hTarget :: some .transferListUpdated :: q₀.map (fun t => some (.overlapped t)) ∧
      (q₁ ≠ [] → s.signalled .transferListUpdated = true) := by
  obtain ⟨q₀, q₁, watched⟩ := AllWatched.of_reachable h th hTarget n pc
  exact ⟨q₀, q₁, watched.queue, watched.length, watched.handles, watched.joined⟩

/-- One transfer is queued before the wait and one during it. -/
theorem submissions_watched_later : ∃ s,
    (reaper .source).exec {} [.fill 7 { type := .bulk }, .submit 7 (some .ioPending) 0, .callRun 0,
      .wait 0 1, .arm 0 true, .fill 8 { type := .bulk }, .submit 8 (some .ioPending) 0] = some s ∧
    ∃ q₀ q₁, Queue s (q₀ ++ q₁) ∧ 3 = 2 + q₀.length := by
  refine ⟨_, rfl, ?_⟩
  have run : (reaper .source).exec {} [.fill 7 { type := .bulk }, .submit 7 (some .ioPending) 0,
    .callRun 0, .wait 0 1, .arm 0 true, .fill 8 { type := .bulk },
    .submit 8 (some .ioPending) 0] = some _ := rfl
  obtain ⟨q₀, q₁, queue, length, -⟩ :=
    @submissions_watched _ _ 0 .eventLoopStopped 3 ⟨_, run⟩ rfl
  exact ⟨q₀, q₁, queue, length⟩

end Libusby.Win32.Reaper
