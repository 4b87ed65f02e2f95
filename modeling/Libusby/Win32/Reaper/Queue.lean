import Libusby.Win32.Reaper.Token

/-!
# The transfer queue of libusb0

The doubly linked list, `tran_count` and the `submitted` flags describe one queue, the
reaper only takes transfers off it that are on it, and a completion event is signalled
only between a reap and the next submission.
-/

namespace Libusby.Win32.Reaper

open Foundations Libusby.Core

variable {c : Checks} {s s' : Sys} {e : Event} {th : Tid} {t u : TranId} {p : Pc}
  {q : List TranId} {trani : Links TranId}

theorem enqueue_eq (h : trani.Chain q) : enqueue trani t = trani.pushBack t := by
  have ends : trani.first = none ↔ trani.last = none := by
    rw [h.first, h.last, List.head?_eq_none_iff, List.getLast?_eq_none_iff]
  cases hl : trani.last with
  | none => simp [enqueue, Links.pushBack, Links.setNext, Links.setPrev, hl, ends.2 hl]
  | some v =>
    have : trani.first ≠ none := fun hf => by simp [ends.1 hf] at hl
    simp [enqueue, Links.pushBack, Links.setNext, Links.setPrev, hl, this]

theorem dequeue_eq (h : trani.Chain q) (ht : t ∈ q) : dequeue trani t = trani.unlink t := by
  obtain ⟨as, bs, rfl⟩ := List.append_of_mem ht
  have notin : t ∉ as ++ bs := (List.nodup_middle.1 h.nodup).notMem
  have next : trani.next t ≠ some t := by
    rw [h.next]
    exact fun hb => notin (List.mem_append_right _ (List.mem_of_head? hb))
  cases hn : trani.next t with
  | none =>
    cases hp : trani.prev t <;>
      simp [dequeue, Links.unlink, Links.setNext, Links.setPrev, hn, hp]
  | some v =>
    have : t ≠ v := fun e => next (e ▸ hn)
    cases hp : trani.prev t <;>
      simp [dequeue, Links.unlink, Links.setNext, Links.setPrev, hn, hp, this]

/-- `q` is the queue that the list, its counter and the flags describe. -/
structure Queue (s : Sys) (q : List TranId) : Prop where
  chain : s.ctx.trani.Chain q
  count : s.ctx.tranCount = q.length
  mem : ∀ t, t ∈ q ↔ (s.trans t).submitted = true

namespace Queue

theorem frame (h : Queue s q) (trani : s'.ctx.trani = s.ctx.trani)
    (count : s'.ctx.tranCount = s.ctx.tranCount)
    (submitted : ∀ t, (s'.trans t).submitted = (s.trans t).submitted) : Queue s' q where
  chain := trani ▸ h.chain
  count := count.trans h.count
  mem t := by rw [submitted, h.mem]

theorem enqueued (h : Queue s q) (idle : (s.trans t).submitted = false) (o : Overlapped) :
    Queue (s.enqueued t o) (q ++ [t]) where
  chain := by
    have notin : t ∉ q := by simp [h.mem, idle]
    have : (s.enqueued t o).ctx.trani = s.ctx.trani.pushBack t := enqueue_eq h.chain
    rw [this]
    exact h.chain.pushBack notin
  count := by simp [Sys.enqueued, h.count]
  mem u := by
    by_cases hu : u = t <;> simp [Sys.enqueued, hu, h.mem]

theorem dequeued (h : Queue s q) (ht : t ∈ q) : Queue (s.dequeued t) (q.erase t) where
  chain := by
    have : (s.dequeued t).ctx.trani = s.ctx.trani.unlink t := dequeue_eq h.chain ht
    rw [this]
    exact h.chain.unlink ht
  count := by
    have := List.length_pos_of_mem ht
    simp only [Sys.dequeued, List.length_erase_of_mem ht, h.count]
    omega
  mem u := by
    by_cases hu : u = t <;> simp [Sys.dequeued, hu, h.chain.nodup.mem_erase_iff, h.mem]

theorem first (h : Queue s q) (ht : s.ctx.trani.first = some t) : (s.trans t).submitted = true := by
  rw [h.chain.first] at ht
  exact (h.mem t).1 (List.mem_of_head? ht)

theorem next (h : Queue s q) (ht : (s.trans t).submitted = true)
    (hu : s.ctx.trani.next t = some u) : (s.trans u).submitted = true := by
  obtain ⟨as, bs, rfl⟩ := List.append_of_mem ((h.mem t).2 ht)
  rw [h.chain.next] at hu
  apply (h.mem u).1
  exact List.mem_append_right _ (List.mem_cons_of_mem _ (List.mem_of_head? hu))

end Queue

/-- What holds whenever `ctx_mutex` is free. -/
structure Consistent (s : Sys) : Prop where
  token : TokenConserved s
  queue : ∃ q, Queue s q
  listed : ∀ th t, (s.pc th).listed = some t → (s.trans t).submitted = true
  completion : ∀ t, (s.trans t).hCompletionEvent = true →
    (s.trans t).submitted = false ∧ ¬s.BeingReaped t

theorem Pc.inside_of_listed (h : p.listed = some t) : p.inside = true := by
  cases p <;> first | rfl | cases h

theorem Pc.inside_of_reaped (h : p.reaped = some t) : p.inside = true := by
  cases p <;> first | rfl | cases h

namespace Consistent

theorem init : Consistent {} where
  token := tokenConserved_init
  queue := ⟨[], Links.Chain.empty, rfl, fun t => by simp⟩
  listed th t h := nomatch h
  completion t h := ⟨rfl, fun ⟨th, h⟩ => nomatch h⟩

/-- A step that touches neither the list nor a program point. -/
theorem frame (h : Consistent s) (token : TokenConserved s') (pc : s'.pc = s.pc)
    (trani : s'.ctx.trani = s.ctx.trani) (count : s'.ctx.tranCount = s.ctx.tranCount)
    (submitted : ∀ t, (s'.trans t).submitted = (s.trans t).submitted)
    (completion : ∀ t, (s'.trans t).hCompletionEvent = (s.trans t).hCompletionEvent) :
    Consistent s' where
  token := token
  queue := h.queue.imp fun q hq => hq.frame trani count submitted
  listed x t hx := by
    rw [submitted]
    exact h.listed x t (pc ▸ hx)
  completion t ht := by
    rw [submitted]
    unfold Sys.BeingReaped
    rw [pc]
    exact h.completion t (completion t ▸ ht)

/-- A step of one thread that leaves the list alone. -/
theorem move (h : Consistent s) (token : TokenConserved s') (pc : s'.pc = (s.setPc th p).pc)
    (trani : s'.ctx.trani = s.ctx.trani) (count : s'.ctx.tranCount = s.ctx.tranCount)
    (submitted : ∀ t, (s'.trans t).submitted = (s.trans t).submitted)
    (completion : ∀ t, (s'.trans t).hCompletionEvent = (s.trans t).hCompletionEvent)
    (listed : ∀ t, p.listed = some t → (s.trans t).submitted = true)
    (reaped : ∀ t, p.reaped = some t → (s.pc th).reaped = some t) : Consistent s' where
  token := token
  queue := h.queue.imp fun q hq => hq.frame trani count submitted
  listed x t hx := by
    rw [submitted]
    rw [pc, Sys.setPc_pc] at hx
    split_ifs at hx with same
    · exact listed t hx
    · exact h.listed x t hx
  completion t ht := by
    rw [submitted]
    obtain ⟨idle, free⟩ := h.completion t (completion t ▸ ht)
    refine ⟨idle, fun ⟨x, hx⟩ => ?_⟩
    rw [pc, Sys.setPc_pc] at hx
    split_ifs at hx with same
    · exact free ⟨th, reaped t hx⟩
    · exact free ⟨x, hx⟩

theorem enqueued (h : Consistent s) (idle : (s.trans t).submitted = false) (o : Overlapped) :
    Consistent (s.enqueued t o) where
  token := h.token.frame rfl rfl
  queue := by
    obtain ⟨q, hq⟩ := h.queue
    exact ⟨q ++ [t], hq.enqueued idle o⟩
  listed x u hx := by
    by_cases hu : u = t
    · simp [Sys.enqueued, hu]
    · simpa [Sys.enqueued, hu] using h.listed x u hx
  completion u hu := by
    by_cases ht : u = t
    · simp [Sys.enqueued, ht] at hu
    · have := h.completion u (by simpa [Sys.enqueued, ht] using hu)
      simpa [Sys.enqueued, ht, Sys.BeingReaped] using this

/-- The only reaper takes transfer `t` off the list. -/
theorem unlinked (h : Consistent s) {hTarget : Handle} (pc : s.pc th = .finished hTarget t)
    (token : TokenConserved ((s.dequeued t).setPc th (.unlinked hTarget t))) :
    Consistent ((s.dequeued t).setPc th (.unlinked hTarget t)) where
  token := token
  queue := by
    obtain ⟨q, hq⟩ := h.queue
    have ht : t ∈ q := (hq.mem t).2 (h.listed th t (pc ▸ rfl))
    exact ⟨q.erase t, (hq.dequeued ht).frame rfl rfl fun _ => rfl⟩
  listed x u hx := by
    rw [Sys.setPc_pc] at hx
    split_ifs at hx with same
    · cases hx
    · have reaping : s.Reaping th := Sys.reaping_of pc rfl
      exact absurd (h.token.unique (Pc.inside_of_listed hx) reaping) same
  completion u hu := by
    have before : (s.trans u).hCompletionEvent = true := by
      by_cases ht : u = t <;> simpa [Sys.dequeued, ht] using hu
    obtain ⟨idle, free⟩ := h.completion u before
    have other : u ≠ t := by
      rintro rfl
      simp [h.listed th u (pc ▸ rfl)] at idle
    refine ⟨by simpa [Sys.dequeued, other] using idle, fun ⟨x, hx⟩ => ?_⟩
    rw [Sys.setPc_pc] at hx
    split_ifs at hx with same
    · exact other (Option.some.inj hx).symm
    · exact free ⟨x, hx⟩

/-- The only reaper is finished with transfer `t`, which nobody submitted again. -/
theorem completed (h : Consistent s) {hTarget : Handle} (pc : s.pc th = .called hTarget t)
    (idle : (s.trans t).submitted = false)
    (token : TokenConserved
      ((s.setTran t { s.trans t with hCompletionEvent := true }).setPc th (.arming hTarget))) :
    Consistent
      ((s.setTran t { s.trans t with hCompletionEvent := true }).setPc th (.arming hTarget)) where
  token := token
  queue := h.queue.imp fun q hq => hq.frame rfl rfl fun _ =>
    Sys.setTran_keeps _ _ _ _ (·.submitted) rfl
  listed x u hx := by
    rw [Sys.setPc_pc] at hx
    split_ifs at hx with same
    · cases hx
    · by_cases hu : u = t <;> simpa [hu] using h.listed x u hx
  completion u hu := by
    have reaping : s.Reaping th := Sys.reaping_of pc rfl
    constructor
    · by_cases ht : u = t
      · simpa [ht] using idle
      · simpa [ht] using (h.completion u (by simpa [ht] using hu)).1
    · rintro ⟨x, hx⟩
      rw [Sys.setPc_pc] at hx
      split_ifs at hx with same
      · cases hx
      · exact same (h.token.unique (Pc.inside_of_reaped hx) reaping)

theorem step (h : Consistent s) (hs : step c s e = some s') : Consistent s' := by
  have token := tokenConserved_step h.token hs
  cases step_rule hs with
  | fill | reject | complete =>
    exact h.frame token rfl rfl rfl (fun _ => Sys.setTran_keeps _ _ _ _ (·.submitted) rfl)
      (fun _ => Sys.setTran_keeps _ _ _ _ (·.hCompletionEvent) rfl)
  | stop | reset => exact h.frame token rfl rfl rfl (fun _ => rfl) (fun _ => rfl)
  | refuse => exact h
  | accept idle => exact h.enqueued idle _
  | callWait pc | callRun pc | waitTarget pc | waitLock pc | waitFailed pc | armFailed pc
  | notFound pc | resubmitted pc | leave pc | ret pc =>
    exact h.move token rfl rfl rfl (fun _ => rfl) (fun _ => rfl) (fun _ h => nomatch h)
      (fun _ h => nomatch h)
  | arm pc result =>
    obtain ⟨trani, count, -⟩ := arm_frame result
    exact h.move token rfl trani count (fun _ => rfl) (fun _ => rfl) (fun _ h => nomatch h)
      (fun _ h => nomatch h)
  | react pc returns result =>
    refine h.move token rfl rfl rfl (fun _ => rfl) (fun _ => rfl) ?_ ?_
    · intro t ht
      obtain ⟨q, hq⟩ := h.queue
      rcases react_cases result with rfl | ⟨-, rfl⟩ | ⟨-, rfl⟩ | ⟨x, rfl⟩
      · cases ht
      · cases ht
      · cases ht
      · exact hq.first ht
    · intro t ht
      obtain rfl | ⟨-, rfl⟩ | ⟨-, rfl⟩ | ⟨x, rfl⟩ := react_cases result <;> cases ht
  | found pc =>
    refine h.move token rfl rfl rfl (fun _ => rfl) (fun _ => rfl) ?_ (fun _ h => nomatch h)
    intro t ht
    exact h.listed _ t (by rwa [pc])
  | @next th _ _ _ t pc =>
    refine h.move token rfl rfl rfl (fun _ => rfl) (fun _ => rfl) ?_ (fun _ h => nomatch h)
    intro u hu
    obtain ⟨q, hq⟩ := h.queue
    have ht : (s.trans t).submitted = true := h.listed th t (by rw [pc]; rfl)
    exact hq.next ht hu
  | getResult pc =>
    refine h.move token rfl rfl rfl (fun _ => Sys.setTran_keeps _ _ _ _ (·.submitted) rfl)
      (fun _ => Sys.setTran_keeps _ _ _ _ (·.hCompletionEvent) rfl) ?_ (fun _ h => nomatch h)
    intro t ht
    exact h.listed _ t (by rwa [pc])
  | unlink pc => exact h.unlinked pc token
  | callback pc | noCallback pc | callbackReturn pc =>
    apply h.move token rfl rfl rfl (fun _ => rfl) (fun _ => rfl) (fun _ h => nomatch h)
    intro t ht
    rw [pc]
    exact ht
  | signal pc idle => exact h.completed pc idle token

theorem of_reachable (h : (reaper c).Reachable s) : Consistent s :=
  h.invariant init fun _ _ _ => step

end Consistent

/-- A transfer is taken off the list only when its request is done. -/
def ReapsDone (s : Sys) : Prop :=
  ∀ th hTarget t, s.pc th = .finished hTarget t → (s.trans t).overlapped.result ≠ none

namespace ReapsDone

theorem init : ReapsDone {} := fun _ _ _ h => nomatch h

theorem move (h : ReapsDone s) (pc : s'.pc = (s.setPc th p).pc)
    (result : ∀ t, (s'.trans t).overlapped.result = (s.trans t).overlapped.result)
    (hp : ∀ hTarget t, p ≠ .finished hTarget t) : ReapsDone s' := by
  intro x hTarget t hx
  rw [pc, Sys.setPc_pc] at hx
  split_ifs at hx
  · exact absurd hx (hp hTarget t)
  · rw [result]
    exact h x hTarget t hx

/-- The request of a transfer that is not submitted changes. -/
theorem issue (h : ReapsDone s) (hc : Consistent s) (pc : s'.pc = s.pc)
    (idle : (s.trans t).submitted = false) (same : ∀ u ≠ t, s'.trans u = s.trans u) :
    ReapsDone s' := by
  intro x hTarget u hx
  rw [pc] at hx
  have submitted : (s.trans u).submitted = true := hc.listed x u (by rw [hx]; rfl)
  rw [same u (by rintro rfl; simp [idle] at submitted)]
  exact h x hTarget u hx

theorem step (h : ReapsDone s) (hc : Consistent s) (hs : step c s e = some s') : ReapsDone s' := by
  cases step_rule hs with
  | refuse | stop | reset => exact h
  | fill idle | reject idle => exact h.issue hc rfl idle fun u hu => by simp [hu]
  | accept idle => exact h.issue hc rfl idle fun u hu => by simp [Sys.enqueued, hu]
  | @complete t res n submitted =>
    intro x hTarget u hx
    by_cases hu : u = t
    · simp [hu]
    · simpa [hu] using h x hTarget u hx
  | @getResult th hTarget t pub pc done =>
    have same (u : TranId) : ((s.setTran t { s.trans t with pub }).trans u).overlapped.result =
        (s.trans u).overlapped.result := Sys.setTran_keeps _ _ _ _ (·.overlapped.result) rfl
    intro x hTarget' u hx
    rw [Sys.setPc_pc] at hx
    rw [Sys.setPc_trans, same]
    split_ifs at hx
    · cases hx
      exact done
    · exact h x hTarget' u hx
  | unlink | signal =>
    exact h.move rfl (fun _ => Sys.setTran_keeps _ _ _ _ (·.overlapped.result) rfl) nofun
  | react pc returns result =>
    apply h.move rfl (fun _ => rfl)
    obtain rfl | ⟨-, rfl⟩ | ⟨-, rfl⟩ | ⟨x, rfl⟩ := react_cases result <;> exact nofun
  | callWait | callRun | waitTarget | waitLock | waitFailed | armFailed | arm | found | next
  | notFound | callback | noCallback | callbackReturn | resubmitted | leave | ret =>
    exact h.move rfl (fun _ => rfl) nofun

theorem of_reachable (h : (reaper c).Reachable s) : ReapsDone s := by
  refine (h.invariant (I := fun s => Consistent s ∧ ReapsDone s) ⟨Consistent.init, init⟩ ?_).2
  exact fun _ _ _ hs ht => ⟨hs.1.step ht, hs.2.step hs.1 ht⟩

end ReapsDone

end Libusby.Win32.Reaper
