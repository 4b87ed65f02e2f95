import Libusby.Core.Lifetime
import Libusby.Foundations.Ledger

/-!
# Resurrected devices

Between the decrement that takes a count to 0 and the unlinking, the device is still in the
list that an enumeration searches. As long as no enumeration lists such a device, the count
of a device is the number of references to it (`Books`), so that nothing is freed that is
an entry of a list. An enumeration that does list one can always be followed by the two
steps that free it.
-/

namespace Libusby.Core.Lifetime

open Foundations

/-- The references are `refs`; `pending` are the devices that are to be finalized and
`unlinked` those that are to be freed. -/
structure Books {κ : Type} (heap : DeviceId → Option (Device κ)) (devlist : List DeviceId)
    (next : DeviceId) (refs pending unlinked : List DeviceId) : Prop where
  count : ∀ d dev, heap d = some dev → dev.refCount = refs.count d
  alive : ∀ d ∈ refs, ∃ dev, heap d = some dev
  dying : ∀ d ∈ pending ++ unlinked, ∃ dev, heap d = some dev ∧ dev.refCount = 0
  once : (pending ++ unlinked).Nodup
  linked : ∀ d ∈ devlist, ∃ dev, heap d = some dev
  distinct : devlist.Nodup
  gone : ∀ d ∈ unlinked, d ∉ devlist
  last : ∀ d ∈ devlist, ∀ dev, heap d = some dev → dev.refCount = 0 → d ∈ pending
  fresh : ∀ d, next ≤ d → heap d = none

section
variable {κ : Type} {heap : DeviceId → Option (Device κ)} {devlist refs pending unlinked : List DeviceId}
  {refs' pending' unlinked' : List DeviceId} {next d : DeviceId} {dev : Device κ} {number : κ}

theorem Books.perm (h : Books heap devlist next refs pending unlinked) (hr : refs.Perm refs')
    (hp : pending.Perm pending') (hu : unlinked.Perm unlinked') :
    Books heap devlist next refs' pending' unlinked' where
  count x y hx := by rw [h.count x y hx, hr.count_eq]
  alive x hx := h.alive x (hr.mem_iff.2 hx)
  dying x hx := h.dying x ((hp.append hu).mem_iff.2 hx)
  once := (hp.append hu).nodup_iff.1 h.once
  linked := h.linked
  distinct := h.distinct
  gone x hx := h.gone x (hu.mem_iff.2 hx)
  last x hx y hy zero := hp.mem_iff.1 (h.last x hx y hy zero)
  fresh := h.fresh

/-- A dying device is nobody's. -/
theorem Books.notMem_refs (h : Books heap devlist next refs pending unlinked)
    (hd : d ∈ pending ++ unlinked) : d ∉ refs := by
  obtain ⟨dev, hdev, zero⟩ := h.dying d hd
  have count := h.count d dev hdev
  rw [zero] at count
  exact List.count_eq_zero.1 (Int.natCast_eq_zero.1 count.symm)

/-- A change of the count of one device, which keeps its number. -/
theorem update_eq_some {heap : DeviceId → Option (Device κ)} {x : DeviceId} {y : Device κ}
    (h : Function.update heap d (some dev) x = some y) : x = d ∧ y = dev ∨ x ≠ d ∧ heap x = some y := by
  by_cases same : x = d
  · rw [same, Function.update_self] at h
    cases h
    exact .inl ⟨same, rfl⟩
  · rw [Function.update_of_ne same] at h
    exact .inr ⟨same, h⟩

theorem exists_update (h : ∃ y, heap d = some y) (x : DeviceId) :
    ∃ y, Function.update heap x (some dev) d = some y := by
  by_cases same : d = x
  · exact ⟨dev, by rw [same, Function.update_self]⟩
  · rwa [Function.update_of_ne same]

theorem Books.ne_of_dying (h : Books heap devlist next refs pending unlinked)
    (hd : heap d = some dev) (live : dev.refCount ≠ 0) {x : DeviceId}
    (hx : x ∈ pending ++ unlinked) : x ≠ d := by
  rintro rfl
  obtain ⟨dev', hdev', zero⟩ := h.dying x hx
  cases hd.symm.trans hdev'
  exact live zero

/-- The count of a device that is not dying changes with the references to it. -/
theorem Books.store (h : Books heap devlist next refs pending unlinked) (hd : heap d = some dev)
    (live : dev.refCount ≠ 0) {dev' : Device κ} (count : dev'.refCount = refs'.count d)
    (others : ∀ x, x ≠ d → refs'.count x = refs.count x)
    (hp : if dev'.refCount = 0 then pending' = d :: pending else pending' = pending) :
    Books (Function.update heap d (some dev')) devlist next refs' pending' unlinked := by
  have dying : ∀ x ∈ pending ++ unlinked, ∃ y, Function.update heap d (some dev') x = some y ∧
      y.refCount = 0 := by
    intro x hx
    rw [Function.update_of_ne (h.ne_of_dying hd live hx)]
    exact h.dying x hx
  refine ⟨?_, ?_, ?_, ?_, ?_, h.distinct, h.gone, ?_, ?_⟩
  · intro x y hx
    rcases update_eq_some hx with ⟨rfl, rfl⟩ | ⟨other, hx⟩
    · exact count
    · rw [h.count x y hx, others x other]
  · intro x hx
    by_cases same : x = d
    · exact ⟨dev', by rw [same, Function.update_self]⟩
    · refine exists_update (h.alive x ?_) d
      rw [← List.count_pos_iff, ← others x same]
      exact List.count_pos_iff.2 hx
  · split at hp
    case isTrue zero =>
      intro x hx
      rw [hp, List.cons_append] at hx
      rcases List.mem_cons.1 hx with rfl | hx
      · exact ⟨dev', Function.update_self .., zero⟩
      · exact dying x hx
    case isFalse => exact hp ▸ dying
  · split at hp
    case isTrue =>
      rw [hp, List.cons_append]
      exact List.nodup_cons.2 ⟨fun hx => h.ne_of_dying hd live hx rfl, h.once⟩
    case isFalse => exact hp ▸ h.once
  · intro x hx
    exact exists_update (h.linked x hx) d
  · intro x hx y hy zero
    rcases update_eq_some hy with ⟨rfl, rfl⟩ | ⟨other, hy⟩
    · rw [if_pos zero] at hp
      exact hp ▸ List.mem_cons_self ..
    · have old := h.last x hx y hy zero
      split at hp <;> rw [hp]
      · exact List.mem_cons_of_mem _ old
      · exact old
  · intro x hx
    have other : x ≠ d := by
      rintro rfl
      cases hd.symm.trans (h.fresh x hx)
    rw [Function.update_of_ne other]
    exact h.fresh x hx

theorem Books.ref (h : Books heap devlist next refs pending unlinked) (hd : heap d = some dev)
    (live : dev.refCount ≠ 0) :
    Books (Function.update heap d (some { dev with refCount := dev.refCount + 1 })) devlist next
      (d :: refs) pending unlinked := by
  have count := h.count d dev hd
  refine h.store hd live ?_ (fun x other => List.count_cons_of_ne other.symm) ?_
  · rw [List.count_cons_self]
    simp [count]
  · rw [if_neg]
    dsimp only
    omega

/-- The decrement, and with it the test. -/
theorem Books.unref (h : Books heap devlist next (d :: refs) pending unlinked)
    (hd : heap d = some dev) :
    Books (Function.update heap d (some { dev with refCount := dev.refCount - 1 })) devlist next
      refs (if dev.refCount - 1 = 0 then d :: pending else pending) unlinked := by
  have count := h.count d dev hd
  rw [List.count_cons_self] at count
  refine h.store hd (by omega) ?_ (fun x other => (List.count_cons_of_ne other.symm).symm) ?_
  · dsimp only
    omega
  · dsimp only
    split <;> rfl

theorem Books.finalize (h : Books heap devlist next refs (d :: pending) unlinked) :
    Books heap (devlist.erase d) next refs pending (d :: unlinked) where
  count := h.count
  alive := h.alive
  dying x hx := h.dying x (List.perm_middle.mem_iff.1 hx)
  once := List.perm_middle.nodup_iff.2 h.once
  linked x hx := h.linked x (List.mem_of_mem_erase hx)
  distinct := h.distinct.erase d
  gone x hx := by
    rcases List.mem_cons.1 hx with rfl | hx
    · exact h.distinct.not_mem_erase
    · exact fun held => h.gone x hx (List.mem_of_mem_erase held)
  last x hx y hy zero := by
    obtain ⟨other, hx⟩ := h.distinct.mem_erase_iff.1 hx
    exact (List.mem_cons.1 (h.last x hx y hy zero)).resolve_left other
  fresh := h.fresh

/-- What is freed was neither linked nor anybody's. -/
theorem Books.free (h : Books heap devlist next refs pending (d :: unlinked)) :
    Books (Function.update heap d none) devlist next refs pending unlinked := by
  have mine : d ∈ pending ++ d :: unlinked := by simp
  have free := h.notMem_refs mine
  have others : ∀ x ∈ pending ++ unlinked, x ≠ d := by
    intro x hx
    have once := List.perm_middle.nodup_iff.1 h.once
    rintro rfl
    exact (List.nodup_cons.1 once).1 hx
  have kept {x : DeviceId} {y : Device κ} (hx : Function.update heap d none x = some y) :
      heap x = some y := by
    by_cases same : x = d
    · rw [same, Function.update_self] at hx
      cases hx
    · rwa [Function.update_of_ne same] at hx
  refine ⟨fun x y hx => h.count x y (kept hx), ?_, ?_, ?_, ?_, h.distinct,
    fun x hx => h.gone x (List.mem_cons_of_mem _ hx), fun x hx y hy => h.last x hx y (kept hy), ?_⟩
  · intro x hx
    rw [Function.update_of_ne fun same : x = d => free (same ▸ hx)]
    exact h.alive x hx
  · intro x hx
    rw [Function.update_of_ne (others x hx)]
    exact h.dying x (List.perm_middle.mem_iff.2 (List.mem_cons_of_mem _ hx))
  · exact (List.nodup_cons.1 (List.perm_middle.nodup_iff.1 h.once)).2
  · intro x hx
    rw [Function.update_of_ne fun same : x = d => h.gone d (List.mem_cons_self ..) (same ▸ hx)]
    exact h.linked x hx
  · intro x hx
    by_cases same : x = d
    · rw [same, Function.update_self]
    · rw [Function.update_of_ne same]
      exact h.fresh x hx

theorem Books.insert (h : Books heap devlist next refs pending unlinked) (number : κ) :
    Books (Function.update heap next (some { refCount := 1, number })) (devlist ++ [next]) (next + 1)
      (next :: refs) pending unlinked := by
  have new {x : DeviceId} (hx : ∃ y, heap x = some y) : x ≠ next := by
    rintro rfl
    obtain ⟨y, hy⟩ := hx
    cases hy.symm.trans (h.fresh x (Nat.le_refl x))
  have newDying {x : DeviceId} (hx : x ∈ pending ++ unlinked) : x ≠ next := by
    obtain ⟨y, hy, -⟩ := h.dying x hx
    exact new ⟨y, hy⟩
  refine ⟨?_, ?_, ?_, h.once, ?_, ?_, ?_, ?_, ?_⟩
  · intro x y hx
    rcases update_eq_some hx with ⟨rfl, rfl⟩ | ⟨other, hx⟩
    · have none : refs.count x = 0 := List.count_eq_zero.2 fun hx => new (h.alive x hx) rfl
      rw [List.count_cons_self, none]
      rfl
    · rw [List.count_cons_of_ne other.symm, h.count x y hx]
  · intro x hx
    rcases List.mem_cons.1 hx with rfl | hx
    · exact ⟨_, Function.update_self ..⟩
    · exact exists_update (h.alive x hx) next
  · intro x hx
    rw [Function.update_of_ne (newDying hx)]
    exact h.dying x hx
  · intro x hx
    rcases List.mem_append.1 hx with hx | hx
    · exact exists_update (h.linked x hx) next
    · rw [List.mem_singleton.1 hx]
      exact ⟨_, Function.update_self ..⟩
  · rw [List.nodup_append_comm]
    exact List.nodup_cons.2 ⟨fun hx => new (h.linked next hx) rfl, h.distinct⟩
  · intro x hx held
    rcases List.mem_append.1 held with held | held
    · exact h.gone x hx held
    · exact newDying (List.mem_append_right _ hx) (List.mem_singleton.1 held)
  · intro x hx y hy zero
    rcases update_eq_some hy with ⟨rfl, rfl⟩ | ⟨other, hy⟩
    · cases zero
    · rcases List.mem_append.1 hx with hx | hx
      · exact h.last x hx y hy zero
      · exact absurd (List.mem_singleton.1 hx) other
  · intro x hx
    rw [Function.update_of_ne (Nat.ne_of_gt hx)]
    exact h.fresh x (Nat.le_of_succ_le hx)

theorem Books.skip (h : Books heap devlist next refs pending unlinked) :
    Books heap devlist (next + 1) refs pending unlinked :=
  { h with fresh := fun x hx => h.fresh x (Nat.le_of_succ_le hx) }

end

/-! ## The threads -/

namespace Thread

/-- The references that a thread holds. -/
def held : Thread → List DeviceId
  | .listing devlist _ => devlist
  | .unref ds | .finalize _ ds | .free _ ds => ds

def pending : Thread → List DeviceId
  | .finalize d _ => [d]
  | _ => []

def unlinked : Thread → List DeviceId
  | .free d _ => [d]
  | _ => []

end Thread

/-- The books of the threads and of `others`, the references of the client. -/
def Kept {κ : Type} (heap : DeviceId → Option (Device κ)) (devlist : List DeviceId)
    (next : DeviceId) (threads : List Thread) (others : List DeviceId) : Prop :=
  Books heap devlist next (threads.flatMap Thread.held ++ others) (threads.flatMap Thread.pending)
    (threads.flatMap Thread.unlinked)

def State.Balanced {κ : Type} (s : State κ) : Prop :=
  Kept s.heap s.devlist s.next s.threads (s.lists.flatten ++ s.refs)

section
variable {α β κ : Type} {heap : DeviceId → Option (Device κ)} {devlist others : List DeviceId}
  {next : DeviceId} {threads : List Thread} {t : Thread} {i : Nat}

theorem flatMap_set {xs : List α} {x : α} (h : xs[i]? = some x) (f : α → List β) :
    ∃ rest, (xs.flatMap f).Perm (f x ++ rest) ∧
      ∀ y, ((xs.set i y).flatMap f).Perm (f y ++ rest) := by
  induction xs generalizing i with
  | nil => cases h
  | cons first xs ih =>
    cases i with
    | zero =>
      cases h
      exact ⟨xs.flatMap f, .refl _, fun y => .refl _⟩
    | succ i =>
      obtain ⟨rest, before, after⟩ := ih h
      refine ⟨f first ++ rest, ?_, fun y => ?_⟩
      · exact (before.append_left _).trans (List.perm_append_comm_assoc ..)
      · exact ((after y).append_left _).trans (List.perm_append_comm_assoc ..)

/-- The new entry at the end of a list. -/
theorem perm_listed (d : DeviceId) (ds rest : List DeviceId) :
    (d :: (ds ++ rest)).Perm ((ds ++ [d]) ++ rest) := by
  rw [List.append_assoc]
  exact List.perm_middle.symm

/-- The books from the view of one thread, which may become another one. -/
theorem Kept.thread (h : Kept heap devlist next threads others) (hi : threads[i]? = some t) :
    ∃ held pending unlinked,
      Books heap devlist next (t.held ++ (held ++ others)) (t.pending ++ pending)
        (t.unlinked ++ unlinked) ∧
      ∀ (heap' : DeviceId → Option (Device κ)) devlist' next' others' (t' : Thread),
        Books heap' devlist' next' (t'.held ++ (held ++ others')) (t'.pending ++ pending)
          (t'.unlinked ++ unlinked) → Kept heap' devlist' next' (threads.set i t') others' := by
  obtain ⟨held, held₁, held₂⟩ := flatMap_set hi Thread.held
  obtain ⟨pending, pending₁, pending₂⟩ := flatMap_set hi Thread.pending
  obtain ⟨unlinked, unlinked₁, unlinked₂⟩ := flatMap_set hi Thread.unlinked
  refine ⟨held, pending, unlinked, ?_, fun heap' devlist' next' others' t' books => ?_⟩
  · rw [← List.append_assoc]
    exact Books.perm h (held₁.append_right others) pending₁ unlinked₁
  · rw [← List.append_assoc] at books
    exact books.perm ((held₂ t').symm.append_right others') (pending₂ t').symm (unlinked₂ t').symm

/-- A thread more, which takes over references. -/
theorem Kept.spawn {others' : List DeviceId} (h : Kept heap devlist next threads others)
    (hp : t.pending = []) (hu : t.unlinked = []) (hds : others.Perm (t.held ++ others')) :
    Kept heap devlist next (threads ++ [t]) others' := by
  have moved : (threads.flatMap Thread.held ++ others).Perm
      ((threads ++ [t]).flatMap Thread.held ++ others') := by
    rw [List.flatMap_append, List.flatMap_singleton, List.append_assoc]
    exact hds.append_left _
  refine Books.perm h moved ?_ ?_ <;> simp [hp, hu]

theorem perm_eraseIdx {lists : List (List β)} {l : List β} {k : Nat} (h : lists[k]? = some l) :
    lists.flatten.Perm (l ++ (lists.eraseIdx k).flatten) := by
  induction lists generalizing k with
  | nil => cases h
  | cons first lists ih =>
    cases k with
    | zero =>
      cases h
      exact .refl _
    | succ k =>
      rw [List.eraseIdx_cons_succ, List.flatten_cons, List.flatten_cons]
      exact ((ih h).append_left first).trans (List.perm_append_comm_assoc ..)

end

section
variable {κ : Type} {backend : Backend} {s t : State κ} {e : Op κ} {i : Nat}
  {devlist : List DeviceId} {d : DeviceId} {number : κ} {outcome : Outcome}

theorem visitKnown_balanced (h : s.Balanced) (hi : s.threads[i]? = some (.listing devlist false))
    (live : outcome = .success → ∀ dev, s.heap d = some dev → dev.refCount ≠ 0)
    (hs : visitKnown s i devlist d outcome = some t) : t.Balanced := by
  obtain ⟨held, pending, unlinked, books, close⟩ := Kept.thread h hi
  cases outcome with
  | success =>
    obtain ⟨dev, hdev, hs⟩ := Option.bind_eq_some_iff.1 hs
    cases hs
    apply close _ _ _ _ (.listing (devlist ++ [d]) false)
    have listed := books.ref hdev (live rfl dev hdev)
    exact listed.perm (perm_listed ..) (.refl _) (.refl _)
  | unreadable => cases hs
  | noMem =>
    cases hs
    exact close _ _ _ _ (.unref devlist) books

theorem visitNew_balanced (h : s.Balanced) (hi : s.threads[i]? = some (.listing devlist false)) :
    (visitNew backend s i devlist number outcome).Balanced := by
  obtain ⟨held, pending, unlinked, books, close⟩ := Kept.thread h hi
  have inserted := books.insert number
  cases outcome with
  | success =>
    apply close _ _ _ _ (.listing (devlist ++ [s.next]) false)
    exact inserted.perm (perm_listed ..) (.refl _) (.refl _)
  | unreadable | noMem =>
    cases backend with
    | linux => exact close _ _ _ _ (.listing devlist _) books.skip
    | windows => exact close _ _ _ _ (.unref (s.next :: devlist)) inserted

/-- The decrement and what follows from the test. -/
theorem unref_balanced {ds : List DeviceId} {dev : Device κ} (h : s.Balanced)
    (hi : s.threads[i]? = some (.unref (d :: ds))) (hd : s.heap d = some dev) :
    ((s.store d { dev with refCount := dev.refCount - 1 }).goTo i
      (if dev.refCount - 1 = 0 then .finalize d ds else .unref ds)).Balanced := by
  obtain ⟨held, pending, unlinked, books, close⟩ := Kept.thread h hi
  have released := Books.unref books hd
  apply close
  split
  case isTrue zero =>
    rw [if_pos zero] at released
    exact released
  case isFalse positive =>
    rw [if_neg positive] at released
    exact released

/-- A client that has a reference has one to a device that is alive. -/
theorem State.Balanced.live (h : s.Balanced) (mine : d ∈ s.lists.flatten ++ s.refs) {dev : Device κ}
    (hd : s.heap d = some dev) : dev.refCount ≠ 0 := by
  have counted := h.count d dev hd
  have := List.count_pos_iff.2 (List.mem_append_right (s.threads.flatMap Thread.held) mine)
  omega

/-- The array goes from the thread to the client. -/
theorem listed_balanced {failed : Bool} (h : s.Balanced)
    (hi : s.threads[i]? = some (.listing devlist failed)) :
    ({ s with lists := devlist :: s.lists }.goTo i (.unref [])).Balanced := by
  obtain ⟨held, pending, unlinked, books, close⟩ := Kept.thread h hi
  apply close _ _ _ ((devlist :: s.lists).flatten ++ s.refs) (.unref [])
  refine books.perm ?_ (.refl _) (.refl _)
  rw [List.flatten_cons, List.append_assoc]
  exact List.perm_append_comm_assoc ..

theorem refDevice_balanced {dev : Device κ} (h : s.Balanced) (mine : d ∈ s.lists.flatten ++ s.refs)
    (hd : s.heap d = some dev) :
    ({ s with refs := d :: s.refs }.store d { dev with refCount := dev.refCount + 1 }).Balanced := by
  refine (Books.ref h hd (h.live mine hd)).perm ?_ (.refl _) (.refl _)
  rw [← List.append_assoc, ← List.append_assoc]
  exact List.perm_middle.symm

/-- The entries of the array become the thread's that gives them back, or the client's own. -/
theorem freeDeviceList_balanced {k : Nat} {l : List DeviceId} (h : s.Balanced)
    (hl : s.lists[k]? = some l) :
    State.Balanced { s with
      lists := s.lists.eraseIdx k, threads := s.threads ++ [.unref l] } ∧
    State.Balanced { s with lists := s.lists.eraseIdx k, refs := l ++ s.refs } := by
  have taken := (perm_eraseIdx hl).append_right s.refs
  rw [List.append_assoc] at taken
  constructor
  · exact Kept.spawn h rfl rfl taken
  · refine Books.perm h ((taken.trans ?_).append_left _) (.refl _) (.refl _)
    exact List.perm_append_comm_assoc ..

theorem step_balanced [DecidableEq κ] (h : s.Balanced) (hc : ¬ Resurrects s e)
    (hs : step backend s e = some t) : t.Balanced := by
  cases e with
  | getDeviceList =>
    cases hs
    exact Kept.spawn h rfl rfl (.refl _)
  | visit i number outcome =>
    simp only [step] at hs
    split at hs
    case h_2 => cases hs
    case h_1 devlist hi =>
      obtain ⟨found, hfound, hs⟩ := Option.bind_eq_some_iff.1 hs
      cases found with
      | none =>
        cases hs
        exact visitNew_balanced h hi
      | some d =>
        refine visitKnown_balanced h hi (fun success dev hdev zero => hc ?_) hs
        subst success
        exact ⟨d, dev, hfound, hdev, zero⟩
  | listed i =>
    simp only [step] at hs
    split at hs
    case h_2 => cases hs
    case h_1 devlist failed hi =>
      cases hs
      exact listed_balanced h hi
  | refDevice d =>
    obtain ⟨dev, hdev, hs⟩ := Option.bind_eq_some_iff.1 hs
    split at hs
    case isFalse => cases hs
    case isTrue mine =>
      cases hs
      refine refDevice_balanced h ?_ hdev
      rcases mine with mine | ⟨l, hl, mine⟩
      · exact List.mem_append_right _ mine
      · exact List.mem_append_left _ (List.mem_flatten.2 ⟨l, hl, mine⟩)
  | unrefDevice d =>
    simp only [step] at hs
    split at hs
    case isFalse => cases hs
    case isTrue mine =>
      cases hs
      apply Kept.spawn h rfl rfl
      have taken := (List.perm_cons_erase mine).append_left s.lists.flatten
      exact taken.trans List.perm_middle
  | freeDeviceList k unrefDevices =>
    obtain ⟨l, hl, hs⟩ := Option.bind_eq_some_iff.1 hs
    obtain ⟨released, kept⟩ := freeDeviceList_balanced h hl
    cases unrefDevices with
    | true =>
      cases hs
      exact released
    | false =>
      cases hs
      exact kept
  | unref i =>
    simp only [step] at hs
    split at hs
    case h_2 => cases hs
    case h_1 d ds hi =>
      obtain ⟨dev, hdev, hs⟩ := Option.bind_eq_some_iff.1 hs
      have kept := unref_balanced h hi hdev
      split at hs
      case isTrue zero =>
        rw [if_pos zero] at kept
        cases hs
        exact kept
      case isFalse positive =>
        rw [if_neg positive] at kept
        cases hs
        exact kept
  | finalize i =>
    simp only [step] at hs
    split at hs
    case h_2 => cases hs
    case h_1 d ds hi =>
      obtain ⟨dev, hdev, hs⟩ := Option.bind_eq_some_iff.1 hs
      cases hs
      obtain ⟨held, pending, unlinked, books, close⟩ := Kept.thread h hi
      exact close _ _ _ _ (.free d ds) books.finalize
  | free i =>
    simp only [step] at hs
    split at hs
    case h_2 => cases hs
    case h_1 d ds hi =>
      obtain ⟨dev, hdev, hs⟩ := Option.bind_eq_some_iff.1 hs
      cases hs
      obtain ⟨held, pending, unlinked, books, close⟩ := Kept.thread h hi
      exact close _ _ _ _ (.unref ds) books.free

theorem State.Balanced.entriesAlive (h : s.Balanced) : EntriesAlive s := by
  intro d hd
  have building (t : Thread) (ht : d ∈ t.building) : d ∈ t.held := by
    cases t with
    | listing => exact ht
    | unref | finalize | free => cases ht
  have mine : d ∈ s.threads.flatMap Thread.held ++ (s.lists.flatten ++ s.refs) := by
    rcases List.mem_append.1 hd with hd | hd
    · obtain ⟨t, ht, hd⟩ := List.mem_flatMap.1 hd
      exact List.mem_append_left _ (List.mem_flatMap.2 ⟨t, ht, building t hd⟩)
    · exact List.mem_append_right _ (List.mem_append_left _ hd)
  obtain ⟨dev, hdev⟩ := h.alive d mine
  rw [hdev]
  rfl

theorem balanced_init : ({} : State κ).Balanced where
  count _ _ hd := by cases hd
  alive _ hd := by cases hd
  dying _ hd := by cases hd
  once := .nil
  linked _ hd := by cases hd
  distinct := .nil
  gone _ hd := by cases hd
  last _ hd := by cases hd
  fresh _ _ := rfl

variable [DecidableEq κ]

theorem mem_of_search {heap : DeviceId → Option (Device κ)} {ds : List DeviceId}
    (h : search heap number ds = some (some d)) : d ∈ ds := by
  induction ds with
  | nil => cases h
  | cons x ds ih =>
    obtain ⟨dev, -, h⟩ := Option.bind_eq_some_iff.1 h
    split at h
    case isTrue =>
      cases h
      exact List.mem_cons_self ..
    case isFalse => exact List.mem_cons_of_mem _ (ih h)

/-- A thread that finalizes a device frees it, whoever lists it. -/
theorem finalize_frees {j : Nat} {ds : List DeviceId} {failed : Bool} {dev : Device κ}
    (hi : s.threads[i]? = some (.listing devlist failed)) (hd : d ∈ devlist)
    (hj : s.threads[j]? = some (.finalize d ds)) (hdev : s.heap d = some dev) :
    ¬ (machine backend).Always EntriesAlive s [.finalize j, .free j] := by
  intro always
  have size := (List.getElem?_eq_some_iff.1 hj).1
  have other : j ≠ i := by
    rintro rfl
    cases hi.symm.trans hj
  let u : State κ := { s with devlist := s.devlist.erase d }.goTo j (.free d ds)
  let v : State κ := { u with heap := Function.update u.heap d none }.goTo j (.unref ds)
  have hu : step backend s (.finalize j) = some u := by
    simp only [step, hj, hdev, u]
    rfl
  have here : u.threads[j]? = some (.free d ds) := List.getElem?_set_self size
  have hv : step backend u (.free j) = some v := by
    have still : u.heap d = some dev := hdev
    simp only [step, here, still, v]
    rfl
  have there : v.threads[i]? = some (.listing devlist failed) := by
    simp only [v, u, State.goTo]
    rw [List.getElem?_set_ne other, List.getElem?_set_ne other, hi]
  have entry : d ∈ v.entries :=
    List.mem_append_left _ (List.mem_flatMap.2 ⟨_, List.mem_of_getElem? there, hd⟩)
  have alive := (always.2 u hu).2 v hv d entry
  have freed : v.heap d = none := Function.update_self ..
  rw [freed] at alive
  cases alive

/-- The thread that took the count to 0 goes on and frees the entry. -/
theorem resurrected_freed (h : s.Balanced) (hr : Resurrects s e) (hs : step backend s e = some t) :
    ∃ ops, ¬ (machine backend).Always EntriesAlive t ops := by
  cases e with
  | visit i number outcome =>
    cases outcome with
    | success =>
      obtain ⟨d, dev, hfound, hdev, zero⟩ := hr
      obtain ⟨thread, hthread, hd⟩ :=
        List.mem_flatMap.1 (h.last d (mem_of_search hfound) dev hdev zero)
      obtain ⟨j, hj⟩ := List.mem_iff_getElem?.1 hthread
      simp only [step] at hs
      split at hs
      case h_2 => cases hs
      case h_1 devlist hi =>
        obtain ⟨found, same, hs⟩ := Option.bind_eq_some_iff.1 hs
        cases hfound.symm.trans same
        obtain ⟨dev', same, hs⟩ := Option.bind_eq_some_iff.1 hs
        cases hdev.symm.trans same
        cases hs
        have size := (List.getElem?_eq_some_iff.1 hi).1
        cases thread with
        | finalize x ds =>
          cases List.mem_singleton.1 hd
          have other : i ≠ j := by
            rintro rfl
            cases hi.symm.trans hj
          have there : (s.threads.set i (.listing (devlist ++ [d]) false))[j]? =
              some (.finalize d ds) := by rw [List.getElem?_set_ne other, hj]
          exact ⟨[.finalize j, .free j], finalize_frees (List.getElem?_set_self size)
            (List.mem_append_right _ (List.mem_singleton_self d)) there (Function.update_self ..)⟩
        | listing | unref | free => cases hd
    | unreadable | noMem => cases hr
  | _ => cases hr

end

section
variable {κ : Type} [DecidableEq κ]

/-- As long as no enumeration lists a device whose count has reached 0, no entry of a list
is freed; and whenever one does, the run can go on so that the entry is freed. -/
theorem entries_alive (backend : Backend) (ops : List (Op κ))
    (h : (machine backend).Steps (fun s e _ => ¬ Resurrects s e) {} ops) :
    (machine backend).Always EntriesAlive {} ops ∧
      ∀ s e t, (machine backend).exec {} ops = some s → Resurrects s e →
        step backend s e = some t → ∃ more, ¬ (machine backend).Always EntriesAlive t more := by
  have balanced := (Machine.Steps.invariant (I := fun s : State κ => s.Balanced)
    (Q := fun _ _ _ => True) (fun s e t hs hc ht => ⟨step_balanced hs hc ht, trivial⟩) h
    balanced_init).1
  refine ⟨balanced.mono fun s hs => hs.entriesAlive, ?_⟩
  intro s e t hrun hr hs
  exact resurrected_freed (balanced.exec hrun) hr hs

end

/-- A device is enumerated, and freed with the list it is in. -/
def released : List (Op Int) :=
  [.getDeviceList, .visit 0 1 .success, .listed 0, .freeDeviceList 0 true, .unref 1, .finalize 1,
    .free 1]

theorem entries_alive_released :
    ((machine .windows).exec {} released).isSome = true ∧
      (machine .windows).Always EntriesAlive {} released := by
  refine ⟨by decide, (entries_alive .windows released ?_).1⟩
  refine .cons rfl id (.cons rfl ?_ ?_)
  · rintro ⟨d, dev, ⟨⟩, -⟩
  · exact .cons rfl id (.cons rfl id (.cons rfl id (.cons rfl id (.cons rfl id trivial))))

/-- A second enumeration finds the device between the decrement and the unlinking. -/
def resurrected {κ : Type} (number : κ) : List (Op κ) :=
  [.getDeviceList, .visit 0 number .success, .listed 0, .freeDeviceList 0 true, .unref 1,
    .getDeviceList, .visit 2 number .success, .finalize 1, .free 1]

instance {κ : Type} (s : State κ) : Decidable (EntriesAlive s) :=
  inferInstanceAs (Decidable (∀ d ∈ s.entries, _))

theorem entries_alive_fails :
    ¬ (machine .linux).Always EntriesAlive {} (resurrected ((1, 1) : Int × Int)) ∧
      ¬ (machine .windows).Always EntriesAlive {} (resurrected (1 : Int)) := by
  constructor <;> intro always
  · have dead : ((machine .linux).exec {} (resurrected ((1, 1) : Int × Int))).map
        (fun s => decide (EntriesAlive s)) = some false := by decide
    obtain ⟨s, hs, freed⟩ := Option.map_eq_some_iff.1 dead
    exact of_decide_eq_false freed (always.exec hs)
  · have dead : ((machine .windows).exec {} (resurrected (1 : Int))).map
        (fun s => decide (EntriesAlive s)) = some false := by decide
    obtain ⟨s, hs, freed⟩ := Option.map_eq_some_iff.1 dead
    exact of_decide_eq_false freed (always.exec hs)

end Libusby.Core.Lifetime
