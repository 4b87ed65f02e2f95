import Mathlib.Data.List.Nodup
import Libusby.Linux.EventLoop.Conservation
import Libusby.Linux.EventLoop.ReapLoop

/-!
# What the table of watched descriptors holds

No count is ever positive, so no record is ever removed or moved: the table holds every
descriptor that a submission ever went to, in the order of the first submissions, and each
count is minus the number of times that it was given up. That is also why the position at
which the loop gives up a count, which it took from an older table, is still the right one.
-/

namespace Libusby.Linux.EventLoop

open Foundations WatchTable

variable {s s' : Sys} {e : Event} {th : Tid} {t : TranId} {k : Nat} {es : List Event}
  {d : Round} {fds gone : List Int}

namespace Sys

/-- The descriptor of a submission that reaches the table. -/
def tables (s : Sys) (e : Event) : List Int :=
  match s.submission e with
  | some (t, _) => if (s.trans t).pub.type = .isochronous then [] else [s.tranFd t]
  | none => []

/-- The descriptor for which a count is given up: that of a rejected submission, or of a URB
that the loop is finished with. -/
def releases (s : Sys) : Event → List Int
  | .submit t c => if c.rejected = none then [] else s.tables (.submit t c)
  | .bulkSubmit th c => if c.rejected = none then [] else s.tables (.bulkSubmit th c)
  | .lockReaped th =>
    ((s.urbs.find? fun u => s.skipsCallback u.id (.lockReaped th)).map (·.fd)).toList
  | .callbackReturn th =>
    ((s.urbs.find? fun u => s.callbackReturns u.id (.callbackReturn th)).map (·.fd)).toList
  | _ => []

end Sys

/-- The descriptors of the submissions of a run that reached the table, in their order. -/
def tabled (es : List Event) : List Int := eventLoop.log Sys.tables .initial es

/-- The descriptors of the rejected submissions and of the finished URBs of a run. -/
def released (es : List Event) : List Int := eventLoop.log Sys.releases .initial es

/-- In the run no descriptor is given up more often than an `int` counts down from 0. -/
def CountsFit (es : List Event) : Prop := ∀ fd, (released es).count fd ≤ 2147483648

/-- The descriptors that a call polls or reaps. -/
def Pc.polled : Pc → Option (List Int)
  | .polling _ fds => some fds
  | .reaping d | .reaped d _ _ | .inCallback d _ _ => some d.pollfds
  | _ => none

/-- The round and the URB that a call works on. -/
def Pc.round : Pc → Option (Round × Nat)
  | .reaped d k _ | .inCallback d k _ => some (d, k)
  | _ => none

/-- The table holds the descriptors of `fds` and has given up the counts of `gone`. -/
structure Holds (table : WatchTable) (fds gone : List Int) : Prop where
  fds : table.live.map (·.fd) = fds.eraseDups
  counts : ∀ w ∈ table.live, w.refcount = -(gone.count w.fd : Int)
  known : ∀ fd ∈ gone, fd ∈ table.live.map (·.fd)

theorem eraseDups_concat (fds : List Int) (fd : Int) : (fds ++ [fd]).eraseDups =
    if fd ∈ fds then fds.eraseDups else fds.eraseDups ++ [fd] := by
  rw [List.eraseDups_append]
  split_ifs with known
  · simp [List.removeAll, known]
  · simp only [List.removeAll, List.filter_singleton, List.elem_eq_mem, known, decide_false,
      Bool.not_false]
    rfl

theorem nodup_eraseDups (fds : List Int) : fds.eraseDups.Nodup := by
  induction fds using List.reverseRecOn with
  | nil => exact List.nodup_nil
  | append_singleton fds fd ih =>
    rw [eraseDups_concat]
    split_ifs with known
    · exact ih
    · rw [← List.concat_eq_append]
      exact List.Nodup.concat (mt List.mem_eraseDups.1 known) ih

namespace Holds

variable {table table' : WatchTable} {fd : Int} {ok : Bool} {i : Nat} {w : WatchedFd}

theorem empty : Holds .empty [] [] := ⟨rfl, nofun, nofun⟩

theorem nodup (h : Holds table fds gone) : (table.live.map (·.fd)).Nodup :=
  h.fds ▸ nodup_eraseDups fds

/-- The search and the growth. -/
theorem watch (h : Holds table fds gone) (hw : table.watch fd ok = some (table', i)) :
    Holds table' (fds ++ [fd]) gone := by
  have mem {g : Int} : g ∈ table.live.map (·.fd) ↔ g ∈ fds := by rw [h.fds, List.mem_eraseDups]
  rcases watch_append hw with rfl | ⟨live, new⟩
  · obtain ⟨⟨w, hi, hfd⟩, -⟩ := watch_spec hw
    have known : fd ∈ fds := mem.1 (List.mem_map.2 ⟨w, List.mem_of_getElem? hi, hfd⟩)
    exact ⟨by rw [h.fds, eraseDups_concat, if_pos known], h.counts, h.known⟩
  · have unknown : fd ∉ fds := fun known => by
      obtain ⟨w, hw, hfd⟩ := List.mem_map.1 (mem.2 known)
      exact new w hw hfd
    refine ⟨?_, fun w hw => ?_, fun g hg => ?_⟩
    · rw [live, List.map_append, h.fds, eraseDups_concat, if_neg unknown]
      rfl
    · rw [live, List.mem_append, List.mem_singleton] at hw
      rcases hw with hw | rfl
      · exact h.counts w hw
      · have none : gone.count fd = 0 :=
          List.count_eq_zero.2 fun hg => unknown (mem.1 (h.known fd hg))
        rw [none]
        rfl
    · rw [live, List.map_append]
      exact List.mem_append_left _ (h.known g hg)

/-- A count is given up, at a position of the table. -/
theorem release (h : Holds table fds gone) (hw : table.live[i]? = some w)
    (hu : usbfsUnwatchFd table i = some table') : Holds table' fds (gone ++ [w.fd]) := by
  have count := h.counts w (List.mem_of_getElem? hw)
  obtain ⟨one, -⟩ | ⟨-, live⟩ := unwatch_live hu hw
  · omega
  obtain ⟨hi, hget⟩ := List.getElem?_eq_some_iff.1 hw
  have same : table'.live.map (·.fd) = table.live.map (·.fd) := by
    have inside : i < (table.live.map (·.fd)).length := by simpa using hi
    have cell : (table.live.map (·.fd))[i] = w.fd := by simp [hget]
    rw [live, List.map_set, ← cell, List.set_getElem_self]
  refine ⟨by rw [same, h.fds], fun v hv => ?_, fun g hg => ?_⟩
  · obtain ⟨j, hj⟩ := List.mem_iff_getElem?.1 hv
    rw [live] at hj
    by_cases here : i = j
    · subst here
      rw [List.getElem?_set_self hi] at hj
      cases hj
      simp only [List.count_append, List.count_singleton_self, count]
      omega
    · rw [List.getElem?_set_ne here] at hj
      have other : v.fd ≠ w.fd := by
        intro equal
        refine here ((List.getElem?_inj (by simpa using hi) h.nodup).1 ?_)
        rw [List.getElem?_map, List.getElem?_map, hw, hj, Option.map_some, Option.map_some, equal]
      rw [List.count_append, List.count_singleton, h.counts v (List.mem_of_getElem? hj)]
      simp [Ne.symm other]
  · rw [same]
    rcases List.mem_append.1 hg with hg | hg
    · exact h.known g hg
    · rw [List.mem_singleton.1 hg]
      exact List.mem_map_of_mem (List.mem_of_getElem? hw)

end Holds

/-- A call polls descriptors that were the table once, and works on a URB of the descriptor
at its position. -/
structure Rounds (s : Sys) : Prop where
  polled : ∀ th polled, (s.pc th).polled = some polled → polled <+: s.snapshot
  position : ∀ th d k, (s.pc th).round = some (d, k) →
    ∃ u ∈ s.urbs, u.id = k ∧ d.pollfds[d.i]? = some u.fd

theorem rounds_initial : Rounds .initial := by
  constructor <;> simp [Sys.initial, Pc.polled, Pc.round]

@[grind =] theorem polled_wakeCtx (p : Pc) : p.wakeCtx.polled = p.polled := by cases p <;> rfl

@[grind =] theorem polled_wakeTran (p : Pc) (t : TranId) : (p.wakeTran t).polled = p.polled := by
  cases p <;> rfl

@[grind =] theorem round_wakeCtx (p : Pc) : p.wakeCtx.round = p.round := by cases p <;> rfl

@[grind =] theorem round_wakeTran (p : Pc) (t : TranId) : (p.wakeTran t).round = p.round := by
  cases p <;> rfl

@[grind =] theorem polled_outcome (w : Waiter) (r : Error) (n : Nat) :
    (w.outcome r n).polled = none := by
  grind -linarith [Pc.polled]

@[grind =] theorem polled_exitPc (s : Sys) (r : Error) (watch : Option Waiter) :
    (exitPc s r watch).polled = none := by
  grind -linarith [Pc.polled]

@[grind =] theorem round_outcome (w : Waiter) (r : Error) (n : Nat) :
    (w.outcome r n).round = none := by
  grind -linarith [Pc.round]

@[grind =] theorem round_exitPc (s : Sys) (r : Error) (watch : Option Waiter) :
    (exitPc s r watch).round = none := by
  grind -linarith [Pc.round]

theorem Pc.urb_of_round {p : Pc} (h : p.round = some (d, k)) : ∃ t, p.urb = some (k, t) := by
  cases p <;> cases h <;> exact ⟨_, rfl⟩

/-- What a call polls is what it polled before, or the table. -/
theorem polled_step (h : step s e = some s') (th : Tid) {polled : List Int}
    (hp : (s'.pc th).polled = some polled) : (s.pc th).polled = some polled ∨ polled = s.snapshot := by
  cases step_trans h <;> grind -linarith [Pc.polled]

theorem position_step (hr : Rounds s) (hn : Numbered s) (h : step s e = some s') (th : Tid)
    (hp : (s'.pc th).round = some (d, k)) :
    ∃ u ∈ s'.urbs, u.id = k ∧ d.pollfds[d.i]? = some u.fd := by
  have position := hr.position
  have alone := hn.alone
  cases step_trans h with
  | @reap x d u st len hpc hu hfd hg =>
    have moved (v : Urb) (hv : v ∈ s.urbs) := setStage_mem (k := u.id) (g := .reaped) hv
    grind -linarith [Pc.round]
  | @complete u st len hu hg =>
    have moved (v : Urb) (hv : v ∈ s.urbs) :=
      setStage_mem (k := u.id) (g := .completed st len) hv
    grind -linarith [Pc.round]
  | @noCallback x d' j i _ hpc _ fin | @callbackReturn x d' j i _ hpc _ fin =>
    have own : (s.pc x).urb = some (j, i) := by rw [hpc]; rfl
    by_cases same : th = x
    · rw [finishUrb_pc fin, if_pos same] at hp
      cases hp
    · have before : (s.pc th).round = some (d, k) := by
        rw [finishUrb_pc fin, if_neg same] at hp
        split_ifs at hp
        · rwa [round_wakeTran] at hp
        · exact hp
      obtain ⟨u, hu, hk, hfd⟩ := position th d k before
      obtain ⟨t, working⟩ := Pc.urb_of_round before
      refine ⟨u, ?_, hk, hfd⟩
      rw [(finishUrb_urbs fin).1]
      -- a URB that another call is finished with is another URB
      have other : k ≠ j := fun equal => same (alone th x j t i (equal ▸ working) own)
      exact List.mem_filter.2 ⟨hu, by simpa [hk] using other⟩
  | _ => grind -linarith [Pc.round]

theorem Submission.holds {c : SubmitChoice} {r : Error}
    (hh : Holds s.ctx.watchedFds fds gone) (sub : Submission s t c r s') {l : List Int}
    (hl : l = if (s.trans t).pub.type = .isochronous then [] else [s.tranFd t]) :
    Holds s'.ctx.watchedFds (fds ++ l) (gone ++ if c.rejected = none then [] else l) := by
  subst hl
  cases sub with
  | unsupported htype =>
    rw [if_pos htype, List.append_nil, ite_self, List.append_nil]
    exact hh
  | @rejected errno table i table' w hk hu =>
    obtain ⟨⟨v, hv, hfd⟩, -⟩ := watch_spec w.watch
    rw [if_neg w.type_ne, if_neg (by rw [hk]; exact nofun), ← hfd]
    exact (hfd ▸ hh.watch w.watch).release hv hu
  | accepted w hk =>
    rw [if_neg w.type_ne, if_pos hk, List.append_nil]
    exact hh.watch w.watch

/-- The loop gives up a count of the descriptor of the URB that it is finished with. -/
theorem Holds.finish {j : Nat} (hh : Holds s.ctx.watchedFds fds gone) (hr : Rounds s)
    (hn : Numbered s) (polled : (s.pc th).polled = some d.pollfds)
    (working : (s.pc th).round = some (d, j)) {table : WatchTable}
    (hu : usbfsUnwatchFd s.ctx.watchedFds d.i = some table) :
    Holds table fds (gone ++ ((s.urbs.find? (·.id = j)).map (·.fd)).toList) := by
  obtain ⟨u, mem, rfl, hfd⟩ := hr.position th d j working
  have find : (s.urbs.find? (·.id = u.id)).map (·.fd) = some u.fd := by
    rw [find_id_of_mem hn mem]
    rfl
  -- the position was taken from an older table, which is the front of this one
  obtain ⟨rest, front⟩ := hr.polled th d.pollfds polled
  have cell : s.snapshot[d.i]? = some u.fd := by
    rw [← front, List.getElem?_append_left (List.getElem?_eq_some_iff.1 hfd).1, hfd]
  rw [Sys.snapshot, List.getElem?_map, Option.map_eq_some_iff] at cell
  obtain ⟨w, hw, same⟩ := cell
  rw [find, ← same]
  exact hh.release hw hu

theorem holds_step (hh : Holds s.ctx.watchedFds fds gone) (hr : Rounds s) (hn : Numbered s)
    (h : step s e = some s') :
    Holds s'.ctx.watchedFds (fds ++ s.tables e) (gone ++ s.releases e) := by
  have keep (tables : s.tables e = []) (releases : s.releases e = [])
      (table : s'.ctx.watchedFds = s.ctx.watchedFds) :
      Holds s'.ctx.watchedFds (fds ++ s.tables e) (gone ++ s.releases e) := by
    rwa [tables, releases, table, List.append_nil, List.append_nil]
  cases step_trans h with
  | submit _ sub => exact sub.holds hh rfl
  | bulkAccepted hpc sub | bulkRefused hpc sub =>
    exact sub.holds hh (by simp only [Sys.tables, submission_bulk hpc])
  | callback hpc _ set => exact keep rfl (by simp [Sys.releases, Sys.skipsCallback, hpc, set]) rfl
  | noCallback hpc _ fin =>
    have unset := unset_of_finish h hpc fin
    have finish := hh.finish hr hn (by rw [hpc]; rfl) (by rw [hpc]; rfl) (finishUrb_ctx fin).1
    simpa [Sys.tables, Sys.submission, Sys.releases, Sys.skipsCallback, hpc, unset, eq_comm]
      using finish
  | callbackReturn hpc _ fin =>
    have finish := hh.finish hr hn (by rw [hpc]; rfl) (by rw [hpc]; rfl) (finishUrb_ctx fin).1
    simpa [Sys.tables, Sys.submission, Sys.releases, Sys.callbackReturns, hpc, eq_comm] using finish
  | leaveLoop => exact keep rfl rfl (by rw [leaveLoop_ctx])
  | _ => exact keep rfl rfl rfl

theorem eraseDups_prefix (fds l : List Int) : fds.eraseDups <+: (fds ++ l).eraseDups :=
  ⟨_, List.eraseDups_append.symm⟩

theorem rounds_step (hh : Holds s.ctx.watchedFds fds gone) (hr : Rounds s) (hn : Numbered s)
    (h : step s e = some s') : Rounds s' where
  polled th polled hp := by
    have grows : s.snapshot <+: s'.snapshot := by
      have before : s.snapshot = fds.eraseDups := hh.fds
      have after : s'.snapshot = (fds ++ s.tables e).eraseDups := (holds_step hh hr hn h).fds
      rw [before, after]
      exact eraseDups_prefix fds _
    rcases polled_step h th hp with before | rfl
    · exact (hr.polled th polled before).trans grows
    · exact grows
  position th d k hp := position_step hr hn h th hp

theorem contents_run (h : eventLoop.exec .initial es = some s) :
    Holds s.ctx.watchedFds (tabled es) (released es) ∧ Rounds s := by
  refine Machine.exec_induction (motive := fun es (s : Sys) =>
    Holds s.ctx.watchedFds (tabled es) (released es) ∧ Rounds s) ⟨.empty, rounds_initial⟩ ?_ h
  rintro es s e s' hx ⟨hh, hr⟩ hs
  have hn := reachable_numbered ⟨es, hx⟩
  refine ⟨?_, rounds_step hh hr hn hs⟩
  rw [tabled, released, Machine.log_snoc hx hs, Machine.log_snoc hx hs]
  exact holds_step hh hr hn hs

/-- As long as the counts fit into an `int`, the table holds exactly the descriptors that
submissions went to, rejected or not, in the order of the first ones, each with a count that is
minus the number of its rejected submissions and finished URBs, so a descriptor is polled from its
first submission on. The positions that a call works with come from an older table, a front part
of this one, and at its position is still the descriptor of its URB. -/
theorem table_contents (h : eventLoop.exec .initial es = some s) (fit : CountsFit es) :
    s.snapshot = (tabled es).eraseDups ∧
      (∀ w ∈ s.ctx.watchedFds.live,
        w.refcount = -((released es).count w.fd : Int) ∧ -2147483648 ≤ w.refcount) ∧
      ∀ th d k t, s.pc th = .reaped d k t ∨ s.pc th = .inCallback d k t →
        d.pollfds <+: s.snapshot ∧ ∃ u ∈ s.urbs, u.id = k ∧ s.snapshot[d.i]? = some u.fd := by
  obtain ⟨hh, hr⟩ := contents_run h
  refine ⟨hh.fds, fun w hw => ⟨hh.counts w hw, ?_⟩, fun th d k t hpc => ?_⟩
  · have := fit w.fd
    rw [hh.counts w hw]
    omega
  have front : d.pollfds <+: s.snapshot := by
    apply hr.polled th
    rcases hpc with hpc | hpc <;> rw [hpc] <;> rfl
  obtain ⟨u, hu, hk, hfd⟩ := hr.position th d k (by rcases hpc with hpc | hpc <;> rw [hpc] <;> rfl)
  obtain ⟨rest, front'⟩ := front
  refine ⟨⟨rest, front'⟩, u, hu, hk, ?_⟩
  rw [← front', List.getElem?_append_left (List.getElem?_eq_some_iff.1 hfd).1, hfd]

/-- A transfer is submitted and reaped, and its handle is closed. -/
def closedHandle : List Event :=
  [.openHandle 0 5, .alloc 7, .fill 7 { type := .bulk }, .submit 7 ⟨true, none⟩,
    .complete 0 0 8, .callRun 1, .enter 1, .head 1 true, .pollReturn 1 (some false),
    .reap 1 (some 0), .lockReaped 1, .closeHandle 0]

/-- The descriptor is polled still, with the count of a finished URB. -/
theorem table_contents_closed : ∃ s, eventLoop.exec .initial closedHandle = some s ∧
    s.openFds = [] ∧ s.snapshot = [5] ∧ ∀ w ∈ s.ctx.watchedFds.live,
      w.refcount = -((released closedHandle).count w.fd : Int) ∧ -2147483648 ≤ w.refcount := by
  have run : eventLoop.exec .initial closedHandle = some _ := rfl
  have few : (released closedHandle).length ≤ 2147483648 := by decide
  exact ⟨_, run, rfl, rfl,
    (table_contents run fun fd => Nat.le_trans List.count_le_length few).2.1⟩

end Libusby.Linux.EventLoop
