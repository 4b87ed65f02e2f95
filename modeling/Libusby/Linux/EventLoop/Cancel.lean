import Libusby.Linux.EventLoop.Conservation
import Libusby.Linux.EventLoop.Reported

/-!
# Cancellation on Linux

`usbyb_cancel_transfer` is one `USBDEVFS_DISCARDURB`, without the lock and whatever `active`
says. The kernel looks for a URB of the transfer that is not done, kills it, which completes
it with `-ENOENT`, and answers with an error if there is none.
-/

namespace Libusby.Linux.EventLoop

open Foundations

/-- A step of the event loop or of its environment, or a call of `usbyb_cancel_transfer`;
`errno` is the error of a call that finds no URB, `actualLength` what a killed URB moved. -/
inductive CancelEvent where
  | loop (e : Event)
  | cancel (t : TranId) (errno : Errno) (actualLength : Int)
  deriving DecidableEq, Repr

/-- The URB that `USBDEVFS_DISCARDURB` finds for `tran->req` and the descriptor of the handle. -/
def Sys.discard (s : Sys) (t : TranId) : Option Urb :=
  s.urbs.find? fun u => u.tran = t ∧ u.fd = s.tranFd t ∧ u.stage = .pending

/-- `urb->status` of a URB that was killed. -/
def killed : UrbStatus := -2

def usbybCancelTransfer (s : Sys) (t : TranId) (errno : Errno) (actualLength : Int) : Error × Sys :=
  match s.discard t with
  | some u => (.success, { s with urbs := setStage u.id (.completed killed actualLength) s.urbs })
  | none => (usbfsError errno, s)

def CancelEvent.step (s : Sys) : CancelEvent → Option Sys
  | .loop e => EventLoop.step s e
  | .cancel t errno actualLength => some (usbybCancelTransfer s t errno actualLength).2

/-- The event loop with calls of `usbyb_cancel_transfer` at any time. -/
def cancelLoop : Machine Sys CancelEvent := ⟨.initial, CancelEvent.step⟩

/-- What the event loop sees of an event. -/
def Sys.sees (s : Sys) : CancelEvent → List Event
  | .loop e => [e]
  | .cancel t _ actualLength =>
    match s.discard t with
    | some u => [.complete u.id killed actualLength]
    | none => []

/-- A call of `usbyb_cancel_transfer` kills the URB `k`. -/
def Sys.kills (s : Sys) (k : Nat) : CancelEvent → Bool
  | .cancel t _ _ => (s.discard t).map (·.id) = some k
  | .loop _ => false

variable {s s' : Sys} {e : CancelEvent} {es fs : List CancelEvent} {t : TranId} {k : Nat} {u : Urb}
  {errno : Errno} {len : Int} {th : Tid}

theorem discard_eq_some (h : s.discard t = some u) :
    u ∈ s.urbs ∧ u.tran = t ∧ u.fd = s.tranFd t ∧ u.stage = .pending := by
  refine ⟨List.mem_of_find?_eq_some h, ?_⟩
  simpa using List.find?_some h

/-- Killing a URB is one way to complete it. -/
theorem discard_step (errno : Errno) (len : Int) (hn : Numbered s) (h : s.discard t = some u) :
    step s (.complete u.id killed len) = some (usbybCancelTransfer s t errno len).2 := by
  obtain ⟨hu, -, -, hg⟩ := discard_eq_some h
  have find := find_id_of_mem hn hu
  obtain ⟨id, tran, fd, req, stage⟩ := u
  cases hg
  simp only [step, find, usbybCancelTransfer, h]

/-- The event loop answers each event with what it sees of it. -/
theorem sees_step (hn : Numbered s) (h : CancelEvent.step s e = some s') :
    eventLoop.exec s (s.sees e) = some s' := by
  cases e with
  | loop e => exact Machine.exec_cons.2 ⟨s', h, rfl⟩
  | cancel t errno len =>
    cases h
    cases hd : s.discard t with
    | some u =>
      simp only [Sys.sees, hd]
      exact Machine.exec_cons.2 ⟨_, discard_step _ _ hn hd, rfl⟩
    | none => simp [Sys.sees, usbybCancelTransfer, hd]

/-- The events that the event loop sees of a run. -/
def seen (es : List CancelEvent) : List Event := cancelLoop.log Sys.sees .initial es

theorem sees_exec (hn : Numbered s) (h : cancelLoop.exec s fs = some s') :
    eventLoop.exec s (cancelLoop.log Sys.sees s fs) = some s' ∧ Numbered s' := by
  refine Machine.exec_induction (motive := fun fs (s' : Sys) =>
    eventLoop.exec s (cancelLoop.log Sys.sees s fs) = some s' ∧ Numbered s') ⟨rfl, hn⟩ ?_ h
  rintro fs s e s' hx ⟨ih, hn⟩ hs
  have answer := sees_step hn hs
  rw [Machine.log_snoc hx hs]
  refine ⟨Machine.exec_append.2 ⟨s, ih, answer⟩, ?_⟩
  exact Machine.exec_induction (motive := fun _ s => Numbered s) hn
    (fun _ _ _ _ _ hn hs => numbered_step hn hs) answer

theorem seen_exec (h : cancelLoop.exec .initial es = some s) :
    eventLoop.exec .initial (seen es) = some s :=
  (sees_exec (reachable_numbered ⟨[], rfl⟩) h).1

theorem cancel_numbered (h : cancelLoop.exec .initial es = some s) : Numbered s :=
  reachable_numbered ⟨_, seen_exec h⟩

/-! ## After a URB is killed -/

/-- The URB `k` of transfer `t` was killed: it is done with that status, or past that. -/
structure Killed (s : Sys) (t : TranId) (k : Nat) : Prop where
  issued : k < s.nextUrb
  tran : ∀ u ∈ s.urbs, u.id = k → u.tran = t
  stage : ∀ g, s.stageOf k = some g → g = .reaped ∨ ∃ len, g = .completed killed len

namespace Killed

theorem discard (errno : Errno) (len : Int) (hn : Numbered s) (h : s.discard t = some u) :
    Killed (usbybCancelTransfer s t errno len).2 t u.id := by
  have hn' := numbered_step hn (discard_step errno len hn h)
  obtain ⟨hu, ht, -, -⟩ := discard_eq_some h
  simp only [usbybCancelTransfer, h] at hn' ⊢
  have done := (setStage_mem (g := .completed killed len) hu).1 rfl
  refine ⟨hn.fresh u hu, fun v hv hid => ?_, fun g hg => ?_⟩
  · rw [hn'.inj v hv _ done hid]
    exact ht
  · have stage := stageOf_eq hn' done
    exact .inr ⟨len, Option.some.inj (hg.symm.trans stage)⟩

theorem step {e : Event} (hk : Killed s t k) (hn : Numbered s) (h : EventLoop.step s e = some s') :
    Killed s' t k where
  issued := issued_step h hk.issued
  tran := by
    have tran := hk.tran
    have issued := hk.issued
    cases urbEffect h <;> grind -linarith [mem_setStage, Sys.newUrb]
  stage := by
    intro g hg
    have life := urbLife_step hn h k
    have given := accept_step h k
    have stage := hk.stage
    rw [if_pos hk.issued, if_pos (issued_step h hk.issued)] at given
    rw [hg] at life
    generalize s.stageOf k = before at life stage
    generalize s.urbEvent k e = event at life given
    cases life with
    | accept => simp at given
    | complete => simpa using stage _ rfl
    | reap => exact .inl rfl
    | rest => exact stage g rfl

theorem exec {fs : List Event} (hk : Killed s t k) (hn : Numbered s)
    (h : eventLoop.exec s fs = some s') : Killed s' t k := by
  refine (Machine.exec_induction (motive := fun _ (s : Sys) => Numbered s ∧ Killed s t k)
    ⟨hn, hk⟩ ?_ h).2
  rintro _ s e s' - ⟨hn, hk⟩ hs
  exact ⟨numbered_step hn hs, hk.step hn hs⟩

/-- What is reported when the URB is reaped. -/
theorem reported (hk : Killed s t k) (hn : Numbered s)
    (h : EventLoop.step s (.reap th (some k)) = some s') :
    (s'.trans t).pub.status = Error.io.code := by
  cases step_trans h with
  | @reap _ d u status len hpc hu hfd hg =>
    have stage := hk.stage u.stage (stageOf_eq hn hu)
    rw [hg] at stage
    obtain ⟨⟨⟩⟩ | ⟨len, ⟨⟩⟩ := stage
    obtain rfl := hk.tran u hu rfl
    simp [Sys.setPub, PubTransfer.store, killed]

end Killed

section
variable (es : List CancelEvent) (k : Nat)

/-- How often a cancellation kills the URB `k` in the run. -/
def kills : Nat := cancelLoop.occurrences (fun s e => s.kills k e) .initial es

/-- How often the kernel completes the URB `k` by itself. -/
def completions : Nat :=
  cancelLoop.occurrences (fun s e => match e with
    | .loop e => s.urbEvent k e = some .complete
    | .cancel .. => false) .initial es

end

theorem kills_add_completions (h : cancelLoop.exec .initial es = some s) (k : Nat) :
    kills es k + completions es k = urbCount (seen es) k .complete := by
  refine Machine.exec_induction (motive := fun es (s : Sys) =>
    kills es k + completions es k = urbCount (seen es) k .complete) rfl ?_ h
  intro es s e s' hx ih hs
  have run := seen_exec hx
  rw [kills, completions, Machine.occurrences_snoc hx hs, Machine.occurrences_snoc hx hs, seen,
    Machine.log_snoc hx hs]
  change kills es k + _ + (completions es k + _) = urbCount (seen es ++ _) k .complete
  cases e with
  | loop e =>
    have snoc : urbCount (seen es ++ [e]) k .complete =
        urbCount (seen es) k .complete + (decide (s.urbEvent k e = some .complete)).toNat :=
      Machine.occurrences_snoc run hs
    simp only [Sys.sees, snoc, ← ih, Sys.kills, Bool.toNat_false]
    omega
  | cancel t errno len =>
    cases hd : s.discard t with
    | none => simp [Sys.sees, Sys.kills, hd, ih]
    | some u =>
      have step := discard_step errno len (reachable_numbered ⟨_, run⟩) hd
      have snoc : urbCount (seen es ++ [.complete u.id killed len]) k .complete =
          urbCount (seen es) k .complete + (decide
            (s.urbEvent k (.complete u.id killed len) = some .complete)).toNat :=
        Machine.occurrences_snoc run step
      simp only [Sys.sees, Sys.kills, hd, snoc, ← ih, Sys.urbEvent, Option.map_some,
        Option.some.injEq]
      by_cases same : u.id = k
      · simp [same]
        omega
      · simp [same]

/-- A cancellation at any time is one way for the kernel to complete a URB: the run is one of
the event loop, each URB is completed once whether it is killed or not, so it is reaped and
called back once all the same, and a URB that was killed is reported as `LIBUSBY_ERROR_IO`
whenever it is reaped. -/
theorem cancel_conserved (h : cancelLoop.exec .initial es = some s) :
    eventLoop.exec .initial (seen es) = some s ∧
      (∀ k, kills es k + completions es k = urbCount (seen es) k .complete ∧
        kills es k + completions es k ≤ 1) ∧
      ∀ t u errno len, s.discard t = some u → ∀ fs s',
        cancelLoop.exec s (.cancel t errno len :: fs) = some s' → ∀ th s'',
          step s' (.reap th (some u.id)) = some s'' →
            (s''.trans t).pub.status = Error.io.code := by
  have run := seen_exec h
  refine ⟨run, fun k => ⟨kills_add_completions h k, ?_⟩, ?_⟩
  · rw [kills_add_completions h k]
    have once : urbCount (seen es) k .accept ≤ 1 := by
      rw [urbCount_accept run]
      split_ifs <;> omega
    rcases urbCount_complete run k with ⟨-, before⟩ | ⟨-, before⟩ <;> omega
  · intro t u errno len hd fs s' hx th s'' hs
    obtain ⟨v, ⟨⟩, hx⟩ := Machine.exec_cons.1 hx
    have hn := cancel_numbered h
    have killed := Killed.discard errno len hn hd
    have hn' := numbered_step hn (discard_step errno len hn hd)
    obtain ⟨answer, numbered⟩ := sees_exec hn' hx
    exact (killed.exec hn' answer).reported numbered hs

/-- A URB is killed while the loop polls, and reported when the loop reaps it. -/
theorem cancel_conserved_killed : ∃ s s' s'' es fs,
    cancelLoop.exec .initial es = some s ∧ cancelLoop.exec s fs = some s' ∧
      step s' (.reap 1 (some 0)) = some s'' ∧ kills (es ++ fs) 0 = 1 ∧
      kills (es ++ fs) 0 + completions (es ++ fs) 0 ≤ 1 ∧
      (s''.trans 7).pub.status = Error.io.code := by
  let es : List CancelEvent := [.loop (.openHandle 0 5), .loop (.alloc 7),
    .loop (.fill 7 { type := .bulk }), .loop (.submit 7 ⟨true, none⟩), .loop (.callRun 1),
    .loop (.enter 1), .loop (.head 1 true)]
  let fs : List CancelEvent := [.cancel 7 .other 3, .loop (.pollReturn 1 (some false))]
  have before : cancelLoop.exec .initial es = some _ := rfl
  have run : cancelLoop.exec .initial (es ++ fs) = some _ := rfl
  have conserved := (cancel_conserved run).2.1 0
  refine ⟨_, _, _, es, fs, before, rfl, rfl, by decide, conserved.2, ?_⟩
  exact (cancel_conserved before).2.2 7 _ .other 3 rfl [.loop (.pollReturn 1 (some false))] _ rfl
    1 _ rfl

end Libusby.Linux.EventLoop
