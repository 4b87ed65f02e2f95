import Libusby.Foundations.Buffer

/-!
# Dialogues

A program that asks somebody outside and goes on with the answer. Its `run` against a
list of replies shows every request that it makes, so that two programs can be compared
by what they ask and not only by what they return. `serve` runs it against somebody whose
answers are known.
-/

namespace Libusby.Foundations

inductive Dialogue (Req Reply α : Type) where
  | done (a : α)
  | ask (req : Req) (next : Reply → Dialogue Req Reply α)

namespace Dialogue

variable {Req Reply α β : Type}

def bind : Dialogue Req Reply α → (α → Dialogue Req Reply β) → Dialogue Req Reply β
  | done a, f => f a
  | ask req next, f => ask req fun reply => bind (next reply) f

instance : Monad (Dialogue Req Reply) where
  pure := done
  bind := bind

/-- The requests, and the result with the replies that are left if there is one. -/
structure Outcome (Req Reply α : Type) where
  requests : List Req
  result : Option (α × List Reply)
  deriving DecidableEq

/-- What was asked before comes first. -/
def Outcome.after (requests : List Req) (o : Outcome Req Reply α) : Outcome Req Reply α :=
  { o with requests := requests ++ o.requests }

section
variable (fits : Req → Reply → Bool)

/-- The run up to the first request whose reply is missing or does not fit. -/
def run : Dialogue Req Reply α → List Reply → Outcome Req Reply α
  | done a, replies => ⟨[], some (a, replies)⟩
  | ask req _, [] => ⟨[req], none⟩
  | ask req next, reply :: replies =>
    if fits req reply then ((next reply).run replies).after [req] else ⟨[req], none⟩

variable {fits} {d : Dialogue Req Reply α} {f : α → Dialogue Req Reply β} {req : Req}
  {next : Reply → Dialogue Req Reply α} {replies rest : List Reply} {reply : Reply}

theorem run_ask_cons (h : fits req reply = true) :
    (ask req next).run fits (reply :: replies) = ((next reply).run fits replies).after [req] :=
  if_pos h

theorem run_ask_unfit (h : fits req reply = false) :
    (ask req next).run fits (reply :: replies) = ⟨[req], none⟩ := if_neg (by simp [h])

@[simp] theorem Outcome.after_result (requests : List Req) (o : Outcome Req Reply α) :
    (o.after requests).result = o.result := rfl

theorem Outcome.after_after (requests more : List Req) (o : Outcome Req Reply α) :
    (o.after more).after requests = o.after (requests ++ more) := by
  simp [Outcome.after]

/-- The run of the second part goes on where the first part has ended. -/
theorem run_bind_some {a : α} (h : (d.run fits replies).result = some (a, rest)) :
    (d >>= f).run fits replies = ((f a).run fits rest).after (d.run fits replies).requests := by
  induction d generalizing replies with
  | done b =>
    cases h
    rfl
  | ask req next ih =>
    cases replies with
    | nil => cases h
    | cons reply replies =>
      by_cases fit : fits req reply = true
      · rw [run_ask_cons fit] at h ⊢
        have step : (ask req next >>= f).run fits (reply :: replies) =
            ((next reply >>= f).run fits replies).after [req] := run_ask_cons fit
        rw [step, ih reply h, Outcome.after_after]
        rfl
      · rw [run_ask_unfit (by simpa using fit)] at h
        cases h

/-- A first part that does not end is all there is. -/
theorem run_bind_none (h : (d.run fits replies).result = none) :
    (d >>= f).run fits replies = ⟨(d.run fits replies).requests, none⟩ := by
  induction d generalizing replies with
  | done b => cases h
  | ask req next ih =>
    cases replies with
    | nil => rfl
    | cons reply replies =>
      by_cases fit : fits req reply = true
      · rw [run_ask_cons fit] at h ⊢
        have step : (ask req next >>= f).run fits (reply :: replies) =
            ((next reply >>= f).run fits replies).after [req] := run_ask_cons fit
        rw [step, ih reply h]
        rfl
      · rw [run_ask_unfit (by simpa using fit)]
        exact run_ask_unfit (by simpa using fit)

theorem run_bind_eq_some {b : β} : ((d >>= f).run fits replies).result = some (b, rest) ↔
    ∃ a mid, (d.run fits replies).result = some (a, mid) ∧
      ((f a).run fits mid).result = some (b, rest) := by
  cases hd : (d.run fits replies).result with
  | none => simp [run_bind_none hd]
  | some r =>
    obtain ⟨a, mid⟩ := r
    rw [run_bind_some hd, Outcome.after_result]
    constructor
    · intro h
      exact ⟨a, mid, rfl, h⟩
    · rintro ⟨a', mid', same, h⟩
      cases same
      exact h

/-- A program that asks first shows its request. -/
theorem run_ask_requests (req : Req) (next : Reply → Dialogue Req Reply α)
    (f : α → Dialogue Req Reply β) (replies : List Reply) :
    ∃ more, ((ask req next >>= f).run fits replies).requests = req :: more := by
  cases replies with
  | nil => exact ⟨[], rfl⟩
  | cons reply replies =>
    by_cases fit : fits req reply = true
    · have step : (ask req next >>= f).run fits (reply :: replies) =
          ((next reply >>= f).run fits replies).after [req] := run_ask_cons fit
      rw [step]
      exact ⟨_, rfl⟩
    · have stop : (ask req next >>= f).run fits (reply :: replies) = ⟨[req], none⟩ :=
        run_ask_unfit (by simpa using fit)
      rw [stop]
      exact ⟨[], rfl⟩

/-- Two programs that begin alike and go on alike after each result run alike. -/
theorem run_bind_congr {g : α → Dialogue Req Reply β}
    (h : ∀ a rest, (d.run fits replies).result = some (a, rest) →
      (f a).run fits rest = (g a).run fits rest) :
    (d >>= f).run fits replies = (d >>= g).run fits replies := by
  cases hd : (d.run fits replies).result with
  | none => rw [run_bind_none hd, run_bind_none hd]
  | some r =>
    obtain ⟨a, rest⟩ := r
    rw [run_bind_some hd, run_bind_some hd, h a rest hd]

/-- A first part may be replaced by one that runs alike. -/
theorem run_bind_left {d' : Dialogue Req Reply α} (h : d.run fits replies = d'.run fits replies) :
    (d >>= f).run fits replies = (d' >>= f).run fits replies := by
  cases hd : (d.run fits replies).result with
  | none => rw [run_bind_none hd, run_bind_none (h ▸ hd), h]
  | some r =>
    obtain ⟨a, rest⟩ := r
    rw [run_bind_some hd, run_bind_some (h ▸ hd), h]

/-- What is asked and what is returned does not depend on the secret. -/
def Oblivious {σ : Type} (fits : Req → Reply → Bool) (d : σ → Dialogue Req Reply α)
    (replies : List Reply) : Prop :=
  ∀ s t, (d s).run fits replies = (d t).run fits replies

theorem oblivious_bind {σ : Type} {f : σ → α → Dialogue Req Reply β}
    (h : ∀ a rest, (d.run fits replies).result = some (a, rest) →
      Oblivious fits (fun s => f s a) rest) :
    Oblivious fits (fun s => d >>= f s) replies :=
  fun s t => run_bind_congr fun a rest hd => h a rest hd s t

/-- After the first part the secret must not matter any more. -/
theorem Oblivious.of_bind {σ : Type} {f : σ → α → Dialogue Req Reply β} {a : α}
    (h : Oblivious fits (fun s => d >>= f s) replies)
    (hd : (d.run fits replies).result = some (a, rest)) :
    Oblivious fits (fun s => f s a) rest := by
  intro s t
  have same := h s t
  rw [run_bind_some hd, run_bind_some hd, Outcome.after, Outcome.after, Outcome.mk.injEq] at same
  obtain ⟨requests, result⟩ := same
  generalize (f s a).run fits rest = x at *
  generalize (f t a).run fits rest = y at *
  cases x
  cases y
  cases List.append_cancel_left requests
  cases result
  rfl

end

/-- The result when every request is answered by `answer`. -/
def serve (answer : Req → Except Fault Reply) : Dialogue Req Reply α → Except Fault α
  | done a => .ok a
  | ask req next => do
    let reply ← answer req
    (next reply).serve answer

@[simp] theorem serve_done (answer : Req → Except Fault Reply) (a : α) :
    (done a).serve answer = .ok a := rfl

theorem serve_ask {answer : Req → Except Fault Reply} {req : Req}
    {next : Reply → Dialogue Req Reply α} {reply : Reply} (h : answer req = .ok reply) :
    (ask req next).serve answer = (next reply).serve answer := by
  rw [serve, h, ok_bind]

theorem serve_bind (answer : Req → Except Fault Reply) (d : Dialogue Req Reply α)
    (f : α → Dialogue Req Reply β) :
    (d >>= f).serve answer = d.serve answer >>= fun a => (f a).serve answer := by
  induction d with
  | done a => rfl
  | ask req next ih =>
    change (answer req >>= fun reply => (next reply >>= f).serve answer) = _
    rw [serve]
    cases answer req with
    | error e => rfl
    | ok reply => exact ih reply

end Dialogue

end Libusby.Foundations
