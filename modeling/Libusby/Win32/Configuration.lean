import Libusby.Core.DescriptorLeaks

/-!
# `usbyb_get_configuration` on libusb0

The configuration is asked for twice: what the driver has cached, and what the device says
if that is not one byte. The second answer is not held against its length, so an empty one
returns the local `res` as it was before.
-/

namespace Libusby.Win32

open Foundations Libusby.Core

/-- The values of `GetLastError` that `sync_device_io_control` tells apart. -/
inductive SyncError where
  | success | ioPending | busy | other
  deriving DecidableEq, Repr

/-- What the calls of `sync_device_io_control` do: `none` is one that succeeds. The bytes
that are written to `out_data` are as many as are transferred. -/
structure SyncResult where
  createEvent : Bool
  deviceIoControl : Option SyncError
  getOverlappedResult : Option SyncError
  data : List UInt8
  deriving DecidableEq, Repr

def SyncResult.dwError (io : SyncResult) : SyncError :=
  match io.deviceIoControl with
  | none => .success
  | some .ioPending => io.getOverlappedResult.getD .success
  | some e => e

/-- The return value, with the bytes that were written. -/
def syncDeviceIoControl (io : SyncResult) : Reply :=
  if ¬ io.createEvent then .error .noMem
  else
    match io.dwError with
    | .success => .ok io.data
    | .busy => .error .busy
    | _ => .error .io

/-- `out_data` afterwards. -/
def receive {n : Nat} (outData : Bytes n) : Reply → Bytes n
  | .error _ => outData
  | .ok bytes => outData.fill bytes

def usbybGetConfiguration (cachedOnly : Bool) (res : Bytes 1) :
    Dialogue Request Reply Configuration := do
  let reply ← .ask .cachedConfiguration .done
  let res := receive res reply
  if reply.code ≠ 1 ∧ ¬ cachedOnly then do
    let reply ← .ask .configuration .done
    let res := receive res reply
    return ⟨reply.code, if reply.code ≥ 0 then some (res.get 0).toNat else none⟩
  else return ⟨reply.code, if reply.code ≥ 0 then some (res.get 0).toNat else none⟩

section
variable {replies rest : List Reply} {first second : Reply}

/-- The first answer is not one byte and the second is empty. -/
def AnsweredEmpty (replies : List Reply) : Prop :=
  ∃ first rest, replies = first :: .ok [] :: rest ∧ Request.cachedConfiguration.fits first = true ∧
    first.code ≠ 1

/-- What is returned for the last answer. -/
def configuration (reply : Reply) (res : Bytes 1) : Configuration :=
  ⟨reply.code, if reply.code ≥ 0 then some (res.get 0).toNat else none⟩

/-- From the first answer on. -/
def afterCached (cachedOnly : Bool) (reply : Reply) (res : Bytes 1) :
    Dialogue Request Reply Configuration :=
  if reply.code ≠ 1 ∧ ¬ cachedOnly then
    .ask .configuration fun reply' => .done (configuration reply' (receive res reply'))
  else .done (configuration reply res)

theorem usbybGetConfiguration_eq (cachedOnly : Bool) (res : Bytes 1) :
    usbybGetConfiguration cachedOnly res =
      .ask .cachedConfiguration fun reply => afterCached cachedOnly reply (receive res reply) := rfl

theorem receive_eq {n : Nat} {reply : Reply} (h : reply.code = n) (hn : 0 < n) (a b : Bytes n) :
    receive a reply = receive b reply := by
  rcases reply with e | bytes
  · have : e.code ≤ 0 := by cases e <;> decide
    have : e.code = n := h
    omega
  · exact Bytes.fill_eq_of_full (Int.ofNat_inj.1 h)

theorem afterCached_oblivious (reply : Reply) (replies : List Reply)
    (h : reply.code ≠ 1 → ∀ rest, replies ≠ .ok [] :: rest) :
    Dialogue.Oblivious Request.fits (fun res => afterCached false reply (receive res reply)) replies := by
  intro a b
  dsimp only
  by_cases one : reply.code = 1
  · rw [receive_eq one (by decide) a b]
  · rw [afterCached, afterCached, if_pos ⟨one, nofun⟩, if_pos ⟨one, nofun⟩]
    rcases replies with _ | ⟨second, rest⟩
    · rfl
    · by_cases fit : Request.configuration.fits second = true
      · rw [Dialogue.run_ask_cons fit, Dialogue.run_ask_cons fit, configuration, configuration]
        rcases second with e | _ | ⟨x, more⟩
        · have negative : ¬ Reply.code (.error e) ≥ 0 := by
            have : e.code < 0 := of_decide_eq_true fit
            exact Int.not_le.2 this
          rw [if_neg negative, if_neg negative]
        · exact absurd rfl (h one rest)
        · have full : Reply.code (.ok (x :: more)) = 1 := by
            have : (x :: more).length ≤ 1 := of_decide_eq_true fit
            simp only [Reply.code, List.length_cons] at this ⊢
            omega
          rw [receive_eq full (by decide) (receive a reply) (receive b reply)]
      · rw [Dialogue.run_ask_unfit (by simpa using fit), Dialogue.run_ask_unfit (by simpa using fit)]

/-- The configuration is returned without what was in `res` unless the answers leave it. -/
theorem usbybGetConfiguration_oblivious (h : ¬ AnsweredEmpty replies) :
    Dialogue.Oblivious Request.fits (usbybGetConfiguration false) replies := by
  intro a b
  rw [usbybGetConfiguration_eq, usbybGetConfiguration_eq]
  rcases replies with _ | ⟨first, replies⟩
  · rfl
  · by_cases fit : Request.cachedConfiguration.fits first = true
    · rw [Dialogue.run_ask_cons fit, Dialogue.run_ask_cons fit]
      have oblivious := afterCached_oblivious first replies
        fun more rest empty => h ⟨first, rest, by rw [empty], fit, more⟩
      exact congrArg _ (oblivious a b)
    · rw [Dialogue.run_ask_unfit (by simpa using fit), Dialogue.run_ask_unfit (by simpa using fit)]

/-- What is not one byte leaves the byte alone. -/
theorem receive_get {reply : Reply} (fit : Request.configuration.fits reply = true)
    (h : reply.code ≠ 1) (res : Bytes 1) : (receive res reply).get 0 = res.get 0 := by
  rcases reply with e | bytes
  · rfl
  · have one : bytes.length ≤ 1 := of_decide_eq_true fit
    have ne : bytes.length ≠ 1 := fun same => h (congrArg Nat.cast same)
    exact Bytes.get_fill_of_le one (by omega)

theorem libusbyGetConfiguration_empty (fit : Request.cachedConfiguration.fits first = true)
    (more : first.code ≠ 1) (res data : Bytes 1) :
    ((libusbyGetConfiguration (usbybGetConfiguration false res) data).run Request.fits
      (first :: .ok [] :: rest)).result = some (⟨0, some (res.get 0).toNat⟩, rest) := by
  refine Dialogue.run_bind_eq_some.2 ⟨⟨0, some (res.get 0).toNat⟩, rest, ?_, rfl⟩
  have kept : (receive (receive res first) (.ok [])).get 0 = res.get 0 :=
    (receive_get (by decide) (by decide) _).trans (receive_get fit more _)
  rw [usbybGetConfiguration_eq, Dialogue.run_ask_cons fit, afterCached, if_pos ⟨more, nofun⟩,
    Dialogue.run_ask_cons (by decide), configuration, kept]
  rfl

theorem getConfiguration_oblivious_iff :
    Dialogue.Oblivious Request.fits (fun b : Bytes 1 × Bytes 1 =>
        libusbyGetConfiguration (usbybGetConfiguration false b.1) b.2) replies ↔
      ¬ AnsweredEmpty replies := by
  constructor
  · rintro oblivious ⟨first, rest, rfl, fit, more⟩
    have same := congrArg (·.result)
      (oblivious (.replicate 1 0, .replicate 1 0) (.replicate 1 1, .replicate 1 0))
    dsimp only at same
    rw [libusbyGetConfiguration_empty fit more, libusbyGetConfiguration_empty fit more] at same
    cases same
  · intro h b b'
    calc (libusbyGetConfiguration (usbybGetConfiguration false b.1) b.2).run Request.fits replies
        = (libusbyGetConfiguration (usbybGetConfiguration false b'.1) b.2).run Request.fits
            replies := Dialogue.run_bind_left (usbybGetConfiguration_oblivious h b.1 b'.1)
      _ = (libusbyGetConfiguration (usbybGetConfiguration false b'.1) b'.2).run Request.fits
            replies := getConfiguration_oblivious _ b.2 b'.2

end

end Libusby.Win32
