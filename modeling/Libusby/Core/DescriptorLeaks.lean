import Libusby.Core.WholeDescriptor

/-!
# Uninitialised buffers

The readers of descriptors answer from local buffers, of which a short answer fills only
the front. Whatever then depends on the rest is a leak of what was there before: it shows
in the result or in the next request. A reader is `Oblivious` to its buffers exactly if no
answer ends before the bytes that it looks at.
-/

namespace Libusby.Core

open Foundations Config

section
variable {deviceDesc rawdesc : Bytes 18} {replies rest : List Reply} {bytes front body : List UInt8}

/-- The stored descriptor is used, or the answer is complete or refused for its first byte. -/
def DeviceDescriptorDefined (deviceDesc : Bytes 18) (replies : List Reply) : Prop :=
  deviceDesc.get 0 = 18 ∨ ∀ bytes rest, Delivers libusbyGetDescriptor 1 0 18 replies bytes rest →
    bytes.length = 18 ∨ ∃ b more, bytes = b :: more ∧ b ≠ 18

theorem usbyiSanitizeDeviceDesc_fill {x : UInt8} {more : List UInt8}
    (fit : (x :: more).length ≤ 18) (rawdesc : Bytes 18) :
    usbyiSanitizeDeviceDesc (rawdesc.fill (x :: more)) =
      if x ≠ 18 then .error .io else .ok (rawdesc.fill (x :: more)) := by
  rw [usbyiSanitizeDeviceDesc, Bytes.get_fill_of_lt fit (by simp)]
  rfl

theorem getDeviceDescriptor_oblivious_iff :
    Dialogue.Oblivious Request.fits (libusbyGetDeviceDescriptor deviceDesc) replies ↔
      DeviceDescriptorDefined deviceDesc replies := by
  unfold DeviceDescriptorDefined libusbyGetDeviceDescriptor
  by_cases cached : deviceDesc.get 0 = 18
  · simp only [cached, if_true, true_or, iff_true]
    intro a b
    rfl
  simp only [cached, if_false, false_or]
  constructor
  · intro oblivious bytes rest delivers
    have fit := libusbyGetDescriptor_sound.length_le delivers
    have same := oblivious.of_bind delivers
    rcases bytes with _ | ⟨x, more⟩
    · -- Nothing was written: the check of the first byte sees what was there.
      have result := congrArg (·.result) (same (.replicate 18 18) (.replicate 18 0))
      cases result
    · by_cases refused : x = 18
      · by_contra undefined
        have short : (x :: more).length < 18 := by omega
        have desc : ((Bytes.replicate 18 0).fill (x :: more)) =
            ((Bytes.replicate 18 1).fill (x :: more)) := by
          have result := congrArg (·.result) (same (.replicate 18 0) (.replicate 18 1))
          dsimp only at result
          rw [usbyiSanitizeDeviceDesc_fill fit, usbyiSanitizeDeviceDesc_fill fit,
            if_neg (not_not.2 refused), if_neg (not_not.2 refused)] at result
          exact congrArg (·.1.deviceDesc) (Option.some.inj result)
        have last := congrArg (·.get 17) desc
        simp only [Bytes.get_fill_of_le fit (show (x :: more).length ≤ 17 by omega),
          Bytes.get_replicate (show 17 < 18 by omega)] at last
        cases last
      · exact .inr ⟨x, more, rfl, refused⟩
  · intro defined
    apply Dialogue.oblivious_bind
    rintro (e | bytes) rest delivers
    · intro a b
      rfl
    · intro a b
      have fit := libusbyGetDescriptor_sound.length_le delivers
      rcases defined bytes rest delivers with full | ⟨x, more, rfl, refused⟩
      · dsimp only
        rw [Bytes.fill_eq_of_full full]
      · dsimp only
        rw [usbyiSanitizeDeviceDesc_fill fit a, usbyiSanitizeDeviceDesc_fill fit b, if_pos refused,
          if_pos refused]

/-! ## Configuration descriptors -/

variable {get : Getter} {ok : Nat → Bool} {configIndex : UInt8} {header : Bytes 6} {mem : Memory}

/-- `malloc` fails, or the answer to the header read includes `wTotalLength`. -/
def HeaderDefined (get : Getter) (ok : Nat → Bool) (configIndex : UInt8) (mem : Memory)
    (replies : List Reply) : Prop :=
  ok mem.calls = false ∨
    ∀ front rest, Delivers get 2 configIndex 6 replies front rest → 4 ≤ front.length

/-- What a reader of configuration descriptors finds in its buffers. -/
abbrev Buffers := Bytes 6 × ((n : Nat) → Bytes n)

/-- A header whose byte 3 alone is not 0. -/
def oddHeader : Bytes 6 := ⟨[0, 0, 0, 1, 0, 0], rfl⟩

/-- An answer without byte 3 leaves the high byte of `wTotalLength` to what was there. -/
theorem headerLength_ne (short : front.length < 4) :
    headerLength (.replicate 6 0) front ≠ headerLength oddHeader front := by
  have fit : front.length ≤ 6 := by omega
  have two : ((Bytes.replicate 6 0).fill front).get 2 = (oddHeader.fill front).get 2 := by
    by_cases hk : 2 < front.length
    · rw [Bytes.get_fill_of_lt fit hk, Bytes.get_fill_of_lt fit hk]
    · rw [Bytes.get_fill_of_le fit (by omega), Bytes.get_fill_of_le fit (by omega)]
      rfl
  have three (h : Bytes 6) : (h.fill front).get 3 = h.get 3 :=
    Bytes.get_fill_of_le fit (by omega)
  intro same
  have same' := congrArg UInt16.toNat same
  rw [headerLength, headerLength, two, three, three, toNat_le16, toNat_le16] at same'
  have zero : (Bytes.replicate 6 0).get 3 = 0 := rfl
  have one : oddHeader.get 3 = 1 := rfl
  rw [zero, one] at same'
  simp at same'

/-- The second half of `readConfig`, from the body read on. -/
def readBody (get : Getter) (ok : Nat → Bool) (configIndex : UInt8) (wTotalLength : UInt16)
    (rawdesc : (n : Nat) → Bytes n) (mem : Memory) :
    Dialogue Request Reply (Except Fault Sanitized) := do
  let reply ← get 2 configIndex wTotalLength.toNat
  match reply with
  | .error e => return .ok ⟨e, none, mem⟩
  | .ok bytes =>
    let rawdesc := (rawdesc wTotalLength.toNat).fill bytes
    return usbyiSanitizeConfigDescriptor ok rawdesc.bytes (.ofNat bytes.length) mem

/-- The body read is oblivious to the block from `malloc`, whatever its length. -/
theorem readBody_oblivious (hget : get.Sound) (n : UInt16) :
    Dialogue.Oblivious Request.fits (fun rawdesc => readBody get ok configIndex n rawdesc mem)
      replies := by
  apply Dialogue.oblivious_bind
  rintro (e | body) rest delivers
  · intro r r'
    rfl
  · intro r r'
    have fit : body.length ≤ n.toNat := hget.length_le delivers
    have hlen : body.length ≤ 65535 := fit.trans (Nat.le_of_lt_succ (UInt16.toNat_lt _))
    dsimp only
    rw [Bytes.fill_bytes fit, Bytes.fill_bytes fit, sanitize_append _ hlen, sanitize_append _ hlen]

theorem readBody_requests (asks : get.Asks) (ok : Nat → Bool) (configIndex : UInt8) (n : UInt16)
    (rawdesc : (n : Nat) → Bytes n) (mem : Memory) (replies : List Reply) :
    ∃ req more, req.length = n.toNat ∧ ((readBody get ok configIndex n rawdesc mem).run
      Request.fits replies).requests = req :: more := by
  obtain ⟨req, next, begins, length⟩ := asks 2 configIndex n.toNat
  rw [readBody, begins]
  obtain ⟨more, requests⟩ := Dialogue.run_ask_requests req next _ replies
  exact ⟨req, more, length, requests⟩

/-- After the header read. -/
theorem readBody_header_oblivious (hget : get.Sound) (fit : front.length ≤ 6)
    (four : 4 ≤ front.length) :
    Dialogue.Oblivious Request.fits (fun b : Buffers =>
      readBody get ok configIndex (headerLength b.1 front) b.2 mem) replies := by
  intro b b'
  dsimp only
  rw [headerLength_eq fit four, headerLength_eq fit four]
  exact readBody_oblivious hget _ b.2 b'.2

/-- The request of the body read tells what was in the header. -/
theorem readBody_header_leaks (asks : get.Asks) (short : front.length < 4) :
    ¬ Dialogue.Oblivious Request.fits (fun b : Buffers =>
      readBody get ok configIndex (headerLength b.1 front) b.2 mem) replies := by
  intro oblivious
  let block : (n : Nat) → Bytes n := fun n => .replicate n 0
  have same := congrArg (·.requests) (oblivious (.replicate 6 0, block) (oddHeader, block))
  obtain ⟨req, more, length, first⟩ := readBody_requests asks ok configIndex
    (headerLength (.replicate 6 0) front) block mem replies
  obtain ⟨req', more', length', first'⟩ := readBody_requests asks ok configIndex
    (headerLength oddHeader front) block mem replies
  have heads : req :: more = req' :: more' := first.symm.trans (same.trans first')
  cases heads
  exact headerLength_ne short (UInt16.toNat_inj.1 (length.symm.trans length'))

theorem readConfig_oblivious_iff (hget : get.Sound) (asks : get.Asks) :
    Dialogue.Oblivious Request.fits
        (fun b : Buffers => readConfig get ok configIndex b.1 b.2 mem) replies ↔
      HeaderDefined get ok configIndex mem replies := by
  have goesOn (front : List UInt8) (allocated : ok mem.calls = true) : (fun b : Buffers =>
      if ¬ ok mem.calls then return .ok ⟨.noMem, none, { mem with calls := mem.calls + 1 }⟩
      else readBody get ok configIndex (headerLength b.1 front) b.2
        { mem with calls := mem.calls + 1 }) = fun b : Buffers =>
      readBody get ok configIndex (headerLength b.1 front) b.2
        { mem with calls := mem.calls + 1 } := funext fun b => if_neg (not_not.2 allocated)
  unfold HeaderDefined
  constructor
  · intro oblivious
    by_cases allocated : ok mem.calls = true
    · refine .inr fun front rest delivers => ?_
      by_contra short
      have second := Dialogue.Oblivious.of_bind oblivious delivers
      exact readBody_header_leaks asks (Nat.lt_of_not_le short) (goesOn front allocated ▸ second)
    · exact .inl (by simpa using allocated)
  · intro defined
    apply Dialogue.oblivious_bind
    rintro (e | front) rest delivers
    · intro b b'
      rfl
    · by_cases allocated : ok mem.calls = true
      · have four : 4 ≤ front.length := by
          rcases defined with failed | defined
          · rw [allocated] at failed
            cases failed
          · exact defined front rest delivers
        apply (congrArg (Dialogue.Oblivious Request.fits · rest) (goesOn front allocated)).mpr
        exact readBody_header_oblivious hget (hget.length_le delivers) four
      · intro b b'
        dsimp only
        rw [if_pos allocated, if_pos allocated]

/-! ## The configuration -/

/-- The byte from the device is used only if it was received. -/
theorem getConfiguration_oblivious (usbyb : Dialogue Request Reply Configuration) :
    Dialogue.Oblivious Request.fits (libusbyGetConfiguration usbyb) replies := by
  apply Dialogue.oblivious_bind
  intro c rest _
  by_cases unsupported : c.r = Error.notSupported.code
  · simp only [unsupported, if_true]
    apply Dialogue.oblivious_bind
    rintro (e | bytes) rest _ data data'
    · rfl
    · by_cases one : bytes.length = 1
      · dsimp only
        rw [Bytes.fill_eq_of_full (c := data') one]
      · simp only [one, ne_eq, not_false_eq_true, if_true]
  · intro data data'
    simp only [unsupported, if_false]

end

end Libusby.Core
