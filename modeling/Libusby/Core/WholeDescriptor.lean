import Libusby.Core.Config.Correct
import Libusby.Core.Config.Extent
import Libusby.Core.DescriptorReads

/-!
# Truncated configuration descriptors

A configuration descriptor is read twice: its first six bytes for `wTotalLength`, then as
many bytes as these say. The parser is given the length of the second answer and compares
it neither with the first answer nor with `wTotalLength` in the second. So a tree is built
from a truncated descriptor exactly if what is left of it is a configuration descriptor of
its own (`config_whole_iff`).
-/

namespace Libusby.Core

open Foundations Config

section
variable {get : Getter} {configIndex : UInt8} {replies rest : List Reply}
  {bytes body : List UInt8} {header : Bytes 6} {ok : Nat → Bool}
  {rawdesc : (n : Nat) → Bytes n} {mem : Memory} {s : Sanitized}

/-- `wTotalLength` after the first answer has been written into `header`. -/
def headerLength (header : Bytes 6) (front : List UInt8) : UInt16 :=
  le16 ((header.fill front).get 2) ((header.fill front).get 3)

theorem headerLength_eq {front : List UInt8} (fit : front.length ≤ 6) (four : 4 ≤ front.length) :
    headerLength header front = le16 (front.getD 2 0) (front.getD 3 0) := by
  rw [headerLength, Bytes.get_fill_of_lt fit (by omega), Bytes.get_fill_of_lt fit (by omega)]

/-- The first six bytes are enough for it. -/
theorem headerLength_take (four : 4 ≤ bytes.length) :
    headerLength header (bytes.take 6) = le16 (bytes.getD 2 0) (bytes.getD 3 0) := by
  have byte (k : Nat) (hk : k < 6) : (bytes.take 6).getD k 0 = bytes.getD k 0 := by
    rw [List.getD_eq_getElem?_getD, List.getElem?_take_of_lt hk, List.getD_eq_getElem?_getD]
  have long : 4 ≤ (bytes.take 6).length := by
    rw [List.length_take]
    omega
  rw [headerLength_eq (List.length_take_le ..) long, byte 2 (by omega), byte 3 (by omega)]

/-- The second answer, which is handed to the parser with its length. -/
def Body (get : Getter) (configIndex : UInt8) (header : Bytes 6) (replies : List Reply)
    (body : List UInt8) : Prop :=
  ∃ front mid rest, Delivers get 2 configIndex 6 replies front mid ∧
    Delivers get 2 configIndex (headerLength header front).toNat mid body rest

theorem Body.unique (h : Body get configIndex header replies body)
    (h' : Body get configIndex header replies bytes) : body = bytes := by
  obtain ⟨_, _, _, first, second⟩ := h
  obtain ⟨_, _, _, first', second'⟩ := h'
  cases first.symm.trans first'
  cases second.symm.trans second'
  rfl

theorem Body.length_le (hget : get.Sound) (h : Body get configIndex header replies body) :
    body.length ≤ 65535 := by
  obtain ⟨_, _, _, -, second⟩ := h
  exact (hget.length_le second).trans (Nat.le_of_lt_succ (UInt16.toNat_lt _))

/-- A success was one of the parser. -/
theorem readConfig_success (hget : get.Sound)
    (h : ((readConfig get ok configIndex header rawdesc mem).run Request.fits replies).result =
      some (.ok s, rest)) (hr : s.r = .success) :
    ∃ body more, Body get configIndex header replies body ∧
      usbyiSanitizeConfigDescriptor ok (body ++ more) (.ofNat body.length)
        { mem with calls := mem.calls + 1 } = .ok s := by
  obtain ⟨first, mid, hfirst, h⟩ := Dialogue.run_bind_eq_some.1 h
  rcases first with e | front
  · cases h
    have := hget hfirst
    cases hr
    cases this
  · have fit := hget.length_le hfirst
    dsimp only at h
    split at h
    · cases h
      cases hr
    · obtain ⟨second, end', hsecond, h⟩ := Dialogue.run_bind_eq_some.1 h
      rcases second with e | body
      · cases h
        have := hget hsecond
        cases hr
        cases this
      · refine ⟨body, (rawdesc (headerLength header front).toNat).bytes.drop body.length,
          ⟨_, _, _, hfirst, hsecond⟩, ?_⟩
        have fit : body.length ≤ (headerLength header front).toNat := hget.length_le hsecond
        rw [← Bytes.fill_bytes fit]
        exact congrArg Prod.fst (Option.some.inj h)

/-- With enough memory the parser sees every body. -/
theorem readConfig_body (hget : get.Sound) (h : Body get configIndex header replies body)
    (ok : Nat → Bool) (rawdesc : (n : Nat) → Bytes n) (mem : Memory) (hok : ok mem.calls = true) :
    ∃ more rest, ((readConfig get ok configIndex header rawdesc mem).run Request.fits
      replies).result = some (usbyiSanitizeConfigDescriptor ok (body ++ more)
        (.ofNat body.length) { mem with calls := mem.calls + 1 }, rest) := by
  obtain ⟨front, mid, rest, first, second⟩ := h
  refine ⟨(rawdesc (headerLength header front).toNat).bytes.drop body.length, rest,
    Dialogue.run_bind_eq_some.2 ⟨.ok front, mid, first, ?_⟩⟩
  dsimp only
  rw [if_neg (not_not.2 hok)]
  refine Dialogue.run_bind_eq_some.2 ⟨.ok body, rest, second, ?_⟩
  rw [← Bytes.fill_bytes (b := rawdesc _) (hget.length_le second)]
  rfl

end

abbrev ConfigReader :=
  (Nat → Bool) → UInt8 → Bytes 6 → ((n : Nat) → Bytes n) → Memory →
    Dialogue Request Reply (Except Fault Sanitized)

/-- If `read`, which asks with `get`, returns a tree, then its `wTotalLength` is the number
of bytes that were parsed. -/
def Whole (read : ConfigReader) (get : Getter) (configIndex : UInt8) (header : Bytes 6)
    (replies : List Reply) : Prop :=
  ∀ ok rawdesc mem s rest body,
    ((read ok configIndex header rawdesc mem).run Request.fits replies).result =
        some (.ok s, rest) →
      s.r = .success → Body get configIndex header replies body →
        ∃ c, s.config = some c ∧ c.wTotalLength.toNat = body.length

/-- No second answer is a configuration descriptor that gives another length than its own. -/
def NoneTruncated (get : Getter) (configIndex : UInt8) (header : Bytes 6)
    (replies : List Reply) : Prop :=
  ∀ body ds, Body get configIndex header replies body → Grammar body ds →
    (le16 (byteAt body 2) (byteAt body 3)).toNat = body.length

section
variable {get : Getter} {configIndex : UInt8} {header : Bytes 6} {replies : List Reply}
  {raw : List UInt8} {ds : List Descriptor}

theorem described_wTotalLength :
    (described raw ds).wTotalLength = le16 (byteAt raw 2) (byteAt raw 3) := by
  simp [described, ConfigDescriptor.ofBytes, byteAt]

theorem whole_iff (hget : get.Sound) :
    Whole (readConfig get) get configIndex header replies ↔
      NoneTruncated get configIndex header replies := by
  constructor
  · intro whole body ds hbody g
    have hlen := hbody.length_le hget
    obtain ⟨m, built⟩ := sanitize_of_grammar ⟨1, []⟩ hlen g
    obtain ⟨more, rest, hrun⟩ := readConfig_body hget hbody (fun _ => true)
      (fun n => .replicate n 0) {} rfl
    rw [sanitize_append _ hlen, built] at hrun
    obtain ⟨c, hc, length⟩ := whole _ _ _ _ rest body hrun rfl hbody
    cases hc
    rw [← described_wTotalLength, length]
  · intro h ok rawdesc mem s rest body hrun hr hbody
    obtain ⟨body', more, hbody', parsed⟩ := readConfig_success hget hrun hr
    cases hbody.unique hbody'
    have hlen := hbody.length_le hget
    rw [sanitize_append _ hlen] at parsed
    obtain ⟨ds, g, hc⟩ := sanitize_success hlen parsed hr
    refine ⟨_, hc, ?_⟩
    rw [described_wTotalLength, h body ds hbody g]

end

/-- Both readers of configuration descriptors return whole descriptors exactly if no
second answer is a truncated descriptor that is well formed. -/
theorem config_whole_iff (configIndex : UInt8) (header : Bytes 6) (replies : List Reply) :
    (Whole libusbyGetConfigDescriptor libusbyGetDescriptor configIndex header replies ↔
        NoneTruncated libusbyGetDescriptor configIndex header replies) ∧
      (Whole libusbyGetConfigDescriptorCached usbybGetDescriptorCached configIndex header replies ↔
        NoneTruncated usbybGetDescriptorCached configIndex header replies) :=
  ⟨whole_iff libusbyGetDescriptor_sound, whole_iff usbybGetDescriptorCached_sound⟩

/-- `storage` as the beginning of a descriptor of 41 bytes, with a second alternate setting. -/
def storageFront : List UInt8 := storage.set 2 41

/-- A device that answers the request for 41 bytes with 32. -/
def cutShort : List Reply := [.ok (storageFront.take 6), .ok storageFront]

theorem config_whole_fails : ∃ configIndex header replies,
    ¬ Whole libusbyGetConfigDescriptor libusbyGetDescriptor configIndex header replies ∧
      ¬ Whole libusbyGetConfigDescriptorCached usbybGetDescriptorCached configIndex header
        replies := by
  have g : Grammar storageFront storageDescriptors := (grammar_storage_iff (by decide)).2 (by decide)
  refine ⟨0, .replicate 6 0, cutShort, fun whole => ?_, fun whole => ?_⟩
  · have length := (whole_iff libusbyGetDescriptor_sound).1 whole storageFront _
      ⟨_, _, _, rfl, rfl⟩ g
    cases length
  · have length := (whole_iff usbybGetDescriptorCached_sound).1 whole storageFront _
      ⟨_, _, _, rfl, rfl⟩ g
    cases length

end Libusby.Core
