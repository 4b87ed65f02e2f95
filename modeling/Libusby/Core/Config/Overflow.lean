import Libusby.Core.Config.Correct

/-!
# Endpoint descriptors without a place

The loop compares the number of endpoint descriptors with `bNumEndpoints` only
at the next interface descriptor and at the end. Until then nothing keeps
`endp_desc_index` below the size of the endpoint array, or `intf_desc` from being
null: the copy of an endpoint stays in bounds exactly on the byte strings in
which every endpoint descriptor that the loop gets to has its place (`Roomy`).
-/

namespace Libusby.Core.Config

open Foundations

/-- A state of some call at the loop condition. -/
def LoopState (raw : List UInt8) (p : Parse) : Prop :=
  ∃ (ok : Nat → Bool) (mem : Memory), Header raw ∧ ok mem.calls = true ∧
    ok (mem.calls + 1) = true ∧ Reaches ok (entry raw mem.start) p

/-- The iteration that begins here gets to the copy of an endpoint. -/
def CopiesEndpoint (p : Parse) : Prop :=
  p.wTotalLength ≠ 0 ∧ readByte p.rawdesc 0 = .ok 7 ∧ 7 ≤ p.wTotalLength.toNat ∧
    readByte p.rawdesc 1 = .ok 5

/-- `intf_desc` is not null and its endpoint array has an element
`endp_desc_index`. -/
def CopyInBounds (b : Build) : Prop :=
  ∃ d, b.current = some d ∧ b.endpDescIndex < d.bNumEndpoints.toNat

/-- After any descriptors that pass the checks of the loop, an endpoint
descriptor finds an interface descriptor that misses one. -/
def Roomy (raw : List UInt8) : Prop :=
  ∀ pre d rest, raw.drop 9 = pre.flatten ++ d ++ rest → Accepted (numInterfaces raw) pre →
    Framed d → isEndpoint d = true → d.length = 7 → HasRoom pre

section
variable {raw header input : List UInt8} {pre : List Descriptor} {p : Parse} {b : Build}

theorem Represents.copyInBounds_iff (hb : Represents header pre b) :
    CopyInBounds b ↔ HasRoom pre := by
  unfold CopyInBounds HasRoom
  cases h : openInterface pre with
  | none => simp [hb.current_none h]
  | some r =>
    obtain ⟨i, q⟩ := r
    obtain ⟨-, -, hidx, -⟩ := hb.cursor i q h
    rw [hb.current_some h]
    simp [hidx, partialAlt, InterfaceDescriptor.ofBytes, numEndpoints]

/-- What the iteration copies is an endpoint descriptor of 7 bytes. -/
theorem At.copiesEndpoint_iff (hp : At header input pre p) : CopiesEndpoint p ↔
    ∃ d rest, p.rawdesc = d ++ rest ∧ Framed d ∧ isEndpoint d = true ∧ d.length = 7 := by
  constructor
  · rintro ⟨-, h0, h7, h1⟩
    have hlen : (p.rawdesc.take 7).length = 7 := by
      rw [List.length_take, hp.length]
      omega
    rw [← List.take_append_drop 7 p.rawdesc, readByte_descriptor (by omega)] at h0 h1
    refine ⟨p.rawdesc.take 7, p.rawdesc.drop 7, (List.take_append_drop ..).symm, ⟨by omega, ?_⟩, ?_, hlen⟩
    · rw [Except.ok.inj h0, hlen]
      rfl
    · simp [isEndpoint, Except.ok.inj h1]
  · rintro ⟨d, rest, hd, hf, he, seven⟩
    refine ⟨hp.nonzero hd hf, ?_, ?_, ?_⟩
    · rw [hd, readByte_descriptor (by omega), (hf.bLength_eq (m := 7)).2 seven]
    · rw [← hp.length, hd, List.length_append]
      omega
    · rw [hd, readByte_descriptor (by omega)]
      simpa [isEndpoint] using he

end

/-- Every endpoint is copied into its array exactly if every endpoint descriptor
that the loop gets to has its place. -/
theorem copies_in_bounds_iff (raw : List UInt8) (hlen : raw.length ≤ 65535) :
    (∀ p, LoopState raw p → CopiesEndpoint p → CopyInBounds p.build) ↔
      (Header raw → Roomy raw) := by
  constructor
  · intro h hh pre d rest hs hacc hf he seven
    rw [← numInterfaces_take] at hacc
    have start : At (raw.take 9) (raw.drop 9) [] (entry raw (Memory.start {})) :=
      entry_at hlen hh.length
    have hsplit : raw.drop 9 = pre.flatten ++ (d ++ rest) := by rw [hs, List.append_assoc]
    have hok : ∀ m : Nat, (fun _ => true) m = true := fun _ => rfl
    obtain ⟨q, hreach, hq, hat⟩ := reaches_of_accepted hok start hacc hsplit
    rw [← hat.represents.copyInBounds_iff]
    exact h q ⟨_, {}, hh, rfl, rfl, hreach⟩ (hat.copiesEndpoint_iff.2 ⟨d, rest, hq, hf, he, seven⟩)
  · rintro h p ⟨ok, mem, hh, -, -, hreach⟩ hcopy
    obtain ⟨pre, hat⟩ := hreach.at (entry_at hlen hh.length)
    obtain ⟨d, rest, hd, hf, he, seven⟩ := hat.copiesEndpoint_iff.1 hcopy
    rw [hat.represents.copyInBounds_iff]
    have hacc := hat.accepted
    rw [numInterfaces_take] at hacc
    refine h hh pre d rest ?_ hacc hf he seven
    rw [hat.split, hd, List.append_assoc]

theorem byteAt_append {d rest : List UInt8} (h : d ≠ []) : byteAt (d ++ rest) 0 = byteAt d 0 := by
  cases d with
  | nil => exact absurd rfl h
  | cons => rfl

/-- Descriptors that frame themselves can be split off in one way only. -/
theorem framed_prefix {pre ds : List Descriptor} {rest : List UInt8} (hpre : ∀ d ∈ pre, Framed d)
    (hds : ∀ d ∈ ds, Framed d) (h : ds.flatten = pre.flatten ++ rest) : ∃ post, ds = pre ++ post := by
  induction pre generalizing ds with
  | nil => exact ⟨ds, rfl⟩
  | cons x pre ih =>
    obtain ⟨xtwo, xlen⟩ := hpre x (by simp)
    have xne : x ≠ [] := by rintro rfl; simp at xtwo
    cases ds with
    | nil => simp_all
    | cons y ds =>
      obtain ⟨ytwo, ylen⟩ := hds y (by simp)
      have yne : y ≠ [] := by rintro rfl; simp at ytwo
      rw [List.flatten_cons, List.flatten_cons, List.append_assoc] at h
      have hlen : y.length = x.length := by
        rw [← ylen, ← xlen, ← byteAt_append yne, h, byteAt_append xne]
      obtain ⟨rfl, htail⟩ := List.append_inj h hlen
      obtain ⟨post, rfl⟩ := ih (fun d hd => hpre d (.tail _ hd)) (fun d hd => hds d (.tail _ hd)) htail
      exact ⟨post, rfl⟩

/-- In a configuration descriptor every endpoint has its place. -/
theorem Grammar.roomy {raw : List UInt8} {ds : List Descriptor} (g : Grammar raw ds) : Roomy raw := by
  intro pre d rest hs hacc hf he _
  have framed : ∀ x ∈ pre ++ [d], Framed x := by
    intro x hx
    rcases List.mem_append.1 hx with hx | hx
    · obtain ⟨p, q, hp⟩ := List.append_of_mem hx
      exact (accepted_iff.1 hacc p x q hp).framed
    · rw [List.mem_singleton.1 hx]
      exact hf
  have hsplit : ds.flatten = (pre ++ [d]).flatten ++ rest := by simp [← g.split, hs]
  obtain ⟨post, rfl⟩ := framed_prefix framed g.framed hsplit
  have admits := accepted_iff.1 (grammar_iff.1 g).2.1 pre d post (by simp)
  exact (admits.endpoint he).2

/-- The copies stay in bounds on a complete configuration descriptor. -/
theorem copies_in_bounds_storage : storage.length ≤ 65535 ∧
    ∀ p, LoopState storage p → CopiesEndpoint p → CopyInBounds p.build :=
  ⟨by decide, (copies_in_bounds_iff storage (by decide)).2 fun _ => grammar_storage.roomy⟩

/-- A configuration whose first descriptor is an endpoint. -/
def endpointFirst : List UInt8 :=
  [9, 2, 16, 0, 1, 1, 0, 0x80, 50] ++ [7, 5, 0x81, 2, 0, 2, 0]

/-- The copy of an endpoint can go through a null pointer. -/
theorem copies_out_of_bounds : ¬ ∀ raw : List UInt8, raw.length ≤ 65535 →
    ∀ p, LoopState raw p → CopiesEndpoint p → CopyInBounds p.build := by
  intro h
  have first : LoopState endpointFirst (entry endpointFirst (Memory.start {})) :=
    ⟨fun _ => true, {}, ⟨by decide, by decide, by decide⟩, rfl, rfl, .start⟩
  obtain ⟨d, hd, -⟩ := h endpointFirst (by decide) _ first ⟨by decide, rfl, by decide, rfl⟩
  cases hd

end Libusby.Core.Config
