import Mathlib.Data.List.Induction
import Libusby.Core.Config.Simulation

/-!
# The parser accepts its grammar

The checks of the parser look backwards, from each descriptor to the ones before
it (`Accepted`); those of the grammar look forwards, from each interface
descriptor to its endpoints. Both say the same (`grammar_iff`), so with enough
memory the parser returns success exactly on the configuration descriptors and
builds the tree that they describe (`sanitize_correct`).
-/

namespace Libusby.Core.Config

open Foundations

section
variable {n k : Nat} {raw : List UInt8} {pre post p q ds : List Descriptor} {d i : Descriptor}

theorem accepted_iff :
    Accepted n ds ↔ ∀ pre d post, ds = pre ++ d :: post → Admits n pre d := by
  constructor
  · intro h
    induction h with
    | nil => simp
    | @snoc ds e hacc hadm ih =>
      intro pre d post hs
      rcases List.eq_nil_or_concat post with rfl | ⟨post, x, rfl⟩
      · obtain ⟨rfl, h⟩ := List.append_inj' hs rfl
        cases h
        exact hadm
      · rw [List.concat_eq_append, ← List.cons_append, ← List.append_assoc] at hs
        exact ih pre d post (List.append_inj' hs rfl).1
  · intro h
    induction ds using List.reverseRecOn with
    | nil => exact .nil
    | append_singleton ds d ih =>
      refine .snoc (ih fun pre e post hs => ?_) (h ds d [] rfl)
      exact h pre e (post ++ [d]) (by simp [hs])

theorem endpoints_append_none (h : openInterface q = none) :
    endpoints (q ++ ds) = endpoints q ++ endpoints ds := by
  have all : ∀ x ∈ q, (!isInterface x) = true := by simpa using openInterface_eq_none.1 h
  rw [endpoints, List.takeWhile_append_of_pos all, endpoints_of_none h, endpoints, List.filter_append,
    List.map_append]

/-- Descriptors either contain no interface descriptor or have a first one. -/
theorem first_interface (ds : List Descriptor) : openInterface ds = none ∨
    ∃ q i post, ds = q ++ i :: post ∧ openInterface q = none ∧ isInterface i = true := by
  induction ds with
  | nil => exact .inl rfl
  | cons d ds ih =>
    by_cases hd : isInterface d = true
    · exact .inr ⟨[], d, ds, rfl, rfl, hd⟩
    · rcases ih with h | ⟨q, i, post, rfl, hq, hi⟩
      · exact .inl (by simp [openInterface, h, hd])
      · exact .inr ⟨d :: q, i, post, rfl, by simp [openInterface, hq, hd], hi⟩

/-- The endpoint counts of the grammar and of the parser. -/
theorem closed_iff : ((∀ pre d post, ds = pre ++ d :: post → isInterface d = true → Closed pre) ∧
      Closed ds) ↔
    ∀ pre d post, ds = pre ++ d :: post → isInterface d = true →
      (endpoints post).length = numEndpoints d := by
  constructor
  · rintro ⟨before, last⟩ pre d post rfl hd
    rcases first_interface post with hnone | ⟨q, i, post, rfl, hq, hi⟩
    · exact last d post (openInterface_append hd hnone)
    · rw [endpoints_append_interface hi]
      apply before (pre ++ d :: q) i post (by simp) hi d q
      exact openInterface_append hd hq
  · intro h
    refine ⟨fun pre d post hs hd i q hopen => ?_, fun i q hopen => ?_⟩
    · obtain ⟨p, rfl, hi, -⟩ := openInterface_eq_some hopen
      rw [← endpoints_append_interface (p := q) (q := post) hd]
      exact h p i (q ++ d :: post) (by simp [hs]) hi
    · obtain ⟨p, rfl, hi, -⟩ := openInterface_eq_some hopen
      exact h p i q rfl hi

/-- The grammar in terms of what the parser checks. -/
theorem grammar_iff : Grammar raw ds ↔
    (9 ≤ raw.length ∧ byteAt raw 0 = 9 ∧ byteAt raw 1 = 2 ∧ raw.drop 9 = ds.flatten) ∧
      Accepted (numInterfaces raw) ds ∧ Closed ds ∧
      ∀ k < numInterfaces raw, ∃ d ∈ ds, isInterfaceFor d k = true := by
  constructor
  · intro g
    obtain ⟨before, last⟩ := closed_iff.2 fun pre d post hs hd => (g.interface pre d post hs hd).2.2.2
    refine ⟨⟨g.length, g.bLength, g.bDescriptorType, g.split⟩, ?_, last, g.complete⟩
    refine accepted_iff.2 fun pre d post hs => ⟨?_, fun hd => ?_, fun he => ?_⟩
    · exact g.framed d (by simp [hs])
    · obtain ⟨nine, inside, next, -⟩ := g.interface pre d post hs hd
      exact ⟨before pre d post hs hd, nine, inside, next⟩
    · obtain ⟨seven, i, hi, hint⟩ := g.endpoint pre d post hs he
      refine ⟨seven, ?_⟩
      obtain ⟨⟨i, q⟩, hopen⟩ : ∃ r, openInterface pre = some r := by
        rw [← Option.ne_none_iff_exists']
        exact fun hnone => by simp [openInterface_eq_none.1 hnone i hi] at hint
      refine ⟨i, q, hopen, ?_⟩
      obtain ⟨p, rfl, hi, hq⟩ := openInterface_eq_some hopen
      have full := (g.interface p i (q ++ d :: post) (by simp [hs]) hi).2.2.2
      have hd : isInterface d = false := by
        by_contra hd
        simp [isEndpoint_of_isInterface (by simpa using hd)] at he
      rw [endpoints_append_none hq] at full
      simp [endpoints, hd, he] at full ⊢
      omega
  · rintro ⟨⟨length, bLength, bDescriptorType, split⟩, hacc, last, complete⟩
    have admits := accepted_iff.1 hacc
    have full := closed_iff.1 ⟨fun pre d post hs hd => ((admits pre d post hs).interface hd).1, last⟩
    refine ⟨length, bLength, bDescriptorType, split, ?_, ?_, ?_, complete⟩
    · intro d hd
      obtain ⟨pre, post, hs⟩ := List.append_of_mem hd
      exact (admits pre d post hs).framed
    · intro pre d post hs hd
      obtain ⟨-, nine, inside, next⟩ := (admits pre d post hs).interface hd
      exact ⟨nine, inside, next, full pre d post hs hd⟩
    · intro pre d post hs he
      obtain ⟨seven, i, q, hopen, -⟩ := (admits pre d post hs).endpoint he
      obtain ⟨p, rfl, hi, -⟩ := openInterface_eq_some hopen
      exact ⟨seven, i, by simp, hi⟩

theorem partialAlts_eq_altsettings (h : ∀ pre d post, ds = pre ++ d :: post → isInterface d = true →
    (endpoints post).length = numEndpoints d) : partialAlts k ds = altsettings k ds := by
  induction ds with
  | nil => rfl
  | cons d ds ih =>
    have tail := ih fun pre e post hs => h (d :: pre) e post (by simp [hs])
    rw [partialAlts, altsettings, tail]
    by_cases hd : isInterfaceFor d k = true
    · have full := h [] d ds rfl (by simp_all [isInterfaceFor])
      simp [hd, partialAlt, padded, full]
    · simp [hd]

end

/-! ## The function -/

section
variable {raw header input : List UInt8} {ds : List Descriptor} {ok : Nat → Bool} {mem : Memory}
  {b : Build} {out : Sanitized}

/-- The state in which the loop is entered. -/
def entry (raw : List UInt8) (mem : Memory) : Parse :=
  ⟨raw.drop 9, UInt16.ofNat raw.length - 9, .start (raw.take 9) mem⟩

theorem numInterfaces_take : numInterfaces (raw.take 9) = numInterfaces raw := by
  simp [numInterfaces, byteAt]

theorem toNat_length (hlen : raw.length ≤ 65535) :
    (UInt16.ofNat raw.length).toNat = raw.length :=
  UInt16.toNat_ofNat_of_lt (by rw [UInt16.size]; omega)

theorem entry_at (hlen : raw.length ≤ 65535) (h9 : 9 ≤ raw.length) :
    At (raw.take 9) (raw.drop 9) [] (entry raw mem) where
  split := rfl
  length := by
    have : (9 : UInt16) ≤ UInt16.ofNat raw.length := by
      rw [UInt16.le_iff_toNat_le, toNat_length hlen]
      exact h9
    simp only [entry, List.length_drop]
    rw [UInt16.toNat_sub_of_le _ _ this, toNat_length hlen]
    rfl
  accepted := .nil
  represents := represents_start

theorem sanitizeError_r (h : sanitizeError b = .ok out) : out.r = .io := by
  obtain ⟨m, -, h⟩ := bind_eq_ok.1 h
  cases h
  rfl

/-- The final checks, in terms of the descriptors that were read. -/
theorem sanitizeEnd_eq (hb : Represents header ds b) (hc : Closed ds)
    (complete : ∀ k < numInterfaces header, ∃ d ∈ ds, isInterfaceFor d k = true) :
    sanitizeEnd b = .ok ⟨.success, some b.config, b.mem⟩ := by
  rw [sanitizeEnd, if_neg fun hu => hb.unfinished_iff.1 hu hc, if_neg]
  rintro ⟨i, hi, hzero⟩
  simp only [hb.config, treeOf, ConfigDescriptor.ofBytes, Option.getD_some, List.mem_map,
    List.mem_range] at hi
  obtain ⟨k, hk, rfl⟩ := hi
  obtain ⟨d, hd, hfor⟩ := complete k hk
  rw [Interface.numAltsetting, length_partialAlts, List.countP_eq_zero] at hzero
  exact hzero d hd hfor

theorem sanitizeEnd_success (hb : Represents header ds b) (h : sanitizeEnd b = .ok out)
    (hr : out.r = .success) :
    Closed ds ∧ ∀ k < numInterfaces header, ∃ d ∈ ds, isInterfaceFor d k = true := by
  unfold sanitizeEnd at h
  split at h
  case isTrue =>
    rw [sanitizeError_r h] at hr
    cases hr
  case isFalse hu =>
    split at h
    case isTrue =>
      rw [sanitizeError_r h] at hr
      cases hr
    case isFalse hz =>
      refine ⟨by_contra fun hc => hu (hb.unfinished_iff.2 hc), fun k hk => ?_⟩
      by_contra hnone
      push Not at hnone
      refine hz ⟨⟨partialAlts k ds⟩, ?_, ?_⟩
      · simpa [hb.config, treeOf, ConfigDescriptor.ofBytes] using ⟨k, hk, rfl⟩
      · rw [Interface.numAltsetting, length_partialAlts, List.countP_eq_zero]
        exact hnone

/-- The ledger after the first two allocations. -/
def Memory.start (mem : Memory) : Memory := ⟨mem.calls + 2, .interfaces :: .config :: mem.blocks⟩

theorem sanitize_header (hconfig : ok mem.calls = true) (hinterfaces : ok (mem.calls + 1) = true)
    (hlen : raw.length ≤ 65535) (h : Header raw) :
    usbyiSanitizeConfigDescriptor ok raw (UInt16.ofNat raw.length) mem =
      sanitizeLoop ok (entry raw mem.start) := by
  have h9 := h.length
  have long : ¬ UInt16.ofNat raw.length < 9 := by
    rw [UInt16.lt_iff_toNat_lt, toNat_length hlen]
    simpa using h9
  rw [usbyiSanitizeConfigDescriptor, if_neg long]
  simp only [readByte_byteAt (show 1 < raw.length by omega), readByte_byteAt (show 0 < raw.length by omega),
    ok_bind, h.bLength, h.bDescriptorType, ne_eq, not_true_eq_false, if_false, Memory.malloc, hconfig,
    hinterfaces, if_true, readBytes_of_le h9]
  rfl

/-- The tree that was built is the one that the descriptors describe. -/
theorem Grammar.treeOf_eq (g : Grammar raw ds) :
    treeOf (raw.take 9) (fun k => partialAlts k ds) = described raw ds := by
  rw [described, treeOf, numInterfaces_take]
  simp only [partialAlts_eq_altsettings fun pre d post hs hd => (g.interface pre d post hs hd).2.2.2]

theorem sanitizeLoop_success (hlen : raw.length ≤ 65535) (hh : Header raw)
    (h : sanitizeLoop ok (entry raw mem) = .ok out) (hr : out.r = .success) :
    ∃ ds, Grammar raw ds ∧ out.config = some (described raw ds) := by
  unfold sanitizeLoop at h
  split at h
  case h_1 => cases h
  case h_2 =>
    rw [sanitizeError_r h] at hr
    cases hr
  case h_3 q hloop =>
    obtain ⟨hreach, hzero⟩ := reaches_of_parseLoop hloop
    obtain ⟨ds, hat⟩ := hreach.at (entry_at hlen hh.length)
    have hrest : q.rawdesc = [] := by
      rw [← List.length_eq_zero_iff, hat.length, hzero, UInt16.toNat_zero]
    obtain ⟨closed, complete⟩ := sanitizeEnd_success hat.represents h hr
    rw [sanitizeEnd_eq hat.represents closed complete] at h
    cases h
    have hsplit := hat.split
    have hacc := hat.accepted
    rw [hrest, List.append_nil] at hsplit
    rw [numInterfaces_take] at hacc complete
    have g : Grammar raw ds := grammar_iff.2
      ⟨⟨hh.length, hh.bLength, hh.bDescriptorType, hsplit⟩, hacc, closed, complete⟩
    refine ⟨ds, g, ?_⟩
    rw [hat.represents.config, g.treeOf_eq]

theorem sanitizeLoop_of_grammar (hok : ∀ m, ok m = true) (hlen : raw.length ≤ 65535)
    (g : Grammar raw ds) :
    ∃ m, sanitizeLoop ok (entry raw mem) = .ok ⟨.success, some (described raw ds), m⟩ := by
  obtain ⟨-, hacc, closed, complete⟩ := grammar_iff.1 g
  rw [← numInterfaces_take] at hacc complete
  have start : At (raw.take 9) (raw.drop 9) [] (entry raw mem) := entry_at hlen g.length
  have hsplit : raw.drop 9 = ds.flatten ++ [] := by simp [g.split]
  obtain ⟨q, hreach, hrest, hat⟩ := reaches_of_accepted hok start hacc hsplit
  have hzero : q.wTotalLength = 0 := by
    rw [← UInt16.toNat_inj, ← hat.length, hrest]
    rfl
  refine ⟨q.build.mem, ?_⟩
  rw [sanitizeLoop, hreach.parseLoop_eq, parseLoop, if_pos hzero]
  simp only
  rw [sanitizeEnd_eq hat.represents closed complete, hat.represents.config, g.treeOf_eq]

theorem sanitize_of_grammar (mem : Memory) (hlen : raw.length ≤ 65535) (g : Grammar raw ds) :
    ∃ m, usbyiSanitizeConfigDescriptor (fun _ => true) raw (.ofNat raw.length) mem =
      .ok ⟨.success, some (described raw ds), m⟩ := by
  rw [sanitize_header rfl rfl hlen ⟨g.length, g.bLength, g.bDescriptorType⟩]
  exact sanitizeLoop_of_grammar (fun _ => rfl) hlen g

/-- Whatever the allocations do, success means a configuration descriptor and its tree. -/
theorem sanitize_success (hlen : raw.length ≤ 65535)
    (h : usbyiSanitizeConfigDescriptor ok raw (UInt16.ofNat raw.length) mem = .ok out)
    (hr : out.r = .success) : ∃ ds, Grammar raw ds ∧ out.config = some (described raw ds) := by
  have exit := sanitize_exit ok mem (Nat.le_of_eq (toNat_length hlen))
  generalize usbyiSanitizeConfigDescriptor ok raw (.ofNat raw.length) mem = x at exit h
  cases exit with
  | rejected failed =>
    cases h
    exact absurd hr failed
  | interfaces config full =>
    rw [sanitizeError_r h] at hr
    cases hr
  | loop header config interfaces => exact sanitizeLoop_success hlen header h hr

end

/-- With enough memory `usbyi_sanitize_config_descriptor` returns success exactly
on the configuration descriptors, with the tree that they describe. -/
theorem sanitize_correct (raw : List UInt8) (mem : Memory) (hlen : raw.length ≤ 65535) :
    ((∃ out, usbyiSanitizeConfigDescriptor (fun _ => true) raw (.ofNat raw.length) mem = .ok out ∧
        out.r = .success) ↔ ∃ ds, Grammar raw ds) ∧
      ∀ ds, Grammar raw ds → ∃ m,
        usbyiSanitizeConfigDescriptor (fun _ => true) raw (.ofNat raw.length) mem =
          .ok ⟨.success, some (described raw ds), m⟩ := by
  have build (ds) (g : Grammar raw ds) : ∃ m,
      usbyiSanitizeConfigDescriptor (fun _ => true) raw (.ofNat raw.length) mem =
        .ok ⟨.success, some (described raw ds), m⟩ := by
    rw [sanitize_header rfl rfl hlen ⟨g.length, g.bLength, g.bDescriptorType⟩]
    exact sanitizeLoop_of_grammar (fun _ => rfl) hlen g
  refine ⟨⟨?_, ?_⟩, build⟩
  · rintro ⟨out, h, hr⟩
    obtain ⟨ds, g, -⟩ := sanitize_success hlen h hr
    exact ⟨ds, g⟩
  · rintro ⟨ds, g⟩
    obtain ⟨m, h⟩ := build ds g
    exact ⟨_, h, rfl⟩

/-- A mass storage interface with one alternate setting and two endpoints. -/
def storage : List UInt8 :=
  [9, 2, 32, 0, 1, 1, 0, 0x80, 50] ++ [9, 4, 0, 0, 2, 8, 6, 0x50, 0] ++ [7, 5, 0x81, 2, 0, 2, 0] ++
    [7, 5, 2, 2, 0, 2, 1]

/-- What stands behind the header. -/
def storageDescriptors : List Descriptor :=
  [[9, 4, 0, 0, 2, 8, 6, 0x50, 0], [7, 5, 0x81, 2, 0, 2, 0], [7, 5, 2, 2, 0, 2, 1]]

theorem grammar_storage_iff {raw : List UInt8} (hraw : numInterfaces raw = 1) :
    Grammar raw storageDescriptors ↔ 9 ≤ raw.length ∧ byteAt raw 0 = 9 ∧ byteAt raw 1 = 2 ∧
      raw.drop 9 = storageDescriptors.flatten := by
  have first : Accepted 1 ([] ++ [[9, 4, 0, 0, 2, 8, 6, 0x50, 0]]) :=
    .snoc .nil ⟨by decide, fun _ => ⟨nofun, by decide⟩, nofun⟩
  have second := first.snoc (d := [7, 5, 0x81, 2, 0, 2, 0])
    ⟨by decide, nofun, fun _ => ⟨rfl, _, _, rfl, by decide⟩⟩
  have third := second.snoc (d := [7, 5, 2, 2, 0, 2, 1])
    ⟨by decide, nofun, fun _ => ⟨rfl, _, _, rfl, by decide⟩⟩
  rw [grammar_iff, hraw]
  refine ⟨fun g => g.1, fun g => ⟨g, third, ?_, by decide⟩⟩
  rintro i q ⟨⟩
  rfl

theorem grammar_storage : Grammar storage
    [[9, 4, 0, 0, 2, 8, 6, 0x50, 0], [7, 5, 0x81, 2, 0, 2, 0], [7, 5, 2, 2, 0, 2, 1]] :=
  (grammar_storage_iff (by decide)).2 (by decide)

theorem sanitize_storage : ∃ m, usbyiSanitizeConfigDescriptor (fun _ => true) storage 32 {} =
    .ok ⟨.success, some (described storage
      [[9, 4, 0, 0, 2, 8, 6, 0x50, 0], [7, 5, 0x81, 2, 0, 2, 0], [7, 5, 2, 2, 0, 2, 1]]), m⟩ :=
  (sanitize_correct storage {} (by decide)).2 _ grammar_storage

end Libusby.Core.Config
