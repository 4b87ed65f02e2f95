import Libusby.Core.StringDescriptor.Utf8

/-!
# Short buffers

The result for a short buffer is a prefix of the result for 512 bytes if the loop
stops behind the first character, or if every character begins inside the buffer
and none leaves a gap. A character that begins at the end of the buffer or behind
it fails the assertion, since the stop test does not know how much is written.
-/

namespace Libusby.Core.StringDescriptor

open Foundations

/-- With a buffer of this size nothing is stored outside it, no assertion fails,
and the result is what 512 bytes would hold of it. -/
def Truncates (reply : Reply) (length : Nat) : Prop :=
  ∀ data : List UInt8, data.length = length →
    ∃ r buf, libusbyGetStringDescriptorUtf8 reply data length = .ok (r, buf) ∧ r ≤ length ∧
      ∀ data' : List UInt8, data'.length = 512 → ∀ o buf',
        libusbyGetStringDescriptorUtf8 reply data' 512 = .ok (o, buf') → 0 ≤ o →
          r = min (length : Int) o ∧ buf.take r.toNat = buf'.take r.toNat

/-- The first character fills the buffer, or all characters begin inside it and
only the first is supplementary. -/
def Fits (decoded : List Char × Bool) (length : Nat) : Prop :=
  length ≤ firstWidth decoded.1 ∨
    (∀ o ∈ starts 0 0 decoded.1, o < length) ∧
      (decoded.2 = true → ∀ c ∈ decoded.1.tail, ¬ Supplementary c)

instance (decoded : List Char × Bool) (length : Nat) : Decidable (Fits decoded length) :=
  inferInstanceAs (Decidable (_ ∨ _))

section
variable {prev offset length : Nat} {c : Char} {cs : List Char} {reply : Reply}

theorem layout_no_gap (h : ∀ c ∈ cs, ¬ Supplementary c) :
    layout prev cs = (cs.flatMap fun c => written (code c)).map some := by
  induction cs generalizing prev with
  | nil => rfl
  | cons c cs ih =>
    obtain ⟨hc, rest⟩ := List.forall_mem_cons.1 h
    rw [layout_cons, ih rest, gap, if_neg hc]
    simp

theorem layout_first : layout 0 (c :: cs) = (written (code c)).map some ++ layout (width c) cs := by
  simp [layout_cons, gap]

/-- A supplementary character begins behind a cell that was passed over. -/
theorem exists_gap (offset : Nat) (hprev : 0 < prev) (hc : c ∈ cs) (hs : Supplementary c) :
    ∃ k, (layout prev cs)[k]? = some none ∧ ∃ o ∈ starts offset prev cs, offset + k < o := by
  induction cs generalizing prev offset with
  | nil => cases hc
  | cons d cs ih =>
    by_cases hd : Supplementary d
    · refine ⟨0, ?_, offset + gap prev d, List.mem_cons_self .., ?_⟩
      · rw [layout_cons, gap, if_pos hd]
        cases prev with
        | zero => omega
        | succ prev => simp [List.replicate_succ]
      · rw [gap, if_pos hd]
        omega
    · have hcs : c ∈ cs := by
        rcases List.mem_cons.1 hc with rfl | hcs
        · exact absurd hs hd
        · exact hcs
      obtain ⟨k, hk, o, ho, hlt⟩ := ih (offset + gap prev d + width d) width_pos hcs
      refine ⟨width d + k, ?_, o, List.mem_cons_of_mem _ ho, ?_⟩
      · rw [layout_cons, gap, if_neg hd, List.getElem?_append_right (by simp [width])]
        simpa [width] using hk
      · rw [gap, if_neg hd] at hlt
        omega

/-- Only the first character may be supplementary. -/
theorem layout_no_later_gap (h : ∀ c ∈ cs.tail, ¬ Supplementary c) :
    layout 0 cs = (cs.flatMap fun c => written (code c)).map some := by
  cases cs with
  | nil => rfl
  | cons c cs =>
    have rest : ∀ d ∈ cs, ¬ Supplementary d := h
    rw [layout_first, layout_no_gap rest]
    simp

theorem firstWidth_le : firstWidth cs ≤ (layout 0 cs).length := by
  cases cs with
  | nil => exact Nat.zero_le _
  | cons c cs => simp [layout_first, firstWidth, width]

theorem get_short (h : reply.Accepted) {data : List UInt8} (hdata : data.length = length) :
    libusbyGetStringDescriptorUtf8 reply data length =
      if length ≤ firstWidth (decodeUtf16 reply.units).1 then
        .ok (length, overlay (layout 0 (decodeUtf16 reply.units).1) data)
      else outcome length [] data 0 (decodeUtf16 reply.units) := by
  rw [reply.get_accepted h, transcode_start _ hdata]

end

theorem truncates_of_rejected {reply : Reply} {length : Nat} (h : ¬ reply.Accepted) :
    Truncates reply length := by
  intro data _
  obtain ⟨r, hr, hget⟩ := Reply.get_rejected h
  refine ⟨r, data, hget _ _, by omega, fun data' _ o buf' hget' ho => ?_⟩
  rw [hget] at hget'
  simp only [Except.ok.injEq, Prod.mk.injEq] at hget'
  omega

/-- The result for 512 bytes, if it is one. -/
theorem get_512 {reply : Reply} {data buf : List UInt8} {o : Int} (h : reply.Accepted)
    (hdata : data.length = 512) (hget : libusbyGetStringDescriptorUtf8 reply data 512 = .ok (o, buf))
    (ho : 0 ≤ o) : (decodeUtf16 reply.units).2 = true ∧
      o = (layout 0 (decodeUtf16 reply.units).1).length ∧
      buf = overlay (layout 0 (decodeUtf16 reply.units).1) data := by
  rw [get_large h (Nat.le_refl _) hdata] at hget
  simp only [Except.ok.injEq, Prod.mk.injEq] at hget
  obtain ⟨rfl, rfl⟩ := hget
  cases hwf : (decodeUtf16 reply.units).2 with
  | false =>
    rw [hwf, if_neg Bool.false_ne_true] at ho
    exact absurd ho (by decide)
  | true => simp

theorem truncates_of_fits {reply : Reply} {length : Nat} (h : reply.Accepted)
    (hfits : Fits (decodeUtf16 reply.units) length) : Truncates reply length := by
  intro data hdata
  rw [get_short h hdata]
  by_cases hfirst : length ≤ firstWidth (decodeUtf16 reply.units).1
  · rw [if_pos hfirst]
    refine ⟨length, _, rfl, Int.le_refl _, fun data' hdata' o buf' hget ho => ?_⟩
    obtain ⟨-, rfl, rfl⟩ := get_512 h hdata' hget ho
    have total : length ≤ (layout 0 (decodeUtf16 reply.units).1).length :=
      Nat.le_trans hfirst firstWidth_le
    refine ⟨by omega, ?_⟩
    rw [Int.toNat_natCast]
    cases hcs : (decodeUtf16 reply.units).1 with
    | nil =>
      rw [hcs] at hfirst
      rw [Nat.le_zero.1 hfirst]
      simp
    | cons c cs =>
      rw [hcs] at hfirst
      rw [layout_first, take_overlay_stored hfirst (by omega),
        take_overlay_stored hfirst (by have := width_le (c := c); simp [firstWidth] at hfirst; omega)]
  · obtain ⟨inside, hgap⟩ := hfits.resolve_left hfirst
    rw [if_neg hfirst, outcome, List.length_nil, if_pos inside, List.nil_append]
    cases hwf : (decodeUtf16 reply.units).2 with
    | false =>
      refine ⟨_, _, rfl, ?_, fun data' hdata' o buf' hget ho => ?_⟩
      · have : Error.io.code ≤ 0 := by decide
        simp
        omega
      · have := (get_512 h hdata' hget ho).1
        simp [hwf] at this
    | true =>
      refine ⟨_, _, rfl, ?_, fun data' hdata' o buf' hget ho => ?_⟩
      · rw [if_pos rfl]
        omega
      · obtain ⟨-, rfl, rfl⟩ := get_512 h hdata' hget ho
        have short := length_layout_lt reply
        have stored := layout_no_later_gap (hgap hwf)
        rw [if_pos rfl, Int.toNat_natCast]
        refine ⟨by omega, ?_⟩
        rw [stored, List.length_map] at short ⊢
        rw [← List.append_nil (List.map some _), take_overlay_stored (by omega) (by omega),
          take_overlay_stored (by omega) (by omega)]

theorem fits_of_truncates {reply : Reply} {length : Nat} (h : reply.Accepted)
    (ht : Truncates reply length) : Fits (decodeUtf16 reply.units) length := by
  by_cases hfirst : length ≤ firstWidth (decodeUtf16 reply.units).1
  · exact Or.inl hfirst
  obtain ⟨r, buf, hget, -, hcmp⟩ := ht (List.replicate length 0) (by simp)
  rw [get_short h (by simp), if_neg hfirst, outcome, List.length_nil] at hget
  by_cases inside : ∀ o ∈ starts 0 0 (decodeUtf16 reply.units).1, o < length
  swap
  · rw [if_neg inside] at hget
    cases hget
  refine Or.inr ⟨inside, fun hwf c hc hs => ?_⟩
  rw [if_pos inside, hwf] at hget
  simp only [if_true, List.nil_append, Except.ok.injEq, Prod.mk.injEq] at hget
  obtain ⟨rfl, rfl⟩ := hget
  have large := get_large h (Nat.le_refl _) (List.length_replicate (n := 512) (a := (1 : UInt8)))
  simp only [hwf, if_true] at large
  obtain ⟨-, htake⟩ := hcmp _ List.length_replicate _ _ large (by omega)
  cases hcs : (decodeUtf16 reply.units).1 with
  | nil =>
    rw [hcs] at hc
    cases hc
  | cons d cs =>
    rw [hcs] at hc inside htake
    obtain ⟨k, hk, o, ho, hlt⟩ :=
      exists_gap (0 + gap 0 d + width d) (width_pos (c := d)) hc hs
    have mem : o ∈ starts 0 0 (d :: cs) := List.mem_cons_of_mem _ ho
    have hlength := inside o mem
    have htotal := lt_of_mem_starts mem
    have cell : (layout 0 (d :: cs))[width d + k]? = some none := by
      rw [layout_first, List.getElem?_append_right (by simp [width])]
      simpa [width] using hk
    have differ := congrArg (·[width d + k]?) htake
    have inside : width d + k < min length (layout 0 (d :: cs)).length := by omega
    simp only [Int.toNat_natCast, List.getElem?_take, if_pos inside, getElem?_overlay, cell] at differ
    rw [List.getElem?_replicate, if_pos (by omega), List.getElem?_replicate,
      if_pos (by have := length_layout_lt reply; rw [hcs] at this; omega)] at differ
    exact absurd differ (by decide)

/-- Exactly these replies are cut cleanly. -/
theorem truncates_iff (reply : Reply) (length : Nat) :
    Truncates reply length ↔ (reply.Accepted → Fits (decodeUtf16 reply.units) length) := by
  refine ⟨fun ht h => fits_of_truncates h ht, fun h => ?_⟩
  by_cases accepted : reply.Accepted
  · exact truncates_of_fits accepted (h accepted)
  · exact truncates_of_rejected accepted

/-- `ABC`. -/
def abc : Reply := .ofBytes [8, 3, 0x41, 0, 0x42, 0, 0x43, 0] (by decide)

/-- With two bytes for three characters the assertion fails. -/
theorem truncates_fails : ¬ ∀ reply : Reply, ∀ length : Nat, Truncates reply length := by
  intro h
  have accepted : abc.Accepted := ⟨by decide, by decide, by decide⟩
  exact absurd (fits_of_truncates accepted (h abc 2)) (by decide)

end Libusby.Core.StringDescriptor
