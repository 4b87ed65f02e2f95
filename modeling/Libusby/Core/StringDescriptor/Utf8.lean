import Mathlib.Algebra.Group.Nat.Defs
import Libusby.Core.StringDescriptor.Outcome
import Libusby.Core.StringDescriptor.Reply

/-!
# The transcoder against UTF-8

With a buffer for 512 bytes every reply fits, and what the caller gets is
`layout 0` of its characters. That is their UTF-8 encoding exactly for the strings
of `Plain` characters: a code point at the end of its range is encoded a byte too
long, and a surrogate pair loses the offset 0x10000.
-/

namespace Libusby.Core.StringDescriptor

open Foundations

/-- The standard encoding. -/
def utf8 (cs : List Char) : List UInt8 := cs.flatMap String.utf8EncodeChar

/-- Neither supplementary nor the last code point of one, two or three bytes. -/
def Plain (c : Char) : Prop :=
  c.toNat < 0x10000 ∧ c.toNat ≠ 0x7F ∧ c.toNat ≠ 0x7FF ∧ c.toNat ≠ 0xFFFF

instance (c : Char) : Decidable (Plain c) := inferInstanceAs (Decidable (_ ∧ _))

section
variable {cp : UInt32} {c : Char} {cs : List Char} {prev offset : Nat} {us : List UInt16}

theorem toUInt8_or {base cp : UInt32} (k m : Nat) (hbase : base.toNat = 2 ^ k * m)
    (h : cp.toNat < 2 ^ k) : (base ||| cp).toUInt8 = UInt8.ofNat (cp.toNat + base.toNat) := by
  rw [← UInt8.toNat_inj]
  simp only [UInt32.toNat_toUInt8, UInt32.toNat_or, UInt8.toNat_ofNat']
  rw [hbase, Nat.add_comm, Nat.two_pow_add_eq_or_of_lt h]

theorem toNat_shiftRight {n : UInt32} (h : n < 32) :
    (cp >>> n).toNat = cp.toNat / 2 ^ n.toNat := by
  rw [UInt32.toNat_shiftRight, Nat.shiftRight_eq_div_pow, Nat.mod_eq_of_lt]
  simpa [UInt32.lt_iff_toNat_lt] using h

theorem toUInt8_continuationByte :
    (continuationByte cp).toUInt8 = UInt8.ofNat (cp.toNat % 0x40 + 0x80) := by
  have low : (cp &&& 0x3f).toNat = cp.toNat % 0x40 := Nat.and_two_pow_sub_one_eq_mod cp.toNat 6
  have hlt : (cp &&& 0x3f).toNat < 2 ^ 6 := by
    rw [low]
    omega
  rw [continuationByte, toUInt8_or 6 2 rfl hlt, low]
  rfl

/-- The bytes in numbers. -/
theorem written_eq (h : cp < 0x110000) : written cp =
    if cp.toNat < 0x7f then [UInt8.ofNat cp.toNat]
    else if cp.toNat < 0x7ff then
      [UInt8.ofNat (cp.toNat / 64 + 0xC0), UInt8.ofNat (cp.toNat % 64 + 0x80)]
    else if cp.toNat < 0xffff then
      [UInt8.ofNat (cp.toNat / 4096 + 0xe0), UInt8.ofNat (cp.toNat / 64 % 64 + 0x80),
        UInt8.ofNat (cp.toNat % 64 + 0x80)]
    else
      [UInt8.ofNat (cp.toNat / 262144 + 0xf0), UInt8.ofNat (cp.toNat / 4096 % 64 + 0x80),
        UInt8.ofNat (cp.toNat / 64 % 64 + 0x80), UInt8.ofNat (cp.toNat % 64 + 0x80)] := by
  have bound : cp.toNat < 0x110000 := by simpa [UInt32.lt_iff_toNat_lt] using h
  have shift6 : (cp >>> 6).toNat = cp.toNat / 64 := toNat_shiftRight (by decide)
  have shift12 : (cp >>> 12).toNat = cp.toNat / 4096 := toNat_shiftRight (by decide)
  have shift18 : (cp >>> 18).toNat = cp.toNat / 262144 := toNat_shiftRight (by decide)
  simp only [written, UInt32.lt_iff_toNat_lt, UInt32.reduceToNat, List.map_cons, List.map_nil,
    toUInt8_continuationByte, shift6, shift12]
  split_ifs with h1 h2 h3
  · simp
  · rw [toUInt8_or 6 3 rfl (by omega), shift6]
    rfl
  · rw [toUInt8_or 5 7 rfl (by omega), shift12]
    rfl
  · rw [toUInt8_or 4 15 rfl (by omega), shift18]
    rfl

theorem utf8EncodeChar_eq : String.utf8EncodeChar c =
    if c.toNat ≤ 0x7f then [UInt8.ofNat c.toNat]
    else if c.toNat ≤ 0x7ff then
      [UInt8.ofNat (c.toNat / 64 + 0xc0), UInt8.ofNat (c.toNat % 64 + 0x80)]
    else if c.toNat ≤ 0xffff then
      [UInt8.ofNat (c.toNat / 4096 + 0xe0), UInt8.ofNat (c.toNat / 64 % 64 + 0x80),
        UInt8.ofNat (c.toNat % 64 + 0x80)]
    else
      [UInt8.ofNat (c.toNat / 262144 + 0xf0), UInt8.ofNat (c.toNat / 4096 % 64 + 0x80),
        UInt8.ofNat (c.toNat / 64 % 64 + 0x80), UInt8.ofNat (c.toNat % 64 + 0x80)] := by
  have bound := toNat_lt c
  have value : c.val.toNat = c.toNat := rfl
  simp only [String.utf8EncodeChar, value]
  split_ifs with h1 h2 h3
  · rfl
  · rw [Nat.mod_eq_of_lt (by omega)]
  · rw [Nat.mod_eq_of_lt (by omega)]
  · rw [Nat.mod_eq_of_lt (by omega)]

/-- A plain character is encoded as it should be. -/
theorem written_plain (h : Plain c) : written (code c) = String.utf8EncodeChar c := by
  obtain ⟨hbmp, h1, h2, h3⟩ := h
  have hn : ¬ Supplementary c := by
    rw [supplementary_iff]
    omega
  rw [written_eq code_lt, toNat_code, if_neg hn, utf8EncodeChar_eq]
  split_ifs <;> first | rfl | omega

theorem gap_plain (h : Plain c) : gap prev c = 0 := by
  apply if_neg
  rw [supplementary_iff]
  have := h.1
  omega

/-- Any other character goes wrong in its first byte, or in its second. -/
theorem not_plain_ne (h : ¬ Plain c) (xs ys : List UInt8) :
    List.replicate (gap prev c) 0 ++ written (code c) ++ xs ≠ String.utf8EncodeChar c ++ ys := by
  have bound := toNat_lt c
  rw [written_eq code_lt, toNat_code]
  by_cases hs : Supplementary c
  · have low : 0x10000 ≤ c.toNat := hs
    rw [utf8EncodeChar_eq, if_neg (Nat.not_le.2 (by omega)), if_neg (Nat.not_le.2 (by omega)),
      if_neg (Nat.not_le.2 (by omega)), gap, if_pos hs, if_pos hs]
    cases prev with
    | zero =>
      split_ifs <;> intro heq <;>
        simp only [List.replicate_zero, List.nil_append, List.cons_append, List.cons.injEq,
          ← UInt8.toNat_inj, UInt8.toNat_ofNat'] at heq <;> omega
    | succ prev =>
      intro heq
      rw [List.replicate_succ] at heq
      have head := congrArg UInt8.toNat (List.cons.inj heq).1
      rw [UInt8.toNat_ofNat', UInt8.toNat_zero] at head
      omega
  · have high : c.toNat < 0x10000 := by
      rw [supplementary_iff] at hs
      omega
    have last : c.toNat = 0x7F ∨ c.toNat = 0x7FF ∨ c.toNat = 0xFFFF := by
      unfold Plain at h
      omega
    rw [utf8EncodeChar_eq, if_neg hs, gap, if_neg hs]
    obtain hc | hc | hc := last <;> simp [hc]

/-- The bytes of a buffer of zeros. -/
theorem map_layout_eq_utf8 (h : (layout prev cs).map (·.getD 0) = utf8 cs) : ∀ c ∈ cs, Plain c := by
  induction cs generalizing prev with
  | nil => simp
  | cons c cs ih =>
    rw [layout_cons, utf8, List.flatMap_cons, List.map_append, List.map_append,
      List.map_replicate, List.map_map] at h
    simp only [Option.getD_none, Function.comp_def, Option.getD_some, List.map_id'] at h
    have plain : Plain c := by
      by_contra hc
      exact not_plain_ne hc _ _ h
    rw [gap_plain plain, written_plain plain, List.replicate_zero, List.nil_append,
      List.append_cancel_left_eq] at h
    exact List.forall_mem_cons.2 ⟨plain, ih h⟩

theorem layout_eq_utf8 (h : ∀ c ∈ cs, Plain c) : layout prev cs = (utf8 cs).map some := by
  induction cs generalizing prev with
  | nil => rfl
  | cons c cs ih =>
    obtain ⟨plain, rest⟩ := List.forall_mem_cons.1 h
    rw [layout_cons, gap_plain plain, written_plain plain, ih rest]
    simp [utf8]

/-- Two units make at most four bytes behind a gap of four. -/
theorem length_layout_le (h : prev ≤ 4) :
    (layout prev (decodeUtf16 us).1).length ≤ 4 * us.length := by
  induction us using decodeUtf16_induction generalizing prev with
  | nil => simp [decodeUtf16, layout]
  | unit u us hh hlow ih =>
    have hw : width (unitChar u) ≤ 4 := width_le
    have ih := ih hw
    rw [decodeUtf16_unit hh hlow, layout_cons, gap_unitChar hh hlow]
    simp only [width, List.length_append, List.length_replicate, List.length_map,
      List.length_cons] at hw ih ⊢
    omega
  | pair hi lo us hh hlow ih =>
    have hw : width (pairChar hi lo) ≤ 4 := width_le
    have hg : gap prev (pairChar hi lo) ≤ prev := gap_le
    have ih := ih hw
    rw [decodeUtf16_pair hh hlow, layout_cons]
    simp only [width, List.length_append, List.length_replicate, List.length_map,
      List.length_cons] at hw ih ⊢
    omega
  | low lo us hlow => simp [decodeUtf16_low hlow, layout]
  | lone hi us hh hlow => simp [decodeUtf16_lone hh hlow, layout]

theorem lt_of_mem_starts {o : Nat} (h : o ∈ starts offset prev cs) :
    o < offset + (layout prev cs).length := by
  induction cs generalizing offset prev with
  | nil => cases h
  | cons c cs ih =>
    have hw : 0 < width c := width_pos
    rw [layout_cons]
    simp only [width, List.length_append, List.length_replicate, List.length_map] at hw ⊢
    rcases List.mem_cons.1 h with rfl | h
    · omega
    · have := ih h
      simp only [width] at this
      omega

end

section
variable {reply : Reply} {data : List UInt8} {length : Nat}

theorem length_units (reply : Reply) : reply.units.length ≤ 126 := by
  have total := reply.total_lt
  have size : reply.units.length ≤ ((reply.utf16Buf.take reply.total).drop 2).length / 2 :=
    length_units_le
  rw [List.length_drop, List.length_take] at size
  omega

/-- Every reply fits into 512 bytes. -/
theorem get_large (h : reply.Accepted) (hlength : 512 ≤ length) (hdata : data.length = length) :
    libusbyGetStringDescriptorUtf8 reply data length =
      let cells := layout 0 (decodeUtf16 reply.units).1
      .ok (if (decodeUtf16 reply.units).2 then (cells.length : Int) else Error.io.code,
        overlay cells data) := by
  have hu := length_units reply
  have hcells : (layout 0 (decodeUtf16 reply.units).1).length ≤ 4 * reply.units.length :=
    length_layout_le (Nat.zero_le _)
  have hfirst : firstWidth (decodeUtf16 reply.units).1 ≤ 4 := by
    unfold firstWidth
    split
    · omega
    · exact width_le
  have inside : ∀ o ∈ starts 0 0 (decodeUtf16 reply.units).1, o < length := fun o ho => by
    have := lt_of_mem_starts ho
    omega
  rw [reply.get_accepted h, transcode_start _ hdata, if_neg (by omega), outcome, List.length_nil,
    if_pos inside]
  simp only [List.nil_append]
  rw [Nat.min_eq_right (by omega)]

/-- Every reply fits, so `layout` is all there is. -/
theorem length_layout_lt (reply : Reply) :
    (layout 0 (decodeUtf16 reply.units).1).length < 512 := by
  have hu := length_units reply
  have : (layout 0 (decodeUtf16 reply.units).1).length ≤ 4 * reply.units.length :=
    length_layout_le (Nat.zero_le _)
  omega

end

/-- With any buffer of this size, the result is the encoding of `cs`. -/
def Transcodes (reply : Reply) (length : Nat) (cs : List Char) : Prop :=
  ∀ data : List UInt8, data.length = length →
    ∃ buf, libusbyGetStringDescriptorUtf8 reply data length = .ok ((utf8 cs).length, buf) ∧
      buf.take (utf8 cs).length = utf8 cs

theorem plain_of_transcodes {reply : Reply} {cs : List Char} {length : Nat} (h : reply.IsString)
    (hcs : decodeUtf16 reply.units = (cs, true)) (hlength : 512 ≤ length)
    (ht : Transcodes reply length cs) : ∀ c ∈ cs, Plain c := by
  obtain ⟨buf, hget, htake⟩ := ht (List.replicate length 0) (by simp)
  have short : (layout 0 cs).length < 512 := by simpa [hcs] using length_layout_lt reply
  rw [get_large h.accepted hlength (by simp), hcs] at hget
  simp only [if_true, Except.ok.injEq, Prod.mk.injEq, Int.natCast_inj] at hget
  obtain ⟨hlen, rfl⟩ := hget
  rw [← hlen, take_overlay (by simp; omega), zipWith_getD_replicate (by omega)] at htake
  exact map_layout_eq_utf8 htake

/-- The transcoder is right on the strings of plain characters and on no others. -/
theorem transcodes_iff (reply : Reply) (h : reply.IsString) (cs : List Char)
    (hcs : decodeUtf16 reply.units = (cs, true)) (length : Nat) (hlength : 512 ≤ length) :
    Transcodes reply length cs ↔ ∀ c ∈ cs, Plain c := by
  refine ⟨plain_of_transcodes h hcs hlength, fun plain data hdata => ?_⟩
  have cells : layout 0 cs = (utf8 cs).map some := layout_eq_utf8 plain
  have short : (utf8 cs).length < 512 := by simpa [hcs, cells] using length_layout_lt reply
  refine ⟨overlay ((utf8 cs).map some) data, ?_, ?_⟩
  · rw [get_large h.accepted hlength hdata, hcs]
    simp [cells]
  · have stored : (overlay ((utf8 cs).map some ++ []) data).take (utf8 cs).length =
        (utf8 cs).take (utf8 cs).length :=
      take_overlay_stored (Nat.le_refl _) (by omega)
    simpa using stored

/-- The reply that carries these descriptor bytes. -/
def Reply.ofBytes (bytes : List UInt8) (h : bytes.length ≤ 256) : Reply where
  r := bytes.length
  utf16Buf := bytes ++ List.replicate (256 - bytes.length) 0
  size := by simp; omega
  r_le := by omega

/-- `Hé€`. -/
def euro : Reply := .ofBytes [8, 3, 0x48, 0, 0xE9, 0, 0xAC, 0x20] (by decide)

theorem transcodes_euro : Transcodes euro 512 ['H', 'é', '€'] := by
  refine (transcodes_iff euro ⟨by decide, by decide, by decide⟩ _ (by decide) 512
    (Nat.le_refl _)).2 ?_
  simp only [List.forall_mem_cons]
  exact ⟨by decide, by decide, by decide, List.forall_mem_nil _⟩

/-- `A` and an emoji. -/
def emoji : Reply := .ofBytes [8, 3, 0x41, 0, 0x3D, 0xD8, 0x00, 0xDE] (by decide)

/-- A character behind the basic plane is not encoded as itself. -/
theorem transcodes_fails : ¬ ∀ reply : Reply, reply.IsString → ∀ cs : List Char,
    decodeUtf16 reply.units = (cs, true) → ∀ length, 512 ≤ length → Transcodes reply length cs := by
  intro h
  have string : emoji.IsString := ⟨by decide, by decide, by decide⟩
  have decoded : decodeUtf16 emoji.units = (['A', '😀'], true) := by decide
  have plain := plain_of_transcodes string decoded (Nat.le_refl 512)
    (h emoji string _ decoded 512 (Nat.le_refl _))
  exact absurd (plain '😀' (by decide)) (by decide)

end Libusby.Core.StringDescriptor
