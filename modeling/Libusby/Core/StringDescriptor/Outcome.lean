import Libusby.Core.StringDescriptor.Layout

/-!
# The outcome of the transcoder

Between two characters the buffer is an overlay of the cells written so far
(`Between`), and each character either adds its cells or fails the assertion. The
stop test of the loop compares the size of one character with `length`, so it
only ever stops behind the first.
-/

namespace Libusby.Core.StringDescriptor

open Foundations

/-- The locals between two characters, the first one behind them. -/
structure Between (length : Nat) (cells : List Cell) (bs : List UInt8) (prev : Nat) (l : Locals) :
    Prop where
  size : bs.length = length
  data : l.data = overlay cells bs
  dataLen : l.dataLen = min length cells.length
  dataLen_pos : 0 < l.dataLen
  /-- The size of the last character, unless the end of the buffer cut it. -/
  encodedLen : cells.length ≤ length → l.encodedLen = prev
  encodedLen_lt : l.encodedLen < length
  highSurrogate : l.highSurrogate = 0

/-- One character: the gap before it and its bytes. -/
def Locals.character (length : Nat) (l : Locals) (c : Char) : Except Fault Locals :=
  { l with dataLen := l.dataLen + gap l.encodedLen c }.encode length (code c)

/-- The size of the first character, 0 if there is none. -/
def firstWidth : List Char → Nat
  | [] => 0
  | c :: _ => width c

/-- What becomes of the characters behind `cells`: each of them has to begin inside
the buffer. -/
def outcome (length : Nat) (cells : List Cell) (bs : List UInt8) (prev : Nat)
    (decoded : List Char × Bool) : Except Fault (Int × List UInt8) :=
  if ∀ o ∈ starts cells.length prev decoded.1, o < length then
    let all := cells ++ layout prev decoded.1
    .ok (if decoded.2 then (min length all.length : Nat) else Error.io.code, overlay all bs)
  else .error .assertion

section
variable {length prev : Nat} {cells : List Cell} {bs : List UInt8} {l : Locals} {c : Char}
  {hi lo u : UInt16} {us : List UInt16} {cs : List Char}

theorem code_unitChar (hh : ¬ IsHighSurrogate u) (hl : ¬ IsLowSurrogate u) :
    code (unitChar u) = u.toUInt32 := by
  have hu := u.toNat_lt
  have hn : ¬ Supplementary (unitChar u) := by
    rw [supplementary_iff, toNat_unitChar hh hl]
    omega
  rw [← UInt32.toNat_inj, toNat_code, if_neg hn, toNat_unitChar hh hl]
  simp

theorem gap_unitChar (hh : ¬ IsHighSurrogate u) (hl : ¬ IsLowSurrogate u) :
    gap prev (unitChar u) = 0 := by
  have hu := u.toNat_lt
  apply if_neg
  rw [supplementary_iff, toNat_unitChar hh hl]
  omega

theorem supplementary_pairChar (hh : IsHighSurrogate hi) (hl : IsLowSurrogate lo) :
    Supplementary (pairChar hi lo) := by
  rw [supplementary_iff, toNat_pairChar hh hl]
  omega

theorem code_pairChar (hh : IsHighSurrogate hi) (hl : IsLowSurrogate lo) :
    code (pairChar hi lo) = surrogateCode hi lo := by
  have hhi := hh.toNat
  have hlo := hl.toNat
  have high : (hi.toUInt32 - 0xD800).toNat = hi.toNat - 0xD800 :=
    UInt32.toNat_sub_of_le _ _ hhi.1
  have low : (lo.toUInt32 - 0xDC00).toNat = lo.toNat - 0xDC00 :=
    UInt32.toNat_sub_of_le _ _ hlo.1
  rw [← UInt32.toNat_inj, toNat_code, if_pos (supplementary_pairChar hh hl), toNat_pairChar hh hl,
    surrogateCode, UInt32.toNat_or, UInt32.toNat_shiftLeft, high, low]
  simp only [UInt32.reduceToNat, Nat.reduceMod, Nat.shiftLeft_eq, Nat.reducePow]
  rw [Nat.mod_eq_of_lt (by omega), Nat.mul_comm _ 1024,
    ← Nat.two_pow_add_eq_or_of_lt (i := 10) (by omega)]
  omega

theorem transcode_unit (hh : ¬ IsHighSurrogate u) (hl : ¬ IsLowSurrogate u)
    (hs : l.highSurrogate = 0) (h : l.encodedLen < length) :
    transcode length (u :: us) l = l.character length (unitChar u) >>= transcode length us := by
  rw [transcode, if_neg (by omega), if_neg hl, if_neg hh, if_neg (by simp [hs]), Locals.character,
    gap_unitChar hh hl, code_unitChar hh hl]
  rfl

theorem transcode_pair (hh : IsHighSurrogate hi) (hl : IsLowSurrogate lo)
    (hs : l.highSurrogate = 0) (h : l.encodedLen < length) :
    transcode length (hi :: lo :: us) l = l.character length (pairChar hi lo) >>= transcode length us := by
  have nonzero : hi ≠ 0 := by
    rintro rfl
    exact absurd hh.1 (by decide)
  rw [transcode, if_neg (by omega), if_neg hh.not_low, if_pos hh, if_neg (by simp [hs]), transcode,
    if_neg (by simpa using h), if_pos hl, if_neg nonzero, Locals.character, code_pairChar hh hl, gap,
    if_pos (supplementary_pairChar hh hl)]
  rfl

/-- An unpaired surrogate. -/
theorem transcode_low (hl : IsLowSurrogate u) (hs : l.highSurrogate = 0)
    (h : l.encodedLen < length) :
    transcode length (u :: us) l = .ok (Error.io.code, l.data) := by
  rw [transcode, if_neg (by omega), if_pos hl, if_pos hs]

theorem transcode_lone (hh : IsHighSurrogate u) (hl : ∀ v ∈ us.head?, ¬ IsLowSurrogate v)
    (hs : l.highSurrogate = 0) (h : l.encodedLen < length) :
    transcode length (u :: us) l = .ok (Error.io.code, l.data) := by
  have nonzero : u ≠ 0 := by
    rintro rfl
    exact absurd hh.1 (by decide)
  rw [transcode, if_neg (by omega), if_neg hh.not_low, if_pos hh, if_neg (by simp [hs])]
  cases us with
  | nil => rw [transcode, if_pos nonzero]
  | cons v us =>
    rw [transcode, if_neg (by simpa using h), if_neg (hl v rfl)]
    split_ifs <;> rfl

/-- The loop stops. -/
theorem transcode_stop (hs : l.highSurrogate = 0) (h : length ≤ l.encodedLen) :
    transcode length us l = .ok (l.dataLen, l.data) := by
  cases us with
  | nil => rw [transcode, if_neg (by simp [hs])]
  | cons u us => rw [transcode, if_pos (by omega)]

theorem encode_overlay (start : Nat) (cells : List Cell) (hbs : bs.length = length) (hdata : l.data = overlay cells bs)
    (hstart : l.dataLen = start) (hcells : cells.length = start) (room : start < length) :
    l.encode length (code c) = .ok {
      dataLen := min length (start + width c)
      encodedLen := min (length - start) (width c)
      highSurrogate := 0
      data := overlay (cells ++ (written (code c)).map some) bs } := by
  rw [Locals.encode, hdata, hstart,
    encodeUtf8_overlay code_lt (by omega) hcells (by omega), ok_bind]
  simp only [width, Except.ok.injEq, Locals.mk.injEq, and_true]
  omega

/-- The cells of a character behind `prev` bytes. -/
theorem layout_cons : layout prev (c :: cs) =
    (List.replicate (gap prev c) none ++ (written (code c)).map some) ++ layout (width c) cs := rfl

/-- A character that begins inside the buffer adds its cells. -/
theorem Between.character (hl : Between length cells bs prev l)
    (room : cells.length + gap prev c < length) :
    ∃ l', l.character length c = .ok l' ∧
      Between length (cells ++ (List.replicate (gap prev c) none ++ (written (code c)).map some)) bs
        (width c) l' := by
  have prevEq : l.encodedLen = prev := hl.encodedLen (by omega)
  have pos := hl.dataLen_pos
  have hlen := hl.dataLen
  have wpos : 0 < width c := width_pos
  refine ⟨_, encode_overlay (cells.length + gap prev c)
    (cells ++ List.replicate (gap prev c) none) hl.size ?_ ?_ ?_ room, ?_⟩
  · rw [overlay_append_gap, hl.data]
  · simp only [prevEq]
    omega
  · simp
  · constructor
    · exact hl.size
    · simp
    · simp [width]
      omega
    · simp only
      omega
    · simp [width]
      omega
    · simp only
      omega
    · rfl

/-- Any other character fails the assertion. -/
theorem Between.character_full (hl : Between length cells bs prev l)
    (full : length ≤ cells.length + gap prev c) :
    l.character length c = .error .assertion := by
  have hzero : length - (l.dataLen + gap l.encodedLen c) = 0 := by
    rw [hl.dataLen]
    by_cases inside : cells.length ≤ length
    · rw [hl.encodedLen inside]
      omega
    · omega
  rw [Locals.character, Locals.encode]
  simp only [hzero, encodeUtf8_full, error_bind]

theorem outcome_cons {wf : Bool} : outcome length cells bs prev (c :: cs, wf) =
    if cells.length + gap prev c < length then
      outcome length (cells ++ (List.replicate (gap prev c) none ++ (written (code c)).map some)) bs
        (width c) (cs, wf)
    else .error .assertion := by
  unfold outcome
  simp only [starts, layout_cons, List.forall_mem_cons, List.append_assoc, List.length_append,
    List.length_replicate, List.length_map, width, Nat.add_assoc]
  split_ifs <;> first | rfl | grind

/-- Behind the first character the outcome is decided by where the others begin. -/
theorem transcode_between (us : List UInt16) (hl : Between length cells bs prev l) :
    transcode length us l = outcome length cells bs prev (decodeUtf16 us) := by
  have next (c : Char) (us : List UInt16) (l : Locals) (cells : List Cell) (prev : Nat)
      (hl : Between length cells bs prev l)
      (ih : ∀ {cells prev l}, Between length cells bs prev l →
        transcode length us l = outcome length cells bs prev (decodeUtf16 us)) :
      l.character length c >>= transcode length us =
        outcome length cells bs prev (c :: (decodeUtf16 us).1, (decodeUtf16 us).2) := by
    rw [outcome_cons]
    split_ifs with room
    · obtain ⟨l', hstep, hl'⟩ := hl.character room
      rw [hstep, ok_bind, ih hl']
    · rw [hl.character_full (by omega), error_bind]
  induction us using decodeUtf16_induction generalizing cells prev l with
  | nil =>
    rw [transcode, if_neg (by simp [hl.highSurrogate]), hl.data, hl.dataLen]
    simp [outcome, decodeUtf16, starts, layout]
  | unit u us hh hlow ih =>
    rw [transcode_unit hh hlow hl.highSurrogate hl.encodedLen_lt, decodeUtf16_unit hh hlow]
    exact next _ _ _ _ _ hl ih
  | pair hi lo us hh hlow ih =>
    rw [transcode_pair hh hlow hl.highSurrogate hl.encodedLen_lt, decodeUtf16_pair hh hlow]
    exact next _ _ _ _ _ hl ih
  | low lo us hlow =>
    rw [transcode_low hlow hl.highSurrogate hl.encodedLen_lt, decodeUtf16_low hlow, hl.data]
    simp [outcome, starts, layout]
  | lone hi us hh hlow =>
    rw [transcode_lone hh hlow hl.highSurrogate hl.encodedLen_lt, decodeUtf16_lone hh hlow, hl.data]
    simp [outcome, starts, layout]

end

/-- The loop stops behind the first character if that fills the buffer. -/
theorem transcode_start {length : Nat} {bs : List UInt8} (us : List UInt16)
    (hbs : bs.length = length) :
    transcode length us { dataLen := 0, encodedLen := 0, highSurrogate := 0, data := bs } =
      if length ≤ firstWidth (decodeUtf16 us).1 then
        .ok (length, overlay (layout 0 (decodeUtf16 us).1) bs)
      else outcome length [] bs 0 (decodeUtf16 us) := by
  rcases Nat.eq_zero_or_pos length with rfl | pos
  · rw [transcode_stop rfl (Nat.zero_le _), if_pos (Nat.zero_le _), List.eq_nil_of_length_eq_zero hbs]
    simp
  have first (c : Char) (us : List UInt16) :
      Locals.character length { dataLen := 0, encodedLen := 0, highSurrogate := 0, data := bs } c >>=
          transcode length us =
        if length ≤ width c then .ok (length, overlay (layout 0 (c :: (decodeUtf16 us).1)) bs)
        else outcome length [] bs 0 (c :: (decodeUtf16 us).1, (decodeUtf16 us).2) := by
    have nogap : gap 0 c = 0 := by simp [gap]
    have wpos : 0 < width c := width_pos
    rw [Locals.character, encode_overlay 0 [] hbs (by simp) (by simp [nogap]) rfl pos,
      ok_bind, outcome_cons, layout_cons, nogap]
    simp only [Nat.zero_add, List.nil_append, List.replicate_zero, List.length_nil, Nat.sub_zero]
    split_ifs with full
    · rw [transcode_stop rfl (Nat.le_min.2 ⟨Nat.le_refl _, full⟩), Nat.min_eq_left full,
        overlay_append_of_le (by simpa [width, hbs] using full)]
    · refine transcode_between us ⟨hbs, rfl, ?_, ?_, ?_, ?_, rfl⟩
      · simp [width]
      · simp
        omega
      · simp only
        omega
      · simp only
        omega
  induction us using decodeUtf16_induction with
  | nil => simp [transcode, decodeUtf16, outcome, starts, layout, firstWidth, Nat.ne_of_gt pos]
  | unit u us hh hlow _ =>
    rw [transcode_unit hh hlow rfl pos, decodeUtf16_unit hh hlow]
    exact first _ us
  | pair hi lo us hh hlow _ =>
    rw [transcode_pair hh hlow rfl pos, decodeUtf16_pair hh hlow]
    exact first _ us
  | low lo us hlow =>
    rw [transcode_low hlow rfl pos, decodeUtf16_low hlow]
    simp [outcome, starts, layout, firstWidth, Nat.ne_of_gt pos]
  | lone hi us hh hlow =>
    rw [transcode_lone hh hlow rfl pos, decodeUtf16_lone hh hlow]
    simp [outcome, starts, layout, firstWidth, Nat.ne_of_gt pos]

end Libusby.Core.StringDescriptor
