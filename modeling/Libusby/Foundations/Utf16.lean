import Mathlib.Data.List.Basic

/-!
# UTF-16

Units, surrogate pairs and the characters that a sequence of units stands for. A
decoder that meets an unpaired surrogate has already read the characters before
it, so `decodeUtf16` returns these as well. `WellFormedUtf16` says where surrogates may stand.
-/

namespace Libusby.Foundations

def IsHighSurrogate (u : UInt16) : Prop := 0xD800 ≤ u ∧ u < 0xDC00

def IsLowSurrogate (u : UInt16) : Prop := 0xDC00 ≤ u ∧ u < 0xE000

instance (u : UInt16) : Decidable (IsHighSurrogate u) := inferInstanceAs (Decidable (_ ∧ _))

instance (u : UInt16) : Decidable (IsLowSurrogate u) := inferInstanceAs (Decidable (_ ∧ _))

/-- The character of a unit that is no surrogate. -/
def unitChar (u : UInt16) : Char := .ofNat u.toNat

/-- The supplementary character of a surrogate pair. -/
def pairChar (hi lo : UInt16) : Char :=
  .ofNat (0x10000 + (hi.toNat - 0xD800) * 0x400 + (lo.toNat - 0xDC00))

/-- The characters before the first unpaired surrogate, and whether there is none. -/
def decodeUtf16 : List UInt16 → List Char × Bool
  | [] => ([], true)
  | [u] =>
    if IsHighSurrogate u ∨ IsLowSurrogate u then ([], false) else ([unitChar u], true)
  | u :: v :: us =>
    if IsHighSurrogate u then
      if IsLowSurrogate v then
        (pairChar u v :: (decodeUtf16 us).1, (decodeUtf16 us).2)
      else ([], false)
    else if IsLowSurrogate u then ([], false)
    else (unitChar u :: (decodeUtf16 (v :: us)).1, (decodeUtf16 (v :: us)).2)

/-- Every high surrogate is followed by a low one, and every low one follows a high one. -/
structure WellFormedUtf16 (us : List UInt16) : Prop where
  high : ∀ i hi, us[i]? = some hi → IsHighSurrogate hi →
    ∃ lo, us[i + 1]? = some lo ∧ IsLowSurrogate lo
  low : ∀ i lo, us[i]? = some lo → IsLowSurrogate lo →
    ∃ j hi, i = j + 1 ∧ us[j]? = some hi ∧ IsHighSurrogate hi

section
variable {u v hi lo : UInt16} {us : List UInt16}

theorem IsHighSurrogate.not_low (h : IsHighSurrogate u) : ¬ IsLowSurrogate u := by
  unfold IsHighSurrogate at h
  unfold IsLowSurrogate
  grind

theorem IsHighSurrogate.toNat (h : IsHighSurrogate u) : 0xD800 ≤ u.toNat ∧ u.toNat < 0xDC00 := h

theorem IsLowSurrogate.toNat (h : IsLowSurrogate u) : 0xDC00 ≤ u.toNat ∧ u.toNat < 0xE000 := h

theorem toNat_unitChar (hh : ¬ IsHighSurrogate u) (hl : ¬ IsLowSurrogate u) :
    (unitChar u).toNat = u.toNat := by
  have hu : u.toNat.isValidChar := by
    have := u.toNat_lt
    simp only [IsHighSurrogate, IsLowSurrogate, UInt16.le_iff_toNat_le, UInt16.lt_iff_toNat_lt] at hh hl
    simp only [UInt16.reduceToNat] at hh hl
    unfold Nat.isValidChar
    omega
  rw [unitChar, Char.ofNat, dif_pos hu]
  rfl

theorem toNat_pairChar (hh : IsHighSurrogate u) (hl : IsLowSurrogate v) :
    (pairChar u v).toNat = 0x10000 + (u.toNat - 0xD800) * 0x400 + (v.toNat - 0xDC00) := by
  have hu := hh.toNat
  have hv := hl.toNat
  have valid : (0x10000 + (u.toNat - 0xD800) * 0x400 + (v.toNat - 0xDC00)).isValidChar := by
    unfold Nat.isValidChar
    omega
  rw [pairChar, Char.ofNat, dif_pos valid]
  rfl

theorem decodeUtf16_unit (hh : ¬ IsHighSurrogate u) (hl : ¬ IsLowSurrogate u) :
    decodeUtf16 (u :: us) = (unitChar u :: (decodeUtf16 us).1, (decodeUtf16 us).2) := by
  cases us <;> simp [decodeUtf16, hh, hl]

theorem decodeUtf16_pair (hh : IsHighSurrogate u) (hl : IsLowSurrogate v) :
    decodeUtf16 (u :: v :: us) = (pairChar u v :: (decodeUtf16 us).1, (decodeUtf16 us).2) := by
  simp [decodeUtf16, hh, hl]

theorem decodeUtf16_low (hl : IsLowSurrogate u) : decodeUtf16 (u :: us) = ([], false) := by
  have hh : ¬ IsHighSurrogate u := fun hh => hh.not_low hl
  cases us <;> simp [decodeUtf16, hh, hl]

theorem decodeUtf16_lone (hh : IsHighSurrogate u) (hl : ∀ v ∈ us.head?, ¬ IsLowSurrogate v) :
    decodeUtf16 (u :: us) = ([], false) := by
  cases us with
  | nil => simp [decodeUtf16, hh]
  | cons v us => simp [decodeUtf16, hh, hl v rfl]

/-- Units are read a character at a time, up to an unpaired surrogate. -/
theorem decodeUtf16_induction {motive : List UInt16 → Prop} (nil : motive [])
    (unit : ∀ u us, ¬ IsHighSurrogate u → ¬ IsLowSurrogate u → motive us → motive (u :: us))
    (pair : ∀ hi lo us, IsHighSurrogate hi → IsLowSurrogate lo → motive us → motive (hi :: lo :: us))
    (low : ∀ lo us, IsLowSurrogate lo → motive (lo :: us))
    (lone : ∀ hi us, IsHighSurrogate hi → (∀ v ∈ us.head?, ¬ IsLowSurrogate v) → motive (hi :: us))
    (us : List UInt16) : motive us := by
  fun_induction decodeUtf16 us with
  | case1 => exact nil
  | case2 u h =>
    rcases h with hh | hl
    · exact lone u [] hh (by simp)
    · exact low u [] hl
  | case3 u h =>
    rw [not_or] at h
    exact unit u [] h.1 h.2 nil
  | case4 u v us hh hl ih => exact pair u v us hh hl ih
  | case5 u v us hh hl => exact lone u (v :: us) hh (by simpa using hl)
  | case6 u v us hh hl => exact low u (v :: us) hl
  | case7 u v us hh hl ih => exact unit u (v :: us) hh hl ih

theorem wellFormedUtf16_nil : WellFormedUtf16 [] := by
  constructor
  · intro i hi h
    cases h
  · intro i lo h
    cases h

theorem wellFormedUtf16_unit (hh : ¬ IsHighSurrogate u) (hl : ¬ IsLowSurrogate u) :
    WellFormedUtf16 (u :: us) ↔ WellFormedUtf16 us := by
  constructor
  · intro h
    refine ⟨fun i hi hat => h.high (i + 1) hi hat, fun i lo hat hlo => ?_⟩
    obtain ⟨j, hi, hj, before, hhi⟩ := h.low (i + 1) lo hat hlo
    cases j with
    | zero =>
      cases before
      exact absurd hhi hh
    | succ j => exact ⟨j, hi, Nat.succ.inj hj, before, hhi⟩
  · intro h
    constructor
    · intro i hi hat hhi
      cases i with
      | zero =>
        cases hat
        exact absurd hhi hh
      | succ i => exact h.high i hi hat hhi
    · intro i lo hat hlo
      cases i with
      | zero =>
        cases hat
        exact absurd hlo hl
      | succ i =>
        obtain ⟨j, hi, rfl, before, hhi⟩ := h.low i lo hat hlo
        exact ⟨j + 1, hi, rfl, before, hhi⟩

theorem wellFormedUtf16_pair (hh : IsHighSurrogate hi) (hl : IsLowSurrogate lo) :
    WellFormedUtf16 (hi :: lo :: us) ↔ WellFormedUtf16 us := by
  constructor
  · intro h
    refine ⟨fun i hi hat => h.high (i + 2) hi hat, fun i lo' hat hlo => ?_⟩
    obtain ⟨j, hi', hj, before, hhi⟩ := h.low (i + 2) lo' hat hlo
    obtain rfl : j = i + 1 := by omega
    cases i with
    | zero =>
      cases before
      exact absurd hl hhi.not_low
    | succ i => exact ⟨i, hi', rfl, before, hhi⟩
  · intro h
    constructor
    · intro i hi' hat hhi
      rcases i with _ | _ | i
      · exact ⟨lo, rfl, hl⟩
      · cases hat
        exact absurd hl hhi.not_low
      · exact h.high i hi' hat hhi
    · intro i lo' hat hlo
      rcases i with _ | _ | i
      · cases hat
        exact absurd hlo hh.not_low
      · exact ⟨0, hi, rfl, rfl, hh⟩
      · obtain ⟨j, hi', rfl, before, hhi⟩ := h.low i lo' hat hlo
        exact ⟨j + 2, hi', rfl, before, hhi⟩

/-- The decoder accepts exactly the well-formed sequences. -/
theorem decodeUtf16_wellFormed (us : List UInt16) :
    (decodeUtf16 us).2 = true ↔ WellFormedUtf16 us := by
  induction us using decodeUtf16_induction with
  | nil => simp [decodeUtf16, wellFormedUtf16_nil]
  | unit u us hh hl ih => rw [decodeUtf16_unit hh hl, wellFormedUtf16_unit hh hl, ih]
  | pair hi lo us hh hl ih => rw [decodeUtf16_pair hh hl, wellFormedUtf16_pair hh hl, ih]
  | low lo us hl =>
    rw [decodeUtf16_low hl]
    refine ⟨fun h => (Bool.false_ne_true h).elim, fun h => ?_⟩
    obtain ⟨j, _, hj, -⟩ := h.low 0 lo rfl hl
    cases hj
  | lone hi us hh hl =>
    rw [decodeUtf16_lone hh hl]
    refine ⟨fun h => (Bool.false_ne_true h).elim, fun h => ?_⟩
    obtain ⟨lo, after, hlo⟩ := h.high 0 hi rfl hh
    rw [List.getElem?_cons_succ, ← List.head?_eq_getElem?] at after
    exact absurd hlo (hl lo after)

end

/-! ## The other way -/

/-- The units of a character. -/
def charUnits (c : Char) : List UInt16 :=
  if c.toNat < 0x10000 then [.ofNat c.toNat]
  else
    [.ofNat (0xD800 + (c.toNat - 0x10000) / 0x400), .ofNat (0xDC00 + (c.toNat - 0x10000) % 0x400)]

/-- Surrogate pairs for the supplementary characters, in this order. -/
def encodeUtf16 (cs : List Char) : List UInt16 := cs.flatMap charUnits

theorem charUnits_unit {c : Char} (h : c.toNat < 0x10000) :
    ¬ IsHighSurrogate (.ofNat c.toNat) ∧ ¬ IsLowSurrogate (.ofNat c.toNat) ∧
      unitChar (.ofNat c.toNat) = c := by
  have size : (UInt16.ofNat c.toNat).toNat = c.toNat := UInt16.toNat_ofNat_of_lt h
  have valid : c.toNat < 0xD800 ∨ 0xDFFF < c.toNat ∧ c.toNat < 0x110000 := c.valid
  refine ⟨fun high => ?_, fun low => ?_, ?_⟩
  · have := high.toNat
    omega
  · have := low.toNat
    omega
  · rw [unitChar, size, Char.ofNat_toNat]

theorem charUnits_pair {c : Char} (h : 0x10000 ≤ c.toNat) :
    IsHighSurrogate (.ofNat (0xD800 + (c.toNat - 0x10000) / 0x400)) ∧
      IsLowSurrogate (.ofNat (0xDC00 + (c.toNat - 0x10000) % 0x400)) ∧
      pairChar (.ofNat (0xD800 + (c.toNat - 0x10000) / 0x400))
        (.ofNat (0xDC00 + (c.toNat - 0x10000) % 0x400)) = c := by
  have valid : c.toNat < 0xD800 ∨ 0xDFFF < c.toNat ∧ c.toNat < 0x110000 := c.valid
  have high : (UInt16.ofNat (0xD800 + (c.toNat - 0x10000) / 0x400)).toNat =
      0xD800 + (c.toNat - 0x10000) / 0x400 := UInt16.toNat_ofNat_of_lt (by rw [UInt16.size]; omega)
  have low : (UInt16.ofNat (0xDC00 + (c.toNat - 0x10000) % 0x400)).toNat =
      0xDC00 + (c.toNat - 0x10000) % 0x400 := UInt16.toNat_ofNat_of_lt (by rw [UInt16.size]; omega)
  refine ⟨?_, ?_, ?_⟩
  · rw [IsHighSurrogate, UInt16.le_iff_toNat_le, UInt16.lt_iff_toNat_lt, high]
    simp only [UInt16.reduceToNat]
    omega
  · rw [IsLowSurrogate, UInt16.le_iff_toNat_le, UInt16.lt_iff_toNat_lt, low]
    simp only [UInt16.reduceToNat]
    omega
  · have same : 0x10000 + (0xD800 + (c.toNat - 0x10000) / 0x400 - 0xD800) * 0x400 +
        (0xDC00 + (c.toNat - 0x10000) % 0x400 - 0xDC00) = c.toNat := by omega
    rw [pairChar, high, low, same, Char.ofNat_toNat]

/-- What is written is read back. -/
theorem decodeUtf16_encodeUtf16 (cs : List Char) : decodeUtf16 (encodeUtf16 cs) = (cs, true) := by
  induction cs with
  | nil => rfl
  | cons c cs ih =>
    rw [encodeUtf16, List.flatMap_cons, ← encodeUtf16, charUnits]
    by_cases h : c.toNat < 0x10000
    · obtain ⟨high, low, same⟩ := charUnits_unit h
      rw [if_pos h, List.singleton_append, decodeUtf16_unit high low, same, ih]
    · obtain ⟨high, low, same⟩ := charUnits_pair (Nat.not_lt.1 h)
      rw [if_neg h, List.cons_append, List.singleton_append, decodeUtf16_pair high low, same, ih]

end Libusby.Foundations
