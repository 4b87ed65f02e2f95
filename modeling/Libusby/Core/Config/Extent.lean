import Libusby.Core.Config.Simulation

/-!
# The extent of a configuration descriptor

What the parser does depends on the first `wTotalLength` bytes of `rawdesc` only, whatever
stands behind them.
-/

namespace Libusby.Core.Config

open Foundations

section
variable {ok : Nat → Bool} {d : Descriptor} {raw rest more : List UInt8} {b : Build}

theorem interfaceBlock_congr (hd : Framed d) (rest more : List UInt8) :
    interfaceBlock ok (d ++ rest) b = interfaceBlock ok (d ++ more) b := by
  have two := hd.1
  have byte (k : Nat) (hk : k < d.length) (r : List UInt8) :
      readByte (d ++ r) k = .ok (byteAt d k) := readByte_descriptor hk
  unfold interfaceBlock
  simp only [byte 0 (by omega), lift_ok, ok_bind]
  by_cases nine : byteAt d 0 = 9
  · have length : d.length = 9 := hd.bLength_eq.1 nine
    have added (k j : Nat) (r : List UInt8) :
        addAltsetting ok (d ++ r) k j b = addAltsetting ok d k j b := by
      have whole : readBytes (d ++ []) 9 = .ok d := readBytes_descriptor length
      rw [List.append_nil] at whole
      rw [addAltsetting, addAltsetting, readBytes_descriptor length, whole]
    simp only [byte 2 (by omega), byte 3 (by omega), lift_ok, ok_bind, added]
  · simp only [nine, ne_eq, not_false_eq_true, if_true]

theorem endpointBlock_congr (hd : Framed d) (rest more : List UInt8) :
    endpointBlock (d ++ rest) b = endpointBlock (d ++ more) b := by
  have two := hd.1
  have byte (r : List UInt8) : readByte (d ++ r) 0 = .ok (byteAt d 0) :=
    readByte_descriptor (by omega)
  unfold endpointBlock
  simp only [byte, lift_ok, ok_bind]
  by_cases seven : byteAt d 0 = 7
  · have length : d.length = 7 := hd.bLength_eq.1 seven
    rw [readBytes_descriptor length, readBytes_descriptor length]
  · simp only [seven, ne_eq, not_false_eq_true, if_true]

/-- A block is read inside its own bytes. -/
theorem parseBlock_congr (hd : Framed d) (rest more : List UInt8) :
    parseBlock ok (d ++ rest) b = parseBlock ok (d ++ more) b := by
  rw [parseBlock_eq hd, parseBlock_eq hd, interfaceBlock_congr hd rest more,
    endpointBlock_congr hd rest more]

/-- The bytes behind the input. -/
def Parse.extend (p : Parse) (rest : List UInt8) : Parse := { p with rawdesc := p.rawdesc ++ rest }

theorem parseNext_extend {p : Parse} (hp : p.rawdesc.length = p.wTotalLength.toNat)
    (hw : p.wTotalLength ≠ 0) :
    parseNext ok (p.extend rest) = (parseNext ok p).map (·.extend rest) := by
  have nonempty : 0 < p.rawdesc.length := by
    rw [hp]
    exact Nat.pos_of_ne_zero fun h => hw (UInt16.toNat_inj.1 h)
  rw [parseNext, parseNext, Parse.extend, readByte_append nonempty, readByte_of_lt nonempty]
  simp only [lift_ok, ok_bind]
  generalize hdesclen : p.rawdesc[0] = desclen
  by_cases bad : p.wTotalLength.toNat < desclen.toNat ∨ desclen < 2
  · rw [if_pos bad, if_pos bad]
    rfl
  · rw [if_neg bad, if_neg bad]
    obtain ⟨long, short⟩ := not_or.1 bad
    have two : 2 ≤ desclen.toNat := UInt8.le_iff_toNat_le.1 (UInt8.not_lt.1 short)
    have size : (p.rawdesc.take desclen.toNat).length = desclen.toNat := by
      rw [List.length_take]
      omega
    have first : byteAt (p.rawdesc.take desclen.toNat) 0 = desclen := by
      rw [byteAt, List.getD_eq_getElem?_getD, List.getElem?_take_of_lt (by omega),
        List.getElem?_eq_getElem nonempty, hdesclen]
      rfl
    have framed : Framed (p.rawdesc.take desclen.toNat) := ⟨by omega, by rw [first, size]⟩
    have block : parseBlock ok (p.rawdesc ++ rest) p.build = parseBlock ok p.rawdesc p.build := by
      have whole := List.take_append_drop desclen.toNat p.rawdesc
      rw [← whole, List.append_assoc]
      exact parseBlock_congr framed _ _
    rw [block, List.drop_append_of_le_length (by omega)]
    cases parseBlock ok p.rawdesc p.build <;> rfl

theorem parseNext_length {p q : Parse} (hp : p.rawdesc.length = p.wTotalLength.toNat)
    (h : parseNext ok p = .ok q) : q.rawdesc.length = q.wTotalLength.toNat := by
  obtain ⟨desclen, b, -, hle, -, -, rfl⟩ := parseNext_eq_ok ok h
  have : desclen.toUInt16 ≤ p.wTotalLength := by simpa [UInt16.le_iff_toNat_le] using hle
  rw [UInt16.toNat_sub_of_le _ _ this, UInt8.toNat_toUInt16, List.length_drop, hp]

theorem parseLoop_extend {p : Parse} (hp : p.rawdesc.length = p.wTotalLength.toNat) :
    parseLoop ok (p.extend rest) = (parseLoop ok p).map (·.extend rest) := by
  fun_induction parseLoop ok p with
  | case1 p hw =>
    rw [parseLoop, if_pos (show (p.extend rest).wTotalLength = 0 from hw)]
    rfl
  | case2 p hw e hstep =>
    have next : parseNext ok (p.extend rest) = (parseNext ok p).map (·.extend rest) :=
      parseNext_extend hp hw
    rw [hstep] at next
    rw [parseLoop, if_neg (show (p.extend rest).wTotalLength ≠ 0 from hw)]
    split
    case h_1 e' herror =>
      rw [herror] at next
      cases next
      rfl
    case h_2 q hok =>
      rw [hok] at next
      cases next
  | case3 p hw q hstep ih =>
    have next : parseNext ok (p.extend rest) = (parseNext ok p).map (·.extend rest) :=
      parseNext_extend hp hw
    rw [hstep] at next
    rw [parseLoop, if_neg (show (p.extend rest).wTotalLength ≠ 0 from hw)]
    split
    case h_1 e' herror =>
      rw [herror] at next
      cases next
    case h_2 q' hok =>
      rw [hok] at next
      cases next
      exact ih (parseNext_length hp hstep)

/-- The parser never looks behind the `wTotalLength` bytes that it is given. -/
theorem sanitize_append (mem : Memory) (hlen : raw.length ≤ 65535) :
    usbyiSanitizeConfigDescriptor ok (raw ++ rest) (.ofNat raw.length) mem =
      usbyiSanitizeConfigDescriptor ok raw (.ofNat raw.length) mem := by
  have length : (UInt16.ofNat raw.length).toNat = raw.length :=
    UInt16.toNat_ofNat_of_lt (by rw [UInt16.size]; omega)
  unfold usbyiSanitizeConfigDescriptor
  by_cases short : UInt16.ofNat raw.length < 9
  · rw [if_pos short, if_pos short]
  · have nine : (9 : UInt16) ≤ UInt16.ofNat raw.length := UInt16.not_lt.1 short
    have nine' : 9 ≤ raw.length := by
      rw [UInt16.le_iff_toNat_le, length] at nine
      exact nine
    have loop (b : Build) : parseLoop ok ⟨(raw ++ rest).drop 9, .ofNat raw.length - 9, b⟩ =
        (parseLoop ok ⟨raw.drop 9, .ofNat raw.length - 9, b⟩).map (·.extend rest) := by
      rw [List.drop_append_of_le_length nine']
      apply parseLoop_extend (p := ⟨raw.drop 9, .ofNat raw.length - 9, b⟩)
      rw [List.length_drop, UInt16.toNat_sub_of_le _ _ nine, length]
      rfl
    simp only [if_neg short, readByte_append (show 1 < raw.length by omega),
      readByte_append (show 0 < raw.length by omega), readBytes_append nine', loop]
    cases readByte raw 1 with
    | error f => rfl
    | ok bDescriptorType =>
      cases readByte raw 0 with
      | error f => rfl
      | ok bLength =>
        cases readBytes raw 9 with
        | error f => rfl
        | ok header =>
          simp only [ok_bind]
          congr 3
          funext mem
          split
          · rfl
          · generalize parseLoop ok ⟨raw.drop 9, .ofNat raw.length - 9, _⟩ = parsed
            cases parsed with
            | error e => cases e <;> rfl
            | ok p => rfl

end

end Libusby.Core.Config
