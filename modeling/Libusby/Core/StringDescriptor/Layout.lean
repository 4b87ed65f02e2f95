import Libusby.Core.StringDescriptor.Transcoder

/-!
# What the transcoder makes of a character

`encode_utf8` writes the bytes `written` of a code point, as many as there is room
for. For a surrogate pair the loop encodes the code point without the offset
0x10000, and it moves on by the size of the character before it once more: a
`gap`. Behind `prev` bytes of a character the characters `cs` come out as the cells
`layout prev cs`, each character beginning at one of `starts`.
-/

namespace Libusby.Core.StringDescriptor

open Foundations

/-- The bytes of `cp` when there is room for them. -/
def written (cp : UInt32) : List UInt8 :=
  if cp < 0x7f then [cp.toUInt8]
  else if cp < 0x7ff then
    ((0xC0 : UInt32) ||| cp >>> 6).toUInt8 :: [continuationByte cp].map (·.toUInt8)
  else if cp < 0xffff then
    ((0xe0 : UInt32) ||| cp >>> 12).toUInt8 ::
      [continuationByte (cp >>> 6), continuationByte cp].map (·.toUInt8)
  else
    ((0xf0 : UInt32) ||| cp >>> 18).toUInt8 ::
      [continuationByte (cp >>> 12), continuationByte (cp >>> 6), continuationByte cp].map
        (·.toUInt8)

def Supplementary (c : Char) : Prop := 0x10000 ≤ c.val

instance (c : Char) : Decidable (Supplementary c) := inferInstanceAs (Decidable (_ ≤ _))

/-- The code point that `encode_utf8` gets for a character. -/
def code (c : Char) : UInt32 := if Supplementary c then c.val - 0x10000 else c.val

def width (c : Char) : Nat := (written (code c)).length

/-- The bytes that the high surrogate of `c` passes over. -/
def gap (prev : Nat) (c : Char) : Nat := if Supplementary c then prev else 0

def layout : Nat → List Char → List Cell
  | _, [] => []
  | prev, c :: cs =>
    List.replicate (gap prev c) none ++ (written (code c)).map some ++ layout (width c) cs

/-- The offsets at which the characters begin. -/
def starts : Nat → Nat → List Char → List Nat
  | _, _, [] => []
  | offset, prev, c :: cs =>
    (offset + gap prev c) :: starts (offset + gap prev c + width c) (width c) cs

section
variable {start length res prev offset : Nat} {cells : List Cell} {bs : List UInt8} {cp : UInt32}
  {hi lo u : UInt16} {c : Char} {cs : List Char} {us : List UInt16}

theorem length_written_pos : 0 < (written cp).length := by
  unfold written
  split_ifs <;> simp

theorem length_written_le : (written cp).length ≤ 4 := by
  unfold written
  split_ifs <;> simp

theorem width_pos : 0 < width c := length_written_pos

theorem width_le : width c ≤ 4 := length_written_le

theorem gap_le : gap prev c ≤ prev := by
  unfold gap
  split_ifs <;> omega

theorem toNat_lt (c : Char) : c.toNat < 0x110000 := by
  have := c.valid
  unfold UInt32.isValidChar Nat.isValidChar at this
  change c.val.toNat < 0x110000
  omega

theorem supplementary_iff : Supplementary c ↔ 0x10000 ≤ c.toNat := Iff.rfl

theorem toNat_code : (code c).toNat = if Supplementary c then c.toNat - 0x10000 else c.toNat := by
  unfold code
  split_ifs with h
  · exact UInt32.toNat_sub_of_le _ _ h
  · rfl

theorem code_lt : code c < 0x110000 := by
  have hc := toNat_lt c
  rw [UInt32.lt_iff_toNat_lt, toNat_code]
  split_ifs <;> simp <;> omega

theorem storeRest_overlay {more : List UInt32} (hres : res ≤ length)
    (hcells : cells.length = start + res) (hbs : bs.length = start + length) :
    storeRest start length (overlay cells bs) res more =
      .ok (min length (res + more.length),
        overlay (cells ++ more.map fun b => some b.toUInt8) bs) := by
  induction more generalizing cells res with
  | nil => simp [storeRest, hres]
  | cons b more ih =>
    rw [storeRest]
    by_cases room : res < length
    · rw [if_pos room, ← hcells, storeByte_overlay (by omega), ok_bind,
        ih (by omega) (by simp; omega)]
      simp
      omega
    · have full : bs.length ≤ cells.length := by omega
      rw [if_neg room, ih hres hcells, overlay_append_of_le full, overlay_append_of_le full]
      simp
      omega

theorem encodeUtf8_overlay (hcp : cp < 0x110000) (hlength : 0 < length)
    (hcells : cells.length = start) (hbs : bs.length = start + length) :
    encodeUtf8 (overlay cells bs) start length cp =
      .ok (min length (written cp).length, overlay (cells ++ (written cp).map some) bs) := by
  have first (b : UInt8) : storeByte (overlay cells bs) start b =
      .ok (overlay (cells ++ [some b]) bs) := by
    rw [← hcells, storeByte_overlay (by omega)]
  have rest (b : UInt8) (more : List UInt32) :
      storeRest start length (overlay (cells ++ [some b]) bs) 1 more =
        .ok (min length (b :: more.map (·.toUInt8)).length,
          overlay (cells ++ (b :: more.map (·.toUInt8)).map some) bs) := by
    rw [storeRest_overlay hlength (by simp [hcells]) hbs]
    simp [Nat.add_comm, Function.comp_def]
  rw [encodeUtf8, if_neg (by omega), if_neg (by simpa using hcp), written]
  split_ifs with h1 h2 h3
  · rw [first, ok_bind]
    simp
    omega
  · rw [first, ok_bind, rest]
  · rw [first, ok_bind, rest]
  · rw [first, ok_bind, rest]

theorem encodeUtf8_full : encodeUtf8 bs start 0 cp = .error .assertion := rfl

end

end Libusby.Core.StringDescriptor
