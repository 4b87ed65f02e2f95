import Libusby.Core.StringDescriptor.Transcoder

/-!
# Replies

Which replies get to the transcoder, and what units it is given. A reply that is
rejected costs the caller nothing: the buffer is as it was.
-/

namespace Libusby.Core.StringDescriptor

open Foundations

namespace Reply

def bLength (reply : Reply) : UInt8 := reply.utf16Buf.getD 0 0

def bDescriptorType (reply : Reply) : UInt8 := reply.utf16Buf.getD 1 0

/-- The size of the descriptor as far as it was received. -/
def total (reply : Reply) : Nat := min reply.r.toNat reply.bLength.toNat

/-- The 16-bit units behind the header. -/
def units (reply : Reply) : List UInt16 :=
  StringDescriptor.units ((reply.utf16Buf.take reply.total).drop 2)

/-- The reply passes the checks of the header. -/
structure Accepted (reply : Reply) : Prop where
  two_le : 2 ≤ reply.r
  type : reply.bDescriptorType = 3
  even : reply.total % 2 = 0

/-- A string descriptor with an even number of bytes. -/
structure IsString (reply : Reply) : Prop where
  type : reply.bDescriptorType = 3
  two_le : 2 ≤ reply.total
  even : reply.total % 2 = 0

variable {reply : Reply}

theorem IsString.accepted (h : reply.IsString) : reply.Accepted := by
  refine ⟨?_, h.type, h.even⟩
  have := h.two_le
  unfold total at this
  omega

theorem readByte_eq {k : Nat} (h : k < 256) :
    readByte reply.utf16Buf k = .ok (reply.utf16Buf.getD k 0) := by
  apply readByte_getD
  rw [reply.size]
  exact h

theorem total_lt : reply.total < 256 :=
  Nat.lt_of_le_of_lt (Nat.min_le_right ..) reply.bLength.toNat_lt

/-- The function with its reads done. -/
theorem get_eq (data : List UInt8) (length : Nat) :
    libusbyGetStringDescriptorUtf8 reply data length =
      if reply.r < 0 then .ok (reply.r, data)
      else if reply.r < 2 ∨ reply.bDescriptorType ≠ 3 ∨ reply.total % 2 ≠ 0 then
        .ok (Error.io.code, data)
      else transcode length reply.units
        { dataLen := 0, encodedLen := 0, highSurrogate := 0, data } := by
  have inside : reply.total ≤ reply.utf16Buf.length := by
    rw [reply.size]
    exact Nat.le_of_lt total_lt
  have clipped (h : ¬ reply.r < 0) :
      (if reply.r > (reply.utf16Buf.getD 0 0).toNat then (reply.utf16Buf.getD 0 0).toNat
        else reply.r.toNat) = reply.total := by
    unfold total bLength
    split_ifs <;> omega
  rw [libusbyGetStringDescriptorUtf8]
  by_cases negative : reply.r < 0
  · rw [if_pos negative, if_pos negative]
  rw [if_neg negative, if_neg negative]
  by_cases short : reply.r < 2
  · rw [if_pos short, if_pos (Or.inl short)]
  rw [if_neg short, readByte_eq (by omega), ok_bind]
  by_cases type : reply.bDescriptorType ≠ 3
  · rw [if_pos (Or.inr (Or.inl type))]
    exact if_pos type
  apply (if_neg type).trans
  rw [readByte_eq (by omega), ok_bind]
  simp only [clipped negative]
  by_cases odd : reply.total % 2 ≠ 0
  · rw [if_pos odd, if_pos (Or.inr (Or.inr odd))]
  rw [if_neg odd, readBytes_of_le inside, ok_bind, if_neg (by simp [short, type, odd])]
  rfl

theorem get_accepted (h : reply.Accepted) (data : List UInt8) (length : Nat) :
    libusbyGetStringDescriptorUtf8 reply data length = transcode length reply.units
      { dataLen := 0, encodedLen := 0, highSurrogate := 0, data } := by
  have two := h.two_le
  rw [get_eq, if_neg (by omega), if_neg (by simp [h.type, h.even]; omega)]

/-- A rejected reply gives an error code whatever the buffer, and leaves it alone. -/
theorem get_rejected (h : ¬ reply.Accepted) : ∃ r < (0 : Int), ∀ data length,
    libusbyGetStringDescriptorUtf8 reply data length = .ok (r, data) := by
  by_cases negative : reply.r < 0
  · exact ⟨reply.r, negative, fun data length => by rw [get_eq, if_pos negative]⟩
  · refine ⟨Error.io.code, by decide, fun data length => ?_⟩
    rw [get_eq, if_neg negative, if_pos]
    by_contra passes
    rw [not_or, not_or] at passes
    exact h ⟨by omega, not_not.1 passes.2.1, not_not.1 passes.2.2⟩

end Reply

theorem length_units_le {bs : List UInt8} : (units bs).length ≤ bs.length / 2 := by
  fun_induction units bs with
  | case1 lo hi bs ih => simp; omega
  | case2 => simp

end Libusby.Core.StringDescriptor
