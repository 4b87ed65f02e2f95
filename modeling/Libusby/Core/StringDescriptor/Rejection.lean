import Libusby.Core.StringDescriptor.Utf8

/-!
# Which strings are rejected

With room for every string, the loop and the test behind it accept what is an even number of
bytes and well-formed UTF-16.
-/

namespace Libusby.Core.StringDescriptor

open Foundations

section
variable {reply : Reply} {data : List UInt8} {length : Nat}

/-- An odd number of bytes is no string. -/
theorem get_odd (odd : reply.total % 2 = 1) :
    ∃ r < (0 : Int), libusbyGetStringDescriptorUtf8 reply data length = .ok (r, data) := by
  have rejected : ¬ reply.Accepted := fun h => by
    have := h.even
    omega
  obtain ⟨r, negative, hget⟩ := Reply.get_rejected rejected
  exact ⟨r, negative, hget data length⟩

/-- The sign of the result for a string says whether it is well-formed. -/
theorem get_large_sign (h : reply.Accepted) (hlength : 512 ≤ length)
    (hdata : data.length = length) :
    ∃ r buf, libusbyGetStringDescriptorUtf8 reply data length = .ok (r, buf) ∧
      (r < 0 ↔ ¬ WellFormedUtf16 reply.units) := by
  refine ⟨_, _, get_large h hlength hdata, ?_⟩
  rw [← decodeUtf16_wellFormed]
  cases (decodeUtf16 reply.units).2 with
  | true => simp
  | false => simp [Error.code]

end

/-- Behind a header of the right type, exactly an odd number of bytes and ill-formed units give
an error code. -/
theorem get_negative_iff (reply : Reply) (received : 2 ≤ reply.r)
    (type : reply.bDescriptorType = 3) (length : Nat) (hlength : 512 ≤ length) (data : List UInt8)
    (hdata : data.length = length) :
    ∃ r buf, libusbyGetStringDescriptorUtf8 reply data length = .ok (r, buf) ∧
      (r < 0 ↔ reply.total % 2 = 1 ∨ ¬ WellFormedUtf16 reply.units) := by
  rcases Nat.mod_two_eq_zero_or_one reply.total with even | odd
  · obtain ⟨r, buf, hget, sign⟩ := get_large_sign ⟨received, type, even⟩ hlength hdata
    exact ⟨r, buf, hget, by rw [sign, even]; simp⟩
  · obtain ⟨r, negative, hget⟩ : ∃ r < (0 : Int),
        libusbyGetStringDescriptorUtf8 reply data length = .ok (r, data) := get_odd odd
    exact ⟨r, data, hget, by simp [negative, odd]⟩

/-- A high surrogate at the end. -/
def halfEmoji : Reply := .ofBytes [6, 3, 0x41, 0, 0x3D, 0xD8] (by decide)

theorem get_negative_halfEmoji :
    ∃ r buf, libusbyGetStringDescriptorUtf8 halfEmoji (List.replicate 512 0) 512 = .ok (r, buf) ∧
      (r < 0 ↔ halfEmoji.total % 2 = 1 ∨ ¬ WellFormedUtf16 halfEmoji.units) :=
  get_negative_iff halfEmoji (by decide) (by decide) 512 (Nat.le_refl _)
    (List.replicate 512 0) List.length_replicate

end Libusby.Core.StringDescriptor
