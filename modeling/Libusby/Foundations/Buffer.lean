import Mathlib.Data.List.Basic

/-!
# Bytes and buffers

A C buffer is a list of bytes of fixed length. Reading and storing outside it is
a `Fault`; a fault is never a result of the function, so a model that returns
`Except Fault` says both what is returned and that nothing went wrong before.
-/

namespace Libusby.Foundations

/-- What a C function must never do: read or store outside an object, fail an
assertion, or free a block that is not allocated. -/
inductive Fault where
  | read | store | assertion | free
  deriving DecidableEq, Repr

/-- The 16-bit word with the given low and high byte. -/
def le16 (lo hi : UInt8) : UInt16 := hi.toUInt16 <<< 8 ||| lo.toUInt16

def lowByte (w : UInt16) : UInt8 := w.toUInt8
def highByte (w : UInt16) : UInt8 := (w >>> 8).toUInt8

variable {bs cs : List UInt8} {k n : Nat}

def readByte (bs : List UInt8) (k : Nat) : Except Fault UInt8 :=
  if h : k < bs.length then .ok bs[k] else .error .read

/-- The first `n` bytes. -/
def readBytes (bs : List UInt8) (n : Nat) : Except Fault (List UInt8) :=
  if n ≤ bs.length then .ok (bs.take n) else .error .read

theorem toNat_le16 (lo hi : UInt8) : (le16 lo hi).toNat = 256 * hi.toNat + lo.toNat := by
  have low : lo.toNat < 2 ^ 8 := lo.toNat_lt
  have high : hi.toNat < 2 ^ 8 := hi.toNat_lt
  rw [le16]
  simp only [UInt16.toNat_or, UInt16.toNat_shiftLeft, UInt8.toNat_toUInt16, UInt16.reduceToNat,
    Nat.reduceMod, Nat.shiftLeft_eq]
  rw [Nat.mod_eq_of_lt (by omega), Nat.mul_comm, ← Nat.two_pow_add_eq_or_of_lt low]

@[simp] theorem le16_bytes (w : UInt16) : le16 (lowByte w) (highByte w) = w := by
  have := w.toNat_lt
  rw [← UInt16.toNat_inj, toNat_le16, lowByte, highByte]
  simp only [UInt16.toNat_toUInt8, UInt16.toNat_shiftRight, UInt16.reduceToNat, Nat.reduceMod,
    Nat.shiftRight_eq_div_pow, Nat.reducePow]
  omega

theorem readByte_of_lt (h : k < bs.length) : readByte bs k = .ok bs[k] := dif_pos h

theorem readByte_append (h : k < bs.length) : readByte (bs ++ cs) k = readByte bs k := by
  rw [readByte_of_lt h, readByte_of_lt (by simp; omega)]
  simp [List.getElem_append_left h]

theorem readByte_getD (h : k < bs.length) : readByte bs k = .ok (bs.getD k 0) := by
  rw [readByte_of_lt h, List.getD_eq_getElem?_getD, List.getElem?_eq_getElem h, Option.getD_some]

theorem readByte_append_getD (h : k < bs.length) : readByte (bs ++ cs) k = .ok (bs.getD k 0) := by
  rw [readByte_append h, readByte_getD h]

theorem readByte_eq_ok {b : UInt8} (h : readByte bs k = .ok b) : k < bs.length ∧ b = bs.getD k 0 := by
  by_cases hk : k < bs.length
  · rw [readByte_getD hk] at h
    exact ⟨hk, (Except.ok.inj h).symm⟩
  · rw [readByte, dif_neg hk] at h
    cases h

theorem readBytes_eq_ok (h : readBytes bs n = .ok cs) : n ≤ bs.length ∧ cs = bs.take n := by
  unfold readBytes at h
  split_ifs at h with hn
  exact ⟨hn, (Except.ok.inj h).symm⟩

theorem readBytes_of_le (h : n ≤ bs.length) : readBytes bs n = .ok (bs.take n) := if_pos h

theorem readBytes_append (h : n ≤ bs.length) : readBytes (bs ++ cs) n = readBytes bs n := by
  rw [readBytes_of_le h, readBytes_of_le (by simp; omega), List.take_append_of_le_length h]

/-! ## Objects of fixed size -/

/-- An object of `n` bytes. -/
@[ext] structure Bytes (n : Nat) where
  bytes : List UInt8
  size : bytes.length = n

namespace Bytes

instance : DecidableEq (Bytes n) := fun a b => decidable_of_iff (a.bytes = b.bytes) Bytes.ext_iff.symm

/-- Byte `k`. -/
def get (b : Bytes n) (k : Nat) : UInt8 := b.bytes.getD k 0

/-- The object after `data`, cut off at its end, was written to its front. -/
def fill (b : Bytes n) (data : List UInt8) : Bytes n where
  bytes := (data ++ b.bytes.drop data.length).take n
  size := by
    simp [b.size]
    omega

/-- An object whose bytes are all `b`. -/
def replicate (n : Nat) (b : UInt8) : Bytes n := ⟨List.replicate n b, List.length_replicate⟩

variable {b : Bytes n} {data : List UInt8}

theorem fill_bytes (h : data.length ≤ n) :
    (b.fill data).bytes = data ++ b.bytes.drop data.length := by
  apply List.take_of_length_le
  simp [b.size]
  omega

theorem get_fill_of_lt (h : data.length ≤ n) (hk : k < data.length) :
    (b.fill data).get k = data.getD k 0 := by
  rw [get, fill_bytes h, List.getD_eq_getElem?_getD, List.getElem?_append_left hk,
    List.getD_eq_getElem?_getD]

theorem get_fill_of_le (h : data.length ≤ n) (hk : data.length ≤ k) :
    (b.fill data).get k = b.get k := by
  rw [get, get, fill_bytes h, List.getD_eq_getElem?_getD, List.getElem?_append_right hk,
    List.getElem?_drop, Nat.add_sub_cancel' hk, List.getD_eq_getElem?_getD]

/-- Data of full size leaves nothing of what was there. -/
theorem fill_eq_of_full {c : Bytes n} (h : data.length = n) : b.fill data = c.fill data := by
  subst h
  ext1
  rw [fill_bytes (Nat.le_refl _), fill_bytes (Nat.le_refl _),
    List.drop_of_length_le (Nat.le_of_eq b.size), List.drop_of_length_le (Nat.le_of_eq c.size)]

theorem get_replicate {x : UInt8} (hk : k < n) : (replicate n x).get k = x := by
  simp [get, replicate, hk]

end Bytes

@[simp] theorem bind_eq_ok {ε α β : Type} {x : Except ε α} {f : α → Except ε β} {r : β} :
    x >>= f = .ok r ↔ ∃ a, x = .ok a ∧ f a = .ok r := by
  cases x <;> simp [bind, Except.bind]

@[simp] theorem ok_bind {ε α β : Type} {a : α} {f : α → Except ε β} :
    (Except.ok a : Except ε α) >>= f = f a := rfl

@[simp] theorem error_bind {ε α β : Type} {e : ε} {f : α → Except ε β} :
    (Except.error e : Except ε α) >>= f = .error e := rfl

theorem toOption_eq_some {ε α : Type} {x : Except ε α} {a : α} : x.toOption = some a ↔ x = .ok a := by
  cases x <;> simp [Except.toOption]

end Libusby.Foundations
