import Libusby.Core.Config.Allocation

/-!
# What the parser reads

`Position` follows `rawdesc` and `wTotalLength` through the loop whatever tree is built beside
them, so that a run after a copy outside of an endpoint array is covered as well. At every
position the input that is left is what `wTotalLength` says, and an iteration reads inside it.
-/

namespace Libusby.Core.Config

open Foundations

/-- Where the loop can be after `k` iterations over the bytes `raw`. -/
inductive Position (raw : List UInt8) : Nat → Parse → Prop
  | start (b : Build) (nine : 9 ≤ raw.length) :
    Position raw 0 ⟨raw.drop 9, .ofNat raw.length - 9, b⟩
  | next {k : Nat} {p : Parse} {desclen : UInt8} (b : Build) (here : Position raw k p)
    (more : p.wTotalLength ≠ 0) (read : readByte p.rawdesc 0 = .ok desclen)
    (fits : desclen.toNat ≤ p.wTotalLength.toNat) (two : 2 ≤ desclen.toNat) :
    Position raw (k + 1) ⟨p.rawdesc.drop desclen.toNat, p.wTotalLength - desclen.toUInt16, b⟩

/-- The bytes that are left are the last `wTotalLength` ones of the input. -/
structure Inside (raw : List UInt8) (k : Nat) (p : Parse) : Prop where
  rest : p.rawdesc = raw.drop (raw.length - p.wTotalLength.toNat)
  bound : p.wTotalLength.toNat + 2 * k + 9 ≤ raw.length

/-- A fault, if there is one, is a store. -/
def OnlyStore {α : Type} (x : Except Stop α) : Prop := ∀ f, x = .error (.fault f) → f = .store

section
variable {raw : List UInt8} {k : Nat} {p q : Parse} {b : Build} {ok : Nat → Bool} {desclen : UInt8}

/-! ## Positions -/

theorem toNat_sub_desclen {w : UInt16} (fits : desclen.toNat ≤ w.toNat) :
    (w - desclen.toUInt16).toNat + desclen.toNat = w.toNat := by
  have le : desclen.toUInt16 ≤ w := by simpa [UInt16.le_iff_toNat_le] using fits
  rw [UInt16.toNat_sub_of_le _ _ le, UInt8.toNat_toUInt16]
  omega

theorem Inside.length (h : Inside raw k p) : p.rawdesc.length = p.wTotalLength.toNat := by
  have := h.bound
  rw [h.rest, List.length_drop]
  omega

theorem Position.inside (hlen : raw.length ≤ 65535) (h : Position raw k p) : Inside raw k p := by
  induction h with
  | start b nine =>
    have length : (UInt16.ofNat raw.length).toNat = raw.length :=
      UInt16.toNat_ofNat_of_lt (by rw [UInt16.size]; omega)
    have left : (UInt16.ofNat raw.length - 9).toNat = raw.length - 9 := by
      rw [UInt16.toNat_sub_of_le, length]
      · rfl
      · rw [UInt16.le_iff_toNat_le, length]
        exact nine
    refine ⟨?_, ?_⟩
    · simp only [left]
      congr 1
      omega
    · simp only [left]
      omega
  | next b here more read fits two ih =>
    have left := toNat_sub_desclen fits
    have bound := ih.bound
    refine ⟨?_, ?_⟩
    · simp only
      rw [ih.rest, List.drop_drop]
      congr 1
      omega
    · simp only
      omega

/-- An iteration that goes on comes to a position. -/
theorem Position.step (h : Position raw k p) (more : p.wTotalLength ≠ 0)
    (hstep : parseNext ok p = .ok q) : Position raw (k + 1) q := by
  obtain ⟨desclen, b, read, fits, two, -, rfl⟩ := parseNext_eq_ok ok hstep
  exact .next b h more read fits two

/-- The loop ends after so many iterations, by its condition or in the last of them. -/
theorem Position.loop (ok : Nat → Bool) (h : Position raw k p) :
    ∃ n q, Position raw n q ∧ (q.wTotalLength = 0 ∧ parseLoop ok p = .ok q ∨
      ∃ e, q.wTotalLength ≠ 0 ∧ parseNext ok q = .error e ∧ parseLoop ok p = .error e) := by
  fun_induction parseLoop ok p generalizing k with
  | case1 p hw => exact ⟨k, p, h, .inl ⟨hw, rfl⟩⟩
  | case2 p hw e hstep => exact ⟨k, p, h, .inr ⟨e, hw, hstep, rfl⟩⟩
  | case3 p hw q hstep ih => exact ih (h.step hw hstep)

/-! ## Reads -/

theorem OnlyStore.bind {α β : Type} {x : Except Stop α} {g : α → Except Stop β} (h : OnlyStore x)
    (hg : ∀ a, OnlyStore (g a)) : OnlyStore (x >>= g) := by
  cases x with
  | error e =>
    intro f hf
    cases hf
    exact h f rfl
  | ok a => exact hg a

theorem onlyStore_ok {α : Type} {a : α} : OnlyStore (.ok a) := fun _ h => by cases h

theorem onlyStore_error {α : Type} : OnlyStore (.error (.error b) : Except Stop α) :=
  fun _ h => by cases h

theorem onlyStore_store {α : Type} : OnlyStore (.error (.fault .store) : Except Stop α) :=
  fun _ h => by
    cases h
    rfl

theorem addAltsetting_onlyStore (nine : 9 ≤ raw.length) (j n : Nat) :
    OnlyStore (addAltsetting ok raw j n b) := by
  unfold addAltsetting
  split
  case h_1 => exact onlyStore_error
  case h_2 mem _ =>
    rw [readBytes_of_le nine, lift_ok, ok_bind]
    dsimp only
    split
    case h_1 => exact onlyStore_error
    case h_2 => exact onlyStore_ok

theorem interfaceBlock_onlyStore (two : 2 ≤ raw.length)
    (whole : (byteAt raw 0).toNat ≤ raw.length) : OnlyStore (interfaceBlock ok raw b) := by
  unfold interfaceBlock
  split
  case isTrue => exact onlyStore_error
  case isFalse =>
    rw [readByte_getD (by omega), lift_ok, ok_bind]
    split
    case isTrue => exact onlyStore_error
    case isFalse size =>
      have nine : 9 ≤ raw.length := by
        rw [byteAt, not_not.1 size] at whole
        exact whole
      rw [readByte_getD (by omega), lift_ok, ok_bind, readByte_getD (by omega), lift_ok, ok_bind]
      dsimp only
      split
      case isTrue => exact onlyStore_error
      case isFalse =>
        split
        case isTrue => exact onlyStore_error
        case isFalse => exact addAltsetting_onlyStore nine _ _

theorem endpointBlock_onlyStore (two : 2 ≤ raw.length) (whole : (byteAt raw 0).toNat ≤ raw.length) :
    OnlyStore (endpointBlock raw b) := by
  unfold endpointBlock
  rw [readByte_getD (by omega), lift_ok, ok_bind]
  split
  case isTrue => exact onlyStore_error
  case isFalse size =>
    have seven : 7 ≤ raw.length := by
      rw [byteAt, not_not.1 size] at whole
      exact whole
    rw [readBytes_of_le seven, lift_ok, ok_bind]
    split
    case h_1 =>
      split
      case isTrue => exact onlyStore_ok
      case isFalse => exact onlyStore_store
    case h_2 => exact onlyStore_store

theorem parseBlock_onlyStore (two : 2 ≤ raw.length) (whole : (byteAt raw 0).toNat ≤ raw.length) :
    OnlyStore (parseBlock ok raw b) := by
  unfold parseBlock
  rw [readByte_getD (by omega), lift_ok, ok_bind]
  have tail (b : Build) :
      OnlyStore (if raw.getD 1 0 = 5 then endpointBlock raw b else .ok b) := by
    split
    case isTrue => exact endpointBlock_onlyStore two whole
    case isFalse => exact onlyStore_ok
  dsimp only
  split
  case isTrue => exact (interfaceBlock_onlyStore two whole).bind tail
  case isFalse => exact tail b

/-- An iteration never reads outside of the bytes that are left. -/
theorem parseNext_onlyStore (hp : p.rawdesc.length = p.wTotalLength.toNat)
    (more : p.wTotalLength ≠ 0) : OnlyStore (parseNext ok p) := by
  have nonempty : 0 < p.rawdesc.length := by
    rw [hp]
    exact Nat.pos_of_ne_zero fun h => more (UInt16.toNat_inj.1 h)
  unfold parseNext
  rw [readByte_getD nonempty, lift_ok, ok_bind]
  split
  case isTrue => exact onlyStore_error
  case isFalse hlen =>
    obtain ⟨long, short⟩ := not_or.1 hlen
    have two : 2 ≤ (p.rawdesc.getD 0 0).toNat := UInt8.le_iff_toNat_le.1 (UInt8.not_lt.1 short)
    have whole : (byteAt p.rawdesc 0).toNat ≤ p.rawdesc.length := by
      rw [byteAt, hp]
      omega
    have inside : 2 ≤ p.rawdesc.length := Nat.le_trans two whole
    exact (parseBlock_onlyStore inside whole).bind fun _ => onlyStore_ok

theorem parseLoop_onlyStore (hlen : raw.length ≤ 65535) (h : Position raw k p) :
    OnlyStore (parseLoop ok p) := by
  obtain ⟨n, q, at_q, ⟨-, hloop⟩ | ⟨e, more, hstep, hloop⟩⟩ := h.loop ok
  · rw [hloop]
    exact onlyStore_ok
  · rw [hloop, ← hstep]
    exact parseNext_onlyStore (at_q.inside hlen).length more

/-! ## Totality -/

/-- The function returns, unless it stores outside of an array. -/
theorem sanitize_total (ok : Nat → Bool) (hlen : raw.length ≤ 65535) :
    usbyiSanitizeConfigDescriptor ok raw (.ofNat raw.length) {} = .error .store ∨
      ∃ out, usbyiSanitizeConfigDescriptor ok raw (.ofNat raw.length) {} = .ok out ∧
        out.Released := by
  have length : (UInt16.ofNat raw.length).toNat = raw.length :=
    UInt16.toNat_ofNat_of_lt (by rw [UInt16.size]; omega)
  rcases sanitize_released ok (m := {}) rfl (Nat.le_of_eq length) with
    returned | ⟨f, b, nine, hloop, hfault⟩
  · exact .inr returned
  · rw [parseLoop_onlyStore hlen (.start b nine) f hloop] at hfault
    exact .inl hfault

/-- What an iteration at a position does with the length that it reads. -/
structure Iterates (ok : Nat → Bool) (raw : List UInt8) (k : Nat) (p : Parse) : Prop where
  reads : p.wTotalLength ≠ 0 → OnlyStore (parseNext ok p)
  advance : ∀ q, p.wTotalLength ≠ 0 → parseNext ok p = .ok q → Position raw (k + 1) q ∧
    ∃ desclen, readByte p.rawdesc 0 = .ok desclen ∧ 2 ≤ desclen.toNat ∧
      q.rawdesc = p.rawdesc.drop desclen.toNat ∧
      q.wTotalLength.toNat + desclen.toNat = p.wTotalLength.toNat

theorem Position.iterates (hlen : raw.length ≤ 65535) (ok : Nat → Bool) (h : Position raw k p) :
    Iterates ok raw k p where
  reads more := parseNext_onlyStore (h.inside hlen).length more
  advance q more hstep := by
    refine ⟨h.step more hstep, ?_⟩
    obtain ⟨desclen, b, read, fits, two, -, rfl⟩ := parseNext_eq_ok ok hstep
    exact ⟨desclen, read, two, rfl, toNat_sub_desclen fits⟩

end

/-- The parser reads inside of its input and comes to an end: no read is outside, at every position
of the loop the bytes that are left are those that `wTotalLength` counts, and every iteration
takes at least two of them. -/
theorem parser_reads_inside (ok : Nat → Bool) (raw : List UInt8) (hlen : raw.length ≤ 65535) :
    usbyiSanitizeConfigDescriptor ok raw (.ofNat raw.length) {} ≠ .error .read ∧
    (∀ k p, Position raw k p → Inside raw k p ∧ Iterates ok raw k p) ∧
    ∀ b, 9 ≤ raw.length → ∃ k q, Position raw k q ∧
      (q.wTotalLength = 0 ∧ parseLoop ok ⟨raw.drop 9, .ofNat raw.length - 9, b⟩ = .ok q ∨
        ∃ e, q.wTotalLength ≠ 0 ∧ parseNext ok q = .error e ∧
          parseLoop ok ⟨raw.drop 9, .ofNat raw.length - 9, b⟩ = .error e) := by
  refine ⟨fun hread => ?_, fun k p h => ⟨h.inside hlen, h.iterates hlen ok⟩, fun b nine => ?_⟩
  · rcases sanitize_total ok hlen with hstore | ⟨out, hout, -⟩
    · cases hstore.symm.trans hread
    · cases hout.symm.trans hread
  · exact (Position.start b nine).loop ok

/-- A configuration descriptor and half of the next one. -/
def cutOff : List UInt8 := [9, 2, 13, 0, 1, 1, 0, 0x80, 50] ++ [9, 4, 0, 0]

theorem parser_reads_inside_cutOff :
    usbyiSanitizeConfigDescriptor (fun _ => true) cutOff (.ofNat cutOff.length) {} ≠
      .error .read ∧
    (∀ k p, Position cutOff k p → Inside cutOff k p ∧ Iterates (fun _ => true) cutOff k p) ∧
    ∀ b, 9 ≤ cutOff.length → ∃ k q, Position cutOff k q ∧
      (q.wTotalLength = 0 ∧
          parseLoop (fun _ => true) ⟨cutOff.drop 9, .ofNat cutOff.length - 9, b⟩ = .ok q ∨
        ∃ e, q.wTotalLength ≠ 0 ∧ parseNext (fun _ => true) q = .error e ∧
          parseLoop (fun _ => true) ⟨cutOff.drop 9, .ofNat cutOff.length - 9, b⟩ = .error e) :=
  parser_reads_inside (fun _ => true) cutOff (by decide)

end Libusby.Core.Config
