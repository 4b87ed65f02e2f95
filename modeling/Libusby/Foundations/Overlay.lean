import Libusby.Foundations.Buffer

/-!
# Partly written buffers

A function that fills a buffer from the front and skips some of its bytes leaves
an overlay: cells with the bytes it stored, over whatever the buffer held before.
Cells beyond the end of the buffer do not show.
-/

namespace Libusby.Foundations

/-- A byte that was stored, or `none` for one that was passed over. -/
abbrev Cell := Option UInt8

def storeByte (bs : List UInt8) (k : Nat) (b : UInt8) : Except Fault (List UInt8) :=
  if k < bs.length then .ok (bs.set k b) else .error .store

/-- The buffer that held `bs` before `cells` were written. -/
def overlay : List Cell → List UInt8 → List UInt8
  | [], bs => bs
  | _, [] => []
  | c :: cells, b :: bs => c.getD b :: overlay cells bs

section
variable {cells more : List Cell} {bs cs stored : List UInt8} {b : UInt8} {k n : Nat}

theorem storeByte_of_lt (h : k < bs.length) : storeByte bs k b = .ok (bs.set k b) := if_pos h

@[simp] theorem overlay_nil : overlay [] bs = bs := by cases bs <;> rfl

@[simp] theorem overlay_empty : overlay cells [] = [] := by cases cells <;> rfl

@[simp] theorem length_overlay : (overlay cells bs).length = bs.length := by
  fun_induction overlay cells bs <;> simp_all

theorem overlay_append_gap : overlay (cells ++ List.replicate n none) bs = overlay cells bs := by
  induction cells generalizing bs n with
  | nil =>
    induction n generalizing bs with
    | zero => rfl
    | succ n ih =>
      cases bs with
      | nil => rfl
      | cons b bs => simpa [List.replicate_succ, overlay] using ih
  | cons c cells ih =>
    cases bs with
    | nil => rfl
    | cons b bs => simpa [overlay] using ih

theorem overlay_append_of_le (h : bs.length ≤ cells.length) :
    overlay (cells ++ more) bs = overlay cells bs := by
  induction cells generalizing bs with
  | nil =>
    rw [List.eq_nil_of_length_eq_zero (Nat.le_zero.1 h)]
    simp
  | cons c cells ih =>
    cases bs with
    | nil => rfl
    | cons b bs =>
      simp only [List.cons_append, overlay, List.cons.injEq, true_and]
      exact ih (by simpa using h)

/-- A store right behind the cells adds one. -/
theorem set_overlay (h : cells.length < bs.length) :
    (overlay cells bs).set cells.length b = overlay (cells ++ [some b]) bs := by
  induction cells generalizing bs with
  | nil =>
    cases bs with
    | nil => cases h
    | cons => simp [overlay]
  | cons c cells ih =>
    cases bs with
    | nil => cases h
    | cons d bs =>
      simp only [List.length_cons, List.cons_append, overlay, List.set_cons_succ, List.cons.injEq,
        true_and]
      exact ih (by simpa using h)

theorem storeByte_overlay (h : cells.length < bs.length) :
    storeByte (overlay cells bs) cells.length b = .ok (overlay (cells ++ [some b]) bs) := by
  rw [storeByte_of_lt (by simpa using h), set_overlay h]

theorem take_overlay (h : cells.length ≤ bs.length) :
    (overlay cells bs).take cells.length = List.zipWith Option.getD cells bs := by
  induction cells generalizing bs with
  | nil => simp
  | cons c cells ih =>
    cases bs with
    | nil => cases h
    | cons b bs => simpa [overlay] using ih (by simpa using h)

/-- Stored bytes do not depend on what the buffer held. -/
theorem take_overlay_stored (hk : k ≤ stored.length) (hbs : k ≤ bs.length) :
    (overlay (stored.map some ++ more) bs).take k = stored.take k := by
  induction stored generalizing bs k with
  | nil =>
    rw [Nat.le_zero.1 hk]
    simp
  | cons c stored ih =>
    cases k with
    | zero => simp
    | succ k =>
      cases bs with
      | nil => cases hbs
      | cons b bs => simpa [overlay] using ih (by simpa using hk) (by simpa using hbs)

theorem zipWith_getD_replicate (h : cells.length ≤ n) :
    List.zipWith Option.getD cells (List.replicate n b) = cells.map (·.getD b) := by
  induction cells generalizing n with
  | nil => simp
  | cons c cells ih =>
    cases n with
    | zero => cases h
    | succ n => simpa [List.replicate_succ] using ih (by simpa using h)

/-- Over a buffer of one byte throughout. -/
theorem take_overlay_replicate (hk : k ≤ cells.length) (hn : k ≤ n) :
    (overlay cells (List.replicate n b)).take k = (cells.map (·.getD b)).take k := by
  induction cells generalizing k n with
  | nil =>
    rw [Nat.le_zero.1 hk]
    simp
  | cons c cells ih =>
    cases n with
    | zero =>
      rw [Nat.le_zero.1 hn]
      simp
    | succ n =>
      cases k with
      | zero => simp
      | succ k =>
        rw [List.replicate_succ, overlay, List.take_succ_cons, List.map_cons, List.take_succ_cons,
          ih (Nat.le_of_succ_le_succ hk) (Nat.le_of_succ_le_succ hn)]

theorem getElem?_overlay :
    (overlay cells bs)[k]? = bs[k]?.map fun b => (cells[k]?.join).getD b := by
  induction cells generalizing bs k with
  | nil => simp
  | cons c cells ih =>
    cases bs with
    | nil => simp
    | cons b bs => cases k <;> simp [overlay, ih]

end

end Libusby.Foundations
