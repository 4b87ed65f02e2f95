import Libusby.Core.Transfer

/-!
# Control transfers over any backend

`Conveys` is what `libusby_control_transfer` needs of a backend: the setup packet
and the bytes behind it reach the kernel as they stand in the buffer. The buffer is
a fresh block of which only the setup packet is filled in, so on the way out the
data stage is whatever the block held before.
-/

namespace Libusby.Core

open Foundations

variable {Req : Type}

/-- A transfer that carries `area` behind the setup packet `s`. -/
structure Carries (tran : Transfer) (s : Setup) (area : List UInt8) : Prop where
  type : tran.type = .control
  length : tran.length = s.wLength.toNat + 8
  buffer : tran.buffer = s.header ++ area
  area : area.length = s.wLength.toNat

/-- The result of a transfer that the kernel completed: at most the whole area,
which is not touched on the way out. -/
structure Delivered (tran : Transfer) (s : Setup) (area : List UInt8) (n : Nat)
    (area' : List UInt8) : Prop where
  actualLength : tran.actualLength = n + 8
  le : n ≤ s.wLength.toNat
  buffer : tran.buffer = s.header ++ area'
  length : area'.length = s.wLength.toNat
  out : s.HostToDevice → area' = area

/-- `wire` reads the setup packet and the data stage off a request. -/
structure Conveys (perform : Transfer → Except Fault (Performed Req))
    (wire : Req → Setup × List UInt8) : Prop where
  conveys : ∀ tran s area, Carries tran s area →
    ∃ p q, perform tran = .ok p ∧ p.r = Error.success.code ∧ p.handed = [q] ∧
      wire q = (s, area) ∧
        (p.tran.status = .completed → ∃ n area', Delivered p.tran s area n area')

/-- Whatever the kernel and the allocations do, the request is the one asked for,
and data on the way out goes out and stays as it is. -/
def WireFaithful (perform : Transfer → Except Fault (Performed Req))
    (wire : Req → Setup × List UInt8) (s : Setup) (data : List UInt8) : Prop :=
  ∀ submitAndWait tran (buffer : Option (List UInt8)) devHandle timeout,
    (∀ b ∈ buffer, b.length = s.wLength.toNat + 8) →
    ∃ res, libusbyControlTransfer perform submitAndWait tran buffer devHandle s data timeout =
        .ok res ∧
      res.handed.length = (if tran.isSome ∧ buffer.isSome then 1 else 0) ∧
      (∀ q ∈ res.handed, (wire q).1 = s ∧ (wire q).2.length = s.wLength.toNat ∧
        (s.HostToDevice → (wire q).2 = data)) ∧
      (s.HostToDevice → res.data = data)

section
variable {perform : Transfer → Except Fault (Performed Req)}
  {wire : Req → Setup × List UInt8} {s : Setup} {data buffer : List UInt8}

theorem length_header : s.header.length = 8 := rfl

section
variable {tran : Transfer} {area area' : List UInt8}

theorem Carries.readByte_eq (c : Carries tran s area) (k : Nat) (b : UInt8)
    (hk : s.header[k]? = some b) : readByte tran.buffer k = .ok b := by
  obtain ⟨hlt, rfl⟩ := List.getElem?_eq_some_iff.1 hk
  rw [c.buffer, readByte_append hlt, readByte_of_lt hlt]

theorem Carries.readArea (c : Carries tran s area) :
    readBytes (tran.buffer.drop 8) s.wLength.toNat = .ok area := by
  rw [c.buffer, List.drop_left' length_header, readBytes_of_le (Nat.le_of_eq c.area.symm), ← c.area,
    List.take_length]

theorem Carries.deliver (c : Carries tran s area) (h : area'.length = area.length) :
    (tran.deliver 8 area').buffer = s.header ++ area' := by
  have behind : (s.header ++ area).drop (8 + area'.length) = [] := by
    refine List.drop_eq_nil_of_le (Nat.le_of_eq ?_)
    rw [List.length_append, length_header, h]
  rw [Transfer.deliver, c.buffer, behind, List.take_left' length_header, List.append_nil]

theorem Delivered.header_le {n : Nat} (d : Delivered tran s area n area') :
    ¬ tran.actualLength < 8 := by
  rw [d.actualLength]
  omega

theorem Delivered.transferred {n : Nat} (d : Delivered tran s area n area') :
    (tran.actualLength - 8).toNat = n := by
  rw [d.actualLength]
  omega

theorem Delivered.read {n : Nat} (d : Delivered tran s area n area') :
    readBytes (tran.buffer.drop 8) n = .ok (area'.take n) := by
  rw [d.buffer, List.drop_left' length_header]
  apply readBytes_of_le
  rw [d.length]
  exact d.le

end

theorem fill_carries (tran : Transfer) (devHandle : Nat) (timeout : Int) (hbuffer : buffer.length = s.wLength.toNat + 8) :
    ∃ filled, libusbyFillControlTransfer tran devHandle (s.header ++ buffer.drop 8) false timeout =
        .ok filled ∧ Carries filled s (buffer.drop 8) := by
  refine ⟨_, rfl, rfl, ?_, rfl, ?_⟩
  · simp [Setup.header]
  · simp [hbuffer]

/-- With both allocations the request carries the rest of the block. What comes back is an
error unless the status is `LIBUSBY_TRANSFER_COMPLETED`, and else as much of the data stage
as the kernel reports. -/
theorem Conveys.control (h : Conveys perform wire)
    (submitAndWait : Transfer → Except Fault (Performed Req)) (tran : Transfer) (devHandle : Nat)
    (timeout : Int) (hbuffer : buffer.length = s.wLength.toNat + 8)
    (hdata : s.wLength.toNat ≤ data.length) :
    ∃ filled p q res,
      libusbyFillControlTransfer tran devHandle (s.header ++ buffer.drop 8) false timeout =
        .ok filled ∧
      libusbyPerformTransfer perform submitAndWait filled = .ok p ∧
      p.r = Error.success.code ∧ wire q = (s, buffer.drop 8) ∧
      libusbyControlTransfer perform submitAndWait (some tran) (some buffer) devHandle s data
        timeout = .ok res ∧ res.handed = [q] ∧
      (p.tran.status ≠ .completed ∧ res.r = Error.io.code ∧ res.data = data ∨
        p.tran.status = .completed ∧ ∃ (n : Nat) (area : List UInt8),
          Delivered p.tran s (buffer.drop 8) n area ∧ res.r = n ∧
            res.data = area.take n ++ data.drop n) := by
  obtain ⟨filled, hfill, carries⟩ := fill_carries tran devHandle timeout hbuffer
  obtain ⟨p, q, hp, hr, hhanded, hwire, hdone⟩ := h.conveys filled s _ carries
  have hperform : libusbyPerformTransfer perform submitAndWait filled = .ok p := by
    rw [libusbyPerformTransfer, hp, ok_bind, hr, if_neg (by decide)]
  simp only [libusbyControlTransfer, hfill, ok_bind, hperform, hr, if_pos (show (0 : Int) ≤
    Error.success.code by decide)]
  by_cases completed : p.tran.status = .completed
  · obtain ⟨n, area, d⟩ := hdone completed
    have hn := d.le
    rw [if_neg (by simpa using completed), if_neg d.header_le, d.transferred, d.read, ok_bind,
      if_neg (by omega)]
    exact ⟨filled, p, q, _, rfl, hperform, hr, hwire, rfl, hhanded,
      Or.inr ⟨completed, n, area, d, rfl, rfl⟩⟩
  · rw [if_pos completed]
    exact ⟨filled, p, q, _, rfl, hperform, hr, hwire, rfl, hhanded,
      Or.inl ⟨completed, rfl, rfl⟩⟩

/-- On the way out the data is overwritten with the block as far as the kernel got. -/
theorem controlTransfer_eq (submitAndWait : Transfer → Except Fault (Performed Req))
    (tran : Transfer) (devHandle : Nat) (timeout : Int) (h : Conveys perform wire)
    (hbuffer : buffer.length = s.wLength.toNat + 8) (hdata : data.length = s.wLength.toNat) :
    ∃ res q, libusbyControlTransfer perform submitAndWait (some tran) (some buffer) devHandle s data
        timeout = .ok res ∧ res.handed = [q] ∧ wire q = (s, buffer.drop 8) ∧
      (s.HostToDevice → res.data = data ∨ ∃ n, res.data = (buffer.drop 8).take n ++ data.drop n) := by
  obtain ⟨_, p, q, res, -, -, -, hwire, hres, hhanded, outcome⟩ :=
    h.control submitAndWait tran devHandle timeout hbuffer (Nat.le_of_eq hdata.symm)
  refine ⟨res, q, hres, hhanded, hwire, fun out => ?_⟩
  rcases outcome with ⟨-, -, unchanged⟩ | ⟨-, n, area, d, -, overwritten⟩
  · exact Or.inl unchanged
  · refine Or.inr ⟨n, ?_⟩
    rw [overwritten, d.out out]

end

theorem controlTransfer_noMem {perform submitAndWait : Transfer → Except Fault (Performed Req)}
    {tran : Option Transfer} {buffer : Option (List UInt8)} {devHandle : Nat} {s : Setup}
    {data : List UInt8} {timeout : Int} (h : tran = none ∨ buffer = none) :
    libusbyControlTransfer perform submitAndWait tran buffer devHandle s data timeout =
      .ok { r := Error.noMem.code, data, handed := [] } := by
  rcases h with rfl | rfl
  · rfl
  · cases tran <;> rfl

/-- A block whose bytes are not the data. -/
def otherBlock (data : List UInt8) : List UInt8 := List.replicate 8 0 ++ data.map (· + 1)

theorem drop_otherBlock {data : List UInt8} : (otherBlock data).drop 8 = data.map (· + 1) := rfl

theorem length_otherBlock {data : List UInt8} : (otherBlock data).length = data.length + 8 := by
  simp [otherBlock]

theorem map_succ_ne {data : List UInt8} (h : data ≠ []) : data.map (· + 1) ≠ data := by
  cases data with
  | nil => exact absurd rfl h
  | cons b data =>
    intro heq
    have head := congrArg UInt8.toNat (List.cons.inj heq).1
    rw [UInt8.toNat_add] at head
    have := b.toNat_lt
    simp at head
    omega

/-- Over a backend that conveys it, a request is faithful exactly if nothing has to go out. -/
theorem wireFaithful_iff {perform : Transfer → Except Fault (Performed Req)}
    {wire : Req → Setup × List UInt8} (h : Conveys perform wire) {s : Setup} {data : List UInt8}
    (hdata : data.length = s.wLength.toNat) :
    WireFaithful perform wire s data ↔ ¬ s.HostToDevice ∨ s.wLength = 0 := by
  constructor
  · intro faithful
    by_contra goesOut
    rw [not_or, not_not] at goesOut
    obtain ⟨out, nonempty⟩ := goesOut
    have hlen : (otherBlock data).length = s.wLength.toNat + 8 := by rw [length_otherBlock, hdata]
    obtain ⟨res, hres, -, hwire, -⟩ := faithful perform (some {}) (some (otherBlock data)) 0 0
      (by simpa using hlen)
    obtain ⟨res', q, hres', hhanded, hq, -⟩ := controlTransfer_eq perform {} 0 0 h hlen hdata
    rw [hres'] at hres
    cases hres
    have stage := (hwire q (by simp [hhanded])).2.2 out
    rw [hq, drop_otherBlock] at stage
    refine map_succ_ne ?_ stage
    rintro rfl
    exact nonempty (UInt16.toNat_inj.1 hdata.symm)
  · intro inward submitAndWait tran buffer devHandle timeout hbuffer
    cases tran with
    | none => exact ⟨_, controlTransfer_noMem (Or.inl rfl), by simp⟩
    | some tran =>
      cases buffer with
      | none => exact ⟨_, controlTransfer_noMem (Or.inr rfl), by simp⟩
      | some buffer =>
        obtain ⟨res, q, hres, hhanded, hq, hdata'⟩ :=
          controlTransfer_eq submitAndWait tran devHandle timeout h (hbuffer buffer rfl) hdata
        have hdrop : (buffer.drop 8).length = s.wLength.toNat := by
          simp [hbuffer buffer rfl]
        have empty (out : s.HostToDevice) : buffer.drop 8 = [] ∧ data = [] := by
          have zero := inward.resolve_left (not_not.2 out)
          rw [zero] at hdrop hdata
          exact ⟨List.eq_nil_of_length_eq_zero hdrop, List.eq_nil_of_length_eq_zero hdata⟩
        refine ⟨res, hres, by simp [hhanded], ?_, fun out => ?_⟩
        · intro q' hq'
          rw [hhanded, List.mem_singleton] at hq'
          rw [hq', hq]
          exact ⟨rfl, hdrop, fun out => (empty out).1.trans (empty out).2.symm⟩
        · rcases hdata' out with same | ⟨n, taken⟩
          · exact same
          · rw [taken, (empty out).1, (empty out).2]
            simp

end Libusby.Core
