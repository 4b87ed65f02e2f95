import Libusby.Core.ControlTransfer
import Libusby.Core.DescriptorReads
import Libusby.Core.StringDescriptor.Truncation
import Libusby.Core.StringDescriptor.Utf8

/-!
# From the device to the text

`libusby_get_string_descriptor` asks the backend, and the device itself where the backend has
no answer; `libusby_get_string_descriptor_utf8` gives it a buffer of 256 bytes and transcodes
what comes back. A device that holds a text sends `descriptor`: the size and the type of the
descriptor, and the units of the text, the low byte of each first.
-/

namespace Libusby.Core.StringDescriptor

open Foundations

/-- `usbyb_get_descriptor` of a backend. -/
abbrev Usbyb := UInt8 → UInt8 → UInt16 → Nat → Except Fault Core.Reply

/-- `libusby_control_transfer`: what it returns, and the data afterwards. -/
abbrev Control := Setup → List UInt8 → Except Fault (Int × List UInt8)

/-- `GET_DESCRIPTOR` for a string. -/
def stringSetup (descIndex : UInt8) (langid : UInt16) (length : Nat) : Setup where
  bmRequestType := 0x80
  bRequest := 6
  wValue := descIndex.toUInt16 ||| 0x300
  wIndex := langid
  wLength := .ofNat length

/-- Bytes that do not fit into `data` would be stored behind it. -/
def libusbyGetStringDescriptor (usbyb : Usbyb) (control : Control) (descIndex : UInt8)
    (langid : UInt16) (data : List UInt8) : Except Fault (Int × List UInt8) := do
  let reply ← usbyb 3 descIndex langid data.length
  match reply with
  | .error .notSupported => control (stringSetup descIndex langid data.length) data
  | .error e => .ok (e.code, data)
  | .ok bytes =>
    if data.length < bytes.length then .error .store
    else .ok (bytes.length, bytes ++ data.drop bytes.length)

/-- The whole of `libusby_get_string_descriptor_utf8`; `utf16Buf` is what the local holds
before anything is stored in it. -/
def readString (usbyb : Usbyb) (control : Control) (descIndex : UInt8) (langid : UInt16)
    (utf16Buf : Bytes 256) (data : List UInt8) (length : Nat) : Except Fault (Int × List UInt8) := do
  let (r, buf) ← libusbyGetStringDescriptor usbyb control descIndex langid utf16Buf.bytes
  if h : buf.length = 256 ∧ r ≤ 256 then libusbyGetStringDescriptorUtf8 ⟨r, buf, h.1, h.2⟩ data length
  else .error .store

/-! ## The descriptor of a text -/

/-- UTF-16LE. -/
def unitBytes (us : List UInt16) : List UInt8 := us.flatMap fun u => [lowByte u, highByte u]

/-- The string descriptor of a text, for texts of at most 126 units. -/
def descriptor (cs : List Char) : List UInt8 :=
  .ofNat (2 + 2 * (encodeUtf16 cs).length) :: 3 :: unitBytes (encodeUtf16 cs)

section
variable {us : List UInt16} {cs : List Char}

theorem units_unitBytes : units (unitBytes us) = us := by
  induction us with
  | nil => rfl
  | cons u us ih =>
    rw [unitBytes, List.flatMap_cons, ← unitBytes]
    change le16 (lowByte u) (highByte u) :: units (unitBytes us) = u :: us
    rw [le16_bytes, ih]

theorem length_unitBytes : (unitBytes us).length = 2 * us.length := by
  induction us with
  | nil => rfl
  | cons u us ih =>
    rw [unitBytes, List.flatMap_cons, ← unitBytes, List.length_append, ih, List.length_cons]
    simp
    omega

theorem length_descriptor : (descriptor cs).length = 2 + 2 * (encodeUtf16 cs).length := by
  rw [descriptor, List.length_cons, List.length_cons, length_unitBytes]
  omega

end

/-- The descriptor stands at the front of the buffer, and all of it was received. -/
structure Received (cs : List Char) (reply : Reply) : Prop where
  fits : (encodeUtf16 cs).length ≤ 126
  r : reply.r = (descriptor cs).length
  front : reply.utf16Buf.take (descriptor cs).length = descriptor cs

section
variable {cs : List Char} {reply : Reply} {length : Nat}

theorem Received.getD (h : Received cs reply) {k : Nat} (hk : k < (descriptor cs).length) :
    reply.utf16Buf.getD k 0 = (descriptor cs).getD k 0 := by
  rw [← h.front, List.getD_eq_getElem?_getD, List.getD_eq_getElem?_getD,
    List.getElem?_take_of_lt (h.front ▸ hk)]

theorem Received.bLength (h : Received cs reply) :
    reply.bLength.toNat = (descriptor cs).length := by
  have fits := h.fits
  rw [Reply.bLength, h.getD (by rw [length_descriptor]; omega), length_descriptor]
  exact UInt8.toNat_ofNat_of_lt' (by rw [UInt8.size]; omega)

theorem Received.total (h : Received cs reply) : reply.total = (descriptor cs).length := by
  rw [Reply.total, h.bLength, h.r, Int.toNat_natCast, Nat.min_self]

theorem Received.isString (h : Received cs reply) : reply.IsString where
  type := h.getD (by rw [length_descriptor]; omega)
  two_le := by
    rw [h.total, length_descriptor]
    omega
  even := by
    rw [h.total, length_descriptor]
    omega

/-- The units are those of the text. -/
theorem Received.units (h : Received cs reply) : reply.units = encodeUtf16 cs := by
  rw [Reply.units, h.total, h.front]
  exact units_unitBytes

theorem Received.decoded (h : Received cs reply) : decodeUtf16 reply.units = (cs, true) := by
  rw [h.units, decodeUtf16_encodeUtf16]

end

/-! ## Buffers of any size -/

section
variable {cs : List Char} {prev length : Nat} {reply : Reply}

theorem plain_of_starts (h : utf8 cs <+: (layout prev cs).map (·.getD 0)) : ∀ c ∈ cs, Plain c := by
  induction cs generalizing prev with
  | nil => simp
  | cons c cs ih =>
    obtain ⟨more, h⟩ := h
    rw [layout_cons, utf8, List.flatMap_cons, ← utf8, List.map_append, List.map_append,
      List.map_replicate, List.map_map, List.append_assoc (String.utf8EncodeChar c)] at h
    simp only [Option.getD_none, Function.comp_def, Option.getD_some, List.map_id'] at h
    have plain : Plain c := by
      by_contra hc
      exact not_plain_ne hc _ _ h.symm
    rw [gap_plain plain, written_plain plain, List.replicate_zero, List.nil_append,
      List.append_cancel_left_eq] at h
    exact List.forall_mem_cons.2 ⟨plain, ih ⟨more, h⟩⟩

/-- The result for a well-formed reply, whatever the size of the buffer. -/
theorem get_decoded (h : reply.IsString) (hcs : decodeUtf16 reply.units = (cs, true))
    {data : List UInt8} (hdata : data.length = length) :
    libusbyGetStringDescriptorUtf8 reply data length =
      if length ≤ firstWidth cs ∨ ∀ o ∈ starts 0 0 cs, o < length then
        .ok ((min length (layout 0 cs).length : Nat), overlay (layout 0 cs) data)
      else .error .assertion := by
  rw [get_short h.accepted hdata, hcs, outcome]
  by_cases full : length ≤ firstWidth cs
  · rw [if_pos full, if_pos (Or.inl full), Nat.min_eq_left (Nat.le_trans full firstWidth_le)]
  · rw [if_neg full]
    simp only [List.length_nil, List.nil_append, if_true, full, false_or]

/-- A text comes back exactly if its characters are plain and its encoding fits. -/
theorem transcodes_fits_iff (h : reply.IsString) (hcs : decodeUtf16 reply.units = (cs, true)) :
    Transcodes reply length cs ↔ (∀ c ∈ cs, Plain c) ∧ (utf8 cs).length ≤ length := by
  constructor
  · intro ht
    obtain ⟨buf, hget, htake⟩ := ht (List.replicate length 0) List.length_replicate
    rw [get_decoded h hcs List.length_replicate] at hget
    split_ifs at hget
    simp only [Except.ok.injEq, Prod.mk.injEq, Int.natCast_inj] at hget
    obtain ⟨hlen, rfl⟩ := hget
    rw [take_overlay_replicate (by omega) (by omega)] at htake
    exact ⟨plain_of_starts (htake ▸ List.take_prefix _ _), by omega⟩
  · rintro ⟨plain, fits⟩ data hdata
    have cells : layout 0 cs = (utf8 cs).map some := layout_eq_utf8 plain
    have size : (layout 0 cs).length = (utf8 cs).length := by rw [cells, List.length_map]
    have inside : ∀ o ∈ starts 0 0 cs, o < length := fun o ho => by
      have := lt_of_mem_starts ho
      omega
    refine ⟨overlay (layout 0 cs) data, ?_, ?_⟩
    · rw [get_decoded h hcs hdata, if_pos (Or.inr inside), size, Nat.min_eq_right fits]
    · have stored : (overlay ((utf8 cs).map some ++ []) data).take (utf8 cs).length =
          (utf8 cs).take (utf8 cs).length :=
        take_overlay_stored (Nat.le_refl _) (by omega)
      rw [cells]
      simpa using stored

end

/-- Whatever the buffers hold beforehand, the text comes back. -/
def ReadsText (usbyb : Usbyb) (control : Control) (descIndex : UInt8) (langid : UInt16)
    (length : Nat) (cs : List Char) : Prop :=
  ∀ (utf16Buf : Bytes 256) (data : Bytes length), ∃ buf,
    readString usbyb control descIndex langid utf16Buf data.bytes length =
      .ok ((utf8 cs).length, buf) ∧ buf.take (utf8 cs).length = utf8 cs

/-- Every buffer of the callee gets the descriptor. -/
def Fetches (usbyb : Usbyb) (control : Control) (descIndex : UInt8) (langid : UInt16)
    (cs : List Char) : Prop :=
  ∀ utf16Buf : Bytes 256, ∃ buf, libusbyGetStringDescriptor usbyb control descIndex langid
    utf16Buf.bytes = .ok ((descriptor cs).length, buf) ∧ buf.length = 256 ∧
      buf.take (descriptor cs).length = descriptor cs

section
variable {usbyb : Usbyb} {control : Control} {descIndex : UInt8} {langid : UInt16}
  {cs : List Char} {length : Nat}

/-- The text is read off whatever the callee's buffer held. -/
theorem Fetches.readsText_iff (h : Fetches usbyb control descIndex langid cs)
    (fits : (encodeUtf16 cs).length ≤ 126) :
    ReadsText usbyb control descIndex langid length cs ↔
      (∀ c ∈ cs, Plain c) ∧ (utf8 cs).length ≤ length := by
  have read (utf16Buf : Bytes 256) : ∃ reply, Received cs reply ∧ ∀ data,
      readString usbyb control descIndex langid utf16Buf data length =
        libusbyGetStringDescriptorUtf8 reply data length := by
    obtain ⟨buf, got, size, front⟩ := h utf16Buf
    have small : ((descriptor cs).length : Int) ≤ 256 := by
      rw [length_descriptor]
      omega
    refine ⟨⟨_, buf, size, small⟩, ⟨fits, rfl, front⟩, fun data => ?_⟩
    rw [readString, got, ok_bind]
    exact dif_pos ⟨size, small⟩
  constructor
  · intro reads
    obtain ⟨reply, received, same⟩ := read (.replicate 256 0)
    refine (transcodes_fits_iff received.isString received.decoded).1 fun data hdata => ?_
    rw [← same]
    exact reads _ ⟨data, hdata⟩
  · intro plain utf16Buf data
    obtain ⟨reply, received, same⟩ := read utf16Buf
    rw [same]
    exact (transcodes_fits_iff received.isString received.decoded).2 plain data.bytes data.size

end

end Libusby.Core.StringDescriptor
