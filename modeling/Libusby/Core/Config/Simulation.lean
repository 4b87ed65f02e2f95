import Mathlib.Logic.Function.Basic
import Libusby.Core.Config.Grammar
import Libusby.Core.Config.Parser

/-!
# The parser against the grammar

`Represents header pre b` says that the tree under construction is the tree of
the descriptors `pre` read so far. One block of the input keeps it
(`parseBlock_sound`, `parseBlock_complete`), and so does the loop, over any
framing of the input.
-/

namespace Libusby.Core.Config

open Foundations

/-- The tree with alternate settings `F k` for interface `k`. -/
def treeOf (header : List UInt8) (F : Nat → List InterfaceDescriptor) : ConfigDescriptor :=
  .ofBytes header (some ((List.range (numInterfaces header)).map fun k => ⟨F k⟩))

section
variable {header : List UInt8} {F : Nat → List InterfaceDescriptor} {k j : Nat}

theorem treeOf_alt? (h : k < numInterfaces header) : (treeOf header F).alt? k j = (F k)[j]? := by
  simp [treeOf, ConfigDescriptor.alt?, ConfigDescriptor.ofBytes, h]

theorem treeOf_modifyAlts (f : List InterfaceDescriptor → List InterfaceDescriptor) :
    (treeOf header F).modifyAlts k f = treeOf header (Function.update F k (f (F k))) := by
  simp only [treeOf, ConfigDescriptor.modifyAlts, ConfigDescriptor.ofBytes, Option.map_some]
  congr 2
  apply List.ext_getElem?
  intro l
  by_cases hl : l = k
  · subst hl
    by_cases hn : l < numInterfaces header <;> simp [hn]
  · rw [List.getElem?_modify]
    by_cases hn : l < numInterfaces header <;> simp [hn, hl, Ne.symm hl]

end

/-- The build is the state of the parser after the descriptors `pre`. -/
structure Represents (header : List UInt8) (pre : List Descriptor) (b : Build) : Prop where
  config : b.config = treeOf header (partialAlts · pre)
  noCursor : openInterface pre = none → b.intfDesc = none
  cursor : ∀ i q, openInterface pre = some (i, q) →
    b.intfDesc = some (interfaceNumber i, pre.countP (isInterfaceFor · (interfaceNumber i)) - 1) ∧
      interfaceNumber i < numInterfaces header ∧ b.endpDescIndex = (endpoints q).length ∧
      (endpoints q).length ≤ numEndpoints i

section
variable {header : List UInt8} {pre q : List Descriptor} {i d : Descriptor} {b b' : Build}

theorem represents_start {mem : Memory} : Represents header [] (.start header mem) where
  config := by
    have : (List.replicate (numInterfaces header) ({} : Interface)) =
        (List.range (numInterfaces header)).map fun _ => ⟨[]⟩ := by simp
    simp only [Build.start, treeOf, partialAlts, ← this]
    rfl
  noCursor _ := rfl
  cursor i q h := by cases h

theorem Represents.bNumInterfaces (hb : Represents header pre b) :
    b.config.bNumInterfaces.toNat = numInterfaces header := by
  rw [hb.config]
  rfl

theorem Represents.current_none (hb : Represents header pre b) (h : openInterface pre = none) :
    b.current = none := by
  simp [Build.current, hb.noCursor h]

theorem isInterfaceFor_self (hi : isInterface i = true) :
    isInterfaceFor i (interfaceNumber i) = true := by
  simp [isInterfaceFor, hi]

/-- The index of the open alternate setting. -/
theorem countP_split {p : List Descriptor} (hi : isInterface i = true)
    (hq : openInterface q = none) :
    (p ++ i :: q).countP (isInterfaceFor · (interfaceNumber i)) - 1 =
      (partialAlts (interfaceNumber i) p).length := by
  rw [← length_partialAlts, partialAlts_split hi hq]
  simp [isInterfaceFor_self hi]

theorem Represents.current_some (hb : Represents header pre b) (h : openInterface pre = some (i, q)) :
    b.current = some (partialAlt i (endpoints q)) := by
  obtain ⟨hcur, hnum, -, -⟩ := hb.cursor i q h
  obtain ⟨p, rfl, hi, hq⟩ := openInterface_eq_some h
  have hread : b.current =
      b.config.alt? (interfaceNumber i) (partialAlts (interfaceNumber i) p).length := by
    rw [Build.current, hcur, countP_split hi hq]
    rfl
  rw [hread, hb.config, treeOf_alt? hnum, partialAlts_split hi hq, isInterfaceFor_self hi, if_pos rfl]
  simp

theorem Represents.unfinished_iff (hb : Represents header pre b) : b.Unfinished ↔ ¬ Closed pre := by
  unfold Build.Unfinished Closed
  cases h : openInterface pre with
  | none => simp [hb.current_none h]
  | some r =>
    obtain ⟨i, q⟩ := r
    obtain ⟨-, -, hidx, -⟩ := hb.cursor i q h
    rw [hb.current_some h]
    simp [hidx, partialAlt, InterfaceDescriptor.ofBytes, numEndpoints]

theorem Represents.numAltsetting (hb : Represents header pre b) {k : Nat}
    (h : k < numInterfaces header) : b.numAltsetting k = pre.countP (isInterfaceFor · k) := by
  rw [← length_partialAlts]
  simp [Build.numAltsetting, hb.config, treeOf, ConfigDescriptor.ofBytes, h, Interface.numAltsetting]

end

/-! ## One block -/

section
variable {header rest : List UInt8} {pre q : List Descriptor} {i d : Descriptor} {b b' : Build}
  {ok : Nat → Bool} {n k : Nat}

theorem readByte_descriptor (h : k < d.length) : readByte (d ++ rest) k = .ok (byteAt d k) :=
  readByte_append_getD h

theorem readBytes_descriptor (h : d.length = n) : readBytes (d ++ rest) n = .ok d := by
  rw [readBytes_append (by omega), readBytes_of_le (by omega), List.take_of_length_le (by omega)]

theorem Framed.bLength_eq (hd : Framed d) {m : UInt8} : byteAt d 0 = m ↔ d.length = m.toNat := by
  rw [← hd.2]
  exact UInt8.toNat_inj.symm

theorem modify_snoc {α : Type} (xs : List α) (x : α) (f : α → α) :
    (xs ++ [x]).modify xs.length f = xs ++ [f x] := by
  induction xs with
  | nil => rfl
  | cons y xs ih => simp [ih]

theorem addAltsetting_sound {F : Nat → List InterfaceDescriptor} (hd : d.length = 9)
    (hb : b.config = treeOf header F) (h : addAltsetting ok (d ++ rest) k (F k).length b = .ok b') :
    b'.config = treeOf header (Function.update F k (F k ++ [partialAlt d []])) ∧
      b'.intfDesc = some (k, (F k).length) ∧ b'.endpDescIndex = 0 := by
  unfold addAltsetting at h
  split at h
  · cases h
  · rw [readBytes_descriptor hd, lift_ok, ok_bind] at h
    dsimp only at h
    split at h
    · cases h
    · cases h
      refine ⟨?_, rfl, rfl⟩
      simp only [hb, treeOf_modifyAlts, Function.update_idem, Function.update_self, modify_snoc]
      simp [partialAlt, padded, InterfaceDescriptor.ofBytes, numEndpoints]

theorem addAltsetting_complete {j : Nat} (hok : ∀ m, ok m = true) (hd : d.length = 9) :
    ∃ b', addAltsetting ok (d ++ rest) k j b = .ok b' := by
  simp [addAltsetting, Memory.realloc, Memory.malloc, hok, readBytes_descriptor hd]

/-- The branch of an interface descriptor checks what the grammar asks for. -/
theorem interfaceBlock_sound (hd : Framed d) (hb : Represents header pre b)
    (h : interfaceBlock ok (d ++ rest) b = .ok b') :
    (Closed pre ∧ d.length = 9 ∧ interfaceNumber d < numInterfaces header ∧
      alternateSetting d = pre.countP (isInterfaceFor · (interfaceNumber d))) ∧
      addAltsetting ok (d ++ rest) (interfaceNumber d) (alternateSetting d) b = .ok b' := by
  have two := hd.1
  unfold interfaceBlock at h
  split at h
  case isTrue => cases h
  case isFalse hu =>
    rw [readByte_descriptor (by omega), lift_ok, ok_bind] at h
    split at h
    case isTrue => cases h
    case isFalse hlen =>
      have nine : d.length = 9 := (hd.bLength_eq (m := 9)).1 (by simpa using hlen)
      rw [readByte_descriptor (by omega), lift_ok, ok_bind, readByte_descriptor (by omega), lift_ok,
        ok_bind] at h
      dsimp only at h
      split at h
      case isTrue => cases h
      case isFalse hk =>
        split at h
        case isTrue => cases h
        case isFalse hj =>
          have inside : interfaceNumber d < numInterfaces header := by
            rw [hb.bNumInterfaces] at hk
            exact Nat.lt_of_not_le hk
          refine ⟨⟨?_, nine, inside, ?_⟩, h⟩
          · by_contra hc
            exact hu (hb.unfinished_iff.2 hc)
          · rw [← hb.numAltsetting inside]
            exact not_not.1 hj

theorem interfaceBlock_complete (hd : Framed d) (hb : Represents header pre b)
    (closed : Closed pre) (nine : d.length = 9) (inside : interfaceNumber d < numInterfaces header)
    (next : alternateSetting d = pre.countP (isInterfaceFor · (interfaceNumber d))) :
    interfaceBlock ok (d ++ rest) b =
      addAltsetting ok (d ++ rest) (interfaceNumber d) (alternateSetting d) b := by
  have finished : ¬ b.Unfinished := fun hu => hb.unfinished_iff.1 hu closed
  have inside' : ¬ b.config.bNumInterfaces.toNat ≤ (byteAt d 2).toNat := by
    rw [hb.bNumInterfaces]
    exact Nat.not_le.2 inside
  have next' : ¬ (byteAt d 3).toNat ≠ b.numAltsetting (byteAt d 2).toNat := by
    rw [not_not, show (byteAt d 2).toNat = interfaceNumber d from rfl, hb.numAltsetting inside]
    exact next
  rw [interfaceBlock, if_neg finished]
  simp only [readByte_descriptor (show 0 < d.length by omega), lift_ok, ok_bind,
    readByte_descriptor (show 2 < d.length by omega), readByte_descriptor (show 3 < d.length by omega),
    (hd.bLength_eq (m := 9)).2 nine, ne_eq, not_true_eq_false, if_false, if_neg inside', if_neg next']
  rfl

/-- After an interface descriptor the new alternate setting is the open one. -/
theorem represents_interface (hi : isInterface d = true)
    (inside : interfaceNumber d < numInterfaces header)
    (config : b'.config = treeOf header (Function.update (partialAlts · pre) (interfaceNumber d)
      (partialAlts (interfaceNumber d) pre ++ [partialAlt d []])))
    (intfDesc : b'.intfDesc =
      some (interfaceNumber d, pre.countP (isInterfaceFor · (interfaceNumber d))))
    (index : b'.endpDescIndex = 0) : Represents header (pre ++ [d]) b' := by
  have self := isInterfaceFor_self hi
  have hopen : openInterface (pre ++ [d]) = some (d, []) := by simp [openInterface_snoc, hi]
  refine ⟨?_, fun h => by simp [hopen] at h, fun i q h => ?_⟩
  · rw [config]
    congr 1
    funext k
    rw [partialAlts_split hi rfl]
    by_cases hk : k = interfaceNumber d
    · subst hk
      simp [self, endpoints]
    · have : isInterfaceFor d k = false := by simp [isInterfaceFor, Ne.symm hk]
      simp [hk, this]
  · cases hopen.symm.trans h
    refine ⟨?_, inside, by simp [index, endpoints], by simp [endpoints]⟩
    simp [intfDesc, List.countP_append, self]

/-- With an interface descriptor open, the endpoint is stored behind the earlier
ones, as long as the array has room. -/
theorem endpointBlock_open (hb : Represents header pre b) (seven : d.length = 7) (hd : Framed d)
    (h : openInterface pre = some (i, q)) : endpointBlock (d ++ rest) b =
      if (endpoints q).length < numEndpoints i then .ok { b with
        config := b.config.modifyAlts (interfaceNumber i) (·.modify
          (pre.countP (isInterfaceFor · (interfaceNumber i)) - 1) fun alt => { alt with
            endpoint := some (padded (numEndpoints i) (endpoints q ++ [.ofBytes d])) })
        endpDescIndex := b.endpDescIndex + 1 }
      else .error (.fault .store) := by
  obtain ⟨hcur, -, hidx, hle⟩ := hb.cursor i q h
  have harray : b.current.bind (·.endpoint) = some (padded (numEndpoints i) (endpoints q)) := by
    rw [hb.current_some h]
    rfl
  rw [endpointBlock, readByte_descriptor (by omega), lift_ok, ok_bind,
    (hd.bLength_eq (m := 7)).2 seven, if_neg (by simp), readBytes_descriptor seven, lift_ok, ok_bind,
    hcur, harray]
  dsimp only
  rw [hidx, length_padded hle]
  by_cases room : (endpoints q).length < numEndpoints i
  · rw [if_pos room, if_pos room, set_padded room]
  · rw [if_neg room, if_neg room]

theorem endpointBlock_none (hb : Represents header pre b) (seven : d.length = 7) (hd : Framed d)
    (h : openInterface pre = none) :
    endpointBlock (d ++ rest) b = .error (.fault .store) := by
  rw [endpointBlock, readByte_descriptor (by omega), lift_ok, ok_bind,
    (hd.bLength_eq (m := 7)).2 seven, if_neg (by simp), readBytes_descriptor seven, lift_ok, ok_bind,
    hb.noCursor h]

theorem endpointBlock_seven (hd : Framed d) (h : endpointBlock (d ++ rest) b = .ok b') :
    d.length = 7 := by
  have two := hd.1
  rw [endpointBlock, readByte_descriptor (by omega), lift_ok, ok_bind] at h
  by_contra hlen
  rw [if_pos (fun h7 => hlen ((hd.bLength_eq (m := 7)).1 h7))] at h
  cases h

/-- After an endpoint descriptor the open alternate setting has one more endpoint. -/
theorem represents_endpoint (hi : isInterface d = false) (he : isEndpoint d = true)
    (hb : Represents header pre b) (h : openInterface pre = some (i, q))
    (room : (endpoints q).length < numEndpoints i) : Represents header (pre ++ [d]) { b with
      config := b.config.modifyAlts (interfaceNumber i) (·.modify
        (pre.countP (isInterfaceFor · (interfaceNumber i)) - 1) fun alt => { alt with
          endpoint := some (padded (numEndpoints i) (endpoints q ++ [.ofBytes d])) })
      endpDescIndex := b.endpDescIndex + 1 } := by
  obtain ⟨hcur, hnum, hidx, -⟩ := hb.cursor i q h
  obtain ⟨p, rfl, hint, hq⟩ := openInterface_eq_some h
  have hopen : openInterface ((p ++ i :: q) ++ [d]) = some (i, q ++ [d]) := by
    rw [openInterface_snoc, h]
    simp [hi]
  have hq' : openInterface (q ++ [d]) = none := by simp [openInterface_snoc, hi, hq]
  have hends : endpoints (q ++ [d]) = endpoints q ++ [.ofBytes d] := by
    rw [endpoints_snoc hq hi, if_pos he]
  refine ⟨?_, fun hnone => ?_, fun i' q' h' => ?_⟩
  · rw [countP_split hint hq, hb.config, treeOf_modifyAlts]
    refine congrArg (treeOf header) (funext fun k => ?_)
    rw [List.append_assoc, List.cons_append, partialAlts_split hint hq', hends]
    by_cases hk : k = interfaceNumber i
    · subst hk
      rw [Function.update_self, partialAlts_split hint hq, isInterfaceFor_self hint, if_pos rfl,
        if_pos rfl, modify_snoc]
      rfl
    · have : isInterfaceFor i k = false := by simp [isInterfaceFor, Ne.symm hk]
      rw [Function.update_of_ne hk, partialAlts_split hint hq]
      simp [this]
  · cases hopen.symm.trans hnone
  · cases hopen.symm.trans h'
    refine ⟨?_, hnum, by simp [hends, hidx], by simp [hends]; omega⟩
    have : isInterfaceFor d (interfaceNumber i) = false := by simp [isInterfaceFor, hi]
    simp [hcur, List.countP_append, List.countP_cons, this]

theorem endpointBlock_sound (hd : Framed d) (hi : isInterface d = false) (he : isEndpoint d = true)
    (hb : Represents header pre b) (h : endpointBlock (d ++ rest) b = .ok b') :
    (d.length = 7 ∧ HasRoom pre) ∧ Represents header (pre ++ [d]) b' := by
  have seven := endpointBlock_seven hd h
  cases hpre : openInterface pre with
  | none =>
    rw [endpointBlock_none hb seven hd hpre] at h
    cases h
  | some r =>
    obtain ⟨i, q⟩ := r
    rw [endpointBlock_open hb seven hd hpre] at h
    split at h
    case isFalse => cases h
    case isTrue room =>
      cases h
      refine ⟨⟨seven, i, q, hpre, room⟩, ?_⟩
      exact represents_endpoint hi he hb hpre room

theorem endpointBlock_complete (hd : Framed d) (hb : Represents header pre b)
    (seven : d.length = 7) (room : HasRoom pre) : ∃ b', endpointBlock (d ++ rest) b = .ok b' := by
  obtain ⟨i, q, h, hlt⟩ := room
  rw [endpointBlock_open hb seven hd h, if_pos hlt]
  exact ⟨_, rfl⟩

theorem represents_other (hi : isInterface d = false) (he : isEndpoint d = false)
    (hb : Represents header pre b) : Represents header (pre ++ [d]) b where
  config := by
    rw [hb.config]
    exact congrArg (treeOf header) (funext fun k => (partialAlts_snoc_other hi he).symm)
  noCursor h := by
    rw [openInterface_snoc, if_neg (by simp [hi]), Option.map_eq_none_iff] at h
    exact hb.noCursor h
  cursor i q h := by
    rw [openInterface_snoc, if_neg (by simp [hi]), Option.map_eq_some_iff] at h
    obtain ⟨⟨i, q⟩, h, ⟨⟩⟩ := h
    obtain ⟨hcur, hnum, hidx, hle⟩ := hb.cursor i q h
    obtain ⟨p, rfl, -, hq⟩ := openInterface_eq_some h
    have hends : endpoints (q ++ [d]) = endpoints q := by simp [endpoints_snoc hq hi, he]
    have hfor : isInterfaceFor d (interfaceNumber i) = false := by simp [isInterfaceFor, hi]
    refine ⟨?_, hnum, by rw [hends, hidx], by rw [hends]; exact hle⟩
    have hcount : (p ++ i :: q ++ [d]).countP (isInterfaceFor · (interfaceNumber i)) =
        (p ++ i :: q).countP (isInterfaceFor · (interfaceNumber i)) := by
      rw [List.countP_append, List.countP_singleton, hfor]
      rfl
    rw [hcur, hcount]

theorem parseBlock_eq (hd : Framed d) : parseBlock ok (d ++ rest) b =
    if isInterface d then interfaceBlock ok (d ++ rest) b
    else if isEndpoint d then endpointBlock (d ++ rest) b else .ok b := by
  rw [parseBlock, readByte_descriptor hd.1, lift_ok, ok_bind]
  by_cases hi : byteAt d 1 = 4
  · simp [hi, isInterface]
    cases interfaceBlock ok (d ++ rest) b <;> rfl
  · simp [hi, isInterface, isEndpoint]

/-- An accepted block is admitted by the grammar and extends the tree. -/
theorem parseBlock_sound (hd : Framed d) (hb : Represents header pre b)
    (h : parseBlock ok (d ++ rest) b = .ok b') :
    Admits (numInterfaces header) pre d ∧ Represents header (pre ++ [d]) b' := by
  rw [parseBlock_eq hd] at h
  split at h
  case isTrue hi =>
    have he := isEndpoint_of_isInterface hi
    obtain ⟨checks, hadd⟩ := interfaceBlock_sound hd hb h
    have ⟨_, nine, inside, next⟩ := checks
    rw [next, ← length_partialAlts] at hadd
    obtain ⟨config, intfDesc, index⟩ := addAltsetting_sound nine hb.config hadd
    rw [length_partialAlts] at intfDesc
    exact ⟨⟨hd, fun _ => checks, by simp [he]⟩,
      represents_interface hi inside config intfDesc index⟩
  case isFalse hi =>
    have hi : isInterface d = false := by simpa using hi
    split at h
    case isTrue he =>
      obtain ⟨checks, hb'⟩ := endpointBlock_sound hd hi he hb h
      exact ⟨⟨hd, by simp [hi], fun _ => checks⟩, hb'⟩
    case isFalse he =>
      have he : isEndpoint d = false := by simpa using he
      cases h
      exact ⟨⟨hd, by simp [hi], by simp [he]⟩, represents_other hi he hb⟩

/-- With enough memory every block that the grammar admits is accepted. -/
theorem parseBlock_complete (hok : ∀ m, ok m = true) (hb : Represents header pre b)
    (ha : Admits (numInterfaces header) pre d) : ∃ b', parseBlock ok (d ++ rest) b = .ok b' := by
  have hd := ha.framed
  rw [parseBlock_eq hd]
  split
  case isTrue hi =>
    obtain ⟨closed, nine, inside, next⟩ := ha.interface hi
    rw [interfaceBlock_complete hd hb closed nine inside next]
    exact addAltsetting_complete hok nine
  case isFalse =>
    split
    case isTrue he => exact endpointBlock_complete hd hb (ha.endpoint he).1 (ha.endpoint he).2
    case isFalse => exact ⟨b, rfl⟩

end

/-! ## The loop -/

/-- The parser is at the loop condition after the descriptors `pre` of `input`. -/
structure At (header input : List UInt8) (pre : List Descriptor) (p : Parse) : Prop where
  split : input = pre.flatten ++ p.rawdesc
  length : p.rawdesc.length = p.wTotalLength.toNat
  accepted : Accepted (numInterfaces header) pre
  represents : Represents header pre p.build

/-- The states at the loop condition. -/
inductive Reaches (ok : Nat → Bool) (p : Parse) : Parse → Prop
  | start : Reaches ok p p
  | next {q r} : Reaches ok p q → q.wTotalLength ≠ 0 → parseNext ok q = .ok r → Reaches ok p r

section
variable {ok : Nat → Bool} {header input : List UInt8} {pre ds : List Descriptor} {p q : Parse}

theorem At.advance {d : Descriptor} {rest : List UInt8} {b : Build} (hp : At header input pre p)
    (hd : Framed d) (hsplit : p.rawdesc = d ++ rest)
    (h : parseBlock ok (d ++ rest) p.build = .ok b) :
    At header input (pre ++ [d]) ⟨rest, p.wTotalLength - (byteAt d 0).toUInt16, b⟩ := by
  obtain ⟨admits, represents⟩ := parseBlock_sound hd hp.represents h
  have hlen : d.length + rest.length = p.wTotalLength.toNat := by
    rw [← hp.length, hsplit, List.length_append]
  have hle : (byteAt d 0).toUInt16 ≤ p.wTotalLength := by
    rw [UInt16.le_iff_toNat_le, UInt8.toNat_toUInt16, hd.2]
    omega
  refine ⟨?_, ?_, hp.accepted.snoc admits, represents⟩
  · simp [hp.split, hsplit]
  · rw [UInt16.toNat_sub_of_le _ _ hle, UInt8.toNat_toUInt16, hd.2]
    simp only
    omega

theorem At.sound (hp : At header input pre p) (h : parseNext ok p = .ok q) :
    ∃ d, At header input (pre ++ [d]) q := by
  obtain ⟨desclen, b, hread, hle, htwo, hblock, rfl⟩ := parseNext_eq_ok ok h
  have hsplit : p.rawdesc = p.rawdesc.take desclen.toNat ++ p.rawdesc.drop desclen.toNat :=
    (List.take_append_drop ..).symm
  have hlen : (p.rawdesc.take desclen.toNat).length = desclen.toNat := by
    rw [← hp.length] at hle
    simp [hle]
  have hfirst : byteAt (p.rawdesc.take desclen.toNat) 0 = desclen := by
    rw [hsplit, readByte_descriptor (by omega)] at hread
    exact Except.ok.inj hread
  have hframed : Framed (p.rawdesc.take desclen.toNat) := by
    refine ⟨by omega, ?_⟩
    rw [hfirst, hlen]
  rw [hsplit] at hblock
  have := hp.advance hframed hsplit hblock
  rw [hfirst] at this
  exact ⟨_, this⟩

theorem At.complete (hok : ∀ m, ok m = true) {d : Descriptor} {rest : List UInt8}
    (hp : At header input pre p) (hd : p.rawdesc = d ++ rest)
    (ha : Admits (numInterfaces header) pre d) :
    ∃ q, parseNext ok p = .ok q ∧ q.rawdesc = rest ∧ At header input (pre ++ [d]) q := by
  have hf := ha.framed
  obtain ⟨b, hb⟩ : ∃ b, parseBlock ok (d ++ rest) p.build = .ok b :=
    parseBlock_complete hok hp.represents ha
  refine ⟨_, ?_, rfl, hp.advance hf hd hb⟩
  have htwo := hf.1
  have hlen : d.length ≤ p.wTotalLength.toNat := by
    rw [← hp.length, hd, List.length_append]
    omega
  have hfits : ¬ (p.wTotalLength.toNat < (byteAt d 0).toNat ∨ byteAt d 0 < 2) := by
    rw [UInt8.lt_iff_toNat_lt, hf.2]
    simp
    omega
  rw [parseNext, hd, readByte_descriptor (by omega), lift_ok, ok_bind, if_neg hfits, hb, ok_bind, hf.2]
  simp

theorem At.nonzero {d : Descriptor} {rest : List UInt8} (hp : At header input pre p)
    (hd : p.rawdesc = d ++ rest) (hf : Framed d) : p.wTotalLength ≠ 0 := by
  intro h0
  have hlen := hp.length
  have htwo := hf.1
  rw [h0, hd, List.length_append, UInt16.toNat_zero] at hlen
  omega

/-- Every state of the loop comes from descriptors that the grammar accepts. -/
theorem Reaches.at (hp : At header input pre p) (h : Reaches ok p q) :
    ∃ ds, At header input ds q := by
  induction h with
  | start => exact ⟨pre, hp⟩
  | next _ _ hstep ih =>
    obtain ⟨ds, hq⟩ := ih
    obtain ⟨d, hr⟩ := hq.sound hstep
    exact ⟨ds ++ [d], hr⟩

/-- With enough memory the loop gets behind any accepted descriptors. -/
theorem reaches_of_accepted (hok : ∀ m, ok m = true) (hp : At header input [] p)
    (ha : Accepted (numInterfaces header) ds) {rest : List UInt8} (hs : input = ds.flatten ++ rest) :
    ∃ q, Reaches ok p q ∧ q.rawdesc = rest ∧ At header input ds q := by
  induction ha generalizing rest with
  | nil => exact ⟨p, .start, by simpa [hp.split] using hs, hp⟩
  | @snoc pre d _ admits ih =>
    have hs' : input = pre.flatten ++ (d ++ rest) := by simpa using hs
    obtain ⟨q, hreach, hq, hat⟩ := ih hs'
    obtain ⟨r, hstep, hr, hat'⟩ := hat.complete hok hq admits
    exact ⟨r, hreach.next (hat.nonzero hq admits.framed) hstep, hr, hat'⟩

/-- The loop runs through the states that it reaches. -/
theorem Reaches.parseLoop_eq (h : Reaches ok p q) : parseLoop ok p = parseLoop ok q := by
  induction h with
  | start => rfl
  | next _ hw hstep ih =>
    rw [ih, parseLoop, if_neg hw]
    split
    · simp_all
    · simp_all

theorem Reaches.head {r : Parse} (hw : p.wTotalLength ≠ 0) (hstep : parseNext ok p = .ok r)
    (h : Reaches ok r q) : Reaches ok p q := by
  induction h with
  | start => exact .next .start hw hstep
  | next _ hw' hstep' ih => exact .next ih hw' hstep'

theorem reaches_of_parseLoop (h : parseLoop ok p = .ok q) :
    Reaches ok p q ∧ q.wTotalLength = 0 := by
  fun_induction parseLoop ok p with
  | case1 p hw =>
    cases h
    exact ⟨.start, hw⟩
  | case2 => cases h
  | case3 p hw r hstep ih =>
    obtain ⟨hreach, hzero⟩ := ih h
    exact ⟨.head hw hstep hreach, hzero⟩

end

/-! ## Around the loop -/

section
variable {raw : List UInt8} {w : UInt16} {m : Memory}

/-- The header of a configuration descriptor. -/
structure Header (raw : List UInt8) : Prop where
  length : 9 ≤ raw.length
  bLength : byteAt raw 0 = 9
  bDescriptorType : byteAt raw 1 = 2

/-- The function with its loop as the only thing left. -/
def sanitizeLoop (ok : Nat → Bool) (p : Parse) : Except Fault Sanitized :=
  match parseLoop ok p with
  | .error (.fault f) => .error f
  | .error (.error b) => sanitizeError b
  | .ok p => sanitizeEnd p.build

/-- The exits of `usbyi_sanitize_config_descriptor`. -/
inductive SanitizeExit (ok : Nat → Bool) (raw : List UInt8) (w : UInt16) (m : Memory) :
    Except Fault Sanitized → Prop where
  | rejected {r : Error} (failed : r ≠ .success) : SanitizeExit ok raw w m (.ok ⟨r, none, m⟩)
  | interfaces {mem : Memory} (config : m.malloc ok .config = some mem)
      (full : mem.malloc ok .interfaces = none) :
      SanitizeExit ok raw w m (sanitizeError ⟨.ofBytes (raw.take 9) none, none, 0, mem⟩)
  | loop {mem mem' : Memory} (header : Header raw) (config : m.malloc ok .config = some mem)
      (interfaces : mem.malloc ok .interfaces = some mem') :
      SanitizeExit ok raw w m (sanitizeLoop ok ⟨raw.drop 9, w - 9, .start (raw.take 9) mem'⟩)

theorem readByte_byteAt {k : Nat} (h : k < raw.length) : readByte raw k = .ok (byteAt raw k) :=
  readByte_getD h

theorem sanitize_exit (ok : Nat → Bool) (m : Memory) (fits : w.toNat ≤ raw.length) :
    SanitizeExit ok raw w m (usbyiSanitizeConfigDescriptor ok raw w m) := by
  unfold usbyiSanitizeConfigDescriptor
  by_cases short : w < 9
  · rw [if_pos short]
    exact .rejected (by decide)
  · have nine : 9 ≤ raw.length := by
      have := UInt16.not_lt.1 short
      rw [UInt16.le_iff_toNat_le] at this
      exact Nat.le_trans this fits
    rw [if_neg short, readByte_byteAt (by omega), ok_bind]
    split
    case isTrue => exact .rejected (by decide)
    case isFalse type =>
      rw [readByte_byteAt (by omega), ok_bind]
      split
      case isTrue => exact .rejected (by decide)
      case isFalse length =>
        have header : Header raw := ⟨nine, not_not.1 length, not_not.1 type⟩
        split
        case h_1 => exact .rejected (by decide)
        case h_2 mem config =>
          rw [readBytes_of_le nine, ok_bind]
          split
          case h_1 full => exact .interfaces config full
          case h_2 mem' interfaces => exact .loop header config interfaces

end

end Libusby.Core.Config
