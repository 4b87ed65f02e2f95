import Mathlib.Data.List.TakeWhile
import Libusby.Core.Config.Descriptor

/-!
# The grammar of configuration descriptors

What a configuration descriptor is, independently of how it is parsed: a header
of 9 bytes and a list of descriptors that frame themselves, with their interface
and endpoint descriptors in an order that determines a tree (`Grammar`,
`described`). The second half describes the tree of a list of descriptors that
is not complete yet, in which the endpoint array of the last interface
descriptor is padded with zeroed elements.
-/

namespace Libusby.Core.Config

open Foundations

abbrev Descriptor := List UInt8

section
variable (d : Descriptor)

/-- The first byte is the length. -/
def Framed : Prop := 2 ≤ d.length ∧ (byteAt d 0).toNat = d.length

instance : Decidable (Framed d) := inferInstanceAs (Decidable (_ ∧ _))

def isInterface : Bool := byteAt d 1 = 4
def isEndpoint : Bool := byteAt d 1 = 5
def interfaceNumber : Nat := (byteAt d 2).toNat
def alternateSetting : Nat := (byteAt d 3).toNat
def numEndpoints : Nat := (byteAt d 4).toNat
def isInterfaceFor (k : Nat) : Bool := isInterface d && interfaceNumber d = k

end

/-- `bNumInterfaces` of a byte string that starts with a configuration header. -/
def numInterfaces (raw : List UInt8) : Nat := (byteAt raw 4).toNat

/-- The endpoint descriptors before the next interface descriptor. -/
def endpoints (ds : List Descriptor) : List EndpointDescriptor :=
  ((ds.takeWhile (!isInterface ·)).filter isEndpoint).map .ofBytes

/-- The alternate settings of interface `k`, each with the endpoints behind it. -/
def altsettings (k : Nat) : List Descriptor → List InterfaceDescriptor
  | [] => []
  | d :: ds =>
    if isInterfaceFor d k then .ofBytes d (some (endpoints ds)) :: altsettings k ds
    else altsettings k ds

/-- The byte string `raw` is a configuration descriptor with the descriptors
`ds` behind its header. -/
structure Grammar (raw : List UInt8) (ds : List Descriptor) : Prop where
  length : 9 ≤ raw.length
  bLength : byteAt raw 0 = 9
  bDescriptorType : byteAt raw 1 = 2
  split : raw.drop 9 = ds.flatten
  framed : ∀ d ∈ ds, Framed d
  interface : ∀ pre d post, ds = pre ++ d :: post → isInterface d = true →
    d.length = 9 ∧ interfaceNumber d < numInterfaces raw ∧
      alternateSetting d = pre.countP (isInterfaceFor · (interfaceNumber d)) ∧
      (endpoints post).length = numEndpoints d
  endpoint : ∀ pre d post, ds = pre ++ d :: post → isEndpoint d = true →
    d.length = 7 ∧ ∃ i ∈ pre, isInterface i = true
  complete : ∀ k < numInterfaces raw, ∃ d ∈ ds, isInterfaceFor d k = true

/-- The tree that the descriptors describe. -/
def described (raw : List UInt8) (ds : List Descriptor) : ConfigDescriptor :=
  .ofBytes (raw.take 9) (some ((List.range (numInterfaces raw)).map fun k => ⟨altsettings k ds⟩))

/-! ## Prefixes -/

/-- The last interface descriptor with what follows it. -/
def openInterface : List Descriptor → Option (Descriptor × List Descriptor)
  | [] => none
  | d :: ds => (openInterface ds).or (if isInterface d then some (d, ds) else none)

/-- The endpoints so far, in an array of `n` zeroed elements. -/
def padded (n : Nat) (es : List EndpointDescriptor) : List EndpointDescriptor :=
  es ++ List.replicate (n - es.length) .zero

/-- The interface descriptor `i` with the endpoints read so far. -/
def partialAlt (i : Descriptor) (es : List EndpointDescriptor) : InterfaceDescriptor :=
  .ofBytes i (some (padded (numEndpoints i) es))

/-- The alternate settings of interface `k` while the descriptors are still being
read. -/
def partialAlts (k : Nat) : List Descriptor → List InterfaceDescriptor
  | [] => []
  | d :: ds =>
    if isInterfaceFor d k then partialAlt d (endpoints ds) :: partialAlts k ds
    else partialAlts k ds

/-- All endpoints of the last interface descriptor are there. -/
def Closed (pre : List Descriptor) : Prop :=
  ∀ i q, openInterface pre = some (i, q) → (endpoints q).length = numEndpoints i

/-- There is an interface descriptor that misses an endpoint. -/
def HasRoom (pre : List Descriptor) : Prop :=
  ∃ i q, openInterface pre = some (i, q) ∧ (endpoints q).length < numEndpoints i

/-- What `d` has to be after `pre`, with `n` interfaces in all. -/
structure Admits (n : Nat) (pre : List Descriptor) (d : Descriptor) : Prop where
  framed : Framed d
  interface : isInterface d = true → Closed pre ∧ d.length = 9 ∧ interfaceNumber d < n ∧
    alternateSetting d = pre.countP (isInterfaceFor · (interfaceNumber d))
  endpoint : isEndpoint d = true → d.length = 7 ∧ HasRoom pre

/-- Each descriptor is admitted after the ones before it. -/
inductive Accepted (n : Nat) : List Descriptor → Prop
  | nil : Accepted n []
  | snoc {pre d} : Accepted n pre → Admits n pre d → Accepted n (pre ++ [d])

section
variable {n k : Nat} {d i : Descriptor} {pre p q ds : List Descriptor}

theorem isEndpoint_of_isInterface (h : isInterface d = true) : isEndpoint d = false := by
  simp_all [isInterface, isEndpoint]

theorem endpoints_append_interface (h : isInterface i = true) :
    endpoints (p ++ i :: q) = endpoints p := by
  unfold endpoints
  induction p with
  | nil => simp [h]
  | cons x p ih => by_cases hx : isInterface x = true <;> by_cases he : isEndpoint x <;> simp_all

theorem openInterface_eq_none : openInterface pre = none ↔ ∀ d ∈ pre, isInterface d = false := by
  induction pre with
  | nil => simp [openInterface]
  | cons x pre ih => by_cases hx : isInterface x = true <;> simp_all [openInterface]

theorem endpoints_of_none (h : openInterface q = none) :
    endpoints q = (q.filter isEndpoint).map .ofBytes := by
  have all : ∀ x ∈ q, (!isInterface x) = true := by simpa using openInterface_eq_none.1 h
  rw [endpoints, List.takeWhile_eq_self_iff.2 all]

theorem openInterface_snoc : openInterface (pre ++ [d]) =
    if isInterface d then some (d, []) else (openInterface pre).map fun (i, q) => (i, q ++ [d]) := by
  induction pre with
  | nil => simp [openInterface]
  | cons x pre ih =>
    rw [List.cons_append, openInterface, ih, openInterface]
    by_cases hd : isInterface d = true
    · simp [hd]
    · cases openInterface pre <;> by_cases hx : isInterface x = true <;> simp [hd, hx]

theorem endpoints_snoc (h : openInterface q = none) (hd : isInterface d = false) :
    endpoints (q ++ [d]) = endpoints q ++ if isEndpoint d then [.ofBytes d] else [] := by
  have hq : openInterface (q ++ [d]) = none := by simp [openInterface_snoc, hd, h]
  rw [endpoints_of_none hq, endpoints_of_none h]
  by_cases he : isEndpoint d = true <;> simp [he]

theorem openInterface_eq_some (h : openInterface pre = some (i, q)) :
    ∃ p, pre = p ++ i :: q ∧ isInterface i = true ∧ openInterface q = none := by
  induction pre with
  | nil => cases h
  | cons x pre ih =>
    cases hp : openInterface pre with
    | some r =>
      simp only [openInterface, hp, Option.some_or] at h
      obtain ⟨p, rfl, hi⟩ := ih (hp.trans h)
      exact ⟨x :: p, rfl, hi⟩
    | none =>
      simp only [openInterface, hp, Option.none_or, Option.ite_none_right_eq_some,
        Option.some.injEq, Prod.mk.injEq] at h
      obtain ⟨hx, rfl, rfl⟩ := h
      exact ⟨[], rfl, hx, hp⟩

theorem openInterface_append (h : isInterface i = true) (hq : openInterface q = none) :
    openInterface (p ++ i :: q) = some (i, q) := by
  induction p with
  | nil => simp [openInterface, hq, h]
  | cons x p ih => simp [openInterface, ih]

theorem partialAlts_append_interface (h : isInterface i = true) :
    partialAlts k (p ++ i :: q) = partialAlts k p ++ partialAlts k (i :: q) := by
  induction p with
  | nil => simp [partialAlts]
  | cons x p ih =>
    rw [List.cons_append, partialAlts, ih, endpoints_append_interface h, partialAlts.eq_2 k x p]
    split <;> rfl

theorem length_partialAlts : (partialAlts k ds).length = ds.countP (isInterfaceFor · k) := by
  induction ds with
  | nil => rfl
  | cons x ds ih =>
    rw [partialAlts, List.countP_cons]
    split <;> simp [*]

theorem partialAlts_eq_nil (h : openInterface q = none) : partialAlts k q = [] := by
  rw [← List.length_eq_zero_iff, length_partialAlts, List.countP_eq_zero]
  intro x hx
  simp [isInterfaceFor, openInterface_eq_none.1 h x hx]

/-- The alternate setting that is open is the last one of its interface. -/
theorem partialAlts_split (hi : isInterface i = true) (hq : openInterface q = none) :
    partialAlts k (p ++ i :: q) =
      partialAlts k p ++ if isInterfaceFor i k then [partialAlt i (endpoints q)] else [] := by
  rw [partialAlts_append_interface hi]
  simp [partialAlts, partialAlts_eq_nil hq]

/-- A descriptor that is neither an interface nor an endpoint changes nothing. -/
theorem partialAlts_snoc_other (hd : isInterface d = false) (he : isEndpoint d = false) :
    partialAlts k (pre ++ [d]) = partialAlts k pre := by
  cases h : openInterface pre with
  | none =>
    rw [partialAlts_eq_nil h, partialAlts_eq_nil (by simp [openInterface_snoc, hd, h])]
  | some r =>
    obtain ⟨p, rfl, hi, hq⟩ := openInterface_eq_some h
    have hq' : openInterface (r.2 ++ [d]) = none := by simp [openInterface_snoc, hd, hq]
    rw [List.append_assoc, List.cons_append, partialAlts_split hi hq, partialAlts_split hi hq',
      endpoints_snoc hq hd]
    simp [he]

theorem set_padded {m : Nat} {es : List EndpointDescriptor} {x : EndpointDescriptor}
    (h : es.length < m) : (padded m es).set es.length x = padded m (es ++ [x]) := by
  obtain ⟨r, hr⟩ : ∃ r, m - es.length = r + 1 := ⟨m - es.length - 1, by omega⟩
  have hr' : m - (es ++ [x]).length = r := by simp; omega
  rw [padded, padded, hr, hr', List.replicate_succ, List.set_append_right _ _ (Nat.le_refl _)]
  simp

theorem length_padded {m : Nat} {es : List EndpointDescriptor} (h : es.length ≤ m) :
    (padded m es).length = m := by
  simp [padded]
  omega

end

end Libusby.Core.Config
