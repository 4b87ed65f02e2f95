import Libusby.Core.Config.Correct

/-!
# Writing configuration descriptors

`encode` writes a tree the way a device does that has nothing else to say: the header, then the
alternate settings, interface after interface, each with its endpoints behind it. The trees that
can be written are `Valid`; what is written of one of them is in the grammar and describes it.
-/

namespace Libusby.Core.Config

open Foundations

namespace EndpointDescriptor

/-- The descriptor on the wire. -/
def bytes (e : EndpointDescriptor) : Descriptor :=
  [e.bLength, e.bDescriptorType, e.bEndpointAddress, e.bmAttributes, lowByte e.wMaxPacketSize,
    highByte e.wMaxPacketSize, e.bInterval]

/-- The last two fields are not on the wire. -/
structure Valid (e : EndpointDescriptor) : Prop where
  bLength : e.bLength = 7
  bDescriptorType : e.bDescriptorType = 5
  bRefresh : e.bRefresh = 0
  bSynchAddress : e.bSynchAddress = 0

variable {e : EndpointDescriptor}

theorem Valid.isEndpoint (h : e.Valid) : isEndpoint e.bytes = true :=
  decide_eq_true h.bDescriptorType

theorem Valid.not_isInterface (h : e.Valid) : isInterface e.bytes = false := by
  have type : byteAt e.bytes 1 = 5 := h.bDescriptorType
  simp [isInterface, type]

theorem Valid.framed (h : e.Valid) : Framed e.bytes :=
  ⟨show 2 ≤ 7 by omega, congrArg UInt8.toNat h.bLength⟩

theorem Valid.ofBytes_bytes (h : e.Valid) : ofBytes e.bytes = e := by
  obtain ⟨bLength, bDescriptorType, address, attributes, size, interval, refresh, synch⟩ := e
  obtain ⟨-, -, rfl, rfl⟩ := h
  simp [ofBytes, bytes, byteAt]

end EndpointDescriptor

namespace InterfaceDescriptor

/-- The descriptor on the wire, without its endpoints. -/
def bytes (d : InterfaceDescriptor) : Descriptor :=
  [d.bLength, d.bDescriptorType, d.bInterfaceNumber, d.bAlternateSetting, d.bNumEndpoints,
    d.bInterfaceClass, d.bInterfaceSubClass, d.bInterfaceProtocol, d.iInterface]

/-- The descriptor with its endpoints behind it. -/
def descriptors (d : InterfaceDescriptor) : List Descriptor :=
  d.bytes :: (d.endpoint.getD []).map (·.bytes)

/-- An alternate setting with all its endpoints, whatever its place in the tree. -/
structure Complete (d : InterfaceDescriptor) : Prop where
  bLength : d.bLength = 9
  bDescriptorType : d.bDescriptorType = 4
  endpoint : ∃ es, d.endpoint = some es ∧ es.length = d.bNumEndpoints.toNat ∧ ∀ e ∈ es, e.Valid

/-- Alternate setting `j` of interface `k`. -/
structure Valid (d : InterfaceDescriptor) (k j : Nat) : Prop extends d.Complete where
  bInterfaceNumber : d.bInterfaceNumber.toNat = k
  bAlternateSetting : d.bAlternateSetting.toNat = j

variable {d : InterfaceDescriptor}

theorem Complete.isInterface (h : d.Complete) : isInterface d.bytes = true :=
  decide_eq_true h.bDescriptorType

theorem Complete.framed (h : d.Complete) : Framed d.bytes :=
  ⟨show 2 ≤ 9 by omega, congrArg UInt8.toNat h.bLength⟩

theorem Complete.isInterfaceFor (h : d.Complete) (k : Nat) :
    isInterfaceFor d.bytes k = decide (d.bInterfaceNumber.toNat = k) := by
  rw [Config.isInterfaceFor, h.isInterface, Bool.true_and]
  rfl

theorem ofBytes_bytes (d : InterfaceDescriptor) : ofBytes d.bytes d.endpoint = d := rfl

theorem Complete.valid_endpoint (h : d.Complete) : ∀ e ∈ d.endpoint.getD [], e.Valid := by
  obtain ⟨es, hes, -, valid⟩ := h.endpoint
  rw [hes]
  exact valid

theorem Complete.length_endpoint (h : d.Complete) :
    (d.endpoint.getD []).length = numEndpoints d.bytes := by
  obtain ⟨es, hes, length, -⟩ := h.endpoint
  rw [hes]
  exact length

end InterfaceDescriptor

namespace ConfigDescriptor

def header (c : ConfigDescriptor) : List UInt8 :=
  [c.bLength, c.bDescriptorType, lowByte c.wTotalLength, highByte c.wTotalLength, c.bNumInterfaces,
    c.bConfigurationValue, c.iConfiguration, c.bmAttributes, c.maxPower]

/-- The alternate settings of all interfaces. -/
def settings (c : ConfigDescriptor) : List InterfaceDescriptor :=
  (c.interface.getD []).flatMap (·.altsetting)

def descriptors (c : ConfigDescriptor) : List Descriptor := c.settings.flatMap (·.descriptors)

def encode (c : ConfigDescriptor) : List UInt8 := c.header ++ c.descriptors.flatten

/-- Every interface is there, with its alternate settings in order. -/
structure Valid (c : ConfigDescriptor) : Prop where
  bLength : c.bLength = 9
  bDescriptorType : c.bDescriptorType = 2
  interface : ∃ is, c.interface = some is ∧ is.length = c.bNumInterfaces.toNat ∧
    ∀ (k : Nat) (i : Interface), is[k]? = some i → i.altsetting ≠ [] ∧
      ∀ (j : Nat) (d : InterfaceDescriptor), i.altsetting[j]? = some d → d.Valid k j

end ConfigDescriptor

/-! ## Alternate settings in any order -/

section
variable {alts : List InterfaceDescriptor} {es : List EndpointDescriptor}
  {pre post ps : List Descriptor} {x : Descriptor} {k : Nat}

theorem openInterface_map_bytes (h : ∀ e ∈ es, e.Valid) :
    openInterface (es.map (·.bytes)) = none := by
  rw [openInterface_eq_none]
  intro x hx
  obtain ⟨e, he, rfl⟩ := List.mem_map.1 hx
  exact (h e he).not_isInterface

theorem endpoints_map_bytes (h : ∀ e ∈ es, e.Valid) : endpoints (es.map (·.bytes)) = es := by
  rw [endpoints_of_none (openInterface_map_bytes h)]
  induction es with
  | nil => rfl
  | cons e es ih =>
    have first := h e (List.mem_cons_self ..)
    have rest := ih fun e he => h e (List.mem_cons_of_mem _ he)
    rw [List.map_cons, List.filter_cons_of_pos first.isEndpoint, List.map_cons, rest,
      first.ofBytes_bytes]

/-- What follows the next interface descriptor is none of the endpoints. -/
theorem endpoints_append_flatMap (h : ∀ d ∈ alts, d.Complete) :
    endpoints (ps ++ alts.flatMap (·.descriptors)) = endpoints ps := by
  cases alts with
  | nil => rw [List.flatMap_nil, List.append_nil]
  | cons d alts => exact endpoints_append_interface (h d (List.mem_cons_self ..)).isInterface

theorem altsettings_append_none (h : openInterface ps = none) :
    altsettings k (ps ++ post) = altsettings k post := by
  induction ps with
  | nil => rfl
  | cons x ps ih =>
    rw [openInterface_eq_none] at h
    have first := h x (List.mem_cons_self ..)
    have rest := ih (openInterface_eq_none.2 fun y hy => h y (List.mem_cons_of_mem _ hy))
    rw [List.cons_append, altsettings, if_neg (by simp [isInterfaceFor, first]), rest]

/-- The alternate settings of interface `k` are read back in their order. -/
theorem altsettings_flatMap (h : ∀ d ∈ alts, d.Complete) :
    altsettings k (alts.flatMap (·.descriptors)) =
      alts.filter fun d => d.bInterfaceNumber.toNat = k := by
  induction alts with
  | nil => rfl
  | cons d alts ih =>
    have first := h d (List.mem_cons_self ..)
    have others : ∀ d ∈ alts, d.Complete := fun d hd => h d (List.mem_cons_of_mem _ hd)
    obtain ⟨es, hes, -, valid⟩ := first.endpoint
    have behind : endpoints ((d.endpoint.getD []).map (·.bytes) ++
        alts.flatMap (·.descriptors)) = es := by
      rw [endpoints_append_flatMap others, hes]
      exact endpoints_map_bytes valid
    have rest : altsettings k ((d.endpoint.getD []).map (·.bytes) ++ alts.flatMap (·.descriptors)) =
        alts.filter fun d => d.bInterfaceNumber.toNat = k := by
      rw [altsettings_append_none (openInterface_map_bytes first.valid_endpoint), ih others]
    rw [List.flatMap_cons, InterfaceDescriptor.descriptors, List.cons_append, altsettings,
      first.isInterfaceFor, behind, rest, ← hes, InterfaceDescriptor.ofBytes_bytes]
    by_cases hk : d.bInterfaceNumber.toNat = k <;> simp [hk]

theorem length_altsettings : (altsettings k ps).length = ps.countP (isInterfaceFor · k) := by
  induction ps with
  | nil => rfl
  | cons x ps ih =>
    rw [altsettings, List.countP_cons]
    split <;> simp [*]

theorem countP_flatMap (h : ∀ d ∈ alts, d.Complete) :
    (alts.flatMap (·.descriptors)).countP (isInterfaceFor · k) =
      alts.countP fun d => d.bInterfaceNumber.toNat = k := by
  rw [← length_altsettings, altsettings_flatMap h, List.countP_eq_length_filter]

/-- An interface descriptor among them is the first of one alternate setting. -/
theorem flatMap_interface (h : ∀ d ∈ alts, d.Complete)
    (hs : alts.flatMap (·.descriptors) = pre ++ x :: post) (hx : isInterface x = true) : ∃ as d bs, alts = as ++ d :: bs ∧
      pre = as.flatMap (·.descriptors) ∧ x = d.bytes ∧
      post = (d.endpoint.getD []).map (·.bytes) ++ bs.flatMap (·.descriptors) := by
  induction alts generalizing pre with
  | nil => simp at hs
  | cons d alts ih =>
    have first := h d (List.mem_cons_self ..)
    have others : ∀ d ∈ alts, d.Complete := fun d hd => h d (List.mem_cons_of_mem _ hd)
    rw [List.flatMap_cons, InterfaceDescriptor.descriptors, List.cons_append] at hs
    cases pre with
    | nil =>
      obtain ⟨rfl, rfl⟩ := List.cons.inj hs
      exact ⟨[], d, alts, rfl, rfl, rfl, rfl⟩
    | cons y pre =>
      obtain ⟨rfl, hrest⟩ := List.cons.inj hs
      -- the endpoints are no interface descriptors, so the descriptor stands behind them
      have behind : ∃ c, pre = (d.endpoint.getD []).map (·.bytes) ++ c ∧
          alts.flatMap (·.descriptors) = c ++ x :: post := by
        rcases List.append_eq_append_iff.1 hrest with ⟨c, hpre, hc⟩ | ⟨c, hpre, hc⟩
        · exact ⟨c, hpre, hc⟩
        · cases c with
          | nil => exact ⟨[], by simpa using hpre.symm, hc.symm⟩
          | cons z c =>
            obtain ⟨rfl, -⟩ := List.cons.inj hc
            have mem : x ∈ (d.endpoint.getD []).map (·.bytes) := by simp [hpre]
            obtain ⟨e, he, rfl⟩ := List.mem_map.1 mem
            rw [(first.valid_endpoint e he).not_isInterface] at hx
            cases hx
      obtain ⟨c, rfl, hc⟩ := behind
      obtain ⟨as, a, bs, rfl, rfl, rfl, rfl⟩ := ih others hc
      exact ⟨d :: as, a, bs, rfl, rfl, rfl, rfl⟩

theorem mem_flatMap (hx : x ∈ alts.flatMap (·.descriptors)) :
    ∃ d ∈ alts, x = d.bytes ∨ ∃ e ∈ d.endpoint.getD [], x = e.bytes := by
  obtain ⟨d, hd, hx⟩ := List.mem_flatMap.1 hx
  refine ⟨d, hd, ?_⟩
  rcases List.mem_cons.1 hx with rfl | hx
  · exact .inl rfl
  · obtain ⟨e, he, rfl⟩ := List.mem_map.1 hx
    exact .inr ⟨e, he, rfl⟩

end

/-! ## The interfaces one after the other -/

section
variable {is : List Interface} {k : Nat}

/-- Interface `k` of the list is interface `n + k` of the tree. -/
def Numbered (n : Nat) (is : List Interface) : Prop :=
  ∀ (k : Nat) (i : Interface), is[k]? = some i →
    ∀ (j : Nat) (d : InterfaceDescriptor), i.altsetting[j]? = some d → d.Valid (n + k) j

variable {n : Nat} {i : Interface} {d : InterfaceDescriptor} {as bs : List InterfaceDescriptor}

theorem Numbered.tail (h : Numbered n (i :: is)) : Numbered (n + 1) is := by
  intro k i' hi j d hd
  have valid := h (k + 1) i' hi j d hd
  rwa [show n + (k + 1) = n + 1 + k by omega] at valid

theorem Numbered.first (h : Numbered n (i :: is)) {j : Nat} (hd : i.altsetting[j]? = some d) :
    d.Valid n j := h 0 i rfl j d hd

theorem Numbered.number_first (h : Numbered n (i :: is)) (hd : d ∈ i.altsetting) :
    d.bInterfaceNumber.toNat = n := by
  obtain ⟨j, hj⟩ := List.mem_iff_getElem?.1 hd
  exact (h.first hj).bInterfaceNumber

theorem Numbered.of_mem (h : Numbered n is) (hd : d ∈ is.flatMap (·.altsetting)) :
    ∃ k < is.length, ∃ j, d.Valid (n + k) j := by
  obtain ⟨i, hi, hd⟩ := List.mem_flatMap.1 hd
  obtain ⟨k, hk⟩ := List.mem_iff_getElem?.1 hi
  obtain ⟨j, hj⟩ := List.mem_iff_getElem?.1 hd
  exact ⟨k, (List.getElem?_eq_some_iff.1 hk).1, j, h k i hk j d hj⟩

theorem Numbered.complete (h : Numbered n is) : ∀ d ∈ is.flatMap (·.altsetting), d.Complete := by
  intro d hd
  obtain ⟨k, -, j, valid⟩ := h.of_mem hd
  exact valid.toComplete

/-- The number of an alternate setting counts those of its interface before it. -/
theorem Numbered.alternate (h : Numbered n is) (hs : is.flatMap (·.altsetting) = as ++ d :: bs) :
    d.bAlternateSetting.toNat =
      as.countP fun a => a.bInterfaceNumber.toNat = d.bInterfaceNumber.toNat := by
  induction is generalizing n as with
  | nil => simp at hs
  | cons i is ih =>
    have own {a : InterfaceDescriptor} (ha : a ∈ i.altsetting) : a.bInterfaceNumber.toNat = n :=
      h.number_first ha
    have later {c : List InterfaceDescriptor} (hs : is.flatMap (·.altsetting) = c ++ d :: bs) :
        d.bAlternateSetting.toNat = (i.altsetting ++ c).countP fun a =>
          a.bInterfaceNumber.toNat = d.bInterfaceNumber.toNat := by
      obtain ⟨k, -, j, valid⟩ := h.tail.of_mem (d := d) (by simp [hs])
      have number := valid.bInterfaceNumber
      have none : i.altsetting.countP (fun a =>
          a.bInterfaceNumber.toNat = d.bInterfaceNumber.toNat) = 0 := by
        rw [List.countP_eq_zero]
        intro a ha
        have := own ha
        simp only [decide_eq_true_eq]
        omega
      rw [List.countP_append, none, Nat.zero_add]
      exact ih h.tail hs
    rw [List.flatMap_cons] at hs
    rcases List.append_eq_append_iff.1 hs with ⟨c, rfl, hc⟩ | ⟨c, hi, hc⟩
    · exact later hc
    · cases c with
      | nil =>
        have := later (c := []) hc.symm
        rwa [hi, List.append_nil, List.append_nil] at this
      | cons a c =>
        obtain ⟨rfl, -⟩ := List.cons.inj hc
        have place : i.altsetting[as.length]? = some d := by simp [hi]
        have all : as.countP (fun a => a.bInterfaceNumber.toNat = d.bInterfaceNumber.toNat) =
            as.length := by
          rw [List.countP_eq_length]
          intro a ha
          rw [own (hi ▸ List.mem_append_left _ ha), own (List.mem_of_getElem? place)]
          exact decide_eq_true rfl
        rw [all]
        exact (h.first place).bAlternateSetting

/-- The alternate settings of one interface among all of them. -/
theorem Numbered.filter (h : Numbered n is) (hi : is[k]? = some i) :
    (is.flatMap (·.altsetting)).filter (fun d => d.bInterfaceNumber.toNat = n + k) =
      i.altsetting := by
  induction is generalizing n k with
  | nil => cases hi
  | cons first is ih =>
    rw [List.flatMap_cons, List.filter_append]
    cases k with
    | zero =>
      cases hi
      have all : i.altsetting.filter (fun d => d.bInterfaceNumber.toNat = n + 0) =
          i.altsetting := by
        rw [List.filter_eq_self]
        intro d hd
        exact decide_eq_true (h.number_first hd)
      have none : (is.flatMap (·.altsetting)).filter (fun d => d.bInterfaceNumber.toNat = n + 0) =
          [] := by
        rw [List.filter_eq_nil_iff]
        intro d hd
        obtain ⟨k, -, j, valid⟩ := h.tail.of_mem hd
        have := valid.bInterfaceNumber
        simp only [decide_eq_true_eq]
        omega
      rw [all, none, List.append_nil]
    | succ k =>
      have none : first.altsetting.filter (fun d => d.bInterfaceNumber.toNat = n + (k + 1)) =
          [] := by
        rw [List.filter_eq_nil_iff]
        intro d hd
        have := h.number_first hd
        simp only [decide_eq_true_eq]
        omega
      rw [none, List.nil_append, show n + (k + 1) = n + 1 + k by omega]
      exact ih h.tail hi

end

/-! ## Trees -/

namespace ConfigDescriptor.Valid

variable {c : ConfigDescriptor}

theorem numbered (h : c.Valid) : Numbered 0 (c.interface.getD []) := by
  obtain ⟨is, hc, -, valid⟩ := h.interface
  intro k i hi j d hd
  rw [hc] at hi
  rw [Nat.zero_add]
  exact (valid k i hi).2 j d hd

theorem length (h : c.Valid) : (c.interface.getD []).length = numInterfaces c.encode := by
  obtain ⟨is, hc, length, -⟩ := h.interface
  rw [hc]
  exact length

theorem complete (h : c.Valid) : ∀ d ∈ c.settings, d.Complete := h.numbered.complete

/-- What is written is a configuration descriptor. -/
theorem grammar (h : c.Valid) : Grammar c.encode c.descriptors where
  length := by simp [encode, header]
  bLength := h.bLength
  bDescriptorType := h.bDescriptorType
  split := rfl
  framed x hx := by
    obtain ⟨d, hd, rfl | ⟨e, he, rfl⟩⟩ := mem_flatMap hx
    · exact (h.complete d hd).framed
    · exact ((h.complete d hd).valid_endpoint e he).framed
  interface pre x post hs hx := by
    obtain ⟨as, d, bs, split, rfl, rfl, rfl⟩ := flatMap_interface h.complete hs hx
    have before : ∀ d ∈ as, d.Complete := fun a ha => h.complete a (by simp [split, ha])
    have after : ∀ d ∈ bs, d.Complete := fun b hb => h.complete b (by simp [split, hb])
    have complete := h.complete d (by simp [split])
    obtain ⟨k, hk, j, valid⟩ := h.numbered.of_mem (d := d) (by
      rw [← settings, split]
      simp)
    refine ⟨rfl, ?_, ?_, ?_⟩
    · rw [← h.length]
      have number : interfaceNumber d.bytes = 0 + k := valid.bInterfaceNumber
      omega
    · exact (h.numbered.alternate split).trans (countP_flatMap before).symm
    · rw [endpoints_append_flatMap after, endpoints_map_bytes complete.valid_endpoint]
      exact complete.length_endpoint
  endpoint pre x post hs hx := by
    have inside : x ∈ c.settings.flatMap (·.descriptors) := by
      rw [← descriptors, hs]
      simp
    obtain ⟨d, hd, rfl | ⟨e, -, rfl⟩⟩ := mem_flatMap inside
    · rw [isEndpoint_of_isInterface (h.complete d hd).isInterface] at hx
      cases hx
    · refine ⟨rfl, ?_⟩
      cases hsettings : c.settings with
      | nil => simp [descriptors, hsettings] at hs
      | cons a as =>
        have first := (h.complete a (by simp [hsettings])).isInterface
        rw [descriptors, hsettings, List.flatMap_cons, InterfaceDescriptor.descriptors,
          List.cons_append] at hs
        cases pre with
        | nil =>
          obtain ⟨same, -⟩ := List.cons.inj hs
          rw [← same, isEndpoint_of_isInterface first] at hx
          cases hx
        | cons y pre =>
          obtain ⟨rfl, -⟩ := List.cons.inj hs
          exact ⟨_, List.mem_cons_self .., first⟩
  complete k hk := by
    rw [← h.length] at hk
    obtain ⟨is, hc, -, valid⟩ := h.interface
    rw [hc] at hk
    have hi : is[k]? = some is[k] := List.getElem?_eq_getElem hk
    obtain ⟨nonempty, settings⟩ := valid k _ hi
    obtain ⟨d, ds, halt⟩ := List.exists_cons_of_ne_nil nonempty
    have first := settings 0 d (by simp [halt])
    refine ⟨d.bytes, ?_, ?_⟩
    · rw [descriptors, ConfigDescriptor.settings, hc]
      refine List.mem_flatMap.2 ⟨d, List.mem_flatMap.2 ⟨_, List.getElem_mem hk, ?_⟩, ?_⟩
      · simp [halt]
      · exact List.mem_cons_self ..
    · rw [first.isInterfaceFor]
      exact decide_eq_true first.bInterfaceNumber

/-- What is written describes the tree. -/
theorem described_encode (h : c.Valid) : described c.encode c.descriptors = c := by
  obtain ⟨is, hc, length, -⟩ := h.interface
  have numbered := h.numbered
  have settings : ((List.range (numInterfaces c.encode)).map fun k =>
      (⟨altsettings k c.descriptors⟩ : Interface)) = is := by
    apply List.ext_getElem?
    intro k
    have count : is.length = numInterfaces c.encode := length
    rw [hc] at numbered
    rw [← count]
    by_cases hk : k < is.length
    · have hi : is[k]? = some is[k] := List.getElem?_eq_getElem hk
      have own := numbered.filter hi
      rw [Nat.zero_add] at own
      rw [List.getElem?_map, List.getElem?_range hk, hi, Option.map_some, descriptors,
        altsettings_flatMap h.complete, ConfigDescriptor.settings, hc]
      exact congrArg (fun l => some (Interface.mk l)) own
    · rw [List.getElem?_eq_none (by simpa using hk), List.getElem?_eq_none (by omega)]
  rw [described, settings, ← hc]
  obtain ⟨bLength, bDescriptorType, total, num, value, i, attributes, power, interface⟩ := c
  simp [ofBytes, encode, header, byteAt]

end ConfigDescriptor.Valid

end Libusby.Core.Config
