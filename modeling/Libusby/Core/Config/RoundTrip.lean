import Mathlib.Algebra.BigOperators.Group.List.Basic
import Mathlib.Algebra.GroupWithZero.Nat
import Libusby.Core.Config.Encode

/-!
# What the parser returns can be written, and is read back

Every tree that the parser returns is `Valid`, and written without the other descriptors it is no
longer than what was read. So the trees that the parser can return are the valid ones that fit
into 16 bits, and each of them is what the parser makes of its own encoding.
-/

namespace Libusby.Core.Config

open Foundations

section
variable {raw : List UInt8} {ds : List Descriptor} {x : Descriptor} {d : InterfaceDescriptor}
  {e : EndpointDescriptor} {k j n : Nat}

/-- Where an alternate setting of the tree comes from. -/
theorem altsettings_getElem (h : (altsettings k ds)[j]? = some d) : ∃ pre x post,
    ds = pre ++ x :: post ∧ isInterfaceFor x k = true ∧ pre.countP (isInterfaceFor · k) = j ∧
      d = .ofBytes x (some (endpoints post)) := by
  induction ds generalizing j with
  | nil => cases h
  | cons y ds ih =>
    rw [altsettings] at h
    by_cases hy : isInterfaceFor y k = true
    · rw [if_pos hy] at h
      cases j with
      | zero =>
        cases h
        exact ⟨[], y, ds, rfl, hy, rfl, rfl⟩
      | succ j =>
        obtain ⟨pre, x, post, rfl, hx, count, hd⟩ := ih h
        exact ⟨y :: pre, x, post, rfl, hx, by
          rw [List.countP_cons, count, if_pos hy], hd⟩
    · rw [if_neg hy] at h
      obtain ⟨pre, x, post, rfl, hx, count, hd⟩ := ih h
      exact ⟨y :: pre, x, post, rfl, hx, by
        rw [List.countP_cons, count, if_neg hy, Nat.add_zero], hd⟩

theorem mem_endpoints (h : e ∈ endpoints ds) : ∃ x ∈ ds, isEndpoint x = true ∧ e = .ofBytes x := by
  obtain ⟨x, hx, rfl⟩ := List.mem_map.1 h
  obtain ⟨hx, he⟩ := List.mem_filter.1 hx
  exact ⟨x, List.takeWhile_sublist _ |>.subset hx, he, rfl⟩

namespace Grammar

theorem valid_endpoint (g : Grammar raw ds) (hx : x ∈ ds) (he : isEndpoint x = true) :
    (EndpointDescriptor.ofBytes x).Valid := by
  obtain ⟨pre, post, hs⟩ := List.append_of_mem hx
  obtain ⟨seven, -⟩ := g.endpoint pre x post hs he
  have framed := (g.framed x hx).2
  refine ⟨?_, of_decide_eq_true he, rfl, rfl⟩
  rw [seven] at framed
  exact UInt8.toNat_inj.1 framed

theorem valid_altsetting (g : Grammar raw ds) (h : (altsettings k ds)[j]? = some d) :
    d.Valid k j := by
  obtain ⟨pre, x, post, rfl, hx, count, rfl⟩ := altsettings_getElem h
  rw [isInterfaceFor, Bool.and_eq_true, decide_eq_true_eq] at hx
  obtain ⟨hx, number⟩ := hx
  obtain ⟨nine, -, next, full⟩ := g.interface pre x post rfl hx
  have framed := (g.framed x (by simp)).2
  rw [nine] at framed
  rw [number] at next
  exact {
    bLength := UInt8.toNat_inj.1 framed
    bDescriptorType := of_decide_eq_true hx
    endpoint := by
      refine ⟨_, rfl, full, fun e he => ?_⟩
      obtain ⟨y, hy, type, rfl⟩ := mem_endpoints he
      exact g.valid_endpoint (by simp [hy]) type
    bInterfaceNumber := number
    bAlternateSetting := next.trans count }

/-- A configuration descriptor describes a tree that can be written. -/
theorem valid_described (g : Grammar raw ds) : (described raw ds).Valid where
  bLength := by
    have first : byteAt (raw.take 9) 0 = byteAt raw 0 := by simp [byteAt]
    exact first.trans g.bLength
  bDescriptorType := by
    have second : byteAt (raw.take 9) 1 = byteAt raw 1 := by simp [byteAt]
    exact second.trans g.bDescriptorType
  interface := by
    have count : (byteAt (raw.take 9) 4).toNat = numInterfaces raw := numInterfaces_take
    refine ⟨_, rfl, by simpa [described, ConfigDescriptor.ofBytes] using count.symm, ?_⟩
    intro k i hi
    rw [List.getElem?_map, Option.map_eq_some_iff] at hi
    obtain ⟨n, hn, rfl⟩ := hi
    obtain ⟨hk, rfl⟩ := List.getElem?_eq_some_iff.1 hn
    rw [List.getElem_range]
    refine ⟨?_, fun j d hd => g.valid_altsetting hd⟩
    obtain ⟨x, hx, hfor⟩ := g.complete k (by simpa using hk)
    rw [ne_eq, ← List.length_eq_zero_iff, length_altsettings, List.countP_eq_zero]
    exact fun none => none x hx hfor

end Grammar

/-! ## The length -/

/-- The length of what is written of an alternate setting. -/
def InterfaceDescriptor.size (d : InterfaceDescriptor) : Nat := 9 + 7 * (d.endpoint.getD []).length

theorem length_descriptors (d : InterfaceDescriptor) : d.descriptors.flatten.length = d.size := by
  have sevens (es : List EndpointDescriptor) :
      (es.map (·.bytes)).flatten.length = 7 * es.length := by
    induction es with
    | nil => rfl
    | cons e es ih =>
      rw [List.map_cons, List.flatten_cons, List.length_append, ih, List.length_cons]
      have seven : e.bytes.length = 7 := rfl
      omega
  rw [InterfaceDescriptor.descriptors, List.flatten_cons, List.length_append, sevens]
  rfl

theorem length_flatMap (alts : List InterfaceDescriptor) :
    (alts.flatMap (·.descriptors)).flatten.length = (alts.map (·.size)).sum := by
  induction alts with
  | nil => rfl
  | cons d alts ih =>
    rw [List.flatMap_cons, List.flatten_append, List.length_append, ih, length_descriptors,
      List.map_cons, List.sum_cons]

/-- The alternate settings of one interface take at most its part of the descriptors. -/
def sizeOf (k : Nat) (ds : List Descriptor) : Nat := ((altsettings k ds).map (·.size)).sum

theorem sizeOf_cons : sizeOf k (x :: ds) =
    (if isInterfaceFor x k then 9 + 7 * (endpoints ds).length else 0) + sizeOf k ds := by
  rw [sizeOf, altsettings]
  split
  · rw [List.map_cons, List.sum_cons]
    rfl
  · rw [Nat.zero_add]
    rfl

theorem sum_sizeOf_cons (hx : isInterface x = true) (inside : interfaceNumber x < n) :
    ((List.range n).map (sizeOf · (x :: ds))).sum =
      9 + 7 * (endpoints ds).length + ((List.range n).map (sizeOf · ds)).sum := by
  induction n with
  | zero => omega
  | succ n ih =>
    simp only [List.range_succ, List.map_append, List.map_cons, List.map_nil, List.sum_append,
      List.sum_cons, List.sum_nil, sizeOf_cons (k := n)]
    by_cases here : interfaceNumber x = n
    · have others (l : List Nat) (hl : ∀ k ∈ l, k < n) :
          (l.map (sizeOf · (x :: ds))).sum = (l.map (sizeOf · ds)).sum := by
        congr 1
        apply List.map_congr_left
        intro k hk
        have := hl k hk
        rw [sizeOf_cons, if_neg, Nat.zero_add]
        simp only [isInterfaceFor, hx, Bool.true_and, decide_eq_true_eq]
        omega
      rw [others _ (by simp), if_pos (by simp [isInterfaceFor, hx, here])]
      omega
    · rw [ih (by omega), if_neg (by simp [isInterfaceFor, here])]
      omega

theorem sum_sizeOf_skip (hx : isInterface x = false) :
    ((List.range n).map (sizeOf · (x :: ds))).sum = ((List.range n).map (sizeOf · ds)).sum := by
  congr 1
  apply List.map_congr_left
  intro k _
  rw [sizeOf_cons, if_neg (by simp [isInterfaceFor, hx]), Nat.zero_add]

/-- The endpoints that belong to no interface descriptor yet are counted too. -/
theorem sum_sizeOf_le (interface : ∀ x ∈ ds, isInterface x = true →
      x.length = 9 ∧ interfaceNumber x < n)
    (endpoint : ∀ x ∈ ds, isEndpoint x = true → x.length = 7) :
    ((List.range n).map (sizeOf · ds)).sum + 7 * (endpoints ds).length ≤ ds.flatten.length := by
  induction ds with
  | nil => simp [sizeOf, altsettings, endpoints]
  | cons x ds ih =>
    have rest := ih (fun y hy => interface y (List.mem_cons_of_mem _ hy))
      (fun y hy => endpoint y (List.mem_cons_of_mem _ hy))
    rw [List.flatten_cons, List.length_append]
    by_cases hx : isInterface x = true
    · obtain ⟨nine, inside⟩ := interface x (List.mem_cons_self ..) hx
      have none : endpoints (x :: ds) = [] := endpoints_append_interface (p := []) hx
      rw [sum_sizeOf_cons hx inside, none, List.length_nil]
      omega
    · rw [Bool.not_eq_true] at hx
      rw [sum_sizeOf_skip hx]
      by_cases he : isEndpoint x = true
      · have seven := endpoint x (List.mem_cons_self ..) he
        have one : (endpoints (x :: ds)).length = (endpoints ds).length + 1 := by
          simp [endpoints, hx, he]
        omega
      · have same : endpoints (x :: ds) = endpoints ds := by simp [endpoints, hx, he]
        rw [same]
        omega

theorem Grammar.length_encode (g : Grammar raw ds) :
    (described raw ds).encode.length ≤ raw.length := by
  have sizes := sum_sizeOf_le (n := numInterfaces raw)
    (fun x hx hi => by
      obtain ⟨pre, post, hs⟩ := List.append_of_mem hx
      obtain ⟨nine, inside, -⟩ := g.interface pre x post hs hi
      exact ⟨nine, inside⟩)
    (fun x hx he => by
      obtain ⟨pre, post, hs⟩ := List.append_of_mem hx
      exact (g.endpoint pre x post hs he).1)
  have settings : (described raw ds).settings =
      (List.range (numInterfaces raw)).flatMap fun k => altsettings k ds := by
    rw [ConfigDescriptor.settings, described, ConfigDescriptor.ofBytes, Option.getD_some,
      List.flatMap_map]
  have total : ((described raw ds).settings.map (·.size)).sum =
      ((List.range (numInterfaces raw)).map (sizeOf · ds)).sum := by
    rw [settings]
    induction List.range (numInterfaces raw) with
    | nil => rfl
    | cons k ks ih =>
      rw [List.flatMap_cons, List.map_append, List.sum_append, ih, List.map_cons, List.sum_cons]
      rfl
  have split := congrArg List.length g.split
  rw [List.length_drop] at split
  have nine := g.length
  have header : (described raw ds).header.length = 9 := rfl
  rw [ConfigDescriptor.encode, List.length_append, header, ConfigDescriptor.descriptors,
    length_flatMap, total]
  omega

/-- With enough memory the encoding of a valid tree is parsed to it. -/
theorem sanitize_of_valid {c : ConfigDescriptor} (mem : Memory) (valid : c.Valid)
    (fits : c.encode.length ≤ 65535) :
    ∃ m, usbyiSanitizeConfigDescriptor (fun _ => true) c.encode (.ofNat c.encode.length) mem =
      .ok ⟨.success, some c, m⟩ := by
  have parsed := sanitize_of_grammar mem fits valid.grammar
  rwa [valid.described_encode] at parsed

end

/-- The trees that `usbyi_sanitize_config_descriptor` can return, from whatever bytes and with
whatever allocations, are exactly the valid ones whose encoding fits into the 16 bits of its
length, and with enough memory it returns each of them for that encoding. -/
theorem config_round_trip (c : ConfigDescriptor) (mem : Memory) :
    ((∃ ok raw m, raw.length ≤ 65535 ∧
        usbyiSanitizeConfigDescriptor ok raw (.ofNat raw.length) mem =
          .ok ⟨.success, some c, m⟩) ↔ c.Valid ∧ c.encode.length ≤ 65535) ∧
      (c.Valid → c.encode.length ≤ 65535 → ∃ m, usbyiSanitizeConfigDescriptor (fun _ => true)
        c.encode (.ofNat c.encode.length) mem = .ok ⟨.success, some c, m⟩) := by
  refine ⟨⟨?_, ?_⟩, sanitize_of_valid mem⟩
  · rintro ⟨ok, raw, m, hlen, h⟩
    obtain ⟨ds, g, hc⟩ := sanitize_success hlen h rfl
    cases hc
    exact ⟨g.valid_described, g.length_encode.trans hlen⟩
  · rintro ⟨valid, fits⟩
    obtain ⟨m, h⟩ := sanitize_of_valid mem valid fits
    exact ⟨_, _, m, fits, h⟩

end Libusby.Core.Config
