import Mathlib.Data.List.Perm.Basic
import Libusby.Core.Config.Simulation

/-!
# The allocations of the parser

A tree owns its blocks (`treeBlocks`), and `libusby_free_config_descriptor` frees exactly
these. While the parser builds a tree, the blocks in use are those of the tree (`Owned`).
-/

namespace Libusby.Core.Config

open Foundations

/-- The endpoint arrays of the alternate settings of interface `k`, from setting `j` on. -/
def endpointBlocks (k : Nat) : Nat → List InterfaceDescriptor → List Block
  | _, [] => []
  | j, d :: ds => (if d.endpoint.isSome then [.endpoints k j] else []) ++ endpointBlocks k (j + 1) ds

/-- The blocks of interface `k`, in the order in which they are freed. -/
def altBlocks (k : Nat) (i : Interface) : List Block :=
  if i.altsetting = [] then [] else endpointBlocks k 0 i.altsetting ++ [.altsettings k]

/-- The blocks of the interfaces from `k` on. -/
def interfaceBlocks : Nat → List Interface → List Block
  | _, [] => []
  | k, i :: is => altBlocks k i ++ interfaceBlocks (k + 1) is

def treeBlocks (c : ConfigDescriptor) : List Block :=
  (match c.interface with
    | none => []
    | some is => interfaceBlocks 0 is ++ [.interfaces]) ++ [.config]

section
variable {m : Memory} {b : Block} {rest : List Block} {k j n : Nat} {i : Interface}
  {is : List Interface} {d : InterfaceDescriptor} {ds : List InterfaceDescriptor}
  {c : ConfigDescriptor}

/-! ## Freeing -/

/-- `rest` is what is left of the blocks. -/
def Leaves (m : Memory) (rest : List Block) (x : Except Fault Memory) : Prop :=
  ∃ m', x = .ok m' ∧ m'.calls = m.calls ∧ m'.blocks.Perm rest

theorem Leaves.bind {x : Except Fault Memory} {f : Memory → Except Fault Memory} {last : List Block}
    (h : Leaves m rest x)
    (hf : ∀ m', m'.blocks.Perm rest → Leaves m' last (f m')) : Leaves m last (x >>= f) := by
  obtain ⟨m', rfl, calls, left⟩ := h
  obtain ⟨m'', hm'', calls', left'⟩ := hf m' left
  exact ⟨m'', by rw [ok_bind, hm''], calls'.trans calls, left'⟩

theorem leaves_ok (h : m.blocks.Perm rest) : Leaves m rest (.ok m) := ⟨m, rfl, rfl, h⟩

theorem free_leaves (h : m.blocks.Perm (b :: rest)) : Leaves m rest (m.free b) := by
  have held : b ∈ m.blocks := h.mem_iff.2 (List.mem_cons_self ..)
  refine ⟨{ m with blocks := m.blocks.erase b }, if_pos held, rfl, ?_⟩
  have := h.erase b
  rwa [List.erase_cons_head] at this

theorem freeEndpoints_leaves (h : m.blocks.Perm (endpointBlocks k j ds ++ rest)) :
    Leaves m rest ((ds.zipIdx j).foldlM (fun (m : Memory) (d, j) =>
      if d.endpoint.isSome then m.free (.endpoints k j) else .ok m) m) := by
  induction ds generalizing m j with
  | nil => exact leaves_ok h
  | cons d ds ih =>
    rw [List.zipIdx_cons, List.foldlM_cons]
    rw [endpointBlocks, List.append_assoc] at h
    by_cases some : d.endpoint.isSome = true
    · rw [if_pos some] at h
      simp only [some, if_true]
      exact (free_leaves h).bind fun m' left => ih left
    · rw [if_neg some] at h
      simp only [some]
      exact (leaves_ok h).bind fun m' left => ih left

theorem freeInterface_leaves (h : m.blocks.Perm (altBlocks k i ++ rest)) :
    Leaves m rest (freeInterface m k i) := by
  unfold freeInterface
  by_cases empty : i.altsetting = []
  · rw [if_pos empty]
    rw [altBlocks, if_pos empty] at h
    exact leaves_ok h
  · rw [if_neg empty]
    rw [altBlocks, if_neg empty, List.append_assoc] at h
    exact (freeEndpoints_leaves h).bind fun m' left => free_leaves left

theorem freeInterfaces_leaves (h : m.blocks.Perm (interfaceBlocks k is ++ rest)) :
    Leaves m rest ((is.zipIdx k).foldlM (fun m (i, k) => freeInterface m k i) m) := by
  induction is generalizing m k with
  | nil => exact leaves_ok h
  | cons i is ih =>
    rw [List.zipIdx_cons, List.foldlM_cons]
    rw [interfaceBlocks, List.append_assoc] at h
    exact (freeInterface_leaves h).bind fun m' left => ih left

/-- A tree frees its own blocks and no others. -/
theorem libusbyFreeConfigDescriptor_leaves (h : m.blocks.Perm (treeBlocks c ++ rest)) :
    Leaves m rest (libusbyFreeConfigDescriptor m c) := by
  unfold libusbyFreeConfigDescriptor
  rw [treeBlocks, List.append_assoc] at h
  cases hi : c.interface with
  | none =>
    rw [hi] at h
    exact (leaves_ok h).bind fun m' left => free_leaves left
  | some is =>
    rw [hi] at h
    rw [List.append_assoc] at h
    exact (freeInterfaces_leaves h).bind fun m' left =>
      (free_leaves left).bind fun m'' left' => free_leaves left'

/-! ## Building -/

theorem endpointBlocks_append (ds es : List InterfaceDescriptor) :
    endpointBlocks k j (ds ++ es) = endpointBlocks k j ds ++ endpointBlocks k (j + ds.length) es := by
  induction ds generalizing j with
  | nil => rfl
  | cons d ds ih =>
    rw [List.cons_append, endpointBlocks, endpointBlocks, ih, List.length_cons, List.append_assoc,
      Nat.add_assoc, Nat.add_comm 1]

/-- A change of one setting that keeps its array keeps the blocks. -/
theorem endpointBlocks_modify {f : InterfaceDescriptor → InterfaceDescriptor}
    (h : ∀ d ∈ ds[n]?, (f d).endpoint.isSome = d.endpoint.isSome) :
    endpointBlocks k j (ds.modify n f) = endpointBlocks k j ds := by
  induction ds generalizing j n with
  | nil => simp
  | cons d ds ih =>
    cases n with
    | zero =>
      have first := h d rfl
      simp [endpointBlocks, first]
    | succ n =>
      rw [List.modify_succ_cons, endpointBlocks, endpointBlocks, ih h]

theorem altBlocks_modify {f : InterfaceDescriptor → InterfaceDescriptor}
    (h : ∀ d ∈ ds[n]?, (f d).endpoint.isSome = d.endpoint.isSome) :
    altBlocks k ⟨ds.modify n f⟩ = altBlocks k ⟨ds⟩ := by
  simp only [altBlocks, List.modify_eq_nil_iff, endpointBlocks_modify h]

/-- The blocks of one interface among those of all. -/
theorem interfaceBlocks_modify {f : Interface → Interface} (h : is[n]? = some i) :
    ∃ pre post, interfaceBlocks k is = pre ++ (altBlocks (k + n) i ++ post) ∧
      interfaceBlocks k (is.modify n f) = pre ++ (altBlocks (k + n) (f i) ++ post) := by
  induction is generalizing k n with
  | nil => cases h
  | cons first is ih =>
    cases n with
    | zero =>
      cases h
      exact ⟨[], interfaceBlocks (k + 1) is, rfl, rfl⟩
    | succ n =>
      obtain ⟨pre, post, before, after⟩ := ih (k := k + 1) h
      rw [show k + 1 + n = k + (n + 1) by omega] at before after
      refine ⟨altBlocks k first ++ pre, post, ?_, ?_⟩
      · rw [interfaceBlocks, before, List.append_assoc]
      · rw [List.modify_succ_cons, interfaceBlocks, after, List.append_assoc]

/-- The tree whose interface `k` is changed. -/
theorem treeBlocks_modifyAlts {f : List InterfaceDescriptor → List InterfaceDescriptor}
    (hc : c.interface = some is) (hi : is[k]? = some i) :
    ∃ rest, (treeBlocks c).Perm (altBlocks k i ++ rest) ∧
      (treeBlocks (c.modifyAlts k f)).Perm (altBlocks k ⟨f i.altsetting⟩ ++ rest) := by
  obtain ⟨pre, post, before, after⟩ :=
    interfaceBlocks_modify (k := 0) (f := fun i => ⟨f i.altsetting⟩) hi
  rw [Nat.zero_add] at before after
  refine ⟨pre ++ (post ++ [.interfaces] ++ [.config]), ?_, ?_⟩
  · rw [treeBlocks, hc]
    simp only [before, List.append_assoc]
    exact List.perm_append_comm_assoc ..
  · rw [treeBlocks, ConfigDescriptor.modifyAlts, hc]
    simp only [Option.map_some, after, List.append_assoc]
    exact List.perm_append_comm_assoc ..

theorem altsettings_notMem_endpointBlocks : .altsettings n ∉ endpointBlocks k j ds := by
  induction ds generalizing j with
  | nil => exact List.not_mem_nil
  | cons d ds ih =>
    rw [endpointBlocks, List.mem_append, not_or]
    refine ⟨?_, ih⟩
    split <;> simp

theorem altsettings_mem_altBlocks : .altsettings n ∈ altBlocks k i ↔ n = k ∧ i.altsetting ≠ [] := by
  unfold altBlocks
  split
  case isTrue empty => simp [empty]
  case isFalse nonempty => simp [altsettings_notMem_endpointBlocks, nonempty]

theorem interface_le_of_mem (h : .altsettings n ∈ interfaceBlocks k is) : k ≤ n := by
  induction is generalizing k with
  | nil => cases h
  | cons i is ih =>
    rcases List.mem_append.1 h with first | others
    · have := altsettings_mem_altBlocks.1 first
      omega
    · have := ih others
      omega

/-- An interface without alternate settings has no array of them. -/
theorem altsettings_notMem (h : is[n]? = some i) (empty : i.altsetting = []) :
    .altsettings (k + n) ∉ interfaceBlocks k is := by
  induction is generalizing k n with
  | nil => cases h
  | cons first is ih =>
    rw [interfaceBlocks, List.mem_append, not_or, altsettings_mem_altBlocks]
    cases n with
    | zero =>
      cases h
      refine ⟨fun held => held.2 empty, fun held => ?_⟩
      have := interface_le_of_mem held
      omega
    | succ n =>
      have others := ih (k := k + 1) h
      rw [show k + 1 + n = k + (n + 1) by omega] at others
      exact ⟨fun held => by omega, others⟩

theorem altsettings_notMem_treeBlocks (hc : c.interface = some is) (hi : is[k]? = some i)
    (empty : i.altsetting = []) : .altsettings k ∉ treeBlocks c := by
  have notMem := altsettings_notMem (k := 0) hi empty
  rw [Nat.zero_add] at notMem
  rw [treeBlocks, hc]
  simpa using notMem

/-- The blocks in use are those of the tree, which has its array of interfaces. -/
structure Owned (b : Build) : Prop where
  interface : ∃ is, b.config.interface = some is ∧ is.length = b.config.bNumInterfaces.toNat
  blocks : b.mem.blocks.Perm (treeBlocks b.config)

variable {ok : Nat → Bool} {build build' : Build}
  {f : List InterfaceDescriptor → List InterfaceDescriptor}

/-- A change of interface `k` that comes with its blocks. -/
theorem Owned.modifyAlts (h : Owned build) (hc : build.config.interface = some is)
    (hi : is[k]? = some i) (config : build'.config = build.config.modifyAlts k f)
    (blocks : ∀ rest, build.mem.blocks.Perm (altBlocks k i ++ rest) →
      build'.mem.blocks.Perm (altBlocks k ⟨f i.altsetting⟩ ++ rest)) : Owned build' := by
  obtain ⟨rest, before, after⟩ := treeBlocks_modifyAlts (f := f) hc hi
  refine ⟨?_, ?_⟩
  · obtain ⟨is', hc', length⟩ := h.interface
    refine ⟨is'.modify k fun i => ⟨f i.altsetting⟩, ?_, ?_⟩
    · rw [config, ConfigDescriptor.modifyAlts, hc', Option.map_some]
    · rw [config, List.length_modify, length]
      rfl
  · rw [config]
    exact (blocks rest (h.blocks.trans before)).trans after.symm

/-- What the parser leaves behind, whether it goes on or stops with an error. -/
def Keeps : Except Stop Build → Prop
  | .ok b => Owned b
  | .error (.error b) => Owned b
  | .error (.fault _) => True

theorem Keeps.bind {x : Except Stop Build} {g : Build → Except Stop Build} (h : Keeps x)
    (hg : ∀ b, Owned b → Keeps (g b)) : Keeps (x >>= g) := by
  cases x with
  | error e => exact h
  | ok b => exact hg b h

theorem keeps_lift {α : Type} {x : Except Fault α} {g : α → Except Stop Build}
    (hg : ∀ a, Keeps (g a)) : Keeps (lift x >>= g) := by
  cases x with
  | error e => trivial
  | ok a => exact hg a

/-- The array for the new setting: `realloc` makes one only if there was none. -/
theorem altBlocks_append_none (none : d.endpoint = none) (h : m.blocks.Perm (altBlocks k i ++ rest))
    (notMem : i.altsetting = [] → .altsettings k ∉ m.blocks) :
    (if .altsettings k ∈ m.blocks then m.blocks else .altsettings k :: m.blocks).Perm
      (altBlocks k ⟨i.altsetting ++ [d]⟩ ++ rest) := by
  have last : endpointBlocks k (0 + i.altsetting.length) [d] = [] := by simp [endpointBlocks, none]
  by_cases empty : i.altsetting = []
  · rw [if_neg (notMem empty)]
    rw [altBlocks, if_pos empty] at h
    rw [altBlocks, if_neg (by simp), endpointBlocks_append, last, empty]
    exact h.cons _
  · have held : .altsettings k ∈ m.blocks :=
      h.mem_iff.2 (List.mem_append_left _ (altsettings_mem_altBlocks.2 ⟨rfl, empty⟩))
    rw [if_pos held]
    rw [altBlocks, if_neg empty] at h
    rwa [altBlocks, if_neg (by simp), endpointBlocks_append, last, List.append_nil]

theorem realloc_blocks {m' : Memory} (h : m.realloc ok b = some m') :
    m'.blocks = if b ∈ m.blocks then m.blocks else b :: m.blocks := by
  unfold Memory.realloc at h
  split at h
  case isTrue =>
    cases h
    rfl
  case isFalse => cases h

theorem malloc_blocks {m' : Memory} (h : m.malloc ok b = some m') : m'.blocks = b :: m.blocks := by
  unfold Memory.malloc at h
  split at h
  case isTrue =>
    cases h
    rfl
  case isFalse => cases h

/-- The endpoint array of the last setting. -/
theorem altBlocks_append_some {e : InterfaceDescriptor} (none : d.endpoint = none)
    (some : e.endpoint.isSome = true) (h : m.blocks.Perm (altBlocks k ⟨ds ++ [d]⟩ ++ rest)) :
    (.endpoints k ds.length :: m.blocks).Perm (altBlocks k ⟨ds ++ [e]⟩ ++ rest) := by
  have before : endpointBlocks k (0 + ds.length) [d] = [] := by simp [endpointBlocks, none]
  have after : endpointBlocks k (0 + ds.length) [e] = [.endpoints k ds.length] := by
    simp [endpointBlocks, some]
  rw [altBlocks, if_neg (by simp), endpointBlocks_append, before, List.append_nil] at h
  rw [altBlocks, if_neg (by simp), endpointBlocks_append, after]
  apply (h.cons _).trans
  simp only [List.append_assoc]
  exact List.perm_middle.symm

theorem addAltsetting_keeps {raw : List UInt8} (h : Owned build)
    (hc : build.config.interface = some is) (hi : is[k]? = some i) :
    Keeps (addAltsetting ok raw k i.altsetting.length build) := by
  unfold addAltsetting
  split
  case h_1 => exact h
  case h_2 mem hmem =>
    apply keeps_lift
    intro bytes
    have added : Owned { build with
        config := build.config.modifyAlts k (· ++ [.ofBytes bytes none])
        intfDesc := some (k, i.altsetting.length), mem } := by
      apply h.modifyAlts (f := (· ++ [.ofBytes bytes none])) hc hi rfl
      intro rest before
      rw [realloc_blocks hmem]
      apply altBlocks_append_none rfl before
      intro empty held
      exact altsettings_notMem_treeBlocks hc hi empty (h.blocks.mem_iff.1 held)
    split
    case h_1 => exact added
    case h_2 mem' hmem' =>
      have hc' : (build.config.modifyAlts k (· ++ [.ofBytes bytes none])).interface =
          some (is.modify k fun i => ⟨i.altsetting ++ [.ofBytes bytes none]⟩) := by
        rw [ConfigDescriptor.modifyAlts, hc]
        rfl
      have hi' : (is.modify k fun i => ⟨i.altsetting ++ [.ofBytes bytes none]⟩)[k]? =
          some ⟨i.altsetting ++ [.ofBytes bytes none]⟩ := by
        rw [List.getElem?_modify_eq, hi]
        rfl
      let endpoint := List.replicate (InterfaceDescriptor.ofBytes bytes none).bNumEndpoints.toNat
        EndpointDescriptor.zero
      refine added.modifyAlts
        (f := (·.modify i.altsetting.length fun d => { d with endpoint := some endpoint }))
        hc' hi' rfl fun rest before => ?_
      rw [malloc_blocks hmem', modify_snoc]
      exact altBlocks_append_some rfl rfl before

theorem interfaceBlock_keeps {raw : List UInt8} (h : Owned build) :
    Keeps (interfaceBlock ok raw build) := by
  unfold interfaceBlock
  split
  case isTrue => exact h
  case isFalse =>
    apply keeps_lift
    intro bLength
    split
    case isTrue => exact h
    case isFalse =>
      apply keeps_lift
      intro bInterfaceNumber
      apply keeps_lift
      intro bAlternateSettings
      dsimp only
      split
      case isTrue => exact h
      case isFalse inside =>
        split
        case isTrue => exact h
        case isFalse next =>
          obtain ⟨is, hc, length⟩ := h.interface
          have hi : is[bInterfaceNumber.toNat]? = some is[bInterfaceNumber.toNat] :=
            List.getElem?_eq_getElem (by omega)
          have count : bAlternateSettings.toNat = is[bInterfaceNumber.toNat].altsetting.length := by
            rw [not_not.1 next, Build.numAltsetting, hc, Option.bind_some, hi]
            rfl
          rw [count]
          exact addAltsetting_keeps h hc hi

theorem endpointBlock_keeps {raw : List UInt8} (h : Owned build) :
    Keeps (endpointBlock raw build) := by
  unfold endpointBlock
  apply keeps_lift
  intro bLength
  split
  case isTrue => exact h
  case isFalse =>
    apply keeps_lift
    intro bytes
    split
    case h_1 k j endpoint hdesc hendpoint =>
      split
      case isTrue =>
        rw [Build.current, hdesc] at hendpoint
        obtain ⟨d, halt, hd⟩ := Option.bind_eq_some_iff.1 hendpoint
        rw [Option.bind_some] at halt
        obtain ⟨is, hc, halt⟩ := Option.bind_eq_some_iff.1 halt
        obtain ⟨i, hi, halt⟩ := Option.bind_eq_some_iff.1 halt
        refine h.modifyAlts (f := (·.modify j fun d => { d with
          endpoint := some (endpoint.set build.endpDescIndex (.ofBytes bytes)) })) hc hi rfl
          fun rest before => ?_
        rw [altBlocks_modify]
        · exact before
        · intro d' hd'
          cases halt.symm.trans hd'
          rw [hd]
          rfl
      case isFalse => trivial
    case h_2 => trivial

theorem parseBlock_keeps (ok : Nat → Bool) (raw : List UInt8) (h : Owned build) :
    Keeps (parseBlock ok raw build) := by
  unfold parseBlock
  apply keeps_lift
  intro bDescriptorType
  have tail (b : Build) (hb : Owned b) :
      Keeps (if bDescriptorType = 5 then endpointBlock raw b else .ok b) := by
    split
    case isTrue => exact endpointBlock_keeps hb
    case isFalse => exact hb
  dsimp only
  split
  case isTrue => exact (interfaceBlock_keeps h).bind tail
  case isFalse => exact tail build h

theorem parseNext_error {p : Parse} (h : Owned p.build)
    (hstep : parseNext ok p = .error (.error build)) : Owned build := by
  unfold parseNext at hstep
  cases hread : readByte p.rawdesc 0 with
  | error f =>
    rw [hread] at hstep
    cases hstep
  | ok desclen =>
    rw [hread, lift_ok, ok_bind] at hstep
    split at hstep
    case isTrue =>
      cases hstep
      exact h
    case isFalse =>
      have kept := parseBlock_keeps ok p.rawdesc h
      cases hblock : parseBlock ok p.rawdesc p.build with
      | error e =>
        rw [hblock] at kept hstep
        cases hstep
        exact kept
      | ok b =>
        rw [hblock] at hstep
        cases hstep

/-- The invariant of the loop. -/
theorem parseLoop_owned (ok : Nat → Bool) {p : Parse} (h : Owned p.build) :
    match parseLoop ok p with
    | .ok q => Owned q.build
    | .error (.error b) => Owned b
    | .error (.fault _) => True := by
  fun_induction parseLoop ok p with
  | case1 p hw => exact h
  | case2 p hw e hstep =>
    rcases e with f | b
    · trivial
    · exact parseNext_error h hstep
  | case3 p hw q hstep ih =>
    obtain ⟨desclen, b, -, -, -, hb, rfl⟩ := parseNext_eq_ok ok hstep
    have kept := parseBlock_keeps ok p.rawdesc h
    rw [hb] at kept
    exact ih kept

theorem owned_start {header : List UInt8} (h : m.blocks = [.interfaces, .config]) :
    Owned (.start header m) := by
  refine ⟨⟨_, rfl, by simp [Build.start, ConfigDescriptor.ofBytes]⟩, ?_⟩
  have none (k n : Nat) : interfaceBlocks k (List.replicate n {}) = [] := by
    induction n generalizing k with
    | zero => rfl
    | succ n ih =>
      rw [List.replicate_succ, interfaceBlocks, ih]
      rfl
  simp only [Build.start, treeBlocks, ConfigDescriptor.ofBytes, none, h]
  exact .refl _

/-- The label `error` frees the tree. -/
theorem sanitizeError_total (h : build.mem.blocks.Perm (treeBlocks build.config)) :
    ∃ m, sanitizeError build = .ok ⟨.io, none, m⟩ ∧ m.blocks = [] := by
  rw [← List.append_nil (treeBlocks build.config)] at h
  obtain ⟨m, hfree, -, left⟩ := libusbyFreeConfigDescriptor_leaves h
  refine ⟨m, ?_, left.eq_nil⟩
  rw [sanitizeError, hfree]
  rfl

/-- The function failed and holds no block, or it holds those of its result. -/
def Sanitized.Released (out : Sanitized) : Prop :=
  out.r ≠ .success ∧ out.config = none ∧ out.mem.blocks = [] ∨
    ∃ c, out.r = .success ∧ out.config = some c ∧ out.mem.blocks.Perm (treeBlocks c)

theorem sanitizeError_released (h : build.mem.blocks.Perm (treeBlocks build.config)) :
    ∃ out, sanitizeError build = .ok out ∧ out.Released := by
  obtain ⟨m, hm, empty⟩ := sanitizeError_total h
  exact ⟨_, hm, .inl ⟨by simp, rfl, empty⟩⟩

theorem sanitizeEnd_released (h : Owned build) :
    ∃ out, sanitizeEnd build = .ok out ∧ out.Released := by
  unfold sanitizeEnd
  split
  case isTrue => exact sanitizeError_released h.blocks
  case isFalse =>
    split
    case isTrue => exact sanitizeError_released h.blocks
    case isFalse => exact ⟨_, rfl, .inr ⟨_, rfl, rfl, h.blocks⟩⟩

/-- What the function leaves in use: the blocks of the tree that it returns, or none. -/
def Settled (out : Sanitized) : Prop :=
  match out.config with
  | none => out.mem.blocks = []
  | some c => out.mem.blocks.Perm (treeBlocks c)

theorem Sanitized.Released.settled {out : Sanitized} (h : out.Released) : Settled out := by
  rcases h with ⟨-, config, empty⟩ | ⟨c, -, config, blocks⟩
  · rw [Settled, config]
    exact empty
  · rw [Settled, config]
    exact blocks

/-- The function releases what it does not return, unless the loop faults. -/
theorem sanitize_released (ok : Nat → Bool) {raw : List UInt8} {w : UInt16} (h : m.blocks = [])
    (fits : w.toNat ≤ raw.length) :
    (∃ out, usbyiSanitizeConfigDescriptor ok raw w m = .ok out ∧ out.Released) ∨
      ∃ f b, 9 ≤ raw.length ∧ parseLoop ok ⟨raw.drop 9, w - 9, b⟩ = .error (.fault f) ∧
        usbyiSanitizeConfigDescriptor ok raw w m = .error f := by
  have exit := sanitize_exit ok m fits
  generalize usbyiSanitizeConfigDescriptor ok raw w m = x at exit ⊢
  cases exit with
  | rejected failed => exact .inl ⟨_, rfl, .inl ⟨failed, rfl, h⟩⟩
  | interfaces config full =>
    refine .inl (sanitizeError_released ?_)
    rw [malloc_blocks config, h]
    exact .refl _
  | @loop mem mem' header config interfaces =>
    have start : Owned (.start (raw.take 9) mem') :=
      owned_start (by rw [malloc_blocks interfaces, malloc_blocks config, h])
    have kept := parseLoop_owned ok (p := ⟨raw.drop 9, w - 9, .start (raw.take 9) mem'⟩) start
    unfold sanitizeLoop
    split
    case h_1 f hloop => exact .inr ⟨f, _, header.length, hloop, rfl⟩
    case h_2 b hloop =>
      rw [hloop] at kept
      exact .inl (sanitizeError_released kept.blocks)
    case h_3 p hloop =>
      rw [hloop] at kept
      exact .inl (sanitizeEnd_released kept)

theorem sanitize_settled {raw : List UInt8} {out : Sanitized} (h : m.blocks = [])
    (hs : usbyiSanitizeConfigDescriptor ok raw (.ofNat raw.length) m = .ok out) : Settled out := by
  have fits : (UInt16.ofNat raw.length).toNat ≤ raw.length := by
    rw [UInt16.toNat_ofNat']
    exact Nat.mod_le ..
  rcases sanitize_released ok h fits with ⟨out', hout, released⟩ | ⟨f, b, -, -, hfault⟩
  · cases hout.symm.trans hs
    exact released.settled
  · cases hfault.symm.trans hs

end

end Libusby.Core.Config
