import Libusby.Cpp.Wrappers

/-!
# Ownership

The books of the library are in order if every context, handle and reference that is out is held
by one object. A destructor keeps them in order or out of order, so that a program can come to a
good end exactly if they are in order. What puts them out of order is a copy of a handle, an
assignment between handles and `context::clear`, unless the pointers are null.
-/

namespace Libusby.Cpp

open Foundations Libusby.Core Library

/-- The pointers that are held are what the library has handed out and not got back. -/
structure Accounts (lib : Library) (devs : List DeviceId) (hs : List HandleId)
    (cs : List ContextId) : Prop where
  contexts : lib.contexts.Balanced cs
  handles : lib.handles.Balanced hs
  refs : ∀ d, tally lib.taken d =
    tally lib.released d + tally devs d + tally (hs.map lib.deviceOf) d

/-- Every pointer that is not null is held by one object. -/
def Program.Owned (s : Program) : Prop :=
  Accounts s.lib s.devices.reduceOption s.handles.reduceOption s.contexts.reduceOption

section
variable {lib : Library} {devs devs' : List DeviceId} {hs hs' : List HandleId}
  {cs cs' : List ContextId} {d : DeviceId} {h : HandleId} {c : ContextId} {m : Option Nat}
  {xs : List (Option Nat)} {i : Nat}

/-! ## Objects -/

theorem reduceOption_cons (m : Option Nat) (xs : List (Option Nat)) :
    (m :: xs).reduceOption = m.toList ++ xs.reduceOption := by
  cases m <;> rfl

theorem reduceOption_perm (hi : xs[i]? = some m) :
    xs.reduceOption.Perm (m.toList ++ (xs.eraseIdx i).reduceOption) := by
  obtain ⟨lt, rfl⟩ := List.getElem?_eq_some_iff.1 hi
  rw [← reduceOption_cons]
  exact (List.getElem_cons_eraseIdx_perm lt).symm.filterMap id

theorem reduceOption_set (hi : xs[i]? = some m) (m' : Option Nat) :
    (xs.set i m').reduceOption.Perm (m'.toList ++ (xs.eraseIdx i).reduceOption) := by
  obtain ⟨lt, -⟩ := List.getElem?_eq_some_iff.1 hi
  have new : (xs.set i m')[i]? = some m' := List.getElem?_set_self lt
  have rest : (xs.set i m').eraseIdx i = xs.eraseIdx i := List.eraseIdx_set_eq
  rw [← rest]
  exact reduceOption_perm new

theorem reduceOption_concat (xs : List (Option Nat)) (m : Option Nat) :
    (xs ++ [m]).reduceOption.Perm (m.toList ++ xs.reduceOption) := by
  rw [List.reduceOption_append, List.reduceOption_singleton]
  exact List.perm_append_comm

/-! ## The library -/

namespace Accounts

theorem perm (books : Accounts lib devs hs cs) (hd : devs.Perm devs') (hh : hs.Perm hs')
    (hc : cs.Perm cs') : Accounts lib devs' hs' cs' where
  contexts := books.contexts.perm hc
  handles := books.handles.perm hh
  refs d := by
    rw [← tally_perm hd, ← tally_perm (hh.map lib.deviceOf)]
    exact books.refs d

theorem ref (books : Accounts lib devs hs cs) (d : DeviceId) :
    Accounts (lib.libusbyRefDevice d) (d :: devs) hs cs := by
  refine ⟨books.contexts, books.handles, fun x => ?_⟩
  have := books.refs x
  simp only [libusbyRefDevice]
  rw [tally_cons, tally_cons d devs, Pi.add_apply, Pi.add_apply]
  omega

theorem unref_iff : Accounts (lib.libusbyUnrefDevice d) devs hs cs ↔
    Accounts lib (d :: devs) hs cs := by
  have moved (x : DeviceId) : tally (d :: lib.released) x + tally devs x =
      tally lib.released x + tally (d :: devs) x := by
    rw [tally_cons, tally_cons d devs, Pi.add_apply, Pi.add_apply]
    omega
  constructor
  · intro books
    refine ⟨books.contexts, books.handles, fun x => ?_⟩
    rw [← moved]
    exact books.refs x
  · intro books
    refine ⟨books.contexts, books.handles, fun x => ?_⟩
    have := books.refs x
    rw [← moved] at this
    exact this

theorem close_iff : Accounts (lib.libusbyClose h) devs hs cs ↔ Accounts lib devs (h :: hs) cs := by
  have moved (x : DeviceId) : tally (lib.deviceOf h :: lib.released) x + tally devs x +
      tally (hs.map lib.deviceOf) x =
      tally lib.released x + tally devs x + tally ((h :: hs).map lib.deviceOf) x := by
    rw [List.map_cons, tally_cons, tally_cons _ (hs.map lib.deviceOf), Pi.add_apply, Pi.add_apply]
    omega
  constructor
  · intro books
    refine ⟨books.contexts, List.perm_middle.symm.trans books.handles, fun x => ?_⟩
    rw [← moved]
    exact books.refs x
  · intro books
    refine ⟨books.contexts, books.handles.release, fun x => ?_⟩
    have := books.refs x
    rw [← moved] at this
    exact this

theorem exit_iff : Accounts (lib.libusbyExit c) devs hs cs ↔ Accounts lib devs hs (c :: cs) := by
  constructor
  · intro books
    exact ⟨List.perm_middle.symm.trans books.contexts, books.handles, books.refs⟩
  · intro books
    exact ⟨books.contexts.release, books.handles, books.refs⟩

theorem init (books : Accounts lib devs hs cs) :
    Accounts lib.libusbyInit devs hs (lib.contexts.next :: cs) :=
  ⟨books.contexts.acquire, books.handles, books.refs⟩

theorem openDevice (books : Accounts lib devs hs cs) (d : DeviceId) :
    Accounts (lib.libusbyOpen d) devs (lib.handles.next :: hs) cs := by
  refine ⟨books.contexts, books.handles.acquire, fun x => ?_⟩
  have others : hs.map (Function.update lib.deviceOf lib.handles.next d) = hs.map lib.deviceOf := by
    apply List.map_congr_left
    intro h hh
    exact Function.update_of_ne (Nat.ne_of_lt (books.handles.lt hh)) ..
  have := books.refs x
  simp only [libusbyOpen, libusbyRefDevice, List.map_cons, Function.update_self, others]
  rw [tally_cons, tally_cons d (hs.map lib.deviceOf), Pi.add_apply, Pi.add_apply]
  omega

/-! ## The member functions -/

theorem deviceCopy (books : Accounts lib devs hs cs) (other : Option DeviceId) :
    Accounts (deviceCopy lib other).2 ((deviceCopy lib other).1.toList ++ devs) hs cs := by
  cases other with
  | none => exact books
  | some d => exact books.ref d

theorem deviceClear_iff : Accounts (deviceClear lib m).2 devs hs cs ↔
    Accounts lib (m.toList ++ devs) hs cs := by
  cases m with
  | none => exact Iff.rfl
  | some d => exact unref_iff

theorem deviceAssign (books : Accounts lib (m.toList ++ devs) hs cs) (other : Option DeviceId) :
    Accounts (deviceAssign lib m other).2 ((deviceAssign lib m other).1.toList ++ devs) hs cs := by
  have copied := books.deviceCopy other
  apply deviceClear_iff.2
  exact copied.perm (List.perm_append_comm_assoc ..) (.refl _) (.refl _)

theorem handleClear_iff : Accounts (handleClear lib m).2 devs hs cs ↔
    Accounts lib devs (m.toList ++ hs) cs := by
  cases m with
  | none => exact Iff.rfl
  | some h => exact close_iff

theorem handleTryOpen (books : Accounts lib devs (m.toList ++ hs) cs) (d : DeviceId)
    (opens : Bool) : Accounts (handleTryOpen lib m d opens).2 devs
      ((handleTryOpen lib m d opens).1.toList ++ hs) cs := by
  cases opens with
  | false => exact books
  | true =>
    apply handleClear_iff.2
    exact (books.openDevice d).perm (.refl _) List.perm_middle.symm (.refl _)

theorem contextClear_iff : Accounts (contextClear lib m).2 devs hs cs ↔
    Accounts lib devs hs (m.toList ++ cs) := by
  cases m with
  | none => exact Iff.rfl
  | some c => exact exit_iff

theorem contextCreate (books : Accounts lib devs hs (m.toList ++ cs)) (inits : Bool) :
    Accounts (contextCreate lib m inits).2 devs hs
      ((contextCreate lib m inits).1.toList ++ cs) := by
  cases inits with
  | false => exact books
  | true =>
    apply contextClear_iff.2
    exact books.init.perm (.refl _) (.refl _) List.perm_middle.symm

theorem refAll (books : Accounts lib devs hs cs) (list : List DeviceId) :
    Accounts (list.foldl libusbyRefDevice lib) (list ++ devs) hs cs := by
  induction list generalizing lib devs with
  | nil => exact books
  | cons d list ih => exact (ih (books.ref d)).perm List.perm_middle (.refl _) (.refl _)

theorem unrefAll {list : List DeviceId} (books : Accounts lib (list ++ devs) hs cs) :
    Accounts (list.foldl libusbyUnrefDevice lib) devs hs cs := by
  induction list generalizing lib with
  | nil => exact books
  | cons d list ih => exact ih (unref_iff.2 books)

theorem pushRef (books : Accounts lib devs hs cs) (d : DeviceId) :
    Accounts (pushRef lib d).2 (d :: devs) hs cs := unref_iff.2 ((books.ref d).ref d)

theorem pushRefs (books : Accounts lib devs hs cs) (list : List DeviceId) :
    (pushRefs lib list).1 = list.map some ∧
      Accounts (pushRefs lib list).2 (list ++ devs) hs cs := by
  induction list generalizing lib devs with
  | nil => exact ⟨rfl, books⟩
  | cons d list ih =>
    obtain ⟨elements, pushed⟩ := ih (books.pushRef d)
    refine ⟨congrArg (some d :: ·) elements, ?_⟩
    exact pushed.perm List.perm_middle (.refl _) (.refl _)

end Accounts

/-! ## The steps of a program -/

variable {s t : Program} {a : Action}

/-- The steps that put the books out of order: a handle gets a second owner, a handle loses its
owner, or a context that is gone keeps one. -/
def Breaks (s : Program) : Action → Prop
  | .copyHandle i => ∃ h, s.handles[i]? = some (some h)
  | .assignHandle i j =>
    i ≠ j ∧ ((∃ h, s.handles[i]? = some (some h)) ∨ ∃ h, s.handles[j]? = some (some h))
  | .clearContext i => ∃ c, s.contexts[i]? = some (some c)
  | _ => False

namespace Program.Owned

/-- The books with the pointer of one device in front. -/
theorem device_iff (hi : s.devices[i]? = some m) : s.Owned ↔ Accounts s.lib
    (m.toList ++ (s.devices.eraseIdx i).reduceOption) s.handles.reduceOption
    s.contexts.reduceOption := by
  have same := reduceOption_perm hi
  exact ⟨fun h => Accounts.perm h same (.refl _) (.refl _),
    fun h => h.perm same.symm (.refl _) (.refl _)⟩

theorem handle_iff (hi : s.handles[i]? = some m) : s.Owned ↔ Accounts s.lib
    s.devices.reduceOption (m.toList ++ (s.handles.eraseIdx i).reduceOption)
    s.contexts.reduceOption := by
  have same := reduceOption_perm hi
  exact ⟨fun h => Accounts.perm h (.refl _) same (.refl _),
    fun h => h.perm (.refl _) same.symm (.refl _)⟩

theorem context_iff (hi : s.contexts[i]? = some m) : s.Owned ↔ Accounts s.lib
    s.devices.reduceOption s.handles.reduceOption
    (m.toList ++ (s.contexts.eraseIdx i).reduceOption) := by
  have same := reduceOption_perm hi
  exact ⟨fun h => Accounts.perm h (.refl _) (.refl _) same,
    fun h => h.perm (.refl _) (.refl _) same.symm⟩

theorem addDevice {r : Option DeviceId × Library} (books : Accounts r.2
    (r.1.toList ++ s.devices.reduceOption) s.handles.reduceOption s.contexts.reduceOption) :
    (s.addDevice r).Owned :=
  books.perm (reduceOption_concat ..).symm (.refl _) (.refl _)

theorem addHandle {r : Option HandleId × Library} (books : Accounts r.2 s.devices.reduceOption
    (r.1.toList ++ s.handles.reduceOption) s.contexts.reduceOption) : (s.addHandle r).Owned :=
  books.perm (.refl _) (reduceOption_concat ..).symm (.refl _)

theorem setDevice {r : Option DeviceId × Library} (hi : s.devices[i]? = some m)
    (books : Accounts r.2 (r.1.toList ++ (s.devices.eraseIdx i).reduceOption)
      s.handles.reduceOption s.contexts.reduceOption) : (s.setDevice i r).Owned :=
  books.perm (reduceOption_set hi _).symm (.refl _) (.refl _)

theorem setHandle {r : Option HandleId × Library} (hi : s.handles[i]? = some m)
    (books : Accounts r.2 s.devices.reduceOption
      (r.1.toList ++ (s.handles.eraseIdx i).reduceOption) s.contexts.reduceOption) :
    (s.setHandle i r).Owned :=
  books.perm (.refl _) (reduceOption_set hi _).symm (.refl _)

theorem setContext {r : Option ContextId × Library} (hi : s.contexts[i]? = some m)
    (books : Accounts r.2 s.devices.reduceOption s.handles.reduceOption
      (r.1.toList ++ (s.contexts.eraseIdx i).reduceOption)) : (s.setContext i r).Owned :=
  books.perm (.refl _) (.refl _) (reduceOption_set hi _).symm

end Program.Owned

theorem reduceOption_map_some (list : List DeviceId) : (list.map some).reduceOption = list := by
  rw [List.reduceOption, List.filterMap_map]
  exact List.filterMap_some

theorem getDeviceList_owned (h : s.Owned) (listing : Listing) :
    Accounts (contextGetDeviceList s.lib listing).2
      (s.devices ++ (contextGetDeviceList s.lib listing).1).reduceOption s.handles.reduceOption
      s.contexts.reduceOption := by
  rw [List.reduceOption_append]
  cases listing with
  | failed =>
    rw [contextGetDeviceList, List.reduceOption_nil, List.append_nil]
    exact h
  | noMem list =>
    rw [contextGetDeviceList, List.reduceOption_nil, List.append_nil]
    exact (Accounts.refAll h list).unrefAll
  | listed list =>
    obtain ⟨elements, pushed⟩ := (Accounts.refAll h list).pushRefs list
    have released := (pushed.perm (List.perm_append_comm_assoc ..) (.refl _) (.refl _)).unrefAll
    simp only [contextGetDeviceList, elements, reduceOption_map_some]
    exact released.perm List.perm_append_comm (.refl _) (.refl _)

/-- The destructors. -/
theorem destroy_owned_iff (hd : a.IsDestroy) (hs : s.step a = some t) : s.Owned ↔ t.Owned := by
  cases a with
  | destroyDevice i =>
    obtain ⟨mDev, hi, hs⟩ := Option.bind_eq_some_iff.1 hs
    cases hs
    exact (Program.Owned.device_iff hi).trans Accounts.deviceClear_iff.symm
  | destroyHandle i =>
    obtain ⟨mHandle, hi, hs⟩ := Option.bind_eq_some_iff.1 hs
    cases hs
    exact (Program.Owned.handle_iff hi).trans Accounts.handleClear_iff.symm
  | destroyContext i =>
    obtain ⟨mCtx, hi, hs⟩ := Option.bind_eq_some_iff.1 hs
    cases hs
    exact (Program.Owned.context_iff hi).trans Accounts.contextClear_iff.symm
  | _ => exact hd.elim

theorem step_owned (h : s.Owned) (hc : ¬Breaks s a) (hs : s.step a = some t) : t.Owned := by
  cases a with
  | newDevice =>
    cases hs
    exact Program.Owned.addDevice h
  | copyDevice i =>
    obtain ⟨other, -, hs⟩ := Option.bind_eq_some_iff.1 hs
    cases hs
    exact Program.Owned.addDevice (Accounts.deviceCopy h other)
  | refDevice dev =>
    cases hs
    exact Program.Owned.addDevice (Accounts.ref h dev)
  | takeOwnership dev =>
    cases hs
    exact Program.Owned.addDevice (Accounts.ref h dev)
  | assignDevice i j =>
    obtain ⟨mDev, hi, hs⟩ := Option.bind_eq_some_iff.1 hs
    obtain ⟨other, -, hs⟩ := Option.bind_eq_some_iff.1 hs
    cases hs
    exact .setDevice hi (((Program.Owned.device_iff hi).1 h).deviceAssign other)
  | swapDevices i j =>
    obtain ⟨mDev, hi, hs⟩ := Option.bind_eq_some_iff.1 hs
    obtain ⟨other, hj, hs⟩ := Option.bind_eq_some_iff.1 hs
    cases hs
    obtain ⟨lt, rfl⟩ := List.getElem?_eq_some_iff.1 hi
    obtain ⟨lt', rfl⟩ := List.getElem?_eq_some_iff.1 hj
    have swapped := (List.set_set_perm lt lt').filterMap id
    exact Accounts.perm h swapped.symm (.refl _) (.refl _)
  | clearDevice i =>
    obtain ⟨mDev, hi, hs⟩ := Option.bind_eq_some_iff.1 hs
    cases hs
    refine .setDevice hi ?_
    cases mDev <;> exact Accounts.deviceClear_iff.2 ((Program.Owned.device_iff hi).1 h)
  | newHandle =>
    cases hs
    exact Program.Owned.addHandle h
  | newOpenHandle dev opens =>
    cases opens with
    | false =>
      cases hs
      exact h
    | true =>
      cases hs
      exact .addHandle (Accounts.handleTryOpen (m := none) h dev true)
  | copyHandle i =>
    obtain ⟨other, hi, hs⟩ := Option.bind_eq_some_iff.1 hs
    cases hs
    cases other with
    | none => exact Program.Owned.addHandle h
    | some handle => exact absurd ⟨handle, hi⟩ hc
  | assignHandle i j =>
    obtain ⟨mHandle, hi, hs⟩ := Option.bind_eq_some_iff.1 hs
    obtain ⟨other, hj, hs⟩ := Option.bind_eq_some_iff.1 hs
    cases hs
    obtain rfl : mHandle = other := by
      by_contra ne
      have distinct : i ≠ j := by
        rintro rfl
        exact ne (Option.some.inj (hi.symm.trans hj))
      cases mHandle with
      | some handle => exact hc ⟨distinct, .inl ⟨handle, hi⟩⟩
      | none =>
        cases other with
        | none => exact ne rfl
        | some handle => exact hc ⟨distinct, .inr ⟨handle, hj⟩⟩
    exact .setHandle hi ((Program.Owned.handle_iff hi).1 h)
  | openHandle i dev opens =>
    obtain ⟨mHandle, hi, hs⟩ := Option.bind_eq_some_iff.1 hs
    cases hs
    exact .setHandle hi (((Program.Owned.handle_iff hi).1 h).handleTryOpen dev opens)
  | clearHandle i =>
    obtain ⟨mHandle, hi, hs⟩ := Option.bind_eq_some_iff.1 hs
    cases hs
    refine .setHandle hi ?_
    cases mHandle <;> exact Accounts.handleClear_iff.2 ((Program.Owned.handle_iff hi).1 h)
  | newContext =>
    cases hs
    exact Accounts.perm h (.refl _) (.refl _) (reduceOption_concat _ none).symm
  | createContext i inits =>
    obtain ⟨mCtx, hi, hs⟩ := Option.bind_eq_some_iff.1 hs
    cases hs
    exact .setContext hi (((Program.Owned.context_iff hi).1 h).contextCreate inits)
  | clearContext i =>
    obtain ⟨mCtx, hi, hs⟩ := Option.bind_eq_some_iff.1 hs
    cases hs
    cases mCtx with
    | none => exact .setContext hi ((Program.Owned.context_iff hi).1 h)
    | some c => exact absurd ⟨c, hi⟩ hc
  | destroyDevice i => exact (destroy_owned_iff (a := .destroyDevice i) trivial hs).1 h
  | destroyHandle i => exact (destroy_owned_iff (a := .destroyHandle i) trivial hs).1 h
  | destroyContext i => exact (destroy_owned_iff (a := .destroyContext i) trivial hs).1 h
  | getDeviceList i listing =>
    obtain ⟨_, -, hs⟩ := Option.bind_eq_some_iff.1 hs
    cases hs
    exact getDeviceList_owned h listing

/-- A handle that is copied is held twice, one that is assigned is lost or held twice, and a
context that is cleared is still held. -/
theorem breaks_not_owned (h : s.Owned) (hc : Breaks s a) (hs : s.step a = some t) : ¬t.Owned := by
  intro after
  cases a with
  | copyHandle i =>
    obtain ⟨handle, hi⟩ := hc
    rw [Program.step, hi] at hs
    cases hs
    have copied := after.handles.perm (reduceOption_concat _ (some handle))
    have more := copied.length_eq.trans (Accounts.handles h).length_eq.symm
    have same : (s.addHandle (some handle, s.lib)).lib = s.lib := rfl
    rw [Option.toList_some, List.singleton_append, List.length_cons, same] at more
    omega
  | assignHandle i j =>
    obtain ⟨distinct, nonempty⟩ := hc
    obtain ⟨mHandle, hi, hs⟩ := Option.bind_eq_some_iff.1 hs
    obtain ⟨other, hj, hs⟩ := Option.bind_eq_some_iff.1 hs
    cases hs
    have before := (Accounts.handles h).perm (reduceOption_perm hi)
    have assigned := after.handles.perm (reduceOption_set hi other)
    cases other with
    | some handle =>
      have kept : some handle ∈ s.handles.eraseIdx i :=
        List.mem_eraseIdx_iff_getElem?.2 ⟨j, distinct.symm, hj⟩
      have twice := assigned.owned_nodup
      rw [Option.toList_some, List.singleton_append, List.nodup_cons] at twice
      exact twice.1 (List.reduceOption_mem_iff.2 kept)
    | none =>
      have fewer := before.length_eq.trans assigned.length_eq.symm
      cases mHandle with
      | some handle =>
        have same : (s.setHandle i (none, s.lib)).lib = s.lib := rfl
        rw [Option.toList_some, List.singleton_append, List.length_cons, Option.toList_none,
          List.nil_append, same] at fewer
        omega
      | none =>
        rcases nonempty with ⟨handle, hi'⟩ | ⟨handle, hj'⟩
        · cases hi.symm.trans hi'
        · cases hj.symm.trans hj'
  | clearContext i =>
    obtain ⟨ctx, hi⟩ := hc
    rw [Program.step, hi] at hs
    cases hs
    have held : ctx ∈ s.contexts.reduceOption :=
      List.reduceOption_mem_iff.2 (List.mem_of_getElem? hi)
    have cleared := after.contexts.not_released (n := ctx) ?_
    · exact absurd cleared (by simp [Program.setContext, contextClear, libusbyExit, Ledger.release])
    · exact (reduceOption_set hi (some ctx)).mem_iff.2 (List.mem_append_left _ (by simp))
  | _ => exact hc.elim

/-! ## Programs to their end -/

/-- Each context and handle was given back once, and as many references as were taken. -/
structure Library.Settled (lib : Library) : Prop where
  contexts : lib.contexts.released.Perm (List.range lib.contexts.next)
  handles : lib.handles.released.Perm (List.range lib.handles.next)
  refs : ∀ d, tally lib.taken d = tally lib.released d

/-- However the objects that there are get destroyed, the library is settled. -/
def Program.Safe (s : Program) : Prop :=
  ∀ es t, (∀ e ∈ es, e.IsDestroy) → programMachine.exec s es = some t → t.Empty → t.lib.Settled

theorem Program.Empty.owned_iff (he : s.Empty) : s.Owned ↔ s.lib.Settled := by
  obtain ⟨devs, handles, contexts⟩ := he
  unfold Program.Owned
  rw [devs, handles, contexts]
  constructor
  · intro books
    refine ⟨books.contexts, books.handles, fun d => ?_⟩
    simpa using books.refs d
  · intro settled
    refine ⟨settled.contexts, settled.handles, fun d => ?_⟩
    simpa using settled.refs d

theorem destroys_owned_iff {es : List Action} (hd : ∀ e ∈ es, e.IsDestroy)
    (hx : programMachine.exec s es = some t) : s.Owned ↔ t.Owned := by
  induction es generalizing s with
  | nil =>
    cases hx
    exact Iff.rfl
  | cons e es ih =>
    obtain ⟨u, hu, hx⟩ := Machine.exec_cons.1 hx
    have first := destroy_owned_iff (hd e (List.mem_cons_self ..)) hu
    exact first.trans (ih (fun e he => hd e (List.mem_cons_of_mem _ he)) hx)

/-- The number of objects. -/
def Program.size (s : Program) : Nat := s.devices.length + s.handles.length + s.contexts.length

theorem exists_destroy (hn : s.size ≠ 0) :
    ∃ a t, Action.IsDestroy a ∧ s.step a = some t ∧ t.size < s.size := by
  obtain ⟨devs, handles, contexts, lib⟩ := s
  cases devs with
  | cons d devs => exact ⟨.destroyDevice 0, _, trivial, rfl, by simp [Program.size]⟩
  | nil =>
    cases handles with
    | cons h handles => exact ⟨.destroyHandle 0, _, trivial, rfl, by simp [Program.size]⟩
    | nil =>
      cases contexts with
      | cons c contexts => exact ⟨.destroyContext 0, _, trivial, rfl, by simp [Program.size]⟩
      | nil => exact absurd rfl hn

theorem exists_destroys (s : Program) :
    ∃ es t, (∀ e ∈ es, Action.IsDestroy e) ∧ programMachine.exec s es = some t ∧ t.Empty := by
  by_cases hn : s.size = 0
  · refine ⟨[], s, by simp, rfl, ?_⟩
    simpa [Program.size, Program.Empty, and_assoc] using hn
  · obtain ⟨a, u, destroy, step, smaller⟩ := exists_destroy hn
    obtain ⟨es, t, destroys, exec, empty⟩ := exists_destroys u
    refine ⟨a :: es, t, ?_, Machine.exec_cons.2 ⟨u, step, exec⟩, empty⟩
    exact List.forall_mem_cons.2 ⟨destroy, destroys⟩
termination_by s.size

theorem safe_iff : s.Safe ↔ s.Owned := by
  constructor
  · intro safe
    obtain ⟨es, t, destroys, exec, empty⟩ := exists_destroys s
    exact (destroys_owned_iff destroys exec).2 (empty.owned_iff.2 (safe es t destroys exec empty))
  · intro owned es t destroys exec empty
    exact empty.owned_iff.1 ((destroys_owned_iff destroys exec).1 owned)

/-- A program can be ended well at each of its points exactly if no step of it breaks the books,
and then it does end well. -/
theorem wrappers_settle_iff (es : List Action) :
    (programMachine.Always Program.Safe programMachine.init es ↔
      programMachine.Steps (fun s a _ => ¬Breaks s a) programMachine.init es) ∧
    (programMachine.Steps (fun s a _ => ¬Breaks s a) programMachine.init es → ∀ t,
      programMachine.exec programMachine.init es = some t → t.Empty → t.lib.Settled) := by
  have init : Program.Owned programMachine.init := by
    refine ⟨.refl _, .refl _, fun d => rfl⟩
  have runs (steps : programMachine.Steps (fun s a _ => ¬Breaks s a) programMachine.init es) :
      programMachine.Always Program.Owned programMachine.init es := by
    have all := Machine.Steps.invariant (Q := fun _ _ _ => True)
      (fun s a t owned sound step => ⟨step_owned owned sound step, trivial⟩) steps init
    exact all.1
  refine ⟨⟨fun always => ?_, fun steps => ?_⟩, fun steps t exec empty => ?_⟩
  · apply always.steps (I := fun _ => True) (fun _ _ _ _ _ => trivial) ?_ trivial
    intro s a t _ before step after hc
    exact breaks_not_owned (safe_iff.1 before) hc step (safe_iff.1 after)
  · exact (runs steps).mono fun s => safe_iff.2
  · exact empty.owned_iff.1 ((runs steps).exec exec)

end

/-- A context that is cleared and destroyed is given back twice. -/
theorem wrappers_not_settled : ¬∀ es t,
    programMachine.exec programMachine.init es = some t → t.Empty → t.lib.Settled := by
  intro all
  have settled := all [.newContext, .createContext 0 true, .clearContext 0, .destroyContext 0] _
    rfl ⟨rfl, rfl, rfl⟩
  exact absurd settled.contexts.length_eq (by decide)

end Libusby.Cpp
