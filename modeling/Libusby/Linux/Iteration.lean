import Libusby.Linux.Enumeration
import Libusby.Linux.Frame

/-!
# The enumeration as one loop

Both loops of `usbyb_get_device_list` as one over the files of all buses, what can be read from a
file whatever memory there is, and the properties that every write of an enumeration keeps.
-/

namespace Libusby.Linux

open Foundations Libusby.Core

/-- The files of the directories that have a number and can be opened, in order. -/
def busFiles (b : BusEntry) : List (Int × DevEntry) :=
  match b.busno, b.files with
  | some busno, some es => es.map (busno, ·)
  | _, _ => []

def files (bs : List BusEntry) : List (Int × DevEntry) := bs.flatMap busFiles

/-- The next iteration, unless this one left the loops. -/
def resume (f : Enum → Except Fault Leave) : Leave → Except Fault Leave
  | .next s => f s
  | .error s fd => .ok (.error s fd)

def enumAll (ok : Nat → Bool) (malloc : DeviceId → Bool) :
    List (Int × DevEntry) → Enum → Except Fault Leave
  | [], s => .ok (.next s)
  | f :: fs, s =>
    if s.r.code < 0 then .ok (.next s)
    else enumFile ok f.1 f.2 s malloc >>= resume (enumAll ok malloc fs)

section
variable {ok : Nat → Bool} {malloc : DeviceId → Bool} {fs gs : List (Int × DevEntry)} {s : Enum}
  {left : Leave}

theorem enumAll_failed (h : s.r.code < 0) : enumAll ok malloc fs s = .ok (.next s) := by
  cases fs with
  | nil => rfl
  | cons f fs => exact if_pos h

theorem enumAll_append :
    enumAll ok malloc (fs ++ gs) s = enumAll ok malloc fs s >>= resume (enumAll ok malloc gs) := by
  induction fs generalizing s with
  | nil => rfl
  | cons f fs ih =>
    rw [List.cons_append, enumAll, enumAll]
    by_cases failed : s.r.code < 0
    · rw [if_pos failed, if_pos failed]
      exact (enumAll_failed failed).symm
    · rw [if_neg failed, if_neg failed]
      cases enumFile ok f.1 f.2 s malloc with
      | error e => rfl
      | ok left =>
        cases left with
        | next s => exact ih
        | error s fd => rfl

theorem enumBus_eq (busno : Int) (es : List DevEntry) :
    enumBus ok busno es s malloc = enumAll ok malloc (es.map (busno, ·)) s := by
  induction es generalizing s with
  | nil => rfl
  | cons e es ih =>
    rw [enumBus, List.map_cons, enumAll]
    split_ifs
    · rfl
    · cases enumFile ok busno e s malloc with
      | error f => rfl
      | ok left =>
        cases left with
        | next s => exact ih
        | error s fd => rfl

theorem enumRoot_eq (bs : List BusEntry) :
    enumRoot ok bs s malloc = enumAll ok malloc (files bs) s := by
  induction bs generalizing s with
  | nil => rfl
  | cons b bs ih =>
    rw [enumRoot, files, List.flatMap_cons, enumAll_append]
    by_cases failed : s.r.code < 0
    · rw [if_pos failed, enumAll_failed failed]
      exact (enumAll_failed failed).symm
    · rw [if_neg failed]
      obtain ⟨busno, es⟩ := b
      cases busno with
      | none => exact ih
      | some busno =>
        cases es with
        | none => exact ih
        | some es =>
          simp only [enumBus_eq, busFiles]
          cases enumAll ok malloc (es.map (busno, ·)) s with
          | error f => rfl
          | ok left =>
            cases left with
            | next s => exact ih
            | error s fd => rfl

theorem enumAll_cons_eq_ok {f : Int × DevEntry} (h : enumAll ok malloc (f :: fs) s = .ok left) :
    s.r.code < 0 ∧ left = .next s ∨
      0 ≤ s.r.code ∧ ∃ left', enumFile ok f.1 f.2 s malloc = .ok left' ∧
        resume (enumAll ok malloc fs) left' = .ok left := by
  rw [enumAll] at h
  split_ifs at h with failed
  · exact .inl ⟨failed, (Except.ok.inj h).symm⟩
  · exact .inr ⟨by omega, bind_eq_ok.1 h⟩

end

/-! ## One iteration -/

/-- The number of a file that can be opened. -/
def DevEntry.shows (e : DevEntry) : Option Int := if e.opens then e.devno else none

/-- The locals where an iteration ends. -/
def Leave.enum : Leave → Enum
  | .next s => s
  | .error s _ => s

/-- A file has been opened. -/
def Enum.openFile (s : Enum) : Enum := { s with ctx := { s.ctx with fds := s.ctx.fds.acquire } }

section
variable {ok : Nat → Bool} {malloc : DeviceId → Bool} {ctx ctx' : Context} {busno devno : Int}
  {e : DevEntry} {s : Enum} {d : DeviceId} {ds : List DeviceId}

@[simp] theorem Enum.openFile_calls : s.openFile.calls = s.calls := rfl

@[simp] theorem Enum.openFile_devlist : s.openFile.devlist = s.devlist := rfl

theorem findDevice_congr (h : ctx'.heap = ctx.heap) :
    findDevice ctx' busno devno ds = findDevice ctx busno devno ds := by
  induction ds with
  | nil => rfl
  | cons d ds ih => rw [findDevice, findDevice, Context.deref, Context.deref, h, ih]

theorem enumFile_hidden (hidden : e.shows = none) : enumFile ok busno e s malloc = .ok (.next s) := by
  unfold enumFile
  unfold DevEntry.shows at hidden
  cases hdevno : e.devno with
  | none => rfl
  | some devno =>
    rw [hdevno] at hidden
    split_ifs at hidden with hopen
    exact if_pos hopen

theorem enumFile_shown (shown : e.shows = some devno) :
    e.devno = some devno ∧ e.opens = true := by
  unfold DevEntry.shows at shown
  split_ifs at shown with hopen
  exact ⟨shown, hopen⟩

theorem enumFile_found (shown : e.shows = some devno)
    (found : findDevice s.ctx busno devno s.ctx.devlist = .ok (some d)) :
    enumFile ok busno e s malloc = enumKnown ok s.openFile d s.ctx.fds.next := by
  obtain ⟨hdevno, hopen⟩ := enumFile_shown shown
  simp only [enumFile, hdevno, if_neg (not_not.2 hopen)]
  rw [@findDevice_congr s.ctx { s.ctx with fds := s.ctx.fds.acquire } _ _ _ rfl, found, ok_bind]
  rfl

theorem enumFile_missing (shown : e.shows = some devno)
    (missing : findDevice s.ctx busno devno s.ctx.devlist = .ok none) :
    enumFile ok busno e s malloc = if malloc s.ctx.devices.next then
      enumNew ok s.openFile busno devno s.ctx.fds.next e.read else .error .store := by
  obtain ⟨hdevno, hopen⟩ := enumFile_shown shown
  simp only [enumFile, hdevno, if_neg (not_not.2 hopen)]
  rw [@findDevice_congr s.ctx { s.ctx with fds := s.ctx.fds.acquire } _ _ _ rfl, missing, ok_bind]
  rfl

theorem enumFile_fault {f : Fault} (shown : e.shows = some devno)
    (fault : findDevice s.ctx busno devno s.ctx.devlist = .error f) :
    enumFile ok busno e s malloc = .error f := by
  obtain ⟨hdevno, hopen⟩ := enumFile_shown shown
  simp only [enumFile, hdevno, if_neg (not_not.2 hopen)]
  rw [@findDevice_congr s.ctx { s.ctx with fds := s.ctx.fds.acquire } _ _ _ rfl, fault]
  rfl

end

/-! ## What is read from a file -/

/-- The device descriptor and the descriptor cache that can be read from a file. -/
def descriptors (read : Nat → Nat → List UInt8) : Option (List UInt8 × List UInt8) :=
  (readDescriptors (fun _ => true) read 0).1.toOption

section
variable {ok : Nat → Bool} {read : Nat → Nat → List UInt8} {n k calls calls' m : Nat}
  {cache : List UInt8} {r : Except Error (List UInt8)}

/-- An iteration that ends early met a short read, or an allocation that failed. -/
theorem readConfigurations_error {e : Error}
    (h : readConfigurations ok read n k cache calls = (.error e, calls')) :
    e = .success ∨ e = .noMem ∧ ∃ c, ok c = false := by
  induction n generalizing k cache calls with
  | zero => cases h
  | succ n ih =>
    rw [readConfigurations] at h
    cases hheader : readExact read k 4 with
    | none =>
      rw [hheader] at h
      cases h
      exact .inl rfl
    | some header =>
      rw [hheader] at h
      simp only at h
      split_ifs at h with short memory
      · cases h
        exact .inl rfl
      · cases hbody : readExact read (k + 1)
            ((le16 (header.getD 2 0) (header.getD 3 0)).toNat - 4) with
        | none =>
          rw [hbody] at h
          cases h
          exact .inl rfl
        | some body =>
          rw [hbody] at h
          exact ih h
      · cases h
        exact .inr ⟨rfl, calls, by simpa using memory⟩

/-- The allocations have a say only where they fail. -/
theorem readConfigurations_free (h : readConfigurations ok read n k cache calls = (r, calls')) :
    readConfigurations (fun _ => true) read n k cache calls = (r, calls') ∨ r = .error .noMem := by
  induction n generalizing k cache calls with
  | zero => exact .inl h
  | succ n ih =>
    rw [readConfigurations] at h ⊢
    cases hheader : readExact read k 4 with
    | none =>
      rw [hheader] at h
      exact .inl h
    | some header =>
      rw [hheader] at h
      simp only at h ⊢
      split_ifs at h with short memory
      · rw [if_pos short]
        exact .inl h
      · rw [if_neg short, if_neg (by simp)]
        cases hbody : readExact read (k + 1)
            ((le16 (header.getD 2 0) (header.getD 3 0)).toNat - 4) with
        | none =>
          rw [hbody] at h
          exact .inl h
        | some body =>
          rw [hbody] at h
          exact ih h
      · cases h
        exact .inr rfl

/-- How many calls there were before is no matter then. -/
theorem readConfigurations_calls (m : Nat) :
    (readConfigurations (fun _ => true) read n k cache calls).1 =
      (readConfigurations (fun _ => true) read n k cache m).1 := by
  induction n generalizing k cache calls m with
  | zero => rfl
  | succ n ih =>
    rw [readConfigurations, readConfigurations]
    cases readExact read k 4 with
    | none => rfl
    | some header =>
      simp only [not_true_eq_false, if_false]
      split_ifs
      · rfl
      · cases readExact read (k + 1) ((le16 (header.getD 2 0) (header.getD 3 0)).toNat - 4) with
        | none => rfl
        | some body => exact ih (m + 1)

variable {out : Except Error (List UInt8 × List UInt8)}

theorem readDescriptors_error {e : Error}
    (h : readDescriptors ok read calls = (.error e, calls')) :
    e = .success ∨ e = .noMem ∧ ∃ c, ok c = false := by
  rw [readDescriptors] at h
  cases hdesc : readExact read 0 18 with
  | none =>
    rw [hdesc] at h
    cases h
    exact .inl rfl
  | some desc =>
    rw [hdesc] at h
    simp only at h
    generalize hconf : readConfigurations ok read (numConfigurations desc) 1 [] calls = conf at h
    rcases conf with ⟨e' | cache, c⟩
    · cases h
      exact readConfigurations_error hconf
    · cases h

theorem readDescriptors_free (h : readDescriptors ok read calls = (out, calls')) :
    readDescriptors (fun _ => true) read calls = (out, calls') ∨ out = .error .noMem := by
  rw [readDescriptors] at h ⊢
  cases hdesc : readExact read 0 18 with
  | none =>
    rw [hdesc] at h
    exact .inl h
  | some desc =>
    rw [hdesc] at h
    simp only at h ⊢
    generalize hconf : readConfigurations ok read (numConfigurations desc) 1 [] calls = conf at h
    obtain ⟨r, c⟩ := conf
    rcases readConfigurations_free hconf with hfree | rfl
    · rw [hfree]
      exact .inl h
    · cases h
      exact .inr rfl

theorem descriptors_eq (h : readDescriptors (fun _ => true) read calls = (out, calls')) :
    descriptors read = out.toOption := by
  have calls : (readDescriptors (fun _ => true) read 0).1 =
      (readDescriptors (fun _ => true) read calls).1 := by
    rw [readDescriptors, readDescriptors]
    cases readExact read 0 18 with
    | none => rfl
    | some desc =>
      have same := @readConfigurations_calls read (numConfigurations desc) 1 0 [] calls
      simp only
      generalize readConfigurations (fun _ => true) read (numConfigurations desc) 1 [] 0 = a at same
      generalize readConfigurations (fun _ => true) read (numConfigurations desc) 1 [] calls = b at same
      obtain ⟨r, c⟩ := a
      obtain ⟨r', c'⟩ := b
      cases same
      cases r <;> rfl
  rw [descriptors, calls, h]

/-- A file is read in full, or cannot be, or an allocation fails. -/
theorem readDescriptors_cases (h : readDescriptors ok read calls = (out, calls')) :
    (∃ x, out = .ok x ∧ descriptors read = some x) ∨
      out = .error .success ∧ descriptors read = none ∨
      out = .error .noMem ∧ ∃ c, ok c = false := by
  cases out with
  | ok x =>
    rcases readDescriptors_free h with hfree | noMem
    · exact .inl ⟨x, rfl, descriptors_eq hfree⟩
    · cases noMem
  | error e =>
    rcases readDescriptors_error h with rfl | ⟨rfl, memory⟩
    · rcases readDescriptors_free h with hfree | noMem
      · exact .inr (.inl ⟨rfl, descriptors_eq hfree⟩)
      · cases noMem
    · exact .inr (.inr ⟨rfl, memory⟩)

end

/-! ## What an enumeration writes -/

/-- A property of the devices that an enumeration keeps: a new device has no descriptors yet, and
those that it gets are what was read. -/
structure Context.Maintained (P : Context → Prop) : Prop extends Context.Framed P where
  allocDevice : ∀ ctx busno devno fd, P ctx → P (allocDevice ctx busno devno fd)
  read : ∀ ctx d dev desc cache, P ctx → ctx.heap d = some dev →
    (∃ ok read calls calls', readDescriptors ok read calls = (.ok (desc, cache), calls')) →
    P (ctx.store d { dev with deviceDesc := desc, descCache := cache })

section
variable {P : Context → Prop} {ctx : Context} {ok : Nat → Bool} {malloc : DeviceId → Bool}
  {s : Enum} {left : Leave} {d : DeviceId} {fd : FdId}

theorem enumKnown_maintained (m : Context.Maintained P) (h : P s.ctx)
    (he : enumKnown ok s d fd = .ok left) : P left.enum.ctx := by
  obtain ⟨⟨appended, calls⟩, -, he⟩ := bind_eq_ok.1 he
  cases appended with
  | error r =>
    cases he
    exact h
  | ok devlist =>
    obtain ⟨ctx₁, href, he⟩ := bind_eq_ok.1 he
    cases he
    exact m.congr _ _ (m.ref _ _ _ h href) rfl rfl rfl

theorem errorUnrefDev_maintained (m : Context.Maintained P) {r : Error} {calls : Nat} (h : P s.ctx)
    (he : errorUnrefDev s d r calls = .ok left) : P left.enum.ctx := by
  obtain ⟨ctx₁, hunref, he⟩ := bind_eq_ok.1 he
  cases he
  exact m.unref _ _ _ h hunref

theorem enumNew_maintained (m : Context.Maintained P) {busno devno : Int}
    {read : Nat → Nat → List UInt8} (h : P s.ctx)
    (he : enumNew ok s busno devno fd read = .ok left) : P left.enum.ctx := by
  have fresh := m.allocDevice s.ctx busno devno fd h
  rw [enumNew] at he
  split at he
  case h_1 => exact errorUnrefDev_maintained m fresh he
  case h_2 desc cache calls hread =>
    obtain ⟨dev, hderef, he⟩ := bind_eq_ok.1 he
    have stored := m.read _ _ dev desc cache fresh (deref_eq_ok hderef) ⟨_, _, _, _, hread⟩
    obtain ⟨⟨appended, calls'⟩, -, he⟩ := bind_eq_ok.1 he
    cases appended with
    | error r => exact errorUnrefDev_maintained m stored he
    | ok devlist =>
      cases he
      exact stored

theorem enumFile_maintained (m : Context.Maintained P) {busno : Int} {e : DevEntry} (h : P s.ctx)
    (he : enumFile ok busno e s malloc = .ok left) : P left.enum.ctx := by
  have opened : P { s.ctx with fds := s.ctx.fds.acquire } := m.congr s.ctx _ h rfl rfl rfl
  unfold enumFile at he
  split at he
  case h_1 =>
    cases he
    exact h
  case h_2 =>
    split at he
    case isTrue =>
      cases he
      exact h
    case isFalse =>
      obtain ⟨found, -, he⟩ := bind_eq_ok.1 he
      cases found with
      | some x => exact enumKnown_maintained m opened he
      | none =>
        simp only at he
        split_ifs at he
        exact enumNew_maintained m opened he

theorem enumAll_maintained (m : Context.Maintained P) {fs : List (Int × DevEntry)} (h : P s.ctx)
    (he : enumAll ok malloc fs s = .ok left) : P left.enum.ctx := by
  induction fs generalizing s with
  | nil =>
    cases he
    exact h
  | cons f fs ih =>
    rcases enumAll_cons_eq_ok he with ⟨-, rfl⟩ | ⟨-, left', hfile, he⟩
    · exact h
    · have file := enumFile_maintained m h hfile
      cases left' with
      | next s' => exact ih file he
      | error s' fd =>
        cases he
        exact file

theorem usbybGetDeviceList_maintained (m : Context.Maintained P) {dir : Option (List BusEntry)}
    {listed : Listed} (h : P ctx) (he : usbybGetDeviceList ok ctx dir malloc = .ok listed) :
    P listed.ctx := by
  unfold usbybGetDeviceList at he
  split at he
  case h_1 =>
    cases he
    exact h
  case h_2 bs =>
    obtain ⟨left, hroot, he⟩ := bind_eq_ok.1 he
    rw [enumRoot_eq] at hroot
    have root := enumAll_maintained (s := { ctx }) m h hroot
    cases left with
    | next s =>
      cases he
      exact root
    | error s fd =>
      have closed : P (s.ctx.closeFd fd) := m.congr s.ctx _ root rfl rfl rfl
      simp only at he
      split at he
      case isTrue =>
        obtain ⟨ctx₁, hfree, he⟩ := bind_eq_ok.1 he
        cases he
        exact m.freeDeviceList closed hfree
      case isFalse =>
        cases he
        exact closed

end

end Libusby.Linux
