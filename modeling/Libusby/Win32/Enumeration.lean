import Libusby.Win32.Configuration
import Libusby.Win32.Devices

/-!
# `usbyb_get_device_list` on libusb0

The files `libusb0-0001` to `libusb0-0255` and the outcome of every call that depends on the
outside are arguments: `attached i` is `none` if the file of number `i` cannot be opened, and
else how the request for its device descriptor goes, `ok n` is for the `n`-th `realloc` and
`malloc d` for the structure of a new device `d`. Whatever fails ends the enumeration.
-/

namespace Libusby.Win32

open Foundations Libusby.Core

/-- `LIBUSB_MAX_NUMBER_OF_DEVICES`. -/
def maxNumberOfDevices : Nat := 256

/-- The locals of the enumeration; `calls` counts the calls of `realloc`. -/
structure Enum where
  ctx : Context
  devlist : DeviceList := {}
  calls : Nat := 0

/-- The next iteration, or `goto error`. -/
inductive Leave where
  | next (s : Enum)
  | error (s : Enum)

/-- The device descriptor, if all of it was sent and it is none of another size. The local
`cached_desc` has no value before, and is read only where it was written. -/
def readDeviceDesc (io : SyncResult) : Option (Bytes 18) :=
  let reply := syncDeviceIoControl io
  if reply.code ≠ 18 then none
  else (usbyiSanitizeDeviceDesc (receive (.replicate 18 0) reply)).toOption

/-- The search of the context's list. -/
def findDevice (ctx : Context) (i : Nat) : List DeviceId → Except Fault (Option DeviceId)
  | [] => .ok none
  | d :: ds => do
    let dev ← ctx.deref d
    if dev.devno = i then .ok (some d) else findDevice ctx i ds

section
variable (ok : Nat → Bool)

/-- A device that is in the context's list already. -/
def enumKnown (s : Enum) (d : DeviceId) (hFile : FileId) : Except Fault Leave := do
  let ctx := s.ctx.closeHandle hFile
  let (appended, calls) ← usbyiAppendDeviceList ok s.calls s.devlist d
  match appended with
  | .error _ => .ok (.error { s with ctx, calls })
  | .ok devlist =>
    let ctx ← libusbyRefDevice ctx d
    .ok (.next { s with ctx, devlist, calls })

/-- The way to `error` for a device that was made. -/
def unrefNew (s : Enum) (d : DeviceId) (calls : Nat) : Except Fault Leave := do
  let ctx ← libusbyUnrefDevice s.ctx d
  .ok (.error { s with ctx, calls })

/-- A device that is not in the context's list. -/
def enumNew (s : Enum) (i : Nat) (hFile : FileId) (io : SyncResult) : Except Fault Leave := do
  let d := s.ctx.devices.next
  let s := { s with ctx := allocDevice s.ctx i hFile }
  match readDeviceDesc io with
  | none => unrefNew s d s.calls
  | some deviceDesc =>
    let dev ← s.ctx.deref d
    let s := { s with ctx := s.ctx.store d { dev with deviceDesc } }
    let (appended, calls) ← usbyiAppendDeviceList ok s.calls s.devlist d
    match appended with
    | .error _ => unrefNew s d calls
    | .ok devlist => .ok (.next { s with devlist, calls })

/-- The body of the loop. `usbyi_alloc_device` clears its structure without a look at the
pointer. -/
def enumDevice (malloc : DeviceId → Bool) (attached : Nat → Option SyncResult) (i : Nat)
    (s : Enum) : Except Fault Leave :=
  match attached i with
  | none => .ok (.next s)
  | some io => do
    let hFile := s.ctx.files.next
    let s := { s with ctx := { s.ctx with files := s.ctx.files.acquire } }
    let found ← findDevice s.ctx i s.ctx.devlist
    match found with
    | some d => enumKnown ok s d hFile
    | none =>
      if malloc s.ctx.devices.next then enumNew ok s i hFile io
      else .error .store

/-- The loop over the numbers that are left. -/
def enumDevices (malloc : DeviceId → Bool) (attached : Nat → Option SyncResult) :
    List Nat → Enum → Except Fault Leave
  | [], s => .ok (.next s)
  | i :: is, s => do
    let left ← enumDevice ok malloc attached i s
    match left with
    | .next s => enumDevices malloc attached is s
    | .error s => .ok (.error s)

/-- The return value and the array, if `*list` was written. -/
structure Listed where
  r : Int
  list : Option DeviceArray
  ctx : Context

/-- `1` to `LIBUSB_MAX_NUMBER_OF_DEVICES - 1`. -/
def deviceNumbers : List Nat := List.range' 1 (maxNumberOfDevices - 1)

def usbybGetDeviceList (malloc : DeviceId → Bool) (ctx : Context)
    (attached : Nat → Option SyncResult) : Except Fault Listed := do
  let left ← enumDevices ok malloc attached deviceNumbers { ctx }
  match left with
  | .next s => .ok { r := s.devlist.count, list := some s.devlist.list, ctx := s.ctx }
  | .error s =>
    let ctx ← if s.devlist.list.isSome then libusbyFreeDeviceList s.ctx s.devlist.list true
      else .ok s.ctx
    .ok { r := Error.noMem.code, list := none, ctx }

end

/-! ## One iteration -/

/-- A file has been opened. -/
def Enum.openFile (s : Enum) : Enum := { s with ctx := { s.ctx with files := s.ctx.files.acquire } }

/-- Where an iteration ends: what becomes of the devices in memory, of the context's list and of
the entries `ds` of the list that is being built. -/
inductive Iterated (ok : Nat → Bool) (attached : Nat → Option SyncResult) (i : Nat) (s : Enum)
    (ds : List DeviceId) : Leave → Prop where
  | skipped (hidden : attached i = none) : Iterated ok attached i s ds (.next s)
  | known {d : DeviceId} {dev : Device} {io : SyncResult} {s' : Enum}
      (shown : attached i = some io) (number : dev.devno = i) (mem : d ∈ s.ctx.devlist)
      (found : s.ctx.heap d = some dev)
      (heap : s'.ctx.heap =
        Function.update s.ctx.heap d (some { dev with refCount := dev.refCount + 1 }))
      (devlist : s'.ctx.devlist = s.ctx.devlist) (holds : s'.devlist.Holds (ds ++ [d])) :
      Iterated ok attached i s ds (.next s')
  | listed {dev : Device} {io : SyncResult} {s' : Enum} (shown : attached i = some io)
      (number : dev.devno = i)
      (new : ∀ d ∈ s.ctx.devlist, ∀ x, s.ctx.heap d = some x → x.devno ≠ i)
      (fresh : s.ctx.heap s.ctx.devices.next = none)
      (read : readDeviceDesc io = some dev.deviceDesc)
      (heap : s'.ctx.heap = Function.update s.ctx.heap s.ctx.devices.next (some dev))
      (devlist : s'.ctx.devlist = s.ctx.devlist ++ [s.ctx.devices.next])
      (holds : s'.devlist.Holds (ds ++ [s.ctx.devices.next])) :
      Iterated ok attached i s ds (.next s')
  /-- `error`. -/
  | failed {io : SyncResult} {s' : Enum} (shown : attached i = some io)
      (heap : s'.ctx.heap = s.ctx.heap) (holds : s'.devlist.Holds ds)
      (why : (∀ d ∈ s.ctx.devlist, ∀ x, s.ctx.heap d = some x → x.devno ≠ i) ∧
          readDeviceDesc io = none ∨ ∃ c, ok c = false) :
      Iterated ok attached i s ds (.error s')

/-- Where an iteration ends the context is well formed. -/
def Leave.ctx : Leave → Context
  | .next s => s.ctx
  | .error s => s.ctx

section
variable {ok : Nat → Bool} {attached : Nat → Option SyncResult} {i : Nat} {s : Enum}
  {ds : List DeviceId} {d : DeviceId} {dev : Device} {io : SyncResult} {hFile : FileId}

@[simp] theorem Enum.openFile_calls : s.openFile.calls = s.calls := rfl

@[simp] theorem Enum.openFile_devlist : s.openFile.devlist = s.devlist := rfl

/-- What the search asks of a device. -/
def Context.numbered (ctx : Context) (i : Nat) (d : DeviceId) : Bool :=
  (ctx.heap d).any fun dev => dev.devno = i

theorem findDevice_find (ctx : Context) (i : Nat) {ds : List DeviceId}
    (memory : ∀ d ∈ ds, ∃ dev, ctx.heap d = some dev) :
    findDevice ctx i ds = .ok (ds.find? (ctx.numbered i)) := by
  refine loop_find rfl fun d hd rest => ?_
  obtain ⟨dev, hheap⟩ := memory d hd
  rw [findDevice, deref_eq hheap, ok_bind, Context.numbered, hheap]
  simp

/-- The search finds a device with the number, if there is one. -/
theorem findDevice_eq (ctx : Context) (i : Nat) {ds : List DeviceId}
    (h : ∀ d ∈ ds, ∃ dev, ctx.heap d = some dev) :
    (∃ d ∈ ds, ∃ dev, findDevice ctx i ds = .ok (some d) ∧ ctx.heap d = some dev ∧ dev.devno = i) ∨
      findDevice ctx i ds = .ok none ∧ ∀ d ∈ ds, ∀ dev, ctx.heap d = some dev → dev.devno ≠ i := by
  rw [findDevice_find ctx i h]
  cases found : ds.find? (ctx.numbered i) with
  | none =>
    refine .inr ⟨rfl, fun d hd dev hheap same => ?_⟩
    have missed := List.find?_eq_none.1 found d hd
    simp [Context.numbered, hheap, same] at missed
  | some d =>
    have mem := List.mem_of_find?_eq_some found
    obtain ⟨dev, hheap⟩ := h d mem
    have asked := List.find?_some found
    refine .inl ⟨d, mem, dev, rfl, hheap, ?_⟩
    simpa [Context.numbered, hheap] using asked

theorem enumKnown_iterated (wf : s.ctx.WellFormed) (holds : s.devlist.Holds ds)
    (hd : d ∈ s.ctx.devlist) (hheap : s.ctx.heap d = some dev) (shown : attached i = some io)
    (number : dev.devno = i) :
    ∃ left, enumKnown ok s.openFile d hFile = .ok left ∧ Iterated ok attached i s ds left ∧
      left.ctx.WellFormed := by
  have hheap' : (s.openFile.ctx.closeHandle hFile).heap d = some dev := hheap
  have closed : (s.openFile.ctx.closeHandle hFile).WellFormed := wf.congr rfl rfl rfl
  obtain ⟨r, calls, happend, ⟨rfl, memory⟩ | ⟨devlist, rfl, holds'⟩⟩ :=
    usbyiAppendDeviceList_holds holds ok s.calls d
  · simp only [enumKnown, Enum.openFile_calls, Enum.openFile_devlist, happend, ok_bind]
    exact ⟨_, rfl, .failed shown rfl holds (.inr ⟨_, memory⟩), closed⟩
  · simp only [enumKnown, Enum.openFile_calls, Enum.openFile_devlist, happend, ok_bind,
      libusbyRefDevice, deref_eq hheap']
    exact ⟨_, rfl, .known shown number hd hheap rfl rfl holds', closed.store hheap' rfl⟩

/-- A device that the enumeration has made and not listed is given up, and nothing is left
of it. -/
theorem unrefNew_iterated {t : Enum} {calls : Nat} (wf : s.ctx.WellFormed)
    (holds : t.devlist.Holds ds)
    (heap : t.ctx.heap = Function.update s.ctx.heap s.ctx.devices.next (some dev))
    (one : dev.refCount = 1) (wf' : t.ctx.WellFormed) (shown : attached i = some io)
    (why : (∀ d ∈ s.ctx.devlist, ∀ x, s.ctx.heap d = some x → x.devno ≠ i) ∧
      readDeviceDesc io = none ∨ ∃ c, ok c = false) :
    ∃ left, unrefNew t s.ctx.devices.next calls = .ok left ∧ Iterated ok attached i s ds left ∧
      left.ctx.WellFormed := by
  have hd : t.ctx.heap s.ctx.devices.next = some dev := by rw [heap, Function.update_self]
  rw [unrefNew, libusbyUnrefDevice_last hd one, ok_bind]
  refine ⟨_, rfl, .failed shown ?_ holds why, wf'.remove⟩
  simp only [Context.remove, heap, Function.update_idem]
  rw [← wf.unused, Function.update_eq_self]

theorem enumNew_iterated (wf : s.ctx.WellFormed) (holds : s.devlist.Holds ds)
    (shown : attached i = some io)
    (new : ∀ d ∈ s.ctx.devlist, ∀ x, s.ctx.heap d = some x → x.devno ≠ i) :
    ∃ left, enumNew ok s.openFile i hFile io = .ok left ∧ Iterated ok attached i s ds left ∧
      left.ctx.WellFormed := by
  have absent (x : DeviceId) (y : Device) (hx : s.ctx.heap x = some y) : y.devno ≠ i :=
    new x ((wf.linked x).2 ⟨y, hx⟩) y hx
  have made : (allocDevice s.openFile.ctx i hFile).WellFormed :=
    @Context.WellFormed.insert _ _ { refCount := 1, devno := i, hFile } wf absent rfl rfl rfl
  have hheap : (allocDevice s.openFile.ctx i hFile).heap s.openFile.ctx.devices.next =
      some { refCount := 1, devno := i, hFile } := Function.update_self ..
  rw [enumNew]
  cases hread : readDeviceDesc io with
  | none =>
    exact unrefNew_iterated (t := { s.openFile with ctx := allocDevice _ _ _ }) wf holds rfl rfl
      made shown (.inl ⟨new, hread⟩)
  | some deviceDesc =>
    simp only [deref_eq hheap, ok_bind]
    let dev : Device := { refCount := 1, deviceDesc, devno := i, hFile }
    have stored : ((allocDevice s.openFile.ctx i hFile).store s.openFile.ctx.devices.next dev).WellFormed :=
      made.store hheap rfl
    have heap : ((allocDevice s.openFile.ctx i hFile).store s.openFile.ctx.devices.next dev).heap =
        Function.update s.ctx.heap s.ctx.devices.next (some dev) := Function.update_idem ..
    obtain ⟨r, calls, happend, ⟨rfl, memory⟩ | ⟨devlist, rfl, holds'⟩⟩ :=
      usbyiAppendDeviceList_holds holds ok s.calls s.openFile.ctx.devices.next
    · simp only [Enum.openFile_calls, Enum.openFile_devlist, happend, ok_bind]
      exact unrefNew_iterated (t := { s.openFile with ctx := Context.store _ _ dev }) wf holds heap
        rfl stored shown (.inr ⟨_, memory⟩)
    · simp only [Enum.openFile_calls, Enum.openFile_devlist, happend, ok_bind]
      exact ⟨_, rfl, .listed shown rfl new wf.unused hread heap rfl holds', stored⟩

/-- An iteration comes to one of its ends. -/
theorem enumDevice_iterated (wf : s.ctx.WellFormed) (holds : s.devlist.Holds ds) (ok : Nat → Bool)
    (attached : Nat → Option SyncResult) (i : Nat) :
    ∃ left, enumDevice ok (fun _ => true) attached i s = .ok left ∧ Iterated ok attached i s ds left ∧
      left.ctx.WellFormed := by
  rw [enumDevice]
  cases shown : attached i with
  | none => exact ⟨_, rfl, .skipped shown, wf⟩
  | some io =>
    simp only
    obtain ⟨d, hd, dev, hfind, hheap, rfl⟩ | ⟨hfind, hnew⟩ := findDevice_eq s.openFile.ctx i
      fun d hd => (wf.linked d).1 hd
    · have found : findDevice { s.ctx with files := s.ctx.files.acquire } dev.devno s.ctx.devlist =
          .ok (some d) := hfind
      rw [found, ok_bind]
      exact enumKnown_iterated wf holds hd hheap shown rfl
    · have missing : findDevice { s.ctx with files := s.ctx.files.acquire } i s.ctx.devlist =
          .ok none := hfind
      rw [missing, ok_bind]
      exact enumNew_iterated wf holds shown hnew

/-- A property that every iteration keeps. -/
theorem enumDevices_induction {P : Context → Prop} (is : List Nat)
    (iteration : ∀ i ∈ is, ∀ s ds left, P s.ctx → Iterated ok attached i s ds left → P left.ctx)
    (wf : s.ctx.WellFormed) (holds : s.devlist.Holds ds) (start : P s.ctx) :
    ∃ left, enumDevices ok (fun _ => true) attached is s = .ok left ∧ left.ctx.WellFormed ∧
      P left.ctx := by
  induction is generalizing s ds with
  | nil => exact ⟨_, rfl, wf, start⟩
  | cons i is ih =>
    obtain ⟨first, others⟩ := List.forall_mem_cons.1 iteration
    obtain ⟨left, hdevice, iterated, wf₁⟩ := enumDevice_iterated wf holds ok attached i
    have kept := first s ds left start iterated
    rw [enumDevices, hdevice, ok_bind]
    cases iterated with
    | skipped hidden => exact ih others wf₁ holds kept
    | known shown number mem found heap devlist holds' => exact ih others wf₁ holds' kept
    | listed shown number new fresh read heap devlist holds' => exact ih others wf₁ holds' kept
    | failed shown heap holds' why => exact ⟨_, rfl, wf₁, kept⟩

/-- A property that every iteration keeps, if there is a list to return. -/
theorem usbybGetDeviceList_listed {P : Context → Prop} {ctx : Context} {listed : Listed}
    {list : DeviceArray}
    (iteration : ∀ i ∈ deviceNumbers, ∀ s ds left, P s.ctx → Iterated ok attached i s ds left →
      P left.ctx)
    (h : usbybGetDeviceList ok (fun _ => true) ctx attached = .ok listed)
    (hlist : listed.list = some list) (wf : ctx.WellFormed) (start : P ctx) :
    listed.ctx.WellFormed ∧ P listed.ctx := by
  obtain ⟨left, hall, wf₁, all⟩ := enumDevices_induction (s := { ctx }) deviceNumbers
    iteration wf DeviceList.holds_nil start
  rw [usbybGetDeviceList, hall, ok_bind] at h
  cases left with
  | next s =>
    cases h
    exact ⟨wf₁, all⟩
  | error s =>
    simp only at h
    split_ifs at h
    · obtain ⟨ctx', -, h⟩ := bind_eq_ok.1 h
      cases h
      cases hlist
    · cases h
      cases hlist

/-- A property that every iteration and every `libusby_unref_device` keeps. -/
theorem usbybGetDeviceList_induction {P : Context → Prop} {ctx : Context} {listed : Listed}
    (iteration : ∀ i ∈ deviceNumbers, ∀ s ds left, P s.ctx → Iterated ok attached i s ds left →
      P left.ctx)
    (unref : ∀ ctx d ctx', P ctx → libusbyUnrefDevice ctx d = .ok ctx' → P ctx')
    (h : usbybGetDeviceList ok (fun _ => true) ctx attached = .ok listed)
    (wf : ctx.WellFormed) (start : P ctx) : listed.ctx.WellFormed ∧ P listed.ctx := by
  obtain ⟨left, hall, wf₁, all⟩ := enumDevices_induction (s := { ctx }) deviceNumbers
    iteration wf DeviceList.holds_nil start
  rw [usbybGetDeviceList, hall, ok_bind] at h
  cases left with
  | next s =>
    cases h
    exact ⟨wf₁, all⟩
  | error s =>
    simp only at h
    split_ifs at h
    · obtain ⟨ctx', hfree, h⟩ := bind_eq_ok.1 h
      cases h
      refine libusbyFreeDeviceList_induction (P := fun ctx => ctx.WellFormed ∧ P ctx) ?_ hfree
        ⟨wf₁, all⟩
      exact fun ctx d ctx' before hu =>
        ⟨libusbyUnrefDevice_wellFormed before.1 hu, unref ctx d ctx' before.2 hu⟩
    · cases h
      exact ⟨wf₁, all⟩

end

end Libusby.Win32
