import Libusby.Foundations.Ownership
import Libusby.Win32.Frame

/-!
# The files of the libusb0 devices

Every enumeration opens every file anew, and keeps the handle only for a device that it adds to
the context's list. `Accounted` are the books of the handles: each is that of one device in
memory, is one of `loose`, or has been closed. They hold whatever the client gives back.
-/

namespace Libusby.Win32

open Foundations Libusby.Core

/-- The handles of the devices in memory. -/
def Context.handles (ctx : Context) : List FileId := owned ctx.heap Device.hFile ctx.devlist

structure Context.Accounted (ctx : Context) (loose : List FileId) : Prop where
  wellFormed : ctx.WellFormed
  devices : ctx.devices.Balanced ctx.devlist
  files : ctx.files.Balanced (ctx.handles ++ loose)

/-- `f` is the handle of the device `d`. -/
def Context.OwnsFile (ctx : Context) (d : DeviceId) (f : FileId) : Prop :=
  ∃ dev, ctx.heap d = some dev ∧ dev.hFile = f

/-- Files and devices are given back once each, the file of a device together with it. -/
structure Context.FilesOwned (ctx : Context) : Prop where
  /-- A file is open and has one owner, or it was closed once and has none. -/
  files : ∀ f < ctx.files.next,
    (∃! d, ctx.OwnsFile d f) ∧ ctx.files.released.count f = 0 ∨
      (∀ d, ¬ctx.OwnsFile d f) ∧ ctx.files.released.count f = 1
  /-- What is owned or closed was opened. -/
  opened : ∀ f, (∃ d, ctx.OwnsFile d f) ∨ f ∈ ctx.files.released → f < ctx.files.next
  /-- A device is in memory, or it was freed once. -/
  devices : ∀ d < ctx.devices.next,
    (∃ dev, ctx.heap d = some dev) ∧ ctx.devices.released.count d = 0 ∨
      ctx.heap d = none ∧ ctx.devices.released.count d = 1
  /-- There are as many open files as devices. -/
  counted : ctx.devlist.length + ctx.files.released.length = ctx.files.next

section
variable {ctx ctx' : Context} {loose : List FileId} {d : DeviceId} {dev dev' : Device}
  {f hFile : FileId} {i : Nat} {s : Enum} {left : Leave} {ok : Nat → Bool}
  {malloc : DeviceId → Bool} {attached : Nat → Option SyncResult} {io : SyncResult}

theorem Context.Accounted.store (h : ctx.Accounted loose) (hd : ctx.heap d = some dev)
    (number : dev'.devno = dev.devno) (file : dev'.hFile = dev.hFile) :
    (ctx.store d dev').Accounted loose := by
  have handles : (ctx.store d dev').handles = ctx.handles := owned_update hd file
  exact ⟨h.wellFormed.store hd number, h.devices, by rw [handles]; exact h.files⟩

/-- The last reference to a device goes. -/
theorem Context.Accounted.remove (h : ctx.Accounted loose) (hd : ctx.heap d = some dev) :
    (ctx.remove d dev).Accounted loose := by
  have linked : d ∈ ctx.devlist := (h.wellFormed.linked d).2 ⟨dev, hd⟩
  have handles : ctx.handles.Perm (dev.hFile :: (ctx.remove d dev).handles) :=
    owned_remove h.wellFormed.nodup linked hd
  constructor
  · exact h.wellFormed.remove
  · exact (h.devices.perm (List.perm_cons_erase linked)).release
  · exact (h.files.perm (handles.append_right loose)).release

theorem Context.Accounted.openFile (h : ctx.Accounted []) :
    Context.Accounted { ctx with files := ctx.files.acquire } [ctx.files.next] := by
  refine ⟨h.wellFormed.congr rfl rfl rfl, h.devices, ?_⟩
  have files := h.files
  rw [List.append_nil] at files
  exact files.acquire.perm (List.perm_append_singleton _ _).symm

theorem Context.Accounted.closeHandle (h : ctx.Accounted [f]) :
    (ctx.closeHandle f).Accounted [] := by
  refine ⟨h.wellFormed.congr rfl rfl rfl, h.devices, ?_⟩
  have files := h.files.perm (List.perm_append_singleton _ _)
  rw [List.append_nil]
  exact files.release

/-- The new device takes the handle over. -/
theorem Context.Accounted.allocDevice (h : ctx.Accounted [f])
    (missing : findDevice ctx i ctx.devlist = .ok none) : (allocDevice ctx i f).Accounted [] := by
  have unlinked : ctx.devices.next ∉ ctx.devlist := fun hmem =>
    Nat.lt_irrefl _ (h.wellFormed.lt _ hmem)
  have new : ∀ d ∈ ctx.devlist, ∀ dev, ctx.heap d = some dev → dev.devno ≠ i := by
    obtain ⟨d, -, dev, found, -⟩ | ⟨-, new⟩ := findDevice_eq ctx i
      fun d hd => (h.wellFormed.linked d).1 hd
    · cases found.symm.trans missing
    · exact new
  have absent (x : DeviceId) (y : Device) (hx : ctx.heap x = some y) : y.devno ≠ i :=
    new x ((h.wellFormed.linked x).2 ⟨y, hx⟩) y hx
  have handles : (Win32.allocDevice ctx i f).handles = ctx.handles ++ [f] := owned_add unlinked
  refine ⟨@Context.WellFormed.insert _ _ { refCount := 1, devno := i, hFile := f } h.wellFormed
    absent rfl rfl rfl, ?_, ?_⟩
  · exact h.devices.acquire.perm (List.perm_append_singleton _ _).symm
  · rw [handles, List.append_nil]
    exact h.files

theorem accounted_maintained : Context.Maintained Context.Accounted where
  store h hd number file := h.store hd number file
  remove h hd := h.remove hd
  openFile h := h.openFile
  closeHandle h := h.closeHandle
  allocDevice h missing := h.allocDevice missing

theorem accounted_init : ({} : Context).Accounted [] := ⟨wellFormed_init, .refl _, .refl _⟩

theorem Context.Accounted.of_reachable {s : SessionState} (h : sessionMachine.Reachable s) :
    s.session.ctx.Accounted [] := by
  obtain ⟨ops, run⟩ := h
  exact accounted_maintained.exec accounted_init run

/-! ## Owners -/

theorem Context.Accounted.mem_handles (h : ctx.Accounted []) :
    f ∈ ctx.handles ↔ ∃ d, ctx.OwnsFile d f := by
  rw [Context.handles, mem_owned]
  constructor
  · rintro ⟨d, -, owns⟩
    exact ⟨d, owns⟩
  · rintro ⟨d, dev, hd, hf⟩
    exact ⟨d, (h.wellFormed.linked d).2 ⟨dev, hd⟩, dev, hd, hf⟩

theorem Context.Accounted.balanced (h : ctx.Accounted []) : ctx.files.Balanced ctx.handles := by
  have files := h.files
  rwa [List.append_nil] at files

theorem Context.Accounted.ownsFile_unique {d' : DeviceId} (h : ctx.Accounted [])
    (hd : ctx.OwnsFile d f) (hd' : ctx.OwnsFile d' f) : d' = d := by
  obtain ⟨dev, hheap, rfl⟩ := hd
  obtain ⟨dev', hheap', hf⟩ := hd'
  exact owner_unique h.balanced.owned_nodup ((h.wellFormed.linked d').2 ⟨dev', hheap'⟩)
    ((h.wellFormed.linked d).2 ⟨dev, hheap⟩) hheap' hheap hf

theorem Context.Accounted.filesOwned (h : ctx.Accounted []) : ctx.FilesOwned := by
  constructor
  · intro f hf
    obtain ⟨once, never⟩ | ⟨absent, once⟩ := h.balanced.once hf
    · have held : 0 < ctx.handles.count f := by omega
      obtain ⟨d, owns⟩ := h.mem_handles.1 (List.count_pos_iff.1 held)
      exact .inl ⟨⟨d, owns, fun d' owns' => h.ownsFile_unique owns owns'⟩, never⟩
    · refine .inr ⟨fun d owns => ?_, once⟩
      exact List.count_eq_zero.1 absent (h.mem_handles.2 ⟨d, owns⟩)
  · intro f hf
    apply List.mem_range.1
    rw [← h.balanced.mem_iff, List.mem_append]
    exact hf.imp_left h.mem_handles.2
  · intro d hd
    cases hheap : ctx.heap d with
    | none =>
      refine .inr ⟨rfl, h.devices.released_once hd fun linked => ?_⟩
      obtain ⟨dev, hdev⟩ := (h.wellFormed.linked d).1 linked
      cases hheap.symm.trans hdev
    | some dev =>
      exact .inl ⟨⟨dev, rfl⟩, h.devices.not_released ((h.wellFormed.linked d).2 ⟨dev, hheap⟩)⟩
  · rw [← length_owned (f := Device.hFile) fun d hd => (h.wellFormed.linked d).1 hd]
    exact h.balanced.length_eq

end

/-- After every run of a client, whatever its enumerations meet and whatever it gives back. -/
theorem files_owned (s : SessionState) (h : sessionMachine.Reachable s) :
    s.session.ctx.FilesOwned :=
  (Context.Accounted.of_reachable h).filesOwned

/-- The files 1 and 3 are there and can be read, and file 2 may be there and cannot. -/
def twoFiles (broken : Bool) (i : Nat) : Option SyncResult :=
  if i = 1 ∨ i = 3 then
    some { createEvent := true, deviceIoControl := none, getOverlappedResult := none
           data := 18 :: List.replicate 17 1 }
  else if broken ∧ i = 2 then
    some { createEvent := true, deviceIoControl := some .other, getOverlappedResult := none
           data := [] }
  else none

/-- A client keeps one of two devices over an enumeration that fails, gives a reference too many
back and enumerates again. -/
def comeBack : List SessionOp :=
  [.call (.getDeviceList (fun _ => true) (twoFiles false)), .openHandle 0 true,
    .call (.freeDeviceList 0 true), .call (.getDeviceList (fun _ => true) (twoFiles true)),
    .call (.unrefDevice 0), .call (.getDeviceList (fun _ => true) (twoFiles false))]

theorem files_owned_comeBack :
    ∃ s, sessionMachine.exec sessionMachine.init comeBack = some s ∧ s.session.ctx.FilesOwned := by
  have runs : (sessionMachine.exec sessionMachine.init comeBack).isSome = true := by
    decide +kernel
  obtain ⟨s, hs⟩ := Option.isSome_iff_exists.1 runs
  exact ⟨s, hs, files_owned s ⟨comeBack, hs⟩⟩

end Libusby.Win32
