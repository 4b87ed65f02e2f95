import Libusby.Linux.ActiveConfiguration
import Libusby.Linux.Description
import Libusby.Win32.Configuration

/-!
# The active configuration descriptor, on both backends

`libusby_get_active_config_descriptor` looks up the configuration that
`libusby_get_configuration` returns. On libusb0 the driver is asked for it each time; on usbfs it
is what the handle remembers, or else what the device says.
-/

namespace Libusby

open Foundations Libusby.Core Config

/-- Everything is asked of the driver. -/
def Win32.answer (driver : Request → Reply) (req : Request) : Except Fault Reply := .ok (driver req)

/-- A driver that delivers what the device says of itself. -/
structure Win32.Attends (driver : Request → Reply) (D : Description) (current : UInt8) : Prop where
  descriptor : ∀ descIndex length, driver (.descriptor 2 descIndex length) =
    D.blocks[descIndex.toNat]?.elim (.error .io) fun b => .ok (b.take length)
  /-- The configuration is cached, or the device is asked. -/
  configuration : driver .cachedConfiguration = .ok [current] ∨
    (driver .cachedConfiguration).code ≠ 1 ∧ driver .configuration = .ok [current]

section
variable {D : Description} {current : UInt8} {driver device : Request → Reply}

theorem Win32.Attends.reads (h : Win32.Attends driver D current) :
    libusbyGetDescriptor.Reads (Win32.answer driver) .io D.blocks := by
  intro descIndex length
  have asked : Win32.answer driver (.descriptor 2 descIndex length) = _ :=
    congrArg Except.ok (h.descriptor descIndex length)
  rw [libusbyGetDescriptor, Dialogue.serve_ask asked]
  cases D.blocks[descIndex.toNat]? <;> rfl

theorem Win32.Attends.getConfiguration (h : Win32.Attends driver D current) (res data : Bytes 1) :
    (libusbyGetConfiguration (Win32.usbybGetConfiguration false res) data).serve
      (Win32.answer driver) = .ok ⟨1, some (current.toNat : Int)⟩ := by
  have read (res : Bytes 1) : (Win32.receive res (.ok [current])).get 0 = current :=
    Bytes.get_fill_of_lt (Nat.le_refl 1) Nat.zero_lt_one
  have first : Win32.answer driver .cachedConfiguration = .ok (driver .cachedConfiguration) := rfl
  rw [libusbyGetConfiguration, Dialogue.serve_bind, Win32.usbybGetConfiguration_eq,
    Dialogue.serve_ask first, Win32.afterCached]
  obtain cached | ⟨more, asked⟩ := h.configuration
  · rw [cached, if_neg fun more => more.1 rfl, Win32.configuration, read]
    rfl
  · have second : Win32.answer driver .configuration = .ok (.ok [current]) := congrArg Except.ok asked
    rw [if_pos ⟨more, Bool.false_ne_true⟩, Dialogue.serve_ask second, Win32.configuration, read]
    rfl

/-- A handle that remembers nothing sends the caller on to the device. -/
theorem Linux.getConfiguration_eq (reports : device (.control 0x80 8 0 0 1) = .ok [current])
    (active : Int) (dev : Linux.Device) (data : Bytes 1) :
    ∃ r, (libusbyGetConfiguration (Linux.usbybGetConfiguration active) data).serve
        (Linux.answer dev device) =
      .ok ⟨r, some (if active < 0 then (current.toNat : Int) else active)⟩ ∧ 0 ≤ r := by
  refine ⟨Error.success.code, ?_, Int.le_refl 0⟩
  have asked : Linux.answer dev device (.control 0x80 8 0 0 1) = .ok (.ok [current]) :=
    congrArg Except.ok reports
  rw [libusbyGetConfiguration, Linux.usbybGetConfiguration]
  by_cases unset : active < 0
  · have read : (data.fill [current]).get 0 = current :=
      Bytes.get_fill_of_lt (Nat.le_refl 1) Nat.zero_lt_one
    rw [if_pos unset, if_pos unset, Dialogue.serve_bind, Dialogue.serve_done, ok_bind]
    dsimp only
    rw [if_pos rfl, Dialogue.serve_bind, Dialogue.serve_ask asked, Dialogue.serve_done, ok_bind]
    dsimp only
    rw [if_neg (by simp), read]
    rfl
  · rw [if_neg unset, if_neg unset]
    rfl

theorem Linux.ActiveConfiguration.coherent_exec {es : List Event} {s : Sys}
    (steps : (ActiveConfiguration.device current).Steps (fun s e _ => ¬Overtakes s e)
      (ActiveConfiguration.device current).init es)
    (run : (ActiveConfiguration.device current).exec (ActiveConfiguration.device current).init es =
      some s) : Coherent s := by
  have initial : Coherent (ActiveConfiguration.device current).init :=
    coherent_iff.2 fun _ _ h => nomatch h
  have always := (Machine.Steps.invariant (I := Coherent) (Q := fun _ _ _ => True)
    (fun _ _ _ hs overtakes ht => ⟨(coherent_step ht hs).2 overtakes, trivial⟩) steps initial).1
  exact always.exec run

/-- The configuration that a handle of the usbfs backend looks for. -/
def Linux.ActiveConfiguration.Sys.lookedFor (s : Sys) (active : Int) : UInt8 :=
  .ofInt (if active < 0 then (s.current.toNat : Int) else active)

theorem ofInt_toNat (b : UInt8) : UInt8.ofInt (b.toNat : Int) = b := by
  have small : (b.toNat : Int) % 256 = b.toNat := Int.emod_eq_of_lt (by omega) (by
    have := UInt8.toNat_lt b
    omega)
  rw [UInt8.ofInt, show (2 : Int) ^ 8 = 256 from rfl, small, Int.toNat_natCast, UInt8.ofNat_toNat]

end

/-- After every run of calls on the handles of a device, `libusby_get_active_config_descriptor`
returns the tree of the configuration that is current, as long as no handle sets a configuration
while another one remembers a different one; otherwise usbfs still returns the tree for what the
handle remembers. libusb0 always returns that of the current one. -/
theorem active_config_descriptor (D : Description) (current : UInt8)
    (es : List Linux.ActiveConfiguration.Event) (s : Linux.ActiveConfiguration.Sys)
    (run : (Linux.ActiveConfiguration.device current).exec
      (Linux.ActiveConfiguration.device current).init es = some s)
    (dev : Linux.Device) (describes : Linux.Describes D dev) (device driver : Request → Reply)
    (answered : device (.control 0x80 8 0 0 1) = .ok [s.current])
    (reports : Win32.Attends driver D s.current) (res data : Bytes 1) (rawdesc : Bytes 18)
    (header : Nat → Bytes 6) (block : Nat → (n : Nat) → Bytes n) (calls : Nat) :
    (∀ h active, s.handles h = some active → ∃ out : Sanitized,
      (libusbyGetActiveConfigDescriptor (fun _ => true) (Linux.usbybGetConfiguration active) data
          D.deviceDesc rawdesc header block ⟨calls, []⟩).serve (Linux.answer dev device) =
        .ok (.ok ⟨out.r.code, out.config, out.mem⟩, D.deviceDesc) ∧
      Yields (D.trees.find? (·.bConfigurationValue = s.lookedFor active)) .notFound out) ∧
    ((Linux.ActiveConfiguration.device current).Steps
        (fun s e _ => ¬Linux.ActiveConfiguration.Overtakes s e)
        (Linux.ActiveConfiguration.device current).init es →
      ∀ h active, s.handles h = some active → s.lookedFor active = s.current) ∧
    ∃ out : Sanitized,
      (libusbyGetActiveConfigDescriptor (fun _ => true) (Win32.usbybGetConfiguration false res) data
          D.deviceDesc rawdesc header block ⟨calls, []⟩).serve (Win32.answer driver) =
        .ok (.ok ⟨out.r.code, out.config, out.mem⟩, D.deviceDesc) ∧
      Yields (D.trees.find? (·.bConfigurationValue = s.current)) .notFound out := by
  refine ⟨fun h active hh => ?_, fun steps h active hh => ?_, ?_⟩
  · obtain ⟨r, returned, nonneg⟩ :=
      Linux.getConfiguration_eq answered active dev data
    exact D.active_reads (describes.reads device) rawdesc header block calls returned nonneg
  · have coherent := Linux.ActiveConfiguration.coherent_exec steps run
    have remembers := Linux.ActiveConfiguration.coherent_iff.1 coherent h active hh
    unfold Linux.ActiveConfiguration.Sys.lookedFor
    split_ifs with unset
    · exact ofInt_toNat s.current
    · rw [remembers (by omega), ofInt_toNat]
  · obtain ⟨out, served, delivered⟩ := D.active_reads reports.reads rawdesc header block calls
      (reports.getConfiguration res data) (by omega)
    rw [ofInt_toNat] at delivered
    exact ⟨out, served, delivered⟩

/-- A driver for a device with one current configuration. -/
def driverOf (D : Description) (current : UInt8) : Request → Reply
  | .descriptor _ descIndex length =>
    D.blocks[descIndex.toNat]?.elim (.error .io) fun b => .ok (b.take length)
  | .configuration | .control 0x80 8 _ _ _ => .ok [current]
  | _ => .error .io

/-- The configuration of a keyboard is set and its tree is returned. -/
theorem active_config_descriptor_keyboard : ∃ s,
    (Linux.ActiveConfiguration.device 0).exec (Linux.ActiveConfiguration.device 0).init
      [.openHandle 0 true, .setConfiguration 0 1 none] = some s ∧
    ∃ out : Sanitized,
      (libusbyGetActiveConfigDescriptor (fun _ => true)
          (Win32.usbybGetConfiguration false (.replicate 1 0)) (.replicate 1 0)
          Linux.keyboard.deviceDesc (.replicate 18 0) (fun _ => .replicate 6 0)
          (fun _ n => .replicate n 0) ⟨0, []⟩).serve
        (Win32.answer (driverOf Linux.keyboard 1)) =
        .ok (.ok ⟨out.r.code, out.config, out.mem⟩, Linux.keyboard.deviceDesc) ∧
      out.config = some (described Linux.keyboardConfig Linux.keyboardDescriptors) := by
  have run : (Linux.ActiveConfiguration.device 0).exec (Linux.ActiveConfiguration.device 0).init
    [.openHandle 0 true, .setConfiguration 0 1 none] = some _ := rfl
  refine ⟨_, run, ?_⟩
  obtain ⟨-, -, out, served, -, config, -⟩ := active_config_descriptor Linux.keyboard 0 _ _ run
    { refCount := 1, deviceDesc := Linux.keyboard.deviceDesc.bytes, busno := 1, devno := 1,
      fd := 0, descCache := Linux.keyboard.blocks.flatten }
    (Linux.describes_of_file rfl rfl) (driverOf Linux.keyboard 1)
    (driverOf Linux.keyboard 1) rfl ⟨fun _ _ => rfl, .inr ⟨by decide, rfl⟩⟩ (.replicate 1 0)
    (.replicate 1 0) (.replicate 18 0) (fun _ => .replicate 6 0) (fun _ n => .replicate n 0) 0
  exact ⟨out, served, config⟩

end Libusby
