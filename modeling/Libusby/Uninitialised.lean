import Libusby.Linux.DescriptorCache
import Libusby.Win32.Configuration

/-!
# Uninitialised buffers in the descriptor readers

When the four readers of descriptors are oblivious to what was in their local buffers, and
short answers that make each of them show it.
-/

namespace Libusby

open Foundations Libusby.Core

/-- The replies from which nothing leaks, for every reader and on both backends. -/
theorem readers_oblivious (replies : List Reply) :
    (∀ deviceDesc : Bytes 18,
      Dialogue.Oblivious Request.fits (libusbyGetDeviceDescriptor deviceDesc) replies ↔
        DeviceDescriptorDefined deviceDesc replies) ∧
      (∀ ok configIndex mem,
        Dialogue.Oblivious Request.fits (fun b : Buffers =>
            libusbyGetConfigDescriptor ok configIndex b.1 b.2 mem) replies ↔
          HeaderDefined libusbyGetDescriptor ok configIndex mem replies) ∧
      (∀ ok configIndex mem,
        Dialogue.Oblivious Request.fits (fun b : Buffers =>
            libusbyGetConfigDescriptorCached ok configIndex b.1 b.2 mem) replies ↔
          HeaderDefined usbybGetDescriptorCached ok configIndex mem replies) ∧
      (∀ activeConfigValue, Dialogue.Oblivious Request.fits
        (libusbyGetConfiguration (Linux.usbybGetConfiguration activeConfigValue)) replies) ∧
      (Dialogue.Oblivious Request.fits (fun b : Bytes 1 × Bytes 1 =>
          libusbyGetConfiguration (Win32.usbybGetConfiguration false b.1) b.2) replies ↔
        ¬ Win32.AnsweredEmpty replies) := by
  refine ⟨fun deviceDesc => getDeviceDescriptor_oblivious_iff, fun ok configIndex mem => ?_,
    fun ok configIndex mem => ?_, fun activeConfigValue => ?_, Win32.getConfiguration_oblivious_iff⟩
  · exact readConfig_oblivious_iff libusbyGetDescriptor_sound libusbyGetDescriptor_asks
  · exact readConfig_oblivious_iff usbybGetDescriptorCached_sound usbybGetDescriptorCached_asks
  · exact getConfiguration_oblivious _

/-- A driver that transfers nothing. -/
def silent : Win32.SyncResult :=
  { createEvent := true, deviceIoControl := none, getOverlappedResult := none, data := [] }

/-- Empty answers make all of them but one depend on their buffers. -/
theorem readers_oblivious_fails :
    (∃ deviceDesc replies,
      ¬ Dialogue.Oblivious Request.fits (libusbyGetDeviceDescriptor deviceDesc) replies) ∧
      (∃ replies, ¬ Dialogue.Oblivious Request.fits (fun b : Buffers =>
        libusbyGetConfigDescriptor (fun _ => true) 0 b.1 b.2 {}) replies) ∧
      (∃ replies, ¬ Dialogue.Oblivious Request.fits (fun b : Buffers =>
        libusbyGetConfigDescriptorCached (fun _ => true) 0 b.1 b.2 {}) replies) ∧
      ∃ replies, ¬ Dialogue.Oblivious Request.fits (fun b : Bytes 1 × Bytes 1 =>
        libusbyGetConfiguration (Win32.usbybGetConfiguration false b.1) b.2) replies := by
  refine ⟨⟨.replicate 18 0, [.ok []], fun oblivious => ?_⟩, ⟨[.ok []], fun oblivious => ?_⟩,
    ⟨[.ok []], fun oblivious => ?_⟩,
    ⟨[Win32.syncDeviceIoControl silent, Win32.syncDeviceIoControl silent], fun oblivious => ?_⟩⟩
  · rcases getDeviceDescriptor_oblivious_iff.1 oblivious with cached | defined
    · revert cached
      decide
    · rcases defined [] [] rfl with full | ⟨b, more, nonempty, -⟩
      · cases full
      · cases nonempty
  · rcases (readConfig_oblivious_iff libusbyGetDescriptor_sound
      libusbyGetDescriptor_asks).1 oblivious with failed | defined
    · cases failed
    · exact absurd (defined [] [] rfl) (by decide)
  · rcases (readConfig_oblivious_iff usbybGetDescriptorCached_sound
      usbybGetDescriptorCached_asks).1 oblivious with failed | defined
    · cases failed
    · exact absurd (defined [] [] rfl) (by decide)
  · exact Win32.getConfiguration_oblivious_iff.1 oblivious
      ⟨Win32.syncDeviceIoControl silent, [], rfl, by decide, by decide⟩

end Libusby
