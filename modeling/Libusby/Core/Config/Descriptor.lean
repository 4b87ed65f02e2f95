import Libusby.Foundations.Buffer
import Libusby.Types

/-!
# Configuration descriptors

The tree that `libusby.h` declares. A pointer that may be null is an `Option`,
an array with its length is a list, and `altsetting` is null exactly when
`num_altsetting` is 0. The first bytes of every structure have the layout of the
descriptor on the wire, so that the C code fills them with `memcpy`.

`Memory` is the ledger of allocated blocks; a block is named by the pointer that
owns it.
-/

namespace Libusby.Core.Config

open Foundations

structure EndpointDescriptor where
  bLength : UInt8 := 0
  bDescriptorType : UInt8 := 0
  bEndpointAddress : UInt8 := 0
  bmAttributes : UInt8 := 0
  wMaxPacketSize : UInt16 := 0
  bInterval : UInt8 := 0
  bRefresh : UInt8 := 0
  bSynchAddress : UInt8 := 0
  deriving DecidableEq, Repr

/-- A zeroed element of an endpoint array. -/
def EndpointDescriptor.zero : EndpointDescriptor := {}

structure InterfaceDescriptor where
  bLength : UInt8
  bDescriptorType : UInt8
  bInterfaceNumber : UInt8
  bAlternateSetting : UInt8
  bNumEndpoints : UInt8
  bInterfaceClass : UInt8
  bInterfaceSubClass : UInt8
  bInterfaceProtocol : UInt8
  iInterface : UInt8
  endpoint : Option (List EndpointDescriptor)
  deriving DecidableEq, Repr

structure Interface where
  altsetting : List InterfaceDescriptor := []
  deriving DecidableEq, Repr

def Interface.numAltsetting (i : Interface) : Nat := i.altsetting.length

structure ConfigDescriptor where
  bLength : UInt8
  bDescriptorType : UInt8
  wTotalLength : UInt16
  bNumInterfaces : UInt8
  bConfigurationValue : UInt8
  iConfiguration : UInt8
  bmAttributes : UInt8
  maxPower : UInt8
  interface : Option (List Interface)
  deriving DecidableEq, Repr

/-- Byte `k` of a descriptor that was read completely. -/
def byteAt (bs : List UInt8) (k : Nat) : UInt8 := bs.getD k 0

/-- `memcpy` of 7 bytes over a zeroed endpoint descriptor. -/
def EndpointDescriptor.ofBytes (bs : List UInt8) : EndpointDescriptor where
  bLength := byteAt bs 0
  bDescriptorType := byteAt bs 1
  bEndpointAddress := byteAt bs 2
  bmAttributes := byteAt bs 3
  wMaxPacketSize := le16 (byteAt bs 4) (byteAt bs 5)
  bInterval := byteAt bs 6

/-- `memcpy` of 9 bytes over an interface descriptor, with its endpoint array. -/
def InterfaceDescriptor.ofBytes (bs : List UInt8) (endpoint : Option (List EndpointDescriptor)) :
    InterfaceDescriptor where
  bLength := byteAt bs 0
  bDescriptorType := byteAt bs 1
  bInterfaceNumber := byteAt bs 2
  bAlternateSetting := byteAt bs 3
  bNumEndpoints := byteAt bs 4
  bInterfaceClass := byteAt bs 5
  bInterfaceSubClass := byteAt bs 6
  bInterfaceProtocol := byteAt bs 7
  iInterface := byteAt bs 8
  endpoint := endpoint

/-- `memcpy` of 9 bytes over a configuration descriptor, with its interface array. -/
def ConfigDescriptor.ofBytes (bs : List UInt8) (interface : Option (List Interface)) :
    ConfigDescriptor where
  bLength := byteAt bs 0
  bDescriptorType := byteAt bs 1
  wTotalLength := le16 (byteAt bs 2) (byteAt bs 3)
  bNumInterfaces := byteAt bs 4
  bConfigurationValue := byteAt bs 5
  iConfiguration := byteAt bs 6
  bmAttributes := byteAt bs 7
  maxPower := byteAt bs 8
  interface := interface

namespace ConfigDescriptor

/-- `interface[k].altsetting[j]`. -/
def alt? (c : ConfigDescriptor) (k j : Nat) : Option InterfaceDescriptor := do
  let interfaces ← c.interface
  let intf ← interfaces[k]?
  intf.altsetting[j]?

/-- Change the alternate settings of interface `k`. -/
def modifyAlts (c : ConfigDescriptor) (k : Nat)
    (f : List InterfaceDescriptor → List InterfaceDescriptor) : ConfigDescriptor :=
  { c with interface := c.interface.map fun is => is.modify k fun i => ⟨f i.altsetting⟩ }

end ConfigDescriptor

/-! ## Memory -/

inductive Block where
  | config
  | interfaces
  | altsettings (k : Nat)
  | endpoints (k j : Nat)
  deriving DecidableEq, Repr

/-- The number of allocations asked for so far and the blocks in use. -/
structure Memory where
  calls : Nat := 0
  blocks : List Block := []
  deriving DecidableEq, Repr

namespace Memory

/-- `malloc` for the pointer `b`; `ok n` says whether allocation `n` succeeds. -/
def malloc (m : Memory) (ok : Nat → Bool) (b : Block) : Option Memory :=
  if ok m.calls then some ⟨m.calls + 1, b :: m.blocks⟩ else none

/-- `realloc` of the block of `b`, if it has one. -/
def realloc (m : Memory) (ok : Nat → Bool) (b : Block) : Option Memory :=
  if ok m.calls then some ⟨m.calls + 1, if b ∈ m.blocks then m.blocks else b :: m.blocks⟩
  else none

def free (m : Memory) (b : Block) : Except Fault Memory :=
  if b ∈ m.blocks then .ok { m with blocks := m.blocks.erase b } else .error .free

end Memory

/-- The part of `libusby_free_config_descriptor` for one interface. -/
def freeInterface (m : Memory) (k : Nat) (i : Interface) : Except Fault Memory :=
  if i.altsetting = [] then .ok m
  else do
    let m ← i.altsetting.zipIdx.foldlM (fun (m : Memory) (d, j) =>
      if d.endpoint.isSome then m.free (.endpoints k j) else .ok m) m
    m.free (.altsettings k)

def libusbyFreeConfigDescriptor (m : Memory) (c : ConfigDescriptor) : Except Fault Memory := do
  let m ← match c.interface with
    | none => .ok m
    | some is => do
      let m ← is.zipIdx.foldlM (fun m (i, k) => freeInterface m k i) m
      m.free .interfaces
  m.free .config

end Libusby.Core.Config
