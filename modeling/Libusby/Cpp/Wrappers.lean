import Mathlib.Data.List.ReduceOption
import Mathlib.Logic.Function.Basic
import Libusby.Core.DeviceList
import Libusby.Foundations.Ledger
import Libusby.Foundations.Machine

/-!
# The C++ wrappers

`libusby::device`, `libusby::device_handle` and `libusby::context`. Each has one private pointer,
and its members call the library, of which only the books are kept: the contexts and handles
that it hands out and takes back, and the references on devices. The copy constructor and the
assignment of `device_handle` are those that the compiler writes; `context` has neither.
-/

namespace Libusby.Cpp

open Foundations Libusby.Core

abbrev HandleId := Nat

abbrev ContextId := Nat

/-- What the library has handed out and got back. -/
structure Library where
  contexts : Ledger := {}
  handles : Ledger := {}
  /-- `dev_handle->dev`. -/
  deviceOf : HandleId → DeviceId := fun _ => 0
  taken : List DeviceId := []
  released : List DeviceId := []

namespace Library

def libusbyRefDevice (lib : Library) (d : DeviceId) : Library :=
  { lib with taken := d :: lib.taken }

def libusbyUnrefDevice (lib : Library) (d : DeviceId) : Library :=
  { lib with released := d :: lib.released }

/-- `libusby_open`, if it succeeds: the handle is `lib.handles.next`. -/
def libusbyOpen (lib : Library) (d : DeviceId) : Library :=
  { lib.libusbyRefDevice d with
    handles := lib.handles.acquire
    deviceOf := Function.update lib.deviceOf lib.handles.next d }

def libusbyClose (lib : Library) (h : HandleId) : Library :=
  { lib.libusbyUnrefDevice (lib.deviceOf h) with handles := lib.handles.release h }

/-- `libusby_init`, if it succeeds: the context is `lib.contexts.next`. -/
def libusbyInit (lib : Library) : Library := { lib with contexts := lib.contexts.acquire }

def libusbyExit (lib : Library) (c : ContextId) : Library :=
  { lib with contexts := lib.contexts.release c }

end Library

open Library

/-! ## `device` -/

/-- `device(device const &)`. -/
def deviceCopy (lib : Library) (other : Option DeviceId) : Option DeviceId × Library :=
  match other with
  | none => (none, lib)
  | some d => (some d, lib.libusbyRefDevice d)

/-- `device::clear`, which the destructor calls. -/
def deviceClear (lib : Library) (mDev : Option DeviceId) : Option DeviceId × Library :=
  match mDev with
  | none => (none, lib)
  | some d => (none, lib.libusbyUnrefDevice d)

/-- `operator=(device other)`: the argument is a copy, is swapped and is destroyed. -/
def deviceAssign (lib : Library) (mDev other : Option DeviceId) : Option DeviceId × Library :=
  let (argument, lib) := deviceCopy lib other
  let (_, lib) := deviceClear lib mDev
  (argument, lib)

/-- `device::ref`. -/
def deviceRef (lib : Library) (dev : DeviceId) : Option DeviceId × Library :=
  (some dev, lib.libusbyRefDevice dev)

/-- `device::take_ownership`. The reference that the caller brings is booked here. -/
def deviceTakeOwnership (lib : Library) (dev : DeviceId) : Option DeviceId × Library :=
  (some dev, lib.libusbyRefDevice dev)

/-! ## `device_handle` -/

/-- `device_handle::clear`, which the destructor calls. -/
def handleClear (lib : Library) (mHandle : Option HandleId) : Option HandleId × Library :=
  match mHandle with
  | none => (none, lib)
  | some h => (none, lib.libusbyClose h)

/-- `device_handle::try_open`; `open` only turns its error into an exception. -/
def handleTryOpen (lib : Library) (mHandle : Option HandleId) (dev : DeviceId) (opens : Bool) :
    Option HandleId × Library :=
  if opens then
    let handle := lib.handles.next
    let lib := lib.libusbyOpen dev
    let (_, lib) := handleClear lib mHandle
    (some handle, lib)
  else (mHandle, lib)

/-! ## `context` -/

/-- `context::clear`, which the destructor calls. The pointer stays. -/
def contextClear (lib : Library) (mCtx : Option ContextId) : Option ContextId × Library :=
  match mCtx with
  | none => (none, lib)
  | some c => (some c, lib.libusbyExit c)

/-- `context::create`. -/
def contextCreate (lib : Library) (mCtx : Option ContextId) (inits : Bool) :
    Option ContextId × Library :=
  if inits then
    let newCtx := lib.contexts.next
    let lib := lib.libusbyInit
    let (_, lib) := contextClear lib mCtx
    (some newCtx, lib)
  else (mCtx, lib)

/-- How `libusby_get_device_list` and the allocation of the vector end. -/
inductive Listing where
  | failed
  | noMem (list : List DeviceId)
  | listed (list : List DeviceId)

/-- `res.push_back(device::ref(dev))`: the element is a copy of the temporary. -/
def pushRef (lib : Library) (dev : DeviceId) : Option DeviceId × Library :=
  let (temporary, lib) := deviceRef lib dev
  let (element, lib) := deviceCopy lib temporary
  let (_, lib) := deviceClear lib temporary
  (element, lib)

/-- The loop of `context::get_device_list`. -/
def pushRefs (lib : Library) : List DeviceId → List (Option DeviceId) × Library
  | [] => ([], lib)
  | dev :: list =>
    let (element, lib) := pushRef lib dev
    let (elements, lib) := pushRefs lib list
    (element :: elements, lib)

/-- `context::get_device_list`. The array comes with a reference for each entry, and the guard
gives them back. -/
def contextGetDeviceList (lib : Library) : Listing → List (Option DeviceId) × Library
  | .failed => ([], lib)
  | .noMem list => ([], list.foldl libusbyUnrefDevice (list.foldl libusbyRefDevice lib))
  | .listed list =>
    let (elements, lib) := pushRefs (list.foldl libusbyRefDevice lib) list
    (elements, list.foldl libusbyUnrefDevice lib)

/-! ## Programs -/

/-- The objects that there are, by their private pointers. -/
structure Program where
  devices : List (Option DeviceId) := []
  handles : List (Option HandleId) := []
  contexts : List (Option ContextId) := []
  lib : Library := {}

/-- What a program may do with objects. A handle is opened on a pointer that is not null. -/
inductive Action where
  | newDevice
  | copyDevice (i : Nat)
  | refDevice (dev : DeviceId)
  | takeOwnership (dev : DeviceId)
  | assignDevice (i j : Nat)
  | swapDevices (i j : Nat)
  | clearDevice (i : Nat)
  | destroyDevice (i : Nat)
  | newHandle
  | newOpenHandle (dev : DeviceId) (opens : Bool)
  | copyHandle (i : Nat)
  | assignHandle (i j : Nat)
  | openHandle (i : Nat) (dev : DeviceId) (opens : Bool)
  | clearHandle (i : Nat)
  | destroyHandle (i : Nat)
  | newContext
  | createContext (i : Nat) (inits : Bool)
  | clearContext (i : Nat)
  | destroyContext (i : Nat)
  | getDeviceList (i : Nat) (listing : Listing)

/-- The calls of destructors. -/
def Action.IsDestroy : Action → Prop
  | .destroyDevice _ | .destroyHandle _ | .destroyContext _ => True
  | _ => False

namespace Program

/-- Object `i` and the library after a member function. -/
def setDevice (s : Program) (i : Nat) (r : Option DeviceId × Library) : Program :=
  { s with devices := s.devices.set i r.1, lib := r.2 }

def setHandle (s : Program) (i : Nat) (r : Option HandleId × Library) : Program :=
  { s with handles := s.handles.set i r.1, lib := r.2 }

def setContext (s : Program) (i : Nat) (r : Option ContextId × Library) : Program :=
  { s with contexts := s.contexts.set i r.1, lib := r.2 }

def addDevice (s : Program) (r : Option DeviceId × Library) : Program :=
  { s with devices := s.devices ++ [r.1], lib := r.2 }

def addHandle (s : Program) (r : Option HandleId × Library) : Program :=
  { s with handles := s.handles ++ [r.1], lib := r.2 }

def step (s : Program) : Action → Option Program
  | .newDevice => some (s.addDevice (none, s.lib))
  | .copyDevice i => do
    let other ← s.devices[i]?
    some (s.addDevice (deviceCopy s.lib other))
  | .refDevice dev => some (s.addDevice (deviceRef s.lib dev))
  | .takeOwnership dev => some (s.addDevice (deviceTakeOwnership s.lib dev))
  | .assignDevice i j => do
    let mDev ← s.devices[i]?
    let other ← s.devices[j]?
    some (s.setDevice i (deviceAssign s.lib mDev other))
  | .swapDevices i j => do
    let mDev ← s.devices[i]?
    let other ← s.devices[j]?
    some { s with devices := (s.devices.set i other).set j mDev }
  | .clearDevice i => do
    let mDev ← s.devices[i]?
    some (s.setDevice i (deviceClear s.lib mDev))
  | .destroyDevice i => do
    let mDev ← s.devices[i]?
    some { s with devices := s.devices.eraseIdx i, lib := (deviceClear s.lib mDev).2 }
  | .newHandle => some (s.addHandle (none, s.lib))
  | .newOpenHandle dev opens =>
    -- the constructor throws: there is no object
    if opens then some (s.addHandle (handleTryOpen s.lib none dev true)) else some s
  | .copyHandle i => do
    let other ← s.handles[i]?
    some (s.addHandle (other, s.lib))
  | .assignHandle i j => do
    let _ ← s.handles[i]?
    let other ← s.handles[j]?
    some (s.setHandle i (other, s.lib))
  | .openHandle i dev opens => do
    let mHandle ← s.handles[i]?
    some (s.setHandle i (handleTryOpen s.lib mHandle dev opens))
  | .clearHandle i => do
    let mHandle ← s.handles[i]?
    some (s.setHandle i (handleClear s.lib mHandle))
  | .destroyHandle i => do
    let mHandle ← s.handles[i]?
    some { s with handles := s.handles.eraseIdx i, lib := (handleClear s.lib mHandle).2 }
  | .newContext => some { s with contexts := s.contexts ++ [none] }
  | .createContext i inits => do
    let mCtx ← s.contexts[i]?
    some (s.setContext i (contextCreate s.lib mCtx inits))
  | .clearContext i => do
    let mCtx ← s.contexts[i]?
    some (s.setContext i (contextClear s.lib mCtx))
  | .destroyContext i => do
    let mCtx ← s.contexts[i]?
    some { s with contexts := s.contexts.eraseIdx i, lib := (contextClear s.lib mCtx).2 }
  | .getDeviceList i listing => do
    let _ ← s.contexts[i]?
    let (elements, lib) := contextGetDeviceList s.lib listing
    some { s with devices := s.devices ++ elements, lib }

/-- All objects are destroyed. -/
def Empty (s : Program) : Prop := s.devices = [] ∧ s.handles = [] ∧ s.contexts = []

end Program

/-- The programs that the class definitions allow. -/
def programMachine : Machine Program Action := ⟨{}, Program.step⟩

end Libusby.Cpp
