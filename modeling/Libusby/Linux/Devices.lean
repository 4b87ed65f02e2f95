import Mathlib.Logic.Function.Basic
import Libusby.Core.DeviceList
import Libusby.Foundations.Ledger

/-!
# Devices and handles of the usbfs backend

The part of the context that keeps devices: the structures in memory, the list
that links them and the descriptors they own. Structures and descriptors are named
by ledgers, so that a name is never used twice and every `free` and `close` shows.
`finalized` records the calls of `usbyb_finalize_device`.
-/

namespace Libusby.Linux

open Foundations Libusby.Core

abbrev FdId := Nat

/-- `struct usbyb_device`. `deviceDesc` are the bytes of `device_desc`. -/
structure Device where
  refCount : Int
  deviceDesc : List UInt8 := List.replicate 18 0
  busno : Int
  devno : Int
  fd : FdId
  descCache : List UInt8 := []
  deriving DecidableEq, Repr

/-- `struct usbyb_device_handle`. -/
structure DeviceHandle where
  dev : DeviceId
  wrfd : FdId
  activeConfigValue : Int := -1
  deriving DecidableEq, Repr

structure Context where
  heap : DeviceId → Option Device := fun _ => none
  devlist : List DeviceId := []
  devices : Ledger := {}
  finalized : List DeviceId := []
  /-- The descriptors that enumerations opened. -/
  fds : Ledger := {}
  /-- The descriptors that `usbyb_open` opened. -/
  wrfds : Ledger := {}

namespace Context

def deref (ctx : Context) (d : DeviceId) : Except Fault Device :=
  match ctx.heap d with
  | none => .error .read
  | some dev => .ok dev

def store (ctx : Context) (d : DeviceId) (dev : Device) : Context :=
  { ctx with heap := Function.update ctx.heap d (some dev) }

/-- `free` of a device structure. -/
def free (ctx : Context) (d : DeviceId) : Except Fault Context :=
  match ctx.heap d with
  | none => .error .free
  | some _ => .ok
    { ctx with heap := Function.update ctx.heap d none, devices := ctx.devices.release d }

def closeFd (ctx : Context) (fd : FdId) : Context := { ctx with fds := ctx.fds.release fd }

end Context

/-- `usbyi_alloc_device`, the three stores and `usbyi_insert_before_devlist_node`. -/
def allocDevice (ctx : Context) (busno devno : Int) (fd : FdId) : Context :=
  let dev : Device := { refCount := 1, busno, devno, fd }
  { ctx.store ctx.devices.next dev with
    devices := ctx.devices.acquire
    devlist := ctx.devlist ++ [ctx.devices.next] }

def usbybFinalizeDevice (ctx : Context) (d : DeviceId) : Except Fault Context := do
  let dev ← ctx.deref d
  let ctx := { ctx with devlist := ctx.devlist.erase d, finalized := d :: ctx.finalized }
  .ok (ctx.closeFd dev.fd)

def libusbyRefDevice (ctx : Context) (d : DeviceId) : Except Fault Context := do
  let dev ← ctx.deref d
  .ok (ctx.store d { dev with refCount := dev.refCount + 1 })

def libusbyUnrefDevice (ctx : Context) (d : DeviceId) : Except Fault Context := do
  let dev ← ctx.deref d
  let ctx := ctx.store d { dev with refCount := dev.refCount - 1 }
  if dev.refCount - 1 = 0 then do
    let ctx ← usbybFinalizeDevice ctx d
    ctx.free d
  else .ok ctx

/-- `for (; *cur; ++cur) libusby_unref_device(*cur)`. -/
def unrefSlots (ctx : Context) : List Slot → Except Fault Context
  | .null :: _ => .ok ctx
  | .entry d :: slots => do
    let ctx ← libusbyUnrefDevice ctx d
    unrefSlots ctx slots
  | _ => .error .read

def libusbyFreeDeviceList (ctx : Context) (list : DeviceArray) (unrefDevices : Bool) :
    Except Fault Context :=
  match list, unrefDevices with
  | some slots, true => unrefSlots ctx slots
  | _, _ => .ok ctx

/-- How `malloc` of a handle and `open` of its descriptor end. -/
structure OpenOutcome where
  malloc : Bool
  opens : Bool
  deriving DecidableEq, Repr

def usbybOpen (ctx : Context) (outcome : OpenOutcome) (d : DeviceId) :
    Except Fault (Except Error DeviceHandle × Context) := do
  let _ ← ctx.deref d
  if outcome.opens then
    .ok (.ok { dev := d, wrfd := ctx.wrfds.next }, { ctx with wrfds := ctx.wrfds.acquire })
  else .ok (.error .access, ctx)

def usbybClose (ctx : Context) (handle : DeviceHandle) : Context :=
  { ctx with wrfds := ctx.wrfds.release handle.wrfd }

def libusbyOpen (ctx : Context) (outcome : OpenOutcome) (d : DeviceId) :
    Except Fault (Except Error DeviceHandle × Context) :=
  if ¬ outcome.malloc then .ok (.error .noMem, ctx)
  else do
    let (r, ctx) ← usbybOpen ctx outcome d
    match r with
    | .error e => .ok (.error e, ctx)
    | .ok handle =>
      let ctx ← libusbyRefDevice ctx d
      .ok (.ok handle, ctx)

def libusbyClose (ctx : Context) (handle : DeviceHandle) : Except Fault Context :=
  libusbyUnrefDevice (usbybClose ctx handle) handle.dev

/-- The assertion of `usbyb_exit`; the rest of it releases the event loop. -/
def usbybExit (ctx : Context) : Except Fault Unit :=
  if ctx.devlist = [] then .ok () else .error .assertion

end Libusby.Linux
