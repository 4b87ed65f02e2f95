import Libusby.Linux.Devices

/-!
# `usbyb_get_device_list`

The directories and the outcome of every call that depends on the outside are
arguments: names that are no number, directories and files that cannot be opened,
reads that come back short, `ok n` for the `n`-th `realloc` and `malloc d` for the
structure of a new device `d`. The `goto`s out of the loops are results of the model of
the loop body.
-/

namespace Libusby.Linux

open Foundations Libusby.Core

/-- A file of a bus directory: the number that its name is, whether it can be
opened, and what the `k`-th `read`, of `n` bytes, delivers. -/
structure DevEntry where
  devno : Option Int
  opens : Bool
  read : Nat → Nat → List UInt8

/-- A directory of `/dev/bus/usb`: the number that its name is and its files, if it
can be opened. -/
structure BusEntry where
  busno : Option Int
  files : Option (List DevEntry)

/-- The locals of the enumeration; `calls` counts the calls of `realloc`. -/
structure Enum where
  ctx : Context
  devlist : DeviceList := {}
  r : Error := .success
  calls : Nat := 0

/-- The next iteration, or `goto error` with the descriptor that is open. -/
inductive Leave where
  | next (s : Enum)
  | error (s : Enum) (fd : FdId)

/-- A `read` of exactly `n` bytes. -/
def readExact (read : Nat → Nat → List UInt8) (k n : Nat) : Option (List UInt8) :=
  if (read k n).length = n then some (read k n) else none

/-- `bNumConfigurations` of the bytes of a device descriptor. -/
def numConfigurations (desc : List UInt8) : Nat := (desc.getD 17 0).toNat

/-- The descriptor cache, or `goto error_unref_dev` with `r`; and the calls of
`realloc` so far. -/
def readConfigurations (ok : Nat → Bool) (read : Nat → Nat → List UInt8) :
    Nat → Nat → List UInt8 → Nat → Except Error (List UInt8) × Nat
  | 0, _, cache, calls => (.ok cache, calls)
  | i + 1, k, cache, calls =>
    match readExact read k 4 with
    | none => (.error .success, calls)
    | some header =>
      let wTotalLength := le16 (header.getD 2 0) (header.getD 3 0)
      if wTotalLength.toNat < 4 then (.error .success, calls)
      else if ¬ ok calls then (.error .noMem, calls + 1)
      else match readExact read (k + 1) (wTotalLength.toNat - 4) with
        | none => (.error .success, calls + 1)
        | some body => readConfigurations ok read i (k + 2) (cache ++ header ++ body) (calls + 1)

/-- The device descriptor and the descriptor cache. -/
def readDescriptors (ok : Nat → Bool) (read : Nat → Nat → List UInt8) (calls : Nat) :
    Except Error (List UInt8 × List UInt8) × Nat :=
  match readExact read 0 18 with
  | none => (.error .success, calls)
  | some desc =>
    match readConfigurations ok read (numConfigurations desc) 1 [] calls with
    | (.error r, calls) => (.error r, calls)
    | (.ok cache, calls) => (.ok (desc, cache), calls)

/-- The search of the context's list. -/
def findDevice (ctx : Context) (busno devno : Int) : List DeviceId → Except Fault (Option DeviceId)
  | [] => .ok none
  | d :: ds => do
    let dev ← ctx.deref d
    if dev.busno = busno ∧ dev.devno = devno then .ok (some d)
    else findDevice ctx busno devno ds

section
variable (ok : Nat → Bool)

/-- A device that is in the context's list already. -/
def enumKnown (s : Enum) (d : DeviceId) (fd : FdId) : Except Fault Leave := do
  let (appended, calls) ← usbyiAppendDeviceList ok s.calls s.devlist d
  match appended with
  | .error r => .ok (.error { s with r, calls } fd)
  | .ok devlist =>
    let ctx ← libusbyRefDevice s.ctx d
    .ok (.next { s with ctx := ctx.closeFd fd, devlist, calls, r := .success })

/-- `error_unref_dev`. -/
def errorUnrefDev (s : Enum) (d : DeviceId) (r : Error) (calls : Nat) : Except Fault Leave := do
  let ctx ← libusbyUnrefDevice s.ctx d
  .ok (.next { s with ctx, r, calls })

/-- A device that is not in the context's list. -/
def enumNew (s : Enum) (busno devno : Int) (fd : FdId) (read : Nat → Nat → List UInt8) :
    Except Fault Leave := do
  let d := s.ctx.devices.next
  let s := { s with ctx := allocDevice s.ctx busno devno fd }
  match readDescriptors ok read s.calls with
  | (.error r, calls) => errorUnrefDev s d r calls
  | (.ok (deviceDesc, descCache), calls) =>
    let dev ← s.ctx.deref d
    let s := { s with ctx := s.ctx.store d { dev with deviceDesc, descCache } }
    let (appended, calls) ← usbyiAppendDeviceList ok calls s.devlist d
    match appended with
    | .error r => errorUnrefDev s d r calls
    | .ok devlist => .ok (.next { s with devlist, calls, r := .success })

/-- The body of the inner loop. `usbyi_alloc_device` clears its structure without a look at
the pointer. -/
def enumFile (busno : Int) (e : DevEntry) (s : Enum) (malloc : DeviceId → Bool := fun _ => true) :
    Except Fault Leave :=
  match e.devno with
  | none => .ok (.next s)
  | some devno =>
    if ¬ e.opens then .ok (.next s)
    else do
      let fd := s.ctx.fds.next
      let s := { s with ctx := { s.ctx with fds := s.ctx.fds.acquire } }
      let found ← findDevice s.ctx busno devno s.ctx.devlist
      match found with
      | some d => enumKnown ok s d fd
      | none =>
        if malloc s.ctx.devices.next then enumNew ok s busno devno fd e.read
        else .error .store

/-- `while (r >= 0 && (busent = readdir(busdir)))`. -/
def enumBus (busno : Int) :
    List DevEntry → Enum → (malloc : DeviceId → Bool := fun _ => true) → Except Fault Leave
  | [], s, _ => .ok (.next s)
  | e :: es, s, malloc =>
    if s.r.code < 0 then .ok (.next s)
    else do
      let left ← enumFile ok busno e s malloc
      match left with
      | .next s => enumBus busno es s malloc
      | .error s fd => .ok (.error s fd)

/-- `while (r >= 0 && (ent = readdir(dir)))`. -/
def enumRoot :
    List BusEntry → Enum → (malloc : DeviceId → Bool := fun _ => true) → Except Fault Leave
  | [], s, _ => .ok (.next s)
  | b :: bs, s, malloc =>
    if s.r.code < 0 then .ok (.next s)
    else match b.busno, b.files with
      | some busno, some files => do
        let left ← enumBus ok busno files s malloc
        match left with
        | .next s => enumRoot bs s malloc
        | .error s fd => .ok (.error s fd)
      | _, _ => enumRoot bs s malloc

/-- The return value and the array, if `*list` was written. -/
structure Listed where
  r : Int
  list : Option DeviceArray
  ctx : Context

/-- `dir` is `none` if `/dev/bus/usb` cannot be opened. -/
def usbybGetDeviceList (ctx : Context) (dir : Option (List BusEntry))
    (malloc : DeviceId → Bool := fun _ => true) : Except Fault Listed :=
  match dir with
  | none => .ok { r := Error.success.code, list := some none, ctx }
  | some bs => do
    let left ← enumRoot ok bs { ctx } malloc
    match left with
    | .next s => .ok { r := s.devlist.count, list := some s.devlist.list, ctx := s.ctx }
    | .error s fd =>
      let ctx := s.ctx.closeFd fd
      let ctx ← if s.devlist.list.isSome then libusbyFreeDeviceList ctx s.devlist.list true
        else .ok ctx
      .ok { r := s.r.code, list := none, ctx }

end

end Libusby.Linux
