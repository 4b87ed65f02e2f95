import Mathlib.Logic.Function.Basic
import Libusby.Core.DeviceList
import Libusby.Foundations.Machine

/-!
# Lifetimes of devices under concurrency

Threads that enumerate, that give references back and that end a device, interleaved in
any way. `libusby_unref_device` is three steps (decrement and test, finalize, free), and the
critical section of an enumeration, from the search to the reference, is one. The backends
differ in what becomes of a device that cannot be read. A number is what a backend tells
devices by: the bus and the device number, or that of the libusb0 device.
-/

namespace Libusby.Core.Lifetime

open Foundations

inductive Backend where
  | linux | windows
  deriving DecidableEq, Repr

/-- What `libusby_device` and the searches need. -/
structure Device (κ : Type) where
  refCount : Int
  number : κ
  deriving DecidableEq, Repr

/-- What a thread is about to do. -/
inductive Thread where
  /-- In the loop of `usbyb_get_device_list`; `failed` is `r < 0`. -/
  | listing (devlist : List DeviceId) (failed : Bool)
  /-- Calls `libusby_unref_device` for each device. -/
  | unref (devices : List DeviceId)
  /-- In `usbyb_finalize_device`. -/
  | finalize (d : DeviceId) (devices : List DeviceId)
  /-- Before the `free` behind it. -/
  | free (d : DeviceId) (devices : List DeviceId)
  deriving DecidableEq, Repr

structure State (κ : Type) where
  heap : DeviceId → Option (Device κ) := fun _ => none
  devlist : List DeviceId := []
  next : DeviceId := 0
  threads : List Thread := []
  /-- The arrays that were returned and not released. -/
  lists : List (List DeviceId) := []
  /-- The references of the client apart from these. -/
  refs : List DeviceId := []

namespace State

variable {κ : Type}

def store (s : State κ) (d : DeviceId) (dev : Device κ) : State κ :=
  { s with heap := Function.update s.heap d (some dev) }

def goTo (s : State κ) (i : Nat) (t : Thread) : State κ := { s with threads := s.threads.set i t }

/-- A new device, with one reference, at the end of the list. -/
def insert (s : State κ) (number : κ) : State κ :=
  { s.store s.next { refCount := 1, number } with
    devlist := s.devlist ++ [s.next]
    next := s.next + 1 }

end State

/-- How the reads and the append of a critical section end. -/
inductive Outcome where
  | success | unreadable | noMem
  deriving DecidableEq, Repr

inductive Op (κ : Type) where
  /-- A thread calls `libusby_get_device_list`. -/
  | getDeviceList
  /-- The critical section of thread `i` for a number. -/
  | visit (i : Nat) (number : κ) (outcome : Outcome)
  /-- The loop of thread `i` ends, and the list is returned. -/
  | listed (i : Nat)
  /-- The client calls `libusby_ref_device`. -/
  | refDevice (d : DeviceId)
  /-- The client calls `libusby_unref_device`. -/
  | unrefDevice (d : DeviceId)
  /-- The client calls `libusby_free_device_list` for its array `k`. -/
  | freeDeviceList (k : Nat) (unrefDevices : Bool)
  /-- Thread `i` decrements the count of its next device and tests it. -/
  | unref (i : Nat)
  | finalize (i : Nat)
  | free (i : Nat)
  deriving DecidableEq, Repr

section
variable {κ : Type} [DecidableEq κ]

/-- The search of the context's list, which reads every device that it passes. -/
def search (heap : DeviceId → Option (Device κ)) (number : κ) :
    List DeviceId → Option (Option DeviceId)
  | [] => some none
  | d :: ds => do
    let dev ← heap d
    if dev.number = number then some (some d) else search heap number ds

/-- The device is in the list already. -/
def visitKnown (s : State κ) (i : Nat) (devlist : List DeviceId) (d : DeviceId) :
    Outcome → Option (State κ)
  | .success => do
    let dev ← s.heap d
    some ((s.store d { dev with refCount := dev.refCount + 1 }).goTo i
      (.listing (devlist ++ [d]) false))
  | .unreadable => none -- nothing is read
  | .noMem => some (s.goTo i (.unref devlist))

/-- The device is new. If it is not listed, usbfs takes it back under the lock and leaves
the loop only when it is out of memory; libusb0 leaves the lock first and gives up. -/
def visitNew (backend : Backend) (s : State κ) (i : Nat) (devlist : List DeviceId) (number : κ) :
    Outcome → State κ
  | .success => (s.insert number).goTo i (.listing (devlist ++ [s.next]) false)
  | outcome =>
    match backend with
    | .linux => { s with next := s.next + 1 }.goTo i (.listing devlist (outcome = Outcome.noMem))
    | .windows => (s.insert number).goTo i (.unref (s.next :: devlist))

def step (backend : Backend) (s : State κ) : Op κ → Option (State κ)
  | .getDeviceList => some { s with threads := s.threads ++ [.listing [] false] }
  | .visit i number outcome =>
    match s.threads[i]? with
    | some (.listing devlist false) => do
      let found ← search s.heap number s.devlist
      match found with
      | some d => visitKnown s i devlist d outcome
      | none => some (visitNew backend s i devlist number outcome)
    | _ => none
  | .listed i =>
    match s.threads[i]? with
    | some (.listing devlist _) =>
      some ({ s with lists := devlist :: s.lists }.goTo i (.unref []))
    | _ => none
  | .refDevice d => do
    let dev ← s.heap d
    if d ∈ s.refs ∨ ∃ l ∈ s.lists, d ∈ l then
      some ({ s with refs := d :: s.refs }.store d { dev with refCount := dev.refCount + 1 })
    else none
  | .unrefDevice d =>
    if d ∈ s.refs then
      some { s with refs := s.refs.erase d, threads := s.threads ++ [.unref [d]] }
    else none
  | .freeDeviceList k unrefDevices => do
    let l ← s.lists[k]?
    let s := { s with lists := s.lists.eraseIdx k }
    if unrefDevices then some { s with threads := s.threads ++ [.unref l] }
    else some { s with refs := l ++ s.refs }
  | .unref i =>
    match s.threads[i]? with
    | some (.unref (d :: ds)) => do
      let dev ← s.heap d
      let s := s.store d { dev with refCount := dev.refCount - 1 }
      if dev.refCount - 1 = 0 then some (s.goTo i (.finalize d ds)) else some (s.goTo i (.unref ds))
    | _ => none
  | .finalize i =>
    match s.threads[i]? with
    | some (.finalize d ds) => do
      let _ ← s.heap d
      some ({ s with devlist := s.devlist.erase d }.goTo i (.free d ds))
    | _ => none
  | .free i =>
    match s.threads[i]? with
    | some (.free d ds) => do
      let _ ← s.heap d
      some ({ s with heap := Function.update s.heap d none }.goTo i (.unref ds))
    | _ => none

def machine (backend : Backend) : Machine (State κ) (Op κ) where
  init := {}
  step := step backend

end

/-! ## The property -/

/-- The entries of a list that is being built. -/
def Thread.building : Thread → List DeviceId
  | .listing devlist _ => devlist
  | _ => []

/-- The devices in lists that are being built or were returned and not released. -/
def State.entries {κ : Type} (s : State κ) : List DeviceId :=
  s.threads.flatMap Thread.building ++ s.lists.flatten

/-- No entry has been freed. -/
def EntriesAlive {κ : Type} (s : State κ) : Prop := ∀ d ∈ s.entries, (s.heap d).isSome = true

/-- An enumeration finds a device whose count has reached 0 already, and lists it. -/
def Resurrects {κ : Type} [DecidableEq κ] (s : State κ) : Op κ → Prop
  | .visit _ number .success => ∃ d dev, search s.heap number s.devlist = some (some d) ∧
    s.heap d = some dev ∧ dev.refCount = 0
  | _ => False

end Libusby.Core.Lifetime
