import Libusby.Foundations.Machine
import Libusby.Linux.DescriptorCache
import Libusby.Linux.EventLoop.State

/-!
# The configuration that a handle remembers

A device has one configuration, but every handle to it remembers the one that was last set
through itself, and `libusby_get_configuration` never looks further than that.
-/

namespace Libusby.Linux

open Foundations Libusby.Core
open EventLoop (HandleId Errno usbfsError)

/-- The configuration that `USBDEVFS_SETCONFIGURATION` makes the current one: `-1` takes the
device out of its configuration, and no other value than that of a byte is accepted. -/
def setConfigurationIoctl (configValue : Int) : Option UInt8 :=
  if configValue = -1 then some 0
  else if 0 ≤ configValue ∧ configValue < 256 then some (UInt8.ofNat configValue.toNat)
  else none

/-- The result and `active_config_value` afterwards; `errno` is that of the `ioctl`, if it
fails. -/
def usbybSetConfiguration (activeConfigValue configValue : Int) (errno : Option Errno) :
    Error × Int :=
  match errno with
  | some errno => (usbfsError errno, activeConfigValue)
  | none => (.success, configValue)

/-- `r` is the result of `usbyb_set_configuration`. -/
def libusbySetConfiguration (r : Error) (configValue : Int) : Dialogue Request Reply Error :=
  if r = .notSupported then
    .ask (.control 0x80 9 (UInt16.ofInt configValue) 0 0) fun reply =>
      .done (if reply.code = 0 then .success else .io)
  else .done r

/-- The kernel never sends the caller on to the control transfer. -/
theorem libusbySetConfiguration_eq (activeConfigValue configValue : Int) (errno : Option Errno) :
    libusbySetConfiguration (usbybSetConfiguration activeConfigValue configValue errno).1 configValue =
      .done (usbybSetConfiguration activeConfigValue configValue errno).1 := by
  cases errno with
  | none => rfl
  | some errno => cases errno <;> rfl

namespace ActiveConfiguration

/-- The current configuration of the device, and `active_config_value` of every handle to it
that is open. -/
structure Sys where
  current : UInt8
  handles : HandleId → Option Int := fun _ => none

inductive Event where
  /-- `libusby_open`; `ok` is whether the file opens. -/
  | openHandle (h : HandleId) (ok : Bool)
  | closeHandle (h : HandleId)
  | setConfiguration (h : HandleId) (configValue : Int) (errno : Option Errno)
  | getConfiguration (h : HandleId)
  deriving DecidableEq, Repr

def step (s : Sys) : Event → Option Sys
  | .openHandle h ok =>
    if s.handles h = none then
      some (if ok then { s with handles := Function.update s.handles h (some (-1)) } else s)
    else none
  | .closeHandle h =>
    if s.handles h ≠ none then some { s with handles := Function.update s.handles h none } else none
  | .setConfiguration h configValue errno =>
    match s.handles h, errno with
    | none, _ => none
    | some active, some errno =>
      let active := (usbybSetConfiguration active configValue (some errno)).2
      some { s with handles := Function.update s.handles h (some active) }
    | some active, none =>
      (setConfigurationIoctl configValue).map fun current =>
        let active := (usbybSetConfiguration active configValue none).2
        { current, handles := Function.update s.handles h (some active) }
  | .getConfiguration h => if s.handles h ≠ none then some s else none

/-- A device with a current configuration and the handles that are opened to it. -/
def device (current : UInt8) : Machine Sys Event := ⟨{ current }, step⟩

/-- What the control transfer for `GET_CONFIGURATION` may return: an error, or at most the
byte that was asked for. -/
def Reports (current : UInt8) : Reply → Prop
  | .error e => e.code < 0
  | .ok bytes => bytes = [] ∨ bytes = [current]

/-- On whichever handle `libusby_get_configuration` is called, if it succeeds the value is that
of the device. -/
def Coherent (s : Sys) : Prop :=
  ∀ h active, s.handles h = some active → ∀ data reply c, Reports s.current reply →
    (libusbyGetConfiguration (usbybGetConfiguration active) data).serve (fun _ => .ok reply) = .ok c →
    c.r = Error.success.code → c.configValue = some (s.current.toNat : Int)

/-- A configuration is set through one handle while another one remembers a different one. -/
def Overtakes (s : Sys) (e : Event) : Prop :=
  ∃ h configValue current h' active, e = .setConfiguration h configValue none ∧
    setConfigurationIoctl configValue = some current ∧ h' ≠ h ∧ s.handles h' = some active ∧
      0 ≤ active ∧ active ≠ current.toNat

variable {s s' : Sys} {e : Event} {current : UInt8} {es : List Event}

/-- A handle remembers nothing or the current configuration. -/
theorem coherent_iff : Coherent s ↔
    ∀ h active, s.handles h = some active → 0 ≤ active → active = s.current.toNat := by
  constructor
  · intro coherent h active hh nonneg
    have remembered : (libusbyGetConfiguration (usbybGetConfiguration active)
        (Bytes.replicate 1 0)).serve (fun _ => .ok (.ok [])) =
        .ok ⟨Error.success.code, some active⟩ := by
      rw [usbybGetConfiguration, if_neg (by omega)]
      rfl
    have empty : Reports s.current (.ok []) := Or.inl rfl
    exact Option.some.inj (coherent h active hh _ _ _ empty remembered rfl)
  · intro remembers h active hh data reply c reports hc success
    by_cases unset : active < 0
    · rw [usbybGetConfiguration, if_pos unset] at hc
      cases reply with
      | error e =>
        cases hc
        exact absurd success (Int.ne_of_lt reports)
      | ok bytes =>
        rcases reports with rfl | rfl
        · cases hc
          cases success
        · cases hc
          have : (data.fill [s.current]).get 0 = s.current :=
            Bytes.get_fill_of_lt (Nat.le_refl 1) (Nat.zero_lt_one)
          rw [this]
    · rw [usbybGetConfiguration, if_neg unset] at hc
      cases hc
      rw [remembers h active hh (by omega)]

theorem setConfigurationIoctl_eq_some {configValue : Int}
    (h : setConfigurationIoctl configValue = some current) :
    configValue < 0 ∨ configValue = current.toNat := by
  unfold setConfigurationIoctl at h
  split_ifs at h with unconfigured byte
  · exact .inl (by omega)
  · cases h
    right
    rw [UInt8.toNat_ofNat_of_lt' (show configValue.toNat < 256 by omega)]
    omega

/-- A handle that is changed to remember nothing, or the current configuration. -/
theorem remembers_update {handles : HandleId → Option Int} {h : HandleId} {v : Option Int}
    (others : ∀ x ≠ h, ∀ active, handles x = some active → 0 ≤ active → active = current.toNat)
    (hv : ∀ active, v = some active → 0 ≤ active → active = current.toNat) :
    ∀ x active, Function.update handles h v x = some active → 0 ≤ active →
      active = current.toNat := by
  intro x active hx nonneg
  by_cases hxh : x = h
  · subst hxh
    rw [Function.update_self] at hx
    exact hv active hx nonneg
  · rw [Function.update_of_ne hxh] at hx
    exact others x hxh active hx nonneg

/-- After a configuration is set through one handle, the handles agree exactly if it overtook none
of the others. -/
theorem remembers_set {h' : HandleId} {configValue : Int}
    (hset : setConfigurationIoctl configValue = some current) :
    (∀ x active, Function.update s.handles h' (some configValue) x = some active → 0 ≤ active →
      active = current.toNat) ↔ ¬Overtakes s (.setConfiguration h' configValue none) := by
  constructor
  · rintro coherent ⟨h₁, v, c, x, other, he, hc, ne, hx, nonneg, differs⟩
    cases he
    cases hset.symm.trans hc
    apply differs (coherent x other ?_ nonneg)
    exact (Function.update_of_ne ne ..).trans hx
  · intro overtakes
    apply remembers_update
    · intro x hne active hx nonneg
      by_contra differs
      exact overtakes ⟨h', configValue, current, x, active, rfl, hset, hne, hx, nonneg, differs⟩
    · intro active hv nonneg
      cases hv
      rcases setConfigurationIoctl_eq_some hset with negative | same
      · exact absurd nonneg (by simpa using negative)
      · exact same

/-- A step keeps the handles coherent exactly if it overtakes none of them. -/
theorem coherent_step (hs : step s e = some s') (h : Coherent s) : Coherent s' ↔ ¬Overtakes s e := by
  rw [coherent_iff] at h ⊢
  cases e with
  | openHandle h' ok =>
    refine iff_of_true ?_ fun ⟨_, _, _, _, _, he, _⟩ => nomatch he
    simp only [step, Option.ite_none_right_eq_some, Option.some.injEq] at hs
    obtain ⟨-, rfl⟩ := hs
    cases ok with
    | false => exact h
    | true =>
      apply remembers_update (fun x _ => h x)
      intro active hv nonneg
      cases hv
      omega
  | closeHandle h' =>
    refine iff_of_true ?_ fun ⟨_, _, _, _, _, he, _⟩ => nomatch he
    simp only [step, Option.ite_none_right_eq_some, Option.some.injEq] at hs
    obtain ⟨-, rfl⟩ := hs
    exact remembers_update (fun x _ => h x) fun active hv => nomatch hv
  | setConfiguration h' configValue errno =>
    simp only [step] at hs
    split at hs
    case h_1 => cases hs
    case h_2 active errno hh =>
      refine iff_of_true ?_ fun ⟨_, _, _, _, _, he, _⟩ => nomatch he
      cases hs
      exact remembers_update (fun x _ => h x) fun v hv => by
        cases hv
        exact h h' active hh
    case h_3 active hh =>
      obtain ⟨current, hset, rfl⟩ := Option.map_eq_some_iff.1 hs
      exact remembers_set hset
  | getConfiguration h' =>
    refine iff_of_true ?_ fun ⟨_, _, _, _, _, he, _⟩ => nomatch he
    simp only [step, Option.ite_none_right_eq_some, Option.some.injEq] at hs
    obtain ⟨-, rfl⟩ := hs
    exact h

/-- Every state of a run is coherent exactly if no step of it sets a configuration behind the
back of a handle that remembers another one. -/
theorem always_coherent_iff (current : UInt8) (es : List Event) :
    (device current).Always Coherent (device current).init es ↔
      (device current).Steps (fun s e _ => ¬Overtakes s e) (device current).init es := by
  have initial : Coherent (device current).init := coherent_iff.2 fun _ _ h => nomatch h
  constructor
  · intro always
    refine Machine.Always.steps (I := fun _ => True) (fun _ _ _ _ _ => trivial) ?_ always trivial
    exact fun s e t _ hs ht hcoherent => (coherent_step ht hs).1 hcoherent
  · intro steps
    refine (Machine.Steps.invariant (Q := fun _ _ _ => True) ?_ steps initial).1
    exact fun s e t hs overtakes ht => ⟨(coherent_step ht hs).2 overtakes, trivial⟩

/-- Two handles set two configurations: the first one is left with the value of the past. -/
theorem incoherent : ∃ s, (device 1).exec (device 1).init [.openHandle 0 true, .openHandle 1 true,
      .setConfiguration 0 1 none, .setConfiguration 1 2 none, .getConfiguration 0] = some s ∧
    s.current = 2 ∧ s.handles 0 = some 1 ∧
    (libusbyGetConfiguration (usbybGetConfiguration 1) (.replicate 1 0)).serve
      (fun _ => .ok (.ok [2])) = .ok ⟨Error.success.code, some 1⟩ ∧ ¬Coherent s := by
  refine ⟨_, rfl, rfl, rfl, rfl, ?_⟩
  rw [coherent_iff]
  exact fun h => absurd (h 0 1 rfl (by decide)) (by decide)

end ActiveConfiguration

end Libusby.Linux
