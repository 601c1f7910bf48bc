import Dynamicloader.Common.Process
import Mathlib.Data.List.Basic
import Mathlib.Data.Int.Notation
/-!
# Safemode — the key sequence

`detectSafemodeTrigger` opens the input devices that report one of seven
keys, takes the key that is held or waits two seconds for one, and then waits
five seconds for the rest of five presses of it. Devices, events and the clock
are calls (`Op`) whose answers are open: each `epoll_wait` names the devices
with an event, in any number and order, and one event is read from each.

Both waits end with the time the clock shows, which the model does not bound.
`fuel` bounds the polls of each wait; where it runs out the detection is still
`polling`.
-/

namespace Dynamicloader

namespace Safemode

/-! ## Keys and events -/

/-- The key codes of `linux/input.h`, in the order of `physical_keycodes`. -/
def physicalKeycodes : List UInt16 :=
  [114,  -- KEY_VOLUMEDOWN
   115,  -- KEY_VOLUMEUP
   116,  -- KEY_POWER
   102,  -- KEY_HOME
   158,  -- KEY_BACK
   139,  -- KEY_MENU
   212]  -- KEY_CAMERA

/-- `EV_KEY` -/
def evKey : UInt16 := 1

/-- `struct input_event`, without its time. -/
structure InputEvent where
  type : UInt16
  code : UInt16
  value : Int32
  deriving DecidableEq

/-- **The key an event presses**, if it is one of the physical keys. -/
def InputEvent.press (evt : InputEvent) : Option UInt16 :=
  if evt.type ≠ evKey then none
  else if evt.value ≠ 1 then none
  else physicalKeycodes.find? (evt.code == ·)

/-- `keyBitmask` has a bit for each code up to `KEY_MAX`. -/
abbrev KeyBitmask := Vector UInt8 96

/-- `test_bit` -/
def testBit (bit : UInt16) (array : KeyBitmask) : Bool :=
  (array.toList.getD (bit.toNat / 8) 0).toNat.testBit (bit.toNat % 8)

/-! ## Calls -/

abbrev Fd := ℕ

structure Timespec where
  tvSec : ℤ
  tvNsec : ℤ
  deriving DecidableEq

/-- The calls. The device directory is listed in one go. -/
inductive Op where
  | readdir
  | openDevice (name : List UInt8)
  | keyBits (fd : Fd)
  | heldBits (fd : Fd)
  | close (fd : Fd)
  | epollCreate (size : ℕ)
  | epollCtl (efd fd : Fd)
  | clockGettime
  | epollWait (efd : Fd) (timeout : ℤ)
  | read (fd : Fd)
  | vibrate (count duration interval : ℕ)
  deriving DecidableEq

/-- `none` is a failed call, and a `read` of another size than an event's. -/
abbrev Op.Ans : Op → Type
  | .readdir => Option (List (List UInt8))
  | .openDevice _ => Option Fd
  | .keyBits _ => KeyBitmask
  | .heldBits _ => KeyBitmask
  | .close _ => Unit
  | .epollCreate _ => Option Fd
  | .epollCtl .. => Bool
  | .clockGettime => Timespec
  | .epollWait .. => Option (List Fd)
  | .read _ => Option InputEvent
  | .vibrate .. => Unit

abbrev Io := Prog Op Op.Ans

def ask (op : Op) : Io op.Ans := .call op .ret

/-! ## Opening the devices -/

/-- `MAX_DEVICES` -/
def maxDevices : ℕ := 4

/-- The loop over the keys held on a device: the first one is reported, and -1
where there is another. -/
def heldKey (keyBitmask : KeyBitmask) : List UInt16 → ℤ → ℤ
  | [], pressedKey => pressedKey
  | code :: codes, pressedKey =>
    if testBit code keyBitmask then
      if pressedKey = 0 then heldKey keyBitmask codes code.toNat
      else -1
    else heldKey keyBitmask codes pressedKey

/-- The `while` loop of `openKeyDevices`. -/
def openDevices : List (List UInt8) → List Fd → ℤ → Io (List Fd × ℤ)
  | [], fds, pressedKey => return (fds, pressedKey)
  | name :: names, fds, pressedKey =>
    if fds.length = maxDevices then return (fds, pressedKey)
    -- '.' and '..'
    else if name = [46] ∨ name = [46, 46] then openDevices names fds pressedKey
    else do
      match ← ask (.openDevice name) with
      | none => openDevices names fds pressedKey
      | some fd =>
        let keyBitmask ← ask (.keyBits fd)
        if physicalKeycodes.any (testBit · keyBitmask) then
          let keyBitmask ← ask (.heldBits fd)
          openDevices names (fds ++ [fd]) (heldKey keyBitmask physicalKeycodes pressedKey)
        else
          ask (.close fd)
          openDevices names fds pressedKey

/-- `openKeyDevices` -/
def openKeyDevices : Io (List Fd × ℤ) := do
  match ← ask .readdir with
  | none => return ([], 0)
  | some names => openDevices names [] 0

/-! ## Waiting -/

/-- `INITIAL_DELAY` -/
def initialDelay : ℤ := 2

/-- `DETECTION_TIMEOUT` -/
def detectionTimeout : ℤ := 5

/-- `DETECTION_PRESSES` -/
def detectionPresses : ℕ := 5

def vibrationShort : ℕ := 150
def vibrationLong : ℕ := 500
def vibrationInterval : ℕ := 200

/-- `getRemainingTime` -/
def getRemainingTime (expiration : Timespec) : Io ℤ := do
  let now ← ask .clockGettime
  if now.tvSec > expiration.tvSec then return 0
  else return (expiration.tvSec - now.tvSec) * 1000 +
    (expiration.tvNsec - now.tvNsec).tdiv 1000000

/-- The moment a wait of so many seconds ends. -/
def expirationIn (seconds : ℤ) : Io Timespec := do
  let now ← ask .clockGettime
  return { now with tvSec := now.tvSec + seconds }

/-- Why the detection is left: `goto leave`, or it has not ended. -/
inductive Exit where
  | leave
  | polling
  deriving DecidableEq

abbrev Act := ExceptT Exit Io

/-- An event is read from a device. -/
def readPress (fd : Fd) : Io (Option UInt16) := do
  return (← ask (.read fd)).bind InputEvent.press

/-- The devices of one poll, in the first wait. The loop goes on behind a press,
and a later one takes its place. -/
def initialEvents : List Fd → ℤ → Io ℤ
  | [], pressedKey => return pressedKey
  | fd :: fds, pressedKey => do
    match ← readPress fd with
    | none => initialEvents fds pressedKey
    | some code => initialEvents fds code.toNat

/-- The wait for an initial press. -/
def initialWait (efd : Fd) (expiration : Timespec) : ℕ → ℤ → Act ℤ
  | fuel, pressedKey => do
    if pressedKey ≠ 0 then return pressedKey
    else
      let timeout ← getRemainingTime expiration
      if timeout ≤ 0 then return pressedKey
      else match fuel with
        | 0 => throw .polling
        | fuel + 1 =>
          match ← ask (.epollWait efd timeout) with
          | none => throw .leave
          | some fds =>
            let pressedKey ← initialEvents fds pressedKey
            initialWait efd expiration fuel pressedKey

/-- The devices of one poll, in the second wait. -/
def detectionEvents (pressedKey : ℤ) : List Fd → ℕ → Act ℕ
  | [], triggerPresses => return triggerPresses
  | fd :: fds, triggerPresses => do
    match ← readPress fd with
    | none => detectionEvents pressedKey fds triggerPresses
    | some code =>
      if pressedKey = code.toNat then
        if triggerPresses + 1 < detectionPresses then
          ask (.vibrate 1 vibrationShort 0)
          detectionEvents pressedKey fds (triggerPresses + 1)
        else detectionEvents pressedKey fds (triggerPresses + 1)
      else throw .leave

/-- The wait for the other presses. -/
def detectionWait (efd : Fd) (expiration : Timespec) (pressedKey : ℤ) : ℕ → ℕ → Act ℕ
  | fuel, triggerPresses => do
    if detectionPresses ≤ triggerPresses then return triggerPresses
    else
      let timeout ← getRemainingTime expiration
      if timeout ≤ 0 then return triggerPresses
      else match fuel with
        | 0 => throw .polling
        | fuel + 1 =>
          match ← ask (.epollWait efd timeout) with
          | none => throw .leave
          | some fds =>
            let triggerPresses ← detectionEvents pressedKey fds triggerPresses
            detectionWait efd expiration pressedKey fuel triggerPresses

/-! ## The detection -/

/-- Each device is registered. -/
def registerDevices (efd : Fd) : List Fd → Act Unit
  | [] => return ()
  | fd :: fds => do
    if ← ask (.epollCtl efd fd) then registerDevices efd fds
    else throw .leave

/-- The two waits. -/
def detect (fuel : ℕ) (efd : Fd) (fds : List Fd) (pressedKey : ℤ) : Act Bool := do
  registerDevices efd fds
  let expiration ← expirationIn initialDelay
  let pressedKey ← initialWait efd expiration fuel pressedKey
  if pressedKey = 0 then throw .leave
  else
    ask (.vibrate 2 vibrationShort vibrationInterval)
    let expiration ← expirationIn detectionTimeout
    -- the initial press is counted as well
    let triggerPresses ← detectionWait efd expiration pressedKey fuel 1
    if detectionPresses ≤ triggerPresses then
      ask (.vibrate 1 vibrationLong 0)
      return true
    else return false

/-- The label `leave`. -/
def closeAll : List Fd → Io Unit
  | [] => return ()
  | fd :: fds => do
    ask (.close fd)
    closeAll fds

/-- **`detectSafemodeTrigger`.** `none` is a detection that is still polling. -/
def detectSafemodeTrigger (fuel : ℕ) (skipInitialDelay : Bool) : Io (Option Bool) := do
  let (fds, pressedKey) ← openKeyDevices
  if fds = [] ∨ pressedKey < 0 ∨ (pressedKey = 0 ∧ skipInitialDelay) then
    closeAll fds
    return some false
  else
    match ← ask (.epollCreate fds.length) with
    | none =>
      closeAll fds
      return some false
    | some efd =>
      match ← (detect fuel efd fds pressedKey).run with
      | .error .polling => return none
      | .error .leave =>
        closeAll (efd :: fds)
        return some false
      | .ok result =>
        closeAll (efd :: fds)
        return some result

end Safemode

end Dynamicloader
