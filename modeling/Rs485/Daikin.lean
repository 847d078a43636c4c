import Rs485.Encoders
import Rs485.Modbus
import Rs485.Words

/-!
# The Daikin adapter

`DTA116A621.c`. The adapter keeps three registers for each of the 64 units, and
a command rewrites a field of one of them. The method and the value of a
message are fields that no handler writes, and are arguments here. Addresses
are bytes.
-/

set_option autoImplicit false

namespace RS485.Daikin
open RS485.Platform RS485.Records RS485.Encoders RS485.Modbus RS485.Words

inductive HaStatus where
  | waitInit
  | waitConnect
  | normal
  | error
  deriving DecidableEq, Repr

def inputRegisterStart : ℤ := 30001
def inputRegisterDeviceConnectStatusStart : ℤ := 30002
def holdRegisterStart : ℤ := 40001
def holdRegisterDeviceControlStart : ℤ := 42001

def onOffSwingFanOffset : Fin 3 := 0
def modeOffset : Fin 3 := 1
def temperatureOffset : Fin 3 := 2

def haAdapterDefaultAddress : ℤ := 0x02

/-- `glb_daikin_hold_register_value` -/
abbrev HoldRegisters := Fin 64 → Fin 3 → BitVec 16

/-- The initialiser of the table has 63 rows, and the last unit gets zeros. -/
def initialRegisters : HoldRegisters := fun unit =>
  if unit.val < 63 then ![0x3761, 0x0103, 250] else ![0, 0, 0]

/-- The static variables of the file. -/
structure Adapter where
  haStatus : HaStatus
  connected : ℕ → Bool
  registers : HoldRegisters

def initialAdapter : Adapter := ⟨.waitInit, fun _ => false, initialRegisters⟩

section Registers

def write (t : HoldRegisters) (unit : Fin 64) (offset : Fin 3) (value : BitVec 16) :
    BitVec 16 × HoldRegisters :=
  (value, Function.update t unit (Function.update (t unit) offset value))

/-- The old value is read and masked, the code added and the sum written back. -/
def replace (t : HoldRegisters) (unit : Fin 64) (offset : Fin 3) (keep code : BitVec 16) :
    BitVec 16 × HoldRegisters :=
  write t unit offset (put keep code (t unit offset))

/-- Methods that have no case return -1, which is 0xffff as an unsigned word. -/
def getDaikinHoldRegisterValue (method : DeviceMethod) (value : BitVec 32) (unit : Fin 64)
    (t : HoldRegisters) : BitVec 16 × HoldRegisters :=
  match method with
  | .airSetTemp | .airSetTemp18 | .airSetTemp19 | .airSetTemp20 | .airSetTemp21 | .airSetTemp22
  | .airSetTemp23 | .airSetTemp24 | .airSetTemp25 | .airSetTemp26 | .airSetTemp27 | .airSetTemp28
  | .airSetTemp29 | .airSetTemp30 => write t unit temperatureOffset ((value * 10).setWidth 16)
  | .airSwingAuto => replace t unit onOffSwingFanOffset 0xf0ff 0x0200
  | .airSwingUpDown => replace t unit onOffSwingFanOffset 0xf0ff 0x0400
  | .airSwingLeftRight => replace t unit onOffSwingFanOffset 0xf0ff 0x0000
  | .airSwingUpDownLeftRight => replace t unit onOffSwingFanOffset 0xf0ff 0x0700
  | .airFanAuto => replace t unit onOffSwingFanOffset 0x0fff 0x3000
  | .airFanHigh => replace t unit onOffSwingFanOffset 0x0fff 0x5000
  | .airFanMiddle => replace t unit onOffSwingFanOffset 0x0fff 0x3000
  | .airFanLow => replace t unit onOffSwingFanOffset 0x0fff 0x1000
  | .airModeFaning => replace t unit modeOffset 0xfff0 0x0000
  | .airModeHeating => replace t unit modeOffset 0xfff0 0x0001
  | .airModeCooling => replace t unit modeOffset 0xfff0 0x0002
  | .airModeDrying => replace t unit modeOffset 0xfff0 0x0007
  | .airModeAutoing => replace t unit modeOffset 0xfff0 0x0103
  | .airOff => replace t unit onOffSwingFanOffset 0xfff0 0x0000
  | .airOn => replace t unit onOffSwingFanOffset 0xfff0 0x0001
  | _ => (0xffff, t)

end Registers

section Handlers

def getDaikinWriteRegisterAddr (unit : Fin 64) : ℤ :=
  unit.val * 3 + (holdRegisterDeviceControlStart - holdRegisterStart)

/-- The unit of an address that was found to be at most 63. -/
def unitOf (deviceAddr : ℤ) : Fin 64 := Fin.ofNat 64 deviceAddr.toNat

theorem unit_of_nat {n : ℕ} (h : n < 64) : (unitOf n).val = n := by
  simp only [unitOf, Fin.ofNat, Int.toNat_natCast]
  exact Nat.mod_eq_of_lt h

/-- What the five setters do once the adapter is initialised. The register value
is compared with 0 as an unsigned word and never refused. -/
def setRegister (offset : Fin 3) (method : DeviceMethod) (value : BitVec 32) (m : Message)
    (g : Adapter) : ℤ × Message × Adapter :=
  let m := { m with code := .writeSignleRegister }
  if 63 < m.deviceAddr then (-1, m, g)
  else
    let unit := unitOf m.deviceAddr
    let (register, registers) := getDaikinHoldRegisterValue method value unit g.registers
    let bytes := [(register >>> 8).setWidth 8, register.setWidth 8]
    (1, { m with
      registerAddr := getDaikinWriteRegisterAddr unit + offset.val
      buffer := putFrame m.buffer bytes
      deviceAddr := haAdapterDefaultAddress }, { g with registers := registers })

/-- A setter that does nothing while the adapter is not initialised. -/
def setWhenInitialised (offset : Fin 3) (method : DeviceMethod) (value : BitVec 32) (m : Message)
    (g : Adapter) : ℤ × Message × Adapter :=
  if g.haStatus = .waitInit then (0, { m with code := .doNothing }, g)
  else setRegister offset method value m g

def setTemperature := setWhenInitialised temperatureOffset

/-- The method that is left out is one of the fan. -/
def setMode (method : DeviceMethod) (value : BitVec 32) (m : Message) (g : Adapter) :
    ℤ × Message × Adapter :=
  if g.haStatus = .waitInit then (0, { m with code := .doNothing }, g)
  else if method = .airFanAuto then (0, { m with code := .doNothing }, g)
  else setRegister modeOffset method value m g

def setSwing := setWhenInitialised onOffSwingFanOffset

def setFan := setWhenInitialised onOffSwingFanOffset

def setSwitch := setWhenInitialised onOffSwingFanOffset

def getDeviceInfoSend (m : Message) (g : Adapter) : ℤ × Message × Adapter :=
  match g.haStatus with
  | .waitInit =>
    (1, { m with
      code := .readInputRegister
      registerAddr := inputRegisterStart - inputRegisterStart
      deviceAddr := haAdapterDefaultAddress }, g)
  | .waitConnect =>
    (4, { m with
      code := .readMultipleRegisters
      registerAddr := inputRegisterDeviceConnectStatusStart - inputRegisterStart
      deviceAddr := haAdapterDefaultAddress }, g)
  | .normal | .error =>
    (0, { m with code := .doNothing, deviceAddr := haAdapterDefaultAddress }, g)

/-- The two loops over the words and their bits. The machine number is the
product of the two counters, and the status whether any bit is left. -/
def fillConnected (buffer : List Byte) (connected : ℕ → Bool) : ℕ → Bool :=
  (List.range 4).foldl (fun connected i =>
    (List.range 8).foldl (fun connected j =>
      Function.update connected (i*j) (wordAt buffer i >>> j != 0)) connected) connected

def getDeviceInfoHandle (m : Message) (g : Adapter) : Message × Adapter :=
  match g.haStatus with
  | .waitInit =>
    if wordAt m.buffer 0 = 1 then (m, { g with haStatus := .waitConnect }) else (m, g)
  | .waitConnect =>
    (m, { g with haStatus := .normal, connected := fillConnected m.buffer g.connected })
  | .normal | .error => (m, g)

/-- The send handlers of the file. -/
inductive SendHandle where
  | setTemperature
  | setMode
  | setSwing
  | setFan
  | setSwitch
  | getDeviceInfoSend
  deriving DecidableEq, Repr

def sendHandle (handle : SendHandle) (method : DeviceMethod) (value : BitVec 32) (m : Message)
    (g : Adapter) : ℤ × Message × Adapter :=
  match handle with
  | .setTemperature => setTemperature method value m g
  | .setMode => setMode method value m g
  | .setSwing => setSwing method value m g
  | .setFan => setFan method value m g
  | .setSwitch => setSwitch method value m g
  | .getDeviceInfoSend => getDeviceInfoSend m g

end Handlers

section Frame

/-- The register a setter writes. -/
def SendHandle.offset : SendHandle → Fin 3
  | .setTemperature => temperatureOffset
  | .setMode => modeOffset
  | _ => onOffSwingFanOffset

/-- A setter does nothing, with the code that says so, or writes its register. -/
theorem setter_eq {handle : SendHandle} (h : handle ≠ .getDeviceInfoSend) (method : DeviceMethod)
    (value : BitVec 32) (m : Message) (g : Adapter) : sendHandle handle method value m g =
      if g.haStatus = .waitInit ∨ handle = .setMode ∧ method = .airFanAuto then
        (0, { m with code := .doNothing }, g)
      else setRegister handle.offset method value m g := by
  by_cases hinit : g.haStatus = .waitInit
  · cases handle <;> first | exact absurd rfl h | simp [sendHandle, setTemperature, setMode,
      setSwing, setFan, setSwitch, setWhenInitialised, hinit]
  · cases handle <;> first | exact absurd rfl h | simp [sendHandle, setTemperature, setMode,
      setSwing, setFan, setSwitch, setWhenInitialised, hinit, SendHandle.offset]

theorem send_keeps_done (handle : SendHandle) (method : DeviceMethod) (value : BitVec 32)
    (m : Message) (g : Adapter) : (sendHandle handle method value m g).2.1.done = m.done := by
  by_cases h : handle = .getDeviceInfoSend
  · subst h
    simp only [sendHandle, getDeviceInfoSend]
    cases g.haStatus <;> rfl
  · rw [setter_eq h]
    split_ifs
    · rfl
    · simp only [setRegister]
      split_ifs <;> rfl

theorem handle_keeps_message (m : Message) (g : Adapter) : (getDeviceInfoHandle m g).1 = m := by
  unfold getDeviceInfoHandle
  cases g.haStatus with
  | waitInit => simp only; split_ifs <;> rfl
  | waitConnect => rfl
  | normal => rfl
  | error => rfl

end Frame

end RS485.Daikin
