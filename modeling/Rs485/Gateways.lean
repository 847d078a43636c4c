import Rs485.Daikin

/-!
# Two gateways for indoor units

`vrv_manager.c` and `johnson_controls.c`. The first writes one register of a
unit. The second writes four words that select the unit and the two words it
keeps for each unit, to which a command only adds bits.
-/

set_option autoImplicit false

namespace RS485.Gateways
open RS485.Platform RS485.Records RS485.Encoders RS485.Modbus RS485.Words
open RS485.Daikin (unitOf)

section Hitachi

def hitachiVrvManagerDefaultAddress : ℤ := 0x02

def setPowerOffset : ℤ := 0
def setTemperatureOffset : ℤ := 1
def setModeOffset : ℤ := 2
def setFangOffset : ℤ := 3

def hitachiHoldRegisterStart : ℤ := 4000
def hitachiInfoRegisterLength : ℤ := 6

/-- A case of the switch over the method: a register and its value, or the code
that nothing is to be done. -/
inductive HitachiCase where
  | set (offset : ℤ) (value : BitVec 16)
  | doNothing

def hitachiCase : DeviceMethod → Option HitachiCase
  | .airSetTemp18 => some (.set setTemperatureOffset 19)
  | .airSetTemp19 => some (.set setTemperatureOffset 19)
  | .airSetTemp20 => some (.set setTemperatureOffset 20)
  | .airSetTemp21 => some (.set setTemperatureOffset 21)
  | .airSetTemp22 => some (.set setTemperatureOffset 22)
  | .airSetTemp23 => some (.set setTemperatureOffset 23)
  | .airSetTemp24 => some (.set setTemperatureOffset 24)
  | .airSetTemp25 => some (.set setTemperatureOffset 25)
  | .airSetTemp26 => some (.set setTemperatureOffset 26)
  | .airSetTemp27 => some (.set setTemperatureOffset 27)
  | .airSetTemp28 => some (.set setTemperatureOffset 28)
  | .airSetTemp29 => some (.set setTemperatureOffset 29)
  | .airSetTemp30 => some (.set setTemperatureOffset 30)
  | .airSwingAuto => some .doNothing
  | .airSwingUpDown => some .doNothing
  | .airSwingLeftRight => some .doNothing
  | .airFanAuto => some (.set setFangOffset 0x02)
  | .airFanHigh => some (.set setFangOffset 0x01)
  | .airFanMiddle => some (.set setFangOffset 0x02)
  | .airFanLow => some (.set setFangOffset 0x04)
  | .airModeFaning => some (.set setModeOffset 0x04)
  | .airModeHeating => some (.set setModeOffset 0x08)
  | .airModeCooling => some (.set setModeOffset 0x01)
  | .airModeDrying => some (.set setModeOffset 0x02)
  | .airModeAutoing => some (.set setModeOffset 0x02)
  | .airOff => some (.set setPowerOffset 0x00)
  | .airOn => some (.set setPowerOffset 0x01)
  | _ => none

def hitachiSendPackageHandle (method : DeviceMethod) (m : Message) : ℤ × Message :=
  let m := { m with code := .writeSignleRegister }
  if 127 < m.deviceAddr then (-EINVAL, m)
  else
    let holdRegister := hitachiHoldRegisterStart + m.deviceAddr * 4
    match hitachiCase method with
    | some (.set offset value) =>
      (1, { m with
        registerAddr := holdRegister + offset
        buffer := putFrame m.buffer [(value >>> 8).setWidth 8, value.setWidth 8]
        deviceAddr := hitachiVrvManagerDefaultAddress })
    | some .doNothing =>
      (1, { m with code := .doNothing, deviceAddr := hitachiVrvManagerDefaultAddress })
    | none => (0, { m with code := .doNothing })

def hitachiGetDeviceInfoSend (m : Message) : ℤ × Message :=
  (hitachiInfoRegisterLength, { m with
    registerAddr := m.deviceAddr * hitachiInfoRegisterLength
    code := .readMultipleRegisters
    deviceAddr := hitachiVrvManagerDefaultAddress })

end Hitachi

section Johnson

def johnsonControlsVrvDefaultAddress : ℤ := 0x02

def johnsonHoldRegisterStart : ℤ := 3000
def johnsonInfoRegisterLength : ℤ := 16
def johnsonDataRegisterStart : ℤ := 500

/-- `indoor_status` -/
abbrev IndoorStatus := Fin 64 → Fin 2 → BitVec 16

def initialIndoorStatus : IndoorStatus := fun _ => ![0x0002, 0x0419]

/-- What a case of the switch adds to the two words of the unit. There is none
for `RS485_AIR_SET_TEMP_21`. -/
def johnsonBits (method : DeviceMethod) : Option (Fin 2 → BitVec 16) :=
  match method with
  | .airSetTemp18 | .airSetTemp19 | .airSetTemp20 | .airSetTemp22 | .airSetTemp23 | .airSetTemp24
  | .airSetTemp25 | .airSetTemp26 | .airSetTemp27 | .airSetTemp28 | .airSetTemp29
  | .airSetTemp30 => some ![0, BitVec.ofInt 16 method.number]
  | .airSwingAuto | .airSwingUpDown | .airSwingLeftRight => some ![0x02, 0]
  | .airSwingUpDownLeftRight => some ![0x00, 0]
  | .airFanAuto => some ![0, 0x04 <<< 8]
  | .airFanHigh => some ![0, 0x03 <<< 8]
  | .airFanMiddle => some ![0, 0x02 <<< 8]
  | .airFanLow => some ![0, 0x01 <<< 8]
  | .airModeFaning => some ![0x03 <<< 8, 0]
  | .airModeHeating => some ![0x04 <<< 8, 0]
  | .airModeCooling => some ![0x01 <<< 8, 0]
  | .airModeDrying => some ![0x02 <<< 8, 0]
  | .airModeAutoing => some ![0x02 <<< 8, 0]
  | .airOff => some ![0x00 <<< 8, 0]
  | .airOn => some ![0x02 <<< 8, 0]
  | _ => none

/-- The first four words. The one for the unit is shifted in place. -/
def selectWords (deviceAddr : ℤ) (buffer : List Byte) : List (BitVec 16) :=
  let shift := deviceAddr.toNat % 16
  if 48 ≤ deviceAddr then [wordAt buffer 0 <<< shift, 0, 0, 0]
  else if 32 ≤ deviceAddr then [0, wordAt buffer 1 <<< shift, 0, 0]
  else if 16 ≤ deviceAddr then [0, 0, wordAt buffer 2 <<< shift, 0]
  else [0, 0, 0, wordAt buffer 3 <<< shift]

theorem select_words_length (deviceAddr : ℤ) (buffer : List Byte) :
    (selectWords deviceAddr buffer).length = 4 := by
  unfold selectWords
  simp only
  split_ifs <;> rfl

/-- The two words of a unit with the bits of a command. -/
def withBits (status : IndoorStatus) (unit : Fin 64) (bits : Fin 2 → BitVec 16) :
    Fin 2 → BitVec 16 := fun i => status unit i ||| bits i

/-- The low byte of the second word is the temperature. -/
def temperatureByte (words : Fin 2 → BitVec 16) : BitVec 8 := (words 1).setWidth 8

/-- The high byte of the second word is the fan. -/
def fanByte (words : Fin 2 → BitVec 16) : BitVec 8 := (words 1 >>> 8).setWidth 8

/-- The bytes of the first word are the mode, with the power, and the swing. -/
def modeByte (words : Fin 2 → BitVec 16) : BitVec 8 := (words 0 >>> 8).setWidth 8
def swingByte (words : Fin 2 → BitVec 16) : BitVec 8 := (words 0).setWidth 8

def johnsonSendPackageHandle (method : DeviceMethod) (m : Message) (status : IndoorStatus) :
    ℤ × Message × IndoorStatus :=
  let m := { m with code := .writeMultipleRegisters }
  if 64 ≤ m.deviceAddr then (-EINVAL, m, status)
  else
    let unit := unitOf m.deviceAddr
    let select := selectWords m.deviceAddr m.buffer
    let m := { m with registerAddr := johnsonHoldRegisterStart }
    match johnsonBits method with
    | some bits =>
      let words := withBits status unit bits
      (6, { m with
        buffer := putFrame m.buffer (bytesOf (select++[words 0, words 1]))
        deviceAddr := johnsonControlsVrvDefaultAddress }, Function.update status unit words)
    | none =>
      (0, { m with buffer := putFrame m.buffer (bytesOf select), code := .doNothing }, status)

/-- A command adds the bits of its method to the words of its unit. -/
theorem johnson_status (method : DeviceMethod) (m : Message) (status : IndoorStatus)
    (u : Fin 64) : (johnsonSendPackageHandle method m status).2.2 u =
      if ¬64 ≤ m.deviceAddr ∧ unitOf m.deviceAddr = u then
        withBits status u ((johnsonBits method).getD fun _ => 0)
      else status u := by
  unfold johnsonSendPackageHandle
  by_cases haddr : 64 ≤ m.deviceAddr
  · simp [haddr]
  · cases hbits : johnsonBits method with
    | none =>
      have hnothing : withBits status u (fun _ => 0) = status u := by
        funext i
        exact BitVec.or_zero
      simp only [haddr, if_false, Option.getD_none, hnothing, ite_self]
    | some bits =>
      by_cases hunit : unitOf m.deviceAddr = u
      · simp [haddr, hunit]
      · simp [haddr, hunit, Ne.symm hunit]

def johnsonGetDeviceInfoSend (m : Message) : ℤ × Message :=
  (johnsonInfoRegisterLength, { m with
    code := .readMultipleRegisters
    registerAddr := m.deviceAddr * johnsonInfoRegisterLength + johnsonDataRegisterStart
    deviceAddr := johnsonControlsVrvDefaultAddress })

end Johnson

end RS485.Gateways
