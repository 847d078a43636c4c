import Rs485.General

/-!
# The frames of four drivers

What `doya.c`, `aoke.c`, `loreley.c` and `panasonnic.c` write into the package
buffer of a handle, and what they make of the reply that is read into it.
Writing past the buffer would make the modelled buffer longer.
-/

set_option autoImplicit false

namespace RS485.Encoders
open RS485.Platform RS485.Records RS485.General

/-- The numbers that `rs485_device_method_enum` names. -/
def methodNumbers : List ℤ :=
  [10, 18, 19, 20, 21, 22, 23, 24, 25, 26, 27, 28, 29, 30, 40, 41, 42, 43, 44, 50, 51, 52, 53, 54,
    60, 61, 62, 63, 64, 65, 70, 71, 72, 73, 81, 100, 101, 102, 103, 104, 105, 200, 201, 202, 203,
    204]

/-- `rs485_device_method_enum`. Any other number may be in a handle as well. -/
inductive DeviceMethod where
  | airSetTemp
  | airSetTemp18
  | airSetTemp19
  | airSetTemp20
  | airSetTemp21
  | airSetTemp22
  | airSetTemp23
  | airSetTemp24
  | airSetTemp25
  | airSetTemp26
  | airSetTemp27
  | airSetTemp28
  | airSetTemp29
  | airSetTemp30
  | airSwing
  | airSwingAuto
  | airSwingUpDown
  | airSwingLeftRight
  | airSwingUpDownLeftRight
  | airFan
  | airFanAuto
  | airFanHigh
  | airFanMiddle
  | airFanLow
  | airMode
  | airModeFaning
  | airModeHeating
  | airModeCooling
  | airModeDrying
  | airModeAutoing
  | airSwitch
  | airOff
  | airOn
  | airRestart
  | airGetDeviceInfo
  | curtain
  | curtainOpen
  | curtainClose
  | curtainSetPercent
  | curtainReset
  | curtainGetDeviceInfo
  | freshAir
  | freshAirAutoOn
  | freshAirAutoOff
  | freshAirReset
  | freshAirGetDeviceInfo
  | unknown (value : ℤ) (unnamed : value ∉ methodNumbers)
  deriving DecidableEq, Repr

/-- The number of a method in the enumeration. -/
def DeviceMethod.number : DeviceMethod → ℤ
  | .airSetTemp => 10
  | .airSetTemp18 => 18
  | .airSetTemp19 => 19
  | .airSetTemp20 => 20
  | .airSetTemp21 => 21
  | .airSetTemp22 => 22
  | .airSetTemp23 => 23
  | .airSetTemp24 => 24
  | .airSetTemp25 => 25
  | .airSetTemp26 => 26
  | .airSetTemp27 => 27
  | .airSetTemp28 => 28
  | .airSetTemp29 => 29
  | .airSetTemp30 => 30
  | .airSwing => 40
  | .airSwingAuto => 41
  | .airSwingUpDown => 42
  | .airSwingLeftRight => 43
  | .airSwingUpDownLeftRight => 44
  | .airFan => 50
  | .airFanAuto => 51
  | .airFanHigh => 52
  | .airFanMiddle => 53
  | .airFanLow => 54
  | .airMode => 60
  | .airModeFaning => 61
  | .airModeHeating => 62
  | .airModeCooling => 63
  | .airModeDrying => 64
  | .airModeAutoing => 65
  | .airSwitch => 70
  | .airOff => 71
  | .airOn => 72
  | .airRestart => 73
  | .airGetDeviceInfo => 81
  | .curtain => 100
  | .curtainOpen => 101
  | .curtainClose => 102
  | .curtainSetPercent => 103
  | .curtainReset => 104
  | .curtainGetDeviceInfo => 105
  | .freshAir => 200
  | .freshAirAutoOn => 201
  | .freshAirAutoOff => 202
  | .freshAirReset => 203
  | .freshAirGetDeviceInfo => 204
  | .unknown value _ => value

/-- The fields of `struct mstp_port_handle` that the drivers read. -/
structure Target where
  address : ℕ → Byte
  addressLen : ℤ
  broadcast : Bool
  method : DeviceMethod
  value : BitVec 32
  deviceId : ℤ

abbrev PortHandle := Handle Target

/-- `memcpy` to the start of the buffer. -/
def putFrame (buffer frame : List Byte) : List Byte := frame++buffer.drop frame.length

/-- The frame is copied if it fits into `len` bytes, and else the error is
returned. -/
def putIfFits (buffer : List Byte) (len : ℤ) (frame : List Byte) (error : ℤ) : ℤ × List Byte :=
  if len < frame.length then (error, buffer) else (frame.length, putFrame buffer frame)

section Doya

def crcHigh : List Byte := [
  0x00, 0xc1, 0x81, 0x40, 0x01, 0xc0, 0x80, 0x41, 0x01, 0xc0, 0x80, 0x41, 0x00, 0xc1, 0x81, 0x40,
  0x01, 0xc0, 0x80, 0x41, 0x00, 0xc1, 0x81, 0x40, 0x00, 0xc1, 0x81, 0x40, 0x01, 0xc0, 0x80, 0x41,
  0x01, 0xc0, 0x80, 0x41, 0x00, 0xc1, 0x81, 0x40, 0x00, 0xc1, 0x81, 0x40, 0x01, 0xc0, 0x80, 0x41,
  0x00, 0xc1, 0x81, 0x40, 0x01, 0xc0, 0x80, 0x41, 0x01, 0xc0, 0x80, 0x41, 0x00, 0xc1, 0x81, 0x40,
  0x01, 0xc0, 0x80, 0x41, 0x00, 0xc1, 0x81, 0x40, 0x00, 0xc1, 0x81, 0x40, 0x01, 0xc0, 0x80, 0x41,
  0x00, 0xc1, 0x81, 0x40, 0x01, 0xc0, 0x80, 0x41, 0x01, 0xc0, 0x80, 0x41, 0x00, 0xc1, 0x81, 0x40,
  0x00, 0xc1, 0x81, 0x40, 0x01, 0xc0, 0x80, 0x41, 0x01, 0xc0, 0x80, 0x41, 0x00, 0xc1, 0x81, 0x40,
  0x01, 0xc0, 0x80, 0x41, 0x00, 0xc1, 0x81, 0x40, 0x00, 0xc1, 0x81, 0x40, 0x01, 0xc0, 0x80, 0x41,
  0x01, 0xc0, 0x80, 0x41, 0x00, 0xc1, 0x81, 0x40, 0x00, 0xc1, 0x81, 0x40, 0x01, 0xc0, 0x80, 0x41,
  0x00, 0xc1, 0x81, 0x40, 0x01, 0xc0, 0x80, 0x41, 0x01, 0xc0, 0x80, 0x41, 0x00, 0xc1, 0x81, 0x40,
  0x00, 0xc1, 0x81, 0x40, 0x01, 0xc0, 0x80, 0x41, 0x01, 0xc0, 0x80, 0x41, 0x00, 0xc1, 0x81, 0x40,
  0x01, 0xc0, 0x80, 0x41, 0x00, 0xc1, 0x81, 0x40, 0x00, 0xc1, 0x81, 0x40, 0x01, 0xc0, 0x80, 0x41,
  0x00, 0xc1, 0x81, 0x40, 0x01, 0xc0, 0x80, 0x41, 0x01, 0xc0, 0x80, 0x41, 0x00, 0xc1, 0x81, 0x40,
  0x01, 0xc0, 0x80, 0x41, 0x00, 0xc1, 0x81, 0x40, 0x00, 0xc1, 0x81, 0x40, 0x01, 0xc0, 0x80, 0x41,
  0x01, 0xc0, 0x80, 0x41, 0x00, 0xc1, 0x81, 0x40, 0x00, 0xc1, 0x81, 0x40, 0x01, 0xc0, 0x80, 0x41,
  0x00, 0xc1, 0x81, 0x40, 0x01, 0xc0, 0x80, 0x41, 0x01, 0xc0, 0x80, 0x41, 0x00, 0xc1, 0x81, 0x40]

def crcLow : List Byte := [
  0x00, 0xc0, 0xc1, 0x01, 0xc3, 0x03, 0x02, 0xc2, 0xc6, 0x06, 0x07, 0xc7, 0x05, 0xc5, 0xc4, 0x04,
  0xcc, 0x0c, 0x0d, 0xcd, 0x0f, 0xcf, 0xce, 0x0e, 0x0a, 0xca, 0xcb, 0x0b, 0xc9, 0x09, 0x08, 0xc8,
  0xd8, 0x18, 0x19, 0xd9, 0x1b, 0xdb, 0xda, 0x1a, 0x1e, 0xde, 0xdf, 0x1f, 0xdd, 0x1d, 0x1c, 0xdc,
  0x14, 0xd4, 0xd5, 0x15, 0xd7, 0x17, 0x16, 0xd6, 0xd2, 0x12, 0x13, 0xd3, 0x11, 0xd1, 0xd0, 0x10,
  0xf0, 0x30, 0x31, 0xf1, 0x33, 0xf3, 0xf2, 0x32, 0x36, 0xf6, 0xf7, 0x37, 0xf5, 0x35, 0x34, 0xf4,
  0x3c, 0xfc, 0xfd, 0x3d, 0xff, 0x3f, 0x3e, 0xfe, 0xfa, 0x3a, 0x3b, 0xfb, 0x39, 0xf9, 0xf8, 0x38,
  0x28, 0xe8, 0xe9, 0x29, 0xeb, 0x2b, 0x2a, 0xea, 0xee, 0x2e, 0x2f, 0xef, 0x2d, 0xed, 0xec, 0x2c,
  0xe4, 0x24, 0x25, 0xe5, 0x27, 0xe7, 0xe6, 0x26, 0x22, 0xe2, 0xe3, 0x23, 0xe1, 0x21, 0x20, 0xe0,
  0xa0, 0x60, 0x61, 0xa1, 0x63, 0xa3, 0xa2, 0x62, 0x66, 0xa6, 0xa7, 0x67, 0xa5, 0x65, 0x64, 0xa4,
  0x6c, 0xac, 0xad, 0x6d, 0xaf, 0x6f, 0x6e, 0xae, 0xaa, 0x6a, 0x6b, 0xab, 0x69, 0xa9, 0xa8, 0x68,
  0x78, 0xb8, 0xb9, 0x79, 0xbb, 0x7b, 0x7a, 0xba, 0xbe, 0x7e, 0x7f, 0xbf, 0x7d, 0xbd, 0xbc, 0x7c,
  0xb4, 0x74, 0x75, 0xb5, 0x77, 0xb7, 0xb6, 0x76, 0x72, 0xb2, 0xb3, 0x73, 0xb1, 0x71, 0x70, 0xb0,
  0x50, 0x90, 0x91, 0x51, 0x93, 0x53, 0x52, 0x92, 0x96, 0x56, 0x57, 0x97, 0x55, 0x95, 0x94, 0x54,
  0x9c, 0x5c, 0x5d, 0x9d, 0x5f, 0x9f, 0x9e, 0x5e, 0x5a, 0x9a, 0x9b, 0x5b, 0x99, 0x59, 0x58, 0x98,
  0x88, 0x48, 0x49, 0x89, 0x4b, 0x8b, 0x8a, 0x4a, 0x4e, 0x8e, 0x8f, 0x4f, 0x8d, 0x4d, 0x4c, 0x8c,
  0x44, 0x84, 0x85, 0x45, 0x87, 0x47, 0x46, 0x86, 0x82, 0x42, 0x43, 0x83, 0x41, 0x81, 0x80, 0x40]

/-- One pass of the loop of `modbus_crc16`, on `ucCRCHi` and `ucCRCLo`. -/
def modbusCrcStep (crc : Byte × Byte) (byte : Byte) : Byte × Byte :=
  let index := (crc.2 ^^^ byte).toNat
  (crcLow.getD index 0, crc.1 ^^^ crcHigh.getD index 0)

/-- `result` of `modbus_crc16` -/
def modbusCrc16 (frame : List Byte) : List Byte :=
  let crc := frame.foldl modbusCrcStep (0xff, 0xff)
  [crc.2, crc.1]

inductive Command where
  | commandOpen
  | commandClose
  | commandStop
  | commandPercent
  | commandDelete
  | commandRefactory
  | woAddr
  | roPercent
  | rwDirection
  | rwHandle
  | rwSwitchPassive
  | rwSwitchActive
  | roVersion
  deriving DecidableEq, Repr

structure Package where
  addrLow : Byte
  addrHigh : Byte
  command : Byte
  dataAddr : Byte
  data : ℕ → Byte
  cmd : Command

def curtainCommand : Byte := 0x03
def curtainRead : Byte := 0x01
def curtainWrite : Byte := 0x02

def curtainCommandOpen : Byte := 0x01
def curtainCommandClose : Byte := 0x02
def curtainCommandPercent : Byte := 0x04
def curtainReadWritePercent : Byte := 0x02

/-- How many bytes of `data` the frame carries. -/
def Package.dataLen (package : Package) : ℕ :=
  match package.cmd with
  | .commandOpen | .commandClose | .commandStop | .commandDelete | .commandRefactory => 0
  | .commandPercent => 1
  | .woAddr => 3
  | .roPercent | .roVersion => 1
  | .rwDirection | .rwHandle | .rwSwitchPassive | .rwSwitchActive =>
    if package.command = curtainRead then 1 else 2

def Package.header (package : Package) : List Byte :=
  [0x55, package.addrLow, package.addrHigh, package.command, package.dataAddr]

def Package.body (package : Package) : List Byte :=
  package.header++(List.range package.dataLen).map package.data

def doyaSendPackage (sendBuffer : List Byte) (bufferLen : ℤ) (package : Package) :
    ℤ × List Byte :=
  if package.cmd = .woAddr ∧ (package.data 1 = 0x00 ∨ package.data 2 = 0x00) then (-1, sendBuffer)
  else if package.cmd = .woAddr ∧ (package.data 1 = 0xff ∨ package.data 2 = 0xff) then
    (-1, sendBuffer)
  else putIfFits sendBuffer bufferLen (package.body++modbusCrc16 package.body) (-1)

/-- `memset(&package, 0x00, sizeof(package))` and the address. -/
def Package.zeroed (target : Target) : Package where
  addrLow := if target.broadcast then 0x00 else target.address 1
  addrHigh := if target.broadcast then 0x00 else target.address 0
  command := 0
  dataAddr := 0
  data _ := 0
  cmd := .commandOpen

/-- The switch over the method. -/
def doyaPackage (target : Target) : Option Package :=
  let package := Package.zeroed target
  match target.method with
  | .curtainOpen => some { package with
      cmd := .commandOpen
      command := curtainCommand
      dataAddr := curtainCommandOpen }
  | .curtainClose => some { package with
      cmd := .commandClose
      command := curtainCommand
      dataAddr := curtainCommandClose }
  | .curtainSetPercent => some { package with
      cmd := .commandPercent
      command := curtainCommand
      dataAddr := curtainCommandPercent
      data := Function.update package.data 0 (target.value.setWidth 8) }
  | .curtainReset => some package
  | .curtainGetDeviceInfo => some { package with
      cmd := .roPercent
      command := curtainRead
      dataAddr := curtainReadWritePercent }
  | _ => none

def broadMask : Byte := 0x00

def doyaSendPackageHandle (handle : PortHandle) : ℤ × PortHandle :=
  if handle.data.addressLen < 2 then (-1, handle)
  else
    let handle := if (Package.zeroed handle.data).addrLow = broadMask then
        { handle with exceptReply := false }
      else handle
    match doyaPackage handle.data with
    | none => (-1, handle)
    | some package =>
      let (n, buffer) := doyaSendPackage handle.packageBuffer handle.packageBufferLen package
      (n, { handle with packageBuffer := buffer })

end Doya

section Aoke

def aokeSi : Byte := 0x9a
def aokeCommandControl : Byte := 0x0a
def aokeCommandPostion : Byte := 0xdd
def aokeControlUp : Byte := 0xdd
def aokeControlDown : Byte := 0xee

/-- `rs485_curtain_ao_ke_send_package_t`, `d1` to `d5` -/
abbrev AokePackage := List Byte

def getCheck (package : AokePackage) : Byte := package.foldl (· ^^^ ·) 0

/-- `set the broadcast address` -/
def aokeAddress (target : Target) : Target :=
  if target.broadcast then
    { target with address := fun i =>
        if i = 0 then 0x00 else if i = 1 ∨ i = 2 then 0xff else target.address i }
  else target

def aokePackage (target : Target) : Option AokePackage :=
  let address := [target.address 0, target.address 1, target.address 2]
  match target.method with
  | .curtainOpen => some (address++[aokeCommandControl, aokeControlDown])
  | .curtainClose => some (address++[aokeCommandControl, aokeControlUp])
  | .curtainSetPercent => some (address++[aokeCommandPostion, target.value.setWidth 8])
  | .curtainGetDeviceInfo => some [0x00, 0x00, 0x00, 0x00, 0x00]
  | _ => none

/-- The comparison of the buffer length is one of unsigned numbers. -/
def aokeSendPackageHandle (handle : PortHandle) : ℤ × PortHandle :=
  if handle.data.addressLen ≠ 3 then (-1, handle)
  else if handle.packageBufferLen % 2 ^ 32 < 7 then (-1, handle)
  else
    let handle := { handle with data := aokeAddress handle.data }
    match aokePackage handle.data with
    | none => (-1, handle)
    | some package =>
      (7, { handle with
        packageBuffer := putFrame handle.packageBuffer (aokeSi::package++[getCheck package]) })

end Aoke

section Sums

def soiSend : Byte := 0xaa
def soiReceive : Byte := 0x55
def rtnSend : Byte := 0x60
def rtnReceiveCmdRight : Byte := 0x01
def eoi : Byte := 0x0d

def calculateSumCheck (value : List Byte) : Byte := ~~~(value.foldl (· + ·) 0) + 1

/-- The address, the command, `RTN_SEND` and the length, with the data. -/
def sumBody (addr cid : Byte) (data : List Byte) : List Byte :=
  addr::cid::rtnSend::BitVec.ofNat 8 data.length::data

def sumFrame (addr cid : Byte) (data : List Byte) : List Byte :=
  soiSend::sumBody addr cid data++[calculateSumCheck (sumBody addr cid data), eoi]

end Sums

section Loreley

def setAddrCid : Byte := 0x20
def getAddrCid : Byte := 0x21
def getInfoCid : Byte := 0x22
def setArgCid : Byte := 0x23
def restartCid : Byte := 0x24

def newTrendOn : List Byte := [0x01, 0x01, 0x00, 0x00, 0x00]
def newTrendOff : List Byte := [0x01, 0x00, 0x00, 0x00, 0x00]

def loreleySendPackage (sendBuffer : List Byte) (sendBufferLen : ℤ) (addr msgCid : Byte)
    (data : List Byte) : ℤ × List Byte :=
  if msgCid = getAddrCid ∨ msgCid = getInfoCid ∨ msgCid = restartCid then
    putIfFits sendBuffer sendBufferLen (sumFrame addr msgCid []) (-1)
  else if msgCid = setAddrCid then
    putIfFits sendBuffer sendBufferLen (sumFrame addr msgCid (data.take 1)) (-1)
  else if msgCid = setArgCid then
    putIfFits sendBuffer sendBufferLen (sumFrame addr msgCid (data.take 5)) (-1)
  else (-1, sendBuffer)

/-- The command and the data for a method. -/
def loreleyCommand : DeviceMethod → Option (Byte × List Byte)
  | .freshAirAutoOn => some (setArgCid, newTrendOn)
  | .freshAirAutoOff => some (setArgCid, newTrendOff)
  | .freshAirGetDeviceInfo => some (getInfoCid, [])
  | _ => none

def loreleySendPackageHandle (handle : PortHandle) : ℤ × PortHandle :=
  if handle.data.addressLen ≠ 1 then (-1, handle)
  else
    match loreleyCommand handle.data.method with
    | none => (-1, handle)
    | some (cid, data) =>
      let (n, buffer) := loreleySendPackage handle.packageBuffer handle.packageBufferLen
        (handle.data.address 0) cid data
      (n, { handle with packageBuffer := buffer })

end Loreley

section Panasonnic

def getAirAddrCidSend : Byte := 0x01
def getAirInfoCidSend : Byte := 0x02
def setAirArgCidSend : Byte := 0x03
def resetAirCidSend : Byte := 0x04

def argError : ℤ := -7
def packageMax : ℤ := 20

def airCommandTable : List (List Byte) := [
  [0x05, 0x00, 0x00, 0x20, 0x00],
  [0x05, 0x00, 0x00, 0x22, 0x00],
  [0x05, 0x00, 0x00, 0x24, 0x00],
  [0x05, 0x00, 0x00, 0x26, 0x00],
  [0x05, 0x00, 0x00, 0x28, 0x00],
  [0x05, 0x00, 0x00, 0x2a, 0x00],
  [0x05, 0x00, 0x00, 0x2c, 0x00],
  [0x05, 0x00, 0x00, 0x2e, 0x00],
  [0x05, 0x00, 0x00, 0x30, 0x00],
  [0x05, 0x00, 0x00, 0x32, 0x00],
  [0x05, 0x00, 0x00, 0x34, 0x00],
  [0x05, 0x00, 0x00, 0x36, 0x00],
  [0x05, 0x00, 0x00, 0x38, 0x00],
  [0x05, 0x00, 0x00, 0x3a, 0x00],
  [0x05, 0x00, 0x00, 0x3c, 0x00],
  [0x04, 0x00, 0x0e, 0x00, 0x00],
  [0x04, 0x00, 0x05, 0x00, 0x00],
  [0x04, 0x00, 0x04, 0x00, 0x00],
  [0x04, 0x00, 0x03, 0x00, 0x00],
  [0x04, 0x00, 0x02, 0x00, 0x00],
  [0x04, 0x00, 0x01, 0x00, 0x00],
  [0x03, 0x00, 0xa0, 0x00, 0x00],
  [0x03, 0x00, 0x70, 0x00, 0x00],
  [0x03, 0x00, 0x50, 0x00, 0x00],
  [0x03, 0x00, 0x30, 0x00, 0x00],
  [0x03, 0x00, 0x90, 0x00, 0x00],
  [0x03, 0x00, 0xb0, 0x00, 0x00],
  [0x02, 0x60, 0x00, 0x00, 0x00],
  [0x02, 0x40, 0x00, 0x00, 0x00],
  [0x02, 0x30, 0x00, 0x00, 0x00],
  [0x02, 0x20, 0x00, 0x00, 0x00],
  [0x02, 0x00, 0x00, 0x00, 0x00],
  [0x01, 0x00, 0x00, 0x00, 0x00],
  [0x01, 0x01, 0x00, 0x00, 0x00]]

def panasonnicSendPackage (out : List Byte) (outLen : ℤ) (addr msgCid : Byte) (data : List Byte)
    (dataLen : ℤ) : ℤ × List Byte :=
  if packageMax ≤ dataLen + 7 then (argError, out)
  else if msgCid = getAirAddrCidSend ∨ msgCid = resetAirCidSend ∨ msgCid = getAirInfoCidSend then
    putIfFits out outLen (sumFrame addr msgCid []) (-EPERM)
  else if msgCid = setAirArgCidSend then
    putIfFits out outLen (sumFrame addr msgCid (data.take 5)) (-EPERM)
  else (argError, out)

/-- The row of `air_command_table` for a method. -/
def airCommand : DeviceMethod → Option ℕ
  | .airSetTemp18 => some 2
  | .airSetTemp19 => some 3
  | .airSetTemp20 => some 4
  | .airSetTemp21 => some 5
  | .airSetTemp22 => some 6
  | .airSetTemp23 => some 7
  | .airSetTemp24 => some 8
  | .airSetTemp25 => some 9
  | .airSetTemp26 => some 10
  | .airSetTemp27 => some 11
  | .airSetTemp28 => some 12
  | .airSetTemp29 => some 13
  | .airSetTemp30 => some 14
  | .airSwingAuto => some 15
  | .airSwingLeftRight => some 16
  | .airSwingUpDown => some 17
  | .airSwingUpDownLeftRight => some 18
  | .airFanAuto => some 21
  | .airFanHigh => some 22
  | .airFanMiddle => some 23
  | .airFanLow => some 24
  | .airModeFaning => some 27
  | .airModeHeating => some 28
  | .airModeCooling => some 29
  | .airModeDrying => some 30
  | .airModeAutoing => some 31
  | .airOff => some 32
  | .airOn => some 33
  | _ => none

/-- Other methods leave `package_len` at 0. -/
def panasonnicSendPackageHandle (handle : PortHandle) : ℤ × PortHandle :=
  if handle.data.addressLen ≠ 1 then (-EPERM, handle)
  else
    let send := panasonnicSendPackage handle.packageBuffer handle.packageBufferLen
      (handle.data.address 0)
    match airCommand handle.data.method with
    | some row =>
      let (n, buffer) := send setAirArgCidSend (airCommandTable.getD row []) 5
      (n, { handle with packageBuffer := buffer })
    | none =>
      if handle.data.method = .airGetDeviceInfo then
        let (n, buffer) := send getAirInfoCidSend [] 0
        (n, { handle with packageBuffer := buffer })
      else (0, handle)

end Panasonnic

section Replies

/-- The profiles of `read_device_return_t` that a reply fills. -/
inductive Profile where
  | curtain (currentPercent : Byte)
  | freshAir (roomTemperature roomHumidity pm25 : Byte) (freshLevel : ℕ)
  deriving DecidableEq

structure ReadDeviceReturn where
  runing : Bool
  error : Bool
  profile : Profile
  deriving DecidableEq

/-- What a receive handler returns, and its call of
`set_read_device_information`. -/
structure Received where
  ret : ℤ
  info : Option (ReadDeviceReturn × ℤ)
  deriving DecidableEq

/-- The bytes of the reply: `package_buffer[0]` to
`package_buffer[package_buffer_len-1]`. -/
def reply (handle : PortHandle) : List Byte :=
  handle.packageBuffer.take handle.packageBufferLen.toNat

/-- `package_buffer[i]`, which has no result outside the reply. -/
def byteAt (r : List Byte) (i : ℤ) : Option Byte :=
  if i < 0 then none else r[i.toNat]?

/-- `length` bytes from the second one on, none for a length below zero. -/
def bytesFromOne (r : List Byte) (length : ℤ) : Option (List Byte) :=
  if 1 + length ≤ r.length then some ((r.drop 1).take length.toNat) else none

/-- `new_device_info` of `loreley.c` -/
def freshAirInfo (r : List Byte) : Option ReadDeviceReturn := do
  let temperature ← byteAt r 7
  let humidity ← byteAt r 9
  let pm25 ← byteAt r 11
  let error ← byteAt r 14
  let runing ← byteAt r 15
  some ⟨runing ≠ 0, error ≠ 0, .freshAir temperature humidity pm25 1⟩

def loreleyRecvPackageHandle (handle : PortHandle) : Option Received := do
  let r := reply handle
  let n := handle.packageBufferLen
  let head ← byteAt r 0
  let tail ← byteAt r (n - 1)
  if head ≠ soiReceive ∨ tail ≠ eoi then some ⟨-eio, none⟩
  else
    let crc := calculateSumCheck (← bytesFromOne r (n - 3))
    if (← byteAt r (n - 2)) ≠ crc then some ⟨-eio, none⟩
    else
      match handle.data.method with
      | .freshAirAutoOff | .freshAirAutoOn => some ⟨0, none⟩
      | .freshAirGetDeviceInfo =>
        if n ≠ 18 then some ⟨-eio, none⟩
        else
          let info ← freshAirInfo r
          some ⟨0, some (info, handle.data.deviceId)⟩
      | _ => some ⟨-EPERM, none⟩

/-- For a request of the device information `crc` keeps its initial zeros. -/
def doyaRecvPackageHandle (handle : PortHandle) : Option Received := do
  let r := reply handle
  let n := handle.packageBufferLen
  match handle.data.method with
  | .curtainOpen | .curtainClose | .curtainSetPercent =>
    -- a length of one makes the loop of `modbus_crc16` count down from -1
    if n < 2 then none
    else if modbusCrc16 (r.take (n - 2).toNat) ≠ r.drop (n - 2).toNat then some ⟨-eio, none⟩
    else some ⟨0, none⟩
  | .curtainGetDeviceInfo =>
    if n ≠ 7 then some ⟨-eio, none⟩
    else if r.drop 5 ≠ [0, 0] then some ⟨-eio, none⟩
    else
      let percent ← byteAt r 4
      some ⟨0, some (⟨true, false, .curtain percent⟩, handle.data.deviceId)⟩
  | _ => some ⟨-EPERM, none⟩

end Replies

section Drivers

inductive Driver where
  | doya
  | aoke
  | loreley
  | panasonnic
  deriving DecidableEq, Repr

def sendPackageHandle : Driver → PortHandle → ℤ × PortHandle
  | .doya => doyaSendPackageHandle
  | .aoke => aokeSendPackageHandle
  | .loreley => loreleySendPackageHandle
  | .panasonnic => panasonnicSendPackageHandle

end Drivers

end RS485.Encoders
