import Rs485.Records

/-!
# The York boxes on BACnet

`york.c` and `bacnet_write_property` of `write_property.c`. The stack under
them answers as a parameter. The call that would parse the value of a request
is compiled out.
-/

set_option autoImplicit false

namespace RS485.York
open RS485.Platform RS485.Records

inductive FunctionCode where
  | writeProperty
  | readProperty
  | writeMultipleProperty
  | readMultipleProperty
  | doNothing
  deriving DecidableEq

/-- `bacnet_write_args_t` -/
structure WriteArgs where
  deviceId : BitVec 32
  objectType : ℤ
  objectInstance : ℤ
  objectProperty : ℤ
  objectPropertyPriority : ℤ
  objectPropertyIndex : BitVec 32
  objectPropertyValueType : ℤ
  objectPropertyValue : CString

/-- `bacnet_port_handle_t` -/
structure PortHandle where
  code : FunctionCode
  /-- `mac[0]` -/
  mac : Byte
  method : ℤ
  writeArg : WriteArgs

section York

/-- A row of `york_air_condition_object`. -/
structure Row where
  objectType : ℤ
  objectInstance : ℤ
  property : ℤ
  priority : ℤ
  index : ℤ
  valueType : ℤ
  value : ℤ
  deriving DecidableEq, Inhabited

def yorkAirConditionObject : List Row := [
  ⟨2, 0, 85, 16, -1, 4, 18⟩,
  ⟨2, 0, 85, 16, -1, 4, 19⟩,
  ⟨2, 0, 85, 16, -1, 4, 20⟩,
  ⟨2, 0, 85, 16, -1, 4, 21⟩,
  ⟨2, 0, 85, 16, -1, 4, 22⟩,
  ⟨2, 0, 85, 16, -1, 4, 23⟩,
  ⟨2, 0, 85, 16, -1, 4, 24⟩,
  ⟨2, 0, 85, 16, -1, 4, 25⟩,
  ⟨2, 0, 85, 16, -1, 4, 26⟩,
  ⟨2, 0, 85, 16, -1, 4, 27⟩,
  ⟨2, 0, 85, 16, -1, 4, 28⟩,
  ⟨2, 0, 85, 16, -1, 4, 29⟩,
  ⟨2, 0, 85, 16, -1, 4, 30⟩,
  ⟨2, 0, 85, 16, -1, 4, 31⟩,
  ⟨2, 0, 85, 16, -1, 4, 32⟩,
  ⟨2, 1, 85, 16, -1, 4, 60⟩,
  ⟨14, 2, 85, 16, -1, 2, 0⟩,
  ⟨14, 2, 85, 16, -1, 2, 1⟩,
  ⟨14, 2, 85, 16, -1, 2, 2⟩,
  ⟨14, 2, 85, 16, -1, 2, 3⟩,
  ⟨14, 1, 85, 16, -1, 2, 0⟩,
  ⟨14, 1, 85, 16, -1, 2, 1⟩,
  ⟨14, 1, 85, 16, -1, 2, 3⟩,
  ⟨14, 1, 85, 16, -1, 2, 2⟩,
  ⟨14, 0, 85, 16, -1, 2, 0⟩,
  ⟨14, 0, 85, 16, -1, 2, 1⟩,
  ⟨14, 0, 85, 16, -1, 2, 2⟩,
  ⟨14, 0, 85, 16, -1, 2, 3⟩,
  ⟨14, 0, 85, 16, -1, 2, 4⟩,
  ⟨5, 0, 85, 16, -1, 9, 0⟩,
  ⟨5, 0, 85, 16, -1, 9, 1⟩,
  ⟨5, 1, 85, 16, -1, 9, 1⟩,
  ⟨5, 1, 85, 16, -1, 9, 0⟩,
  ⟨5, 2, 85, 16, -1, 9, 1⟩,
  ⟨5, 2, 85, 16, -1, 9, 0⟩,
  ⟨5, 3, 85, 16, -1, 9, 1⟩,
  ⟨5, 3, 85, 16, -1, 9, 0⟩,
  ⟨5, 4, 85, 16, -1, 9, 1⟩,
  ⟨5, 4, 85, 16, -1, 9, 0⟩,
  ⟨5, 5, 85, 16, -1, 9, 1⟩,
  ⟨5, 5, 85, 16, -1, 9, 0⟩,
  ⟨5, 6, 85, 16, -1, 9, 1⟩,
  ⟨5, 6, 85, 16, -1, 9, 0⟩,
  ⟨5, 7, 85, 16, -1, 9, 1⟩,
  ⟨5, 7, 85, 16, -1, 9, 0⟩,
  ⟨5, 8, 85, 16, -1, 9, 1⟩,
  ⟨5, 8, 85, 16, -1, 9, 0⟩,
  ⟨5, 9, 85, 16, -1, 9, 1⟩,
  ⟨5, 9, 85, 16, -1, 9, 0⟩,
  ⟨5, 10, 85, 16, -1, 9, 1⟩,
  ⟨5, 10, 85, 16, -1, 9, 0⟩,
  ⟨5, 11, 85, 16, -1, 9, 1⟩,
  ⟨5, 11, 85, 16, -1, 9, 0⟩,
  ⟨5, 12, 85, 16, -1, 9, 1⟩,
  ⟨5, 12, 85, 16, -1, 9, 0⟩]

def row (i : ℤ) : Row := yorkAirConditionObject.getD i.toNat default

/-- `"%d"` -/
def decimal (n : ℤ) : CString :=
  if n < 0 then '-'::Nat.toDigits 10 n.natAbs else Nat.toDigits 10 n.toNat

/-- The assignments of a group of commands. The array index and the value come
from a row of their own. -/
def fillArgs (args : WriteArgs) (deviceId : BitVec 32) (i iValue : ℤ) : WriteArgs :=
  { args with
    deviceId := deviceId
    objectType := (row i).objectType
    objectInstance := (row i).objectInstance
    objectProperty := (row i).property
    objectPropertyPriority := (row i).priority
    objectPropertyValueType := (row i).valueType
    objectPropertyIndex :=
      if (row iValue).index = -1 then 0xFFFFFFFF else args.objectPropertyIndex
    objectPropertyValue := decimal (row iValue).value }

/-- The test before the switch asks for a command below 18 and above 81 and is
left out. For the modes the value is looked up from the first method of the fan. -/
def getAirYorkWriteArgs (args : WriteArgs) (deviceId : BitVec 32) (command : ℤ) : ℤ × WriteArgs :=
  if 18 ≤ command ∧ command ≤ 30 then (0, fillArgs args deviceId (command - 18) (command - 18))
  else if 41 ≤ command ∧ command ≤ 44 then
    (0, fillArgs args deviceId (command - 41 + 16) (command - 41 + 16))
  else if 51 ≤ command ∧ command ≤ 54 then
    (0, fillArgs args deviceId (command - 51 + 20) (command - 51 + 20))
  else if 61 ≤ command ∧ command ≤ 65 then
    (0, fillArgs args deviceId (command - 61 + 24) (command - 51 + 24))
  else if 71 ≤ command ∧ command ≤ 72 then
    (0, fillArgs args deviceId (command - 71 + 29) (command - 71 + 29))
  else (-EPERM, args)

def getAirYorkInstance (mac : Byte) : ℤ :=
  match mac.toNat with
  | 0x11 => 10001
  | 0x12 => 10002
  | 0x13 => 10003
  | 0x14 => 10004
  | 0x15 => 10005
  | 0x16 => 10006
  | 0x17 => 10007
  | 0x18 => 10008
  | 0x19 => 10009
  | 0x1a => 10010
  | 0x1b => 10011
  | 0x1c => 10012
  | 0x1d => 10013
  | 0x1e => 10014
  | 0x1f => 10015
  | _ => -EPERM

/-- What every setter does. The error of the lookup is stored as an unsigned
device id. -/
def yorkKelongSet (handle : PortHandle) : ℤ × PortHandle :=
  let deviceId := BitVec.ofInt 32 (getAirYorkInstance handle.mac)
  let (ret, args) := getAirYorkWriteArgs { handle.writeArg with deviceId := deviceId } deviceId
    handle.method
  (ret, { handle with code := .writeProperty, writeArg := args })

def yorkKelongSetTemperature := yorkKelongSet
def yorkKelongSetMode := yorkKelongSet
def yorkKelongSetSwing := yorkKelongSet
def yorkKelongSetFan := yorkKelongSet
def yorkKelongSetSwitch := yorkKelongSet

inductive Setter where
  | temperature
  | mode
  | swing
  | fan
  | switch
  deriving DecidableEq

def Setter.sendHandle : Setter → PortHandle → ℤ × PortHandle
  | .temperature => yorkKelongSetTemperature
  | .mode => yorkKelongSetMode
  | .swing => yorkKelongSetSwing
  | .fan => yorkKelongSetFan
  | .switch => yorkKelongSetSwitch

end York

section WriteProperty

/-- The tag of a value and the member of the union that goes with it. A tag of
zero is that of a null value. -/
inductive Content where
  | null
  | unsignedInt (value : ℕ)
  | real (value : ℚ)
  | enumerated (value : ℕ)
  deriving DecidableEq

/-- `BACNET_APPLICATION_DATA_VALUE` -/
structure Value where
  contextSpecific : Bool
  contextTag : ℤ
  content : Content
  deriving DecidableEq

/-- The static variables of the file that a write uses. -/
structure Statics where
  /-- `Target_Object_Property_Value[0]` -/
  target : Value
  requestInvokeId : Byte
  errorDetected : Bool

def initialStatics : Statics := ⟨⟨false, 0, .null⟩, 0, false⟩

/-- The arguments of `Send_Write_Property_Request`. -/
structure WriteRequest where
  deviceId : BitVec 32
  objectType : ℤ
  objectInstance : ℤ
  objectProperty : ℤ
  value : Value
  priority : ℤ
  arrayIndex : BitVec 32
  deriving DecidableEq

/-- What the stack answers during one write. -/
structure Stack where
  addressBindRequest : BitVec 32 → Bool
  /-- the id of the `k`-th request that is sent -/
  sendWritePropertyRequest : ℕ → Byte
  tsmInvokeIdFree : Byte → Bool
  tsmInvokeIdFailed : Byte → Bool

structure Rounds where
  invokeId : Byte
  error : Bool
  requests : List WriteRequest

def requestOf (args : WriteArgs) (value : Value) : WriteRequest :=
  ⟨args.deviceId, args.objectType, args.objectInstance, args.objectProperty, value,
    args.objectPropertyPriority, args.objectPropertyIndex⟩

/-- The loop `for(i = 0; i < 2; i++)`, with `left` rounds to go. A frame that is
received between two rounds changes none of the statics. -/
def writeRounds (stack : Stack) (request : WriteRequest) : ℕ → Rounds → Rounds
  | 0, r => r
  | left+1, r =>
    if r.invokeId = 0 then
      writeRounds stack request left { r with
        invokeId := stack.sendWritePropertyRequest r.requests.length
        requests := r.requests++[request] }
    else if stack.tsmInvokeIdFree r.invokeId then r
    else if stack.tsmInvokeIdFailed r.invokeId then { r with error := true }
    else writeRounds stack request left r

def bacnetWriteProperty (stack : Stack) (args : WriteArgs) (s : Statics) :
    ℤ × List WriteRequest × Statics :=
  let target := if 10 < args.objectPropertyValueType then
      { s.target with contextTag := args.objectPropertyValueType, contextSpecific := true }
    else { s.target with contextSpecific := false }
  if stack.addressBindRequest args.deviceId = false then (-1, [], { s with target := target })
  else
    let r := writeRounds stack (requestOf args target) 2 ⟨s.requestInvokeId, s.errorDetected, []⟩
    (if r.error then -1 else 0, r.requests, ⟨target, 0, r.error⟩)

/-- One message of `bacnet_work_thread_function` with a setter. -/
def bacnetWork (setter : Setter) (stack : Stack) (handle : PortHandle) (s : Statics) :
    ℤ × List WriteRequest × Statics :=
  let (nbyte, handle) := setter.sendHandle handle
  if nbyte < 0 then (nbyte, [], s) else bacnetWriteProperty stack handle.writeArg s

end WriteProperty

end RS485.York
