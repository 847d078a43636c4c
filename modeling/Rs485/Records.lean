import Rs485.Platform

/-!
# The records of the core

`core.h` and `wbus.h`. Of a driver's callbacks only their presence is kept:
what a call of one answers is part of the step that makes the call. Pointers
are numbers, and two records never share one.
-/

set_option autoImplicit false

namespace RS485.Records
open RS485.Platform

abbrev Byte := BitVec 8

abbrev BusPtr := ℕ
abbrev DrvPtr := ℕ
abbrev DevPtr := ℕ
/-- Addresses of `struct bus_type_private`. -/
abbrev BusPriv := ℕ
/-- Addresses of `struct driver_private`. -/
abbrev DrvPriv := ℕ

def busIdSize : ℕ := 20
def rs485NameSize : ℕ := 20

structure Rs485DriverData where
  retransmission : BitVec 32
  receiveTimeoutMs : BitVec 32
  broadcast : Bool
  deriving DecidableEq

structure Rs485Driver where
  name : CString
  probe : Bool
  remove : Bool
  get : Bool
  put : Bool
  data : Rs485DriverData
  deriving DecidableEq

structure Rs485DeviceInfo where
  matchBus : CString
  matchDriver : Option CString
  mac : Fin 4 → Byte

/-- `struct device` without its list nodes. -/
structure Device where
  busId : CString
  initName : Option CString
  isDriverRegister : Bool
  bus : Option BusPtr
  driver : Option DrvPtr

structure Rs485Device where
  id : ℤ
  info : Rs485DeviceInfo
  deviceData : Option ℕ
  driver : Option DrvPtr
  dev : Device

/-- `write_device_t` -/
structure WriteDevice where
  deviceId : ℤ
  broadcast : Bool
  deviceMethod : BitVec 32
  methodValue : ℤ
  valueReserve : ℤ
  deriving DecidableEq

/-- `%02x` -/
def hexByte (b : Byte) : CString :=
  [Nat.digitChar (b.toNat / 16), Nat.digitChar (b.toNat % 16)]

/-- `"%02x%02x%02x%02x-%s"`, where the library prints a null string as `(null)`. -/
def deviceBusId (info : Rs485DeviceInfo) : CString :=
  snprintf busIdSize (hexByte (info.mac 0)++hexByte (info.mac 1)++hexByte (info.mac 2)++
    hexByte (info.mac 3)++['-']++info.matchDriver.getD "(null)".toList)

theorem device_bus_id_ne_nil (info : Rs485DeviceInfo) : deviceBusId info ≠ [] := by
  simp [deviceBusId, snprintf, hexByte, busIdSize]

end RS485.Records
