import Rs485.Attached
import Rs485.Mdev

/-!
# Buses, drivers and devices

`core.c` over `bus.c`, `device.c` and `device_driver.c`. The lists are lists of
attached nodes. The callbacks of buses and drivers answer with numbers that the
caller of an operation provides, and they leave the records alone. An operation
has no result where the code follows a null or freed pointer, deletes a node
that is on no list, or does not come back.
-/

set_option autoImplicit false

namespace RS485.Registry
open RS485.Platform RS485.Records RS485.Mdev RS485.Attached

/-- What never changes in a `struct rs485_bus_type`. -/
structure Rs485BusType where
  name : Option CString
  portName : Option CString
  pthreadFunc : Bool
  probe : Bool
  remove : Bool

structure Env where
  bus : BusPtr → Rs485BusType
  driver : DrvPtr → Rs485Driver

structure Bus where
  initName : CString
  p : Option BusPriv

structure Driver where
  bus : Option BusPtr
  p : Option DrvPriv

inductive Event where
  /-- a call of the bus's probe that returned 0 -/
  | busProbed (b : BusPtr)
  | busRemoved (b : BusPtr)
  | threadStarted (b : BusPtr)
  | threadCancelled (b : BusPtr)
  | registered (b : BusPtr) (drv : DrvPtr)
  | removed (drv : DrvPtr) (dev : DevPtr)
  | freed (dev : DevPtr)
  | readFreed (dev : DevPtr)
  deriving DecidableEq

structure State where
  bus : BusPtr → Bus
  busList : List BusPtr
  /-- the bus of a `bus_type_private` that is not freed -/
  busPriv : BusPriv → Option BusPtr
  driver : DrvPtr → Driver
  /-- the driver of a `driver_private` that is not freed -/
  drvPriv : DrvPriv → Option DrvPtr
  device : DevPtr → Option Rs485Device
  deviceList : List DevPtr
  drivers : Lists BusPriv DrvPriv
  devices : Lists BusPriv DevPtr
  bound : Lists DrvPriv DevPtr
  table : Memory
  nextBus : BusPriv
  nextPriv : DrvPriv
  nextDev : DevPtr
  /-- latest first -/
  log : List Event

def initial : State where
  bus _ := ⟨[], none⟩
  busList := []
  busPriv _ := none
  driver _ := ⟨none, none⟩
  drvPriv _ := none
  device _ := none
  deviceList := []
  drivers := empty
  devices := empty
  bound := empty
  table := emptyTable
  nextBus := 0
  nextPriv := 0
  nextDev := 0
  log := []

/-- The answers a probe callback gives to a driver and a device. -/
abbrev Probe := DrvPtr → DevPtr → ℤ

section Device

def withDriver (r : Rs485Device) (drv : Option DrvPtr) : Rs485Device :=
  { r with dev := { r.dev with driver := drv } }

/-- `dev->driver = drv` -/
def setDriver (s : State) (d : DevPtr) (drv : Option DrvPtr) : State :=
  { s with device := Function.update s.device d ((s.device d).map (withDriver · drv)) }

def withName (r : Rs485Device) (name : CString) : Rs485Device :=
  { r with dev := { r.dev with busId := snprintf busIdSize name } }

/-- `dev_set_name`, where the device has an initial name -/
def devSetName (s : State) (d : DevPtr) (initName : Option CString) : State :=
  match initName with
  | none => s
  | some name =>
    { s with device := Function.update s.device d ((s.device d).map (withName · name)) }

/-- `bus->p`, when it is not freed. -/
def livePriv (s : State) (b : BusPtr) : Option BusPriv := do
  let k ← (s.bus b).p
  let _ ← s.busPriv k
  some k

end Device

section Walk

def busForEachDrv (s : State) (bus : Option BusPtr) (fn : DrvPtr → State → Option (ℤ × State)) :
    Option (ℤ × State) :=
  match bus with
  | none => some (-EINVAL, s)
  | some b => do
    let k ← livePriv s b
    let (error, w, s) ← forEach s.drivers k none (fun p s => do fn (← s.drvPriv p) s) s
    some (error, { s with drivers := w })

def busForEachDev (s : State) (bus : Option BusPtr) (fn : DevPtr → State → Option (ℤ × State)) :
    Option (ℤ × State) :=
  match bus with
  | none => some (-EINVAL, s)
  | some b => do
    let k ← livePriv s b
    let (error, w, s) ← forEach s.devices k none fn s
    some (error, { s with devices := w })

end Walk

section Binding

variable (env : Env) (probe : Probe)

def rs485DeviceMatch (r : Rs485Device) (drv : DrvPtr) : ℤ :=
  match r.info.matchDriver with
  | none => -EINVAL
  | some name => if name = (env.driver drv).name then 0 else -ENODEV

def driverBound (s : State) (d : DevPtr) : Option State := do
  let r ← s.device d
  if s.bound.owner d ≠ none then some s
  else do
    let drv ← r.dev.driver
    let p ← (s.driver drv).p
    let _ ← s.drvPriv p
    let w ← addTail s.bound d p
    some { s with bound := w }

def reallyProbe (s : State) (d : DevPtr) (drv : DrvPtr) : Option (ℤ × State) := do
  let s := setDriver s d (some drv)
  let ret := if (env.driver drv).probe then probe drv d else 0
  if ret ≠ 0 then some (0, setDriver s d none)
  else do
    let s ← driverBound s d
    some (1, s)

def driverProbeDevice (drv : DrvPtr) (s : State) (d : DevPtr) : Option (ℤ × State) := do
  let r ← s.device d
  if r.dev.isDriverRegister then some (-ENODEV, s)
  else do
    let _ ← (s.driver drv).bus
    if rs485DeviceMatch env r drv = 0 then some (0, s) else reallyProbe env probe s d drv

/-- `__device_attach` -/
def deviceAttachTo (d : DevPtr) (drv : DrvPtr) (s : State) : Option (ℤ × State) :=
  driverProbeDevice env probe drv s d

def deviceAttach (s : State) (d : DevPtr) : Option (ℤ × State) := do
  let r ← s.device d
  match r.dev.driver with
  | some _ => do
    let s ← driverBound s d
    some (1, s)
  | none => busForEachDrv s r.dev.bus (deviceAttachTo env probe d)

/-- `__driver_attach` -/
def driverAttachTo (drv : DrvPtr) (d : DevPtr) (s : State) : Option (ℤ × State) := do
  let r ← s.device d
  match r.dev.driver with
  | some _ => some (0, s)
  | none => do
    let (_, s) ← driverProbeDevice env probe drv s d
    some (0, s)

def driverAttach (s : State) (drv : DrvPtr) : Option (ℤ × State) :=
  busForEachDev s (s.driver drv).bus (driverAttachTo env probe drv)

/-- `__device_release_driver` -/
def deviceReleaseDriver (s : State) (d : DevPtr) : Option State := do
  let r ← s.device d
  match r.dev.driver with
  | none => some s
  | some drv => do
    let log := if (env.driver drv).remove then .removed drv d::s.log else s.log
    let w ← del s.bound d
    some { setDriver s d none with bound := w, log := log }

/-- The loop takes the last device until the list is empty. A device of another
driver is never taken off, so the loop does not come back from it. -/
def driverDetachLoop (drv : DrvPtr) (p : DrvPriv) : ℕ → State → Option State
  | 0, s => if s.bound.items p = [] then some s else none
  | left+1, s =>
    match (s.bound.items p).getLast? with
    | none => some s
    | some d => do
      let r ← s.device d
      if r.dev.driver = some drv then do
        let s ← deviceReleaseDriver env s d
        driverDetachLoop drv p left s
      else none

def driverDetach (s : State) (drv : DrvPtr) : Option State := do
  let p ← (s.driver drv).p
  driverDetachLoop env drv p (s.bound.items p).length s

end Binding

section Bus

variable (env : Env) (probe : Probe)

def busAttachDevice (s : State) (d : DevPtr) : Option State := do
  let r ← s.device d
  match r.dev.bus with
  | none => some s
  | some b => do
    let (ret, s) ← deviceAttach env probe s d
    if ret ≥ 0 then do
      let k ← livePriv s b
      let w ← addTail s.devices d k
      some { s with devices := w }
    else some s

/-- `if (wlist_node_attached(&dev->wnode_bus)) wlist_del(&dev->wnode_bus);` -/
def busUnlist (s : State) (d : DevPtr) : Option (Lists BusPriv DevPtr) :=
  if s.devices.owner d ≠ none then del s.devices d else some s.devices

def busRemoveDevice (s : State) (d : DevPtr) : Option State := do
  let r ← s.device d
  match r.dev.bus with
  | none => some s
  | some _ => do
    let w ← busUnlist s d
    deviceReleaseDriver env { s with devices := w } d

def busAddDriver (s : State) (drv : DrvPtr) (malloc : Bool) : Option (ℤ × State) :=
  match (s.driver drv).bus with
  | none => some (-EINVAL, s)
  | some b =>
    if malloc then do
      let p := s.nextPriv
      let s := { s with
        nextPriv := p+1
        drvPriv := Function.update s.drvPriv p (some drv)
        driver := Function.update s.driver drv { s.driver drv with p := some p } }
      let (error, s) ← driverAttach env probe s drv
      if error ≠ 0 then some (error, { s with drvPriv := Function.update s.drvPriv p none })
      else do
        let k ← livePriv s b
        let w ← addTail s.drivers p k
        some (0, { s with drivers := w, log := .registered b drv::s.log })
    else some (-ENOMEM, s)

def busRemoveDriver (s : State) (drv : DrvPtr) : Option State :=
  match (s.driver drv).bus with
  | none => some s
  | some _ => do
    let p ← (s.driver drv).p
    let _ ← s.drvPriv p
    let w ← del s.drivers p
    let s ← driverDetach env { s with drivers := w } drv
    some { s with drvPriv := Function.update s.drvPriv p none }

def busRegister (s : State) (b : BusPtr) (malloc : Bool) : ℤ × State :=
  if malloc then
    (0, { s with
      bus := Function.update s.bus b { s.bus b with p := some s.nextBus }
      busPriv := Function.update s.busPriv s.nextBus (some b)
      nextBus := s.nextBus+1 })
  else (-ENOMEM, s)

def busUnregister (s : State) (b : BusPtr) : State :=
  match (s.bus b).p with
  | none => s
  | some k => { s with busPriv := Function.update s.busPriv k none }

end Bus

section Driver

variable (env : Env) (probe : Probe)

def driverMatchName (name : CString) (drv : DrvPtr) : ℤ :=
  if name = (env.driver drv).name then 1 else 0

def driverFind (s : State) (name : CString) (bus : Option BusPtr) : Option (ℤ × State) :=
  busForEachDrv s bus fun drv s => some (driverMatchName env name drv, s)

def driverRegister (s : State) (drv : DrvPtr) (malloc : Bool) : Option (ℤ × State) := do
  let (found, s) ← driverFind env s (env.driver drv).name (s.driver drv).bus
  if found ≠ 0 then some (-EEXIST, s) else busAddDriver env probe s drv malloc

def driverUnregister (s : State) (drv : DrvPtr) : Option State := busRemoveDriver env s drv

end Driver

section Core

variable (env : Env) (probe : Probe)

/-- The walk over `rs485_bus_list` that both lookups by name make. -/
def busNamed (s : State) (name : CString) : Option BusPtr :=
  s.busList.find? fun b => (s.bus b).initName = name

def rs485DriverMatchBus (s : State) (name : CString) : Option BusPtr := busNamed s name

def rs485BusMatchByName (s : State) (name : CString) : Option BusPtr := busNamed s name

def isRs485BusUsed (s : State) (name : CString) : Bool :=
  s.busList.any fun b => (env.bus b).portName = some name

structure BusAnswers where
  probe : ℤ
  malloc : Bool
  pthread : ℤ

/-- `bus->probe(bus)`, where there is one -/
def busProbe (s : State) (b : BusPtr) (answer : ℤ) : ℤ × State :=
  if (env.bus b).probe then
    (answer, if answer = 0 then { s with log := .busProbed b::s.log } else s)
  else (0, s)

/-- `pthread_create` with the protocol stack of the bus -/
def pthreadCreate (s : State) (b : BusPtr) (answer : ℤ) : ℤ × State :=
  (answer, if answer = 0 then { s with log := .threadStarted b::s.log } else s)

/-- `sysbus_register_fail` -/
def busRemove (s : State) (b : BusPtr) : State :=
  if (env.bus b).remove then { s with log := .busRemoved b::s.log } else s

/-- `pthread_init_fail` -/
def threadFail (s : State) (b : BusPtr) : State := busRemove env (busUnregister s b) b

/-- The steps of the registration after the port was found free. -/
def busStart (s : State) (b : BusPtr) (a : BusAnswers) : ℤ × State :=
  let (status, s) := busProbe env s b a.probe
  if status ≠ 0 then (status, s)
  else
    let (status, s) := busRegister s b a.malloc
    if status ≠ 0 then (status, busRemove env s b)
    -- a bus without a thread function fails with the status of success
    else if (env.bus b).pthreadFunc = false then (status, threadFail env s b)
    else
      let (status, s) := pthreadCreate s b a.pthread
      if status ≠ 0 then (status, threadFail env s b)
      else (0, { s with busList := b::s.busList })

def withInitName (s : State) (b : BusPtr) (initName : CString) : State :=
  { s with bus := Function.update s.bus b { s.bus b with initName := initName } }

def rs485BusRegister (s : State) (bus : Option BusPtr) (a : BusAnswers) : ℤ × State :=
  match bus with
  | none => (-EINVAL, s)
  | some b =>
    match (env.bus b).name, (env.bus b).portName with
    | some name, some port =>
      let s := withInitName s b (snprintf rs485NameSize (name++['-']++port))
      if isRs485BusUsed env s port then (-EPERM, s) else busStart env s b a
    | _, _ => (-EINVAL, s)

def rs485DriverRegister (s : State) (drv : DrvPtr) (busName : CString) (malloc : Bool) :
    Option (ℤ × State) :=
  match rs485DriverMatchBus s busName with
  | none => some (-ENODEV, s)
  | some b =>
    let s := { s with driver := Function.update s.driver drv { s.driver drv with bus := some b } }
    driverRegister env probe s drv malloc

def rs485DriverUnregister (s : State) (drv : Option DrvPtr) : Option State :=
  match drv with
  | none => some s
  | some drv => driverUnregister env s drv

def deviceAdd (s : State) (d : DevPtr) : Option (ℤ × State) := do
  let r ← s.device d
  let s := devSetName s d r.dev.initName
  let r ← s.device d
  if r.dev.busId = [] then some (0, s)
  else do
    let s ← busAttachDevice env probe s d
    some (0, s)

def deviceRegister (s : State) (d : DevPtr) : Option (ℤ × State) := deviceAdd env probe s d

/-- `rs485_device_create_release` -/
def deviceFree (s : State) (d : DevPtr) : State :=
  { s with device := Function.update s.device d none, log := .freed d::s.log }

def deviceDel (s : State) (d : DevPtr) : Option State := do
  let s ← busRemoveDevice env s d
  some (deviceFree s d)

def deviceUnregister (s : State) (d : DevPtr) : Option State := deviceDel env s d

/-- The record `rs485_device_create` fills in. -/
def newDevice (b : BusPtr) (info : Rs485DeviceInfo) (id : ℤ) : Rs485Device where
  id := id
  info := info
  deviceData := none
  driver := none
  dev :=
    { busId := deviceBusId info
      initName := none
      isDriverRegister := false
      bus := some b
      driver := none }

def rs485DeviceCreate (s : State) (info : Rs485DeviceInfo) (calloc : Bool) :
    Option (ℤ × Option ℤ × State) :=
  match rs485BusMatchByName s info.matchBus with
  | none => some (-ENODEV, none, s)
  | some b =>
    if calloc then
      let d := s.nextDev
      let (id, table) := getDeviceId s.table (some d)
      let s := { s with nextDev := d+1, table := table }
      if id < 0 then some (-ENODEV, some id, s)
      else do
        let s := { s with device := Function.update s.device d (some (newDevice b info id)) }
        let (retval, s) ← deviceRegister env probe s d
        if retval ≠ 0 then
          some (retval, some id, { s with
            table := freeDeviceId s.table id
            device := Function.update s.device d none })
        else some (0, some id, { s with deviceList := d::s.deviceList })
    else some (-ENOMEM, none, s)

/-- The id is read, and the record freed again, after `release` has freed it. -/
def rs485DeviceDestroy (s : State) (device : Option DevPtr) : Option State :=
  match device with
  | none => some s
  | some d =>
    if d ∈ s.deviceList then do
      let r ← s.device d
      let s ← deviceUnregister env { s with deviceList := s.deviceList.erase d } d
      let s := { s with log := .readFreed d::s.log, table := freeDeviceId s.table r.id }
      some (deviceFree s d)
    else none

inductive Registration where
  | bus (b : Option BusPtr) (a : BusAnswers)
  | driver (drv : DrvPtr) (busName : CString) (malloc : Bool) (probe : Probe)
  | device (info : Rs485DeviceInfo) (calloc : Bool) (probe : Probe)

def register (s : State) : Registration → Option State
  | .bus b a => some (rs485BusRegister env s b a).2
  | .driver drv name malloc probe => do
    let (_, s) ← rs485DriverRegister env probe s drv name malloc
    some s
  | .device info calloc probe => do
    let (_, _, s) ← rs485DeviceCreate env probe s info calloc
    some s

inductive Op where
  | register (r : Registration)
  | driverUnregister (drv : Option DrvPtr)
  | deviceDestroy (d : Option DevPtr)

def step (s : State) : Op → Option State
  | .register r => register env s r
  | .driverUnregister drv => rs485DriverUnregister env s drv
  | .deviceDestroy d => rs485DeviceDestroy env s d

end Core

end RS485.Registry
