import Rs485.Gateways
import Rs485.York

/-!
# A fixed temperature in five encodings

The methods `RS485_AIR_SET_TEMP_19` to `RS485_AIR_SET_TEMP_30` ask for a number
of degrees. What each of the five drivers makes of them is decoded again from
the frame, from the call to the modbus library or from the arguments of the
write. The Daikin adapter looks at the value of the message and not at the
method, and the Johnson gateway adds the degrees to those it had before.
-/

set_option autoImplicit false

namespace RS485.Temperatures
open RS485.Platform RS485.Records RS485.Encoders RS485.Modbus RS485.Words RS485.Daikin
open RS485.Gateways
open RS485.York (yorkKelongSetTemperature WriteArgs)

/-- The method for a number of degrees from 19 to 30. -/
def setTemp : ℕ → DeviceMethod
  | 19 => .airSetTemp19
  | 20 => .airSetTemp20
  | 21 => .airSetTemp21
  | 22 => .airSetTemp22
  | 23 => .airSetTemp23
  | 24 => .airSetTemp24
  | 25 => .airSetTemp25
  | 26 => .airSetTemp26
  | 27 => .airSetTemp27
  | 28 => .airSetTemp28
  | 29 => .airSetTemp29
  | 30 => .airSetTemp30
  | _ => .airSetTemp

/-- A message before the gateway of Johnson Controls. -/
abbrev Command := DeviceMethod × Message

def indoorStatus (history : List Command) : IndoorStatus :=
  history.foldl (fun s c => (johnsonSendPackageHandle c.1 c.2 s).2.2) initialIndoorStatus

/-- A message to a driver but for its method, and what the driver remembers. -/
inductive Input where
  | panasonnic (handle : Encoders.PortHandle)
  | daikin (value : BitVec 32) (m : Message) (g : Adapter)
  | hitachi (m : Message)
  | johnson (m : Message) (history : List Command)
  | york (handle : York.PortHandle)

section Decoding

/-- The temperature of a frame that sets the one argument. -/
def frameField (frame : List Byte) : Option ℤ :=
  if frame.getD 2 0 = setAirArgCidSend ∧ frame.getD 5 0 = 0x05 then
    some ((frame.getD 8 0).toNat : ℤ)
  else none

/-- The call to the library that a message leads to. -/
def libCall (sent : ℤ × Message) : Option LibCall :=
  if sent.1 < 0 then none else (request sent.2 sent.1).map fun q => q.call sent.2.buffer

def registerField (register : ℤ) : LibCall → Option ℤ
  | .writeRegister addr value => if addr = register then some value else none
  | _ => none

/-- The low byte of the sixth word. -/
def statusField : LibCall → Option ℤ
  | .writeRegisters addr nb data =>
    if addr = johnsonHoldRegisterStart ∧ nb = 6 then
      some (((wordAt data 5).setWidth 8).toNat : ℤ)
    else none
  | _ => none

def digits (text : CString) : ℤ := text.foldl (fun n c => n*10 + (c.toNat - '0'.toNat)) 0

/-- The value for the set point, which is the first analog value. -/
def valueField (args : WriteArgs) : Option ℤ :=
  if args.objectType = 2 ∧ args.objectInstance = 0 ∧ args.objectProperty = 85 then
    some (digits args.objectPropertyValue)
  else none

end Decoding

section Inputs

variable (k : ℕ)

def Input.scale : Input → ℤ
  | .panasonnic _ => 2
  | .daikin _ _ _ => 10
  | _ => 1

/-- The driver takes the address, has room for a frame and is initialised. -/
def Input.Accepted : Input → Prop
  | .panasonnic handle => handle.data.addressLen = 1 ∧ 12 ≤ handle.packageBufferLen
  | .daikin _ m g => m.deviceAddr ≤ 63 ∧ g.haStatus ≠ .waitInit
  | .hitachi m => m.deviceAddr ≤ 127
  | .johnson m _ => m.deviceAddr < 64
  | .york handle => 0x11 ≤ handle.mac.toNat ∧ handle.mac.toNat ≤ 0x1f

/-- The temperature field of the command, if there is one. -/
def Input.commanded (method : DeviceMethod) : Input → Option ℤ
  | .panasonnic handle =>
    let sent := panasonnicSendPackageHandle
      { handle with data := { handle.data with method := method } }
    if sent.1 ≤ 0 then none else frameField (sent.2.packageBuffer.take sent.1.toNat)
  | .daikin value m g =>
    let sent := setTemperature method value m g
    (libCall (sent.1, sent.2.1)).bind (registerField
      (getDaikinWriteRegisterAddr (unitOf m.deviceAddr) + temperatureOffset.val))
  | .hitachi m =>
    (libCall (hitachiSendPackageHandle method m)).bind (registerField
      (hitachiHoldRegisterStart + m.deviceAddr * 4 + setTemperatureOffset))
  | .johnson m history =>
    let sent := johnsonSendPackageHandle method m (indoorStatus history)
    (libCall (sent.1, sent.2.1)).bind statusField
  | .york handle =>
    let sent := yorkKelongSetTemperature { handle with method := method.number }
    if sent.1 < 0 then none else valueField sent.2.writeArg

/-- The bits an earlier command added to the temperature of a unit. -/
def temperatureBits (unit : Fin 64) (c : Command) : BitVec 8 :=
  if 64 ≤ c.2.deviceAddr ∨ unitOf c.2.deviceAddr ≠ unit then 0
  else (johnsonBits c.1).elim 0 temperatureByte

/-- What the message must say beside its method, and what must have gone before. -/
def Input.Sound : Input → Prop
  | .daikin value _ _ => value.toNat % 2 ^ 15 = k
  | .johnson m history => k ∈ [25, 27, 29] ∧
    ∀ c ∈ history, temperatureBits (unitOf m.deviceAddr) c ||| BitVec.ofNat 8 k = BitVec.ofNat 8 k
  | _ => True

end Inputs

section Drivers

variable {k : ℕ} (hk : 19 ≤ k ∧ k ≤ 30)

include hk in
theorem panasonnic_command {handle : Encoders.PortHandle}
    (h : (Input.panasonnic handle).Accepted) :
    (Input.panasonnic handle).commanded (setTemp k) = some (2 * (k : ℤ)) := by
  obtain ⟨haddress, hroom⟩ := h
  obtain ⟨hlow, hhigh⟩ := hk
  have hfits : ¬handle.packageBufferLen < 12 := not_lt.mpr hroom
  interval_cases k <;>
    simp [Input.commanded, panasonnicSendPackageHandle, setTemp, haddress, airCommand,
      airCommandTable, panasonnicSendPackage, packageMax, setAirArgCidSend, getAirAddrCidSend,
      resetAirCidSend, getAirInfoCidSend, putIfFits, sumFrame, sumBody, hfits, putFrame, frameField]

theorem word_bytes (w : BitVec 16) :
    (((w >>> 8).setWidth 8).toNat * 256 + (w.setWidth 8).toNat : ℕ) = w.toNat := by
  have hw := w.isLt
  simp only [BitVec.toNat_setWidth, BitVec.toNat_ushiftRight, Nat.shiftRight_eq_div_pow]
  omega

/-- A register that is written goes out as it is. -/
theorem register_call (w : BitVec 16) (m : Message) (addr slave : ℤ) :
    libCall (1, { m with
      code := .writeSignleRegister
      registerAddr := addr
      buffer := putFrame m.buffer [(w >>> 8).setWidth 8, w.setWidth 8]
      deviceAddr := slave }) = some (.writeRegister addr w.toNat) := by
  rw [← word_bytes w]
  simp [libCall, request, putFrame]

include hk in
theorem daikin_register (value : BitVec 32) (unit : Fin 64) (t : HoldRegisters) :
    (getDaikinHoldRegisterValue (setTemp k) value unit t).1 = (value * 10).setWidth 16 := by
  obtain ⟨hlow, hhigh⟩ := hk
  interval_cases k <;> rfl

include hk in
theorem product_low {v : ℕ} :
    ((v * 10 % 2 ^ 32 % 2 ^ 16 : ℕ) : ℤ) = 10 * (k : ℤ) ↔ v % 2 ^ 15 = k := by
  rw [Nat.mod_mod_of_dvd _ (by decide : 2 ^ 16 ∣ 2 ^ 32)]
  omega

include hk in
theorem daikin_command_iff {value : BitVec 32} {m : Message} {g : Adapter}
    (h : (Input.daikin value m g).Accepted) :
    (Input.daikin value m g).commanded (setTemp k) = some (10 * (k : ℤ)) ↔
      value.toNat % 2 ^ 15 = k := by
  obtain ⟨haddr, hinit⟩ := h
  have haddr' : ¬63 < m.deviceAddr := not_lt.mpr haddr
  have hcommand : (Input.daikin value m g).commanded (setTemp k) =
      some (((value * 10).setWidth 16).toNat : ℤ) := by
    simp only [Input.commanded, setTemperature, setWhenInitialised, hinit, if_false, setRegister,
      haddr']
    rw [daikin_register hk, register_call]
    simp [registerField]
  have hten : BitVec.toNat (10 : BitVec 32) = 10 := rfl
  rw [hcommand, Option.some.injEq, BitVec.toNat_setWidth, BitVec.toNat_mul, hten]
  exact product_low hk

include hk in
theorem hitachi_command {m : Message} (h : (Input.hitachi m).Accepted) :
    (Input.hitachi m).commanded (setTemp k) = some (k : ℤ) := by
  have haddr : ¬127 < m.deviceAddr := not_lt.mpr h
  have hcase : hitachiCase (setTemp k) = some (.set setTemperatureOffset (BitVec.ofNat 16 k)) := by
    obtain ⟨hlow, hhigh⟩ := hk
    interval_cases k <;> rfl
  have hword : (BitVec.ofNat 16 k).toNat = k := by
    rw [BitVec.toNat_ofNat]
    omega
  have hcall : (Input.hitachi m).commanded (setTemp k) =
      some ((BitVec.ofNat 16 k).toNat : ℤ) := by
    simp only [Input.commanded, hitachiSendPackageHandle, haddr, if_false, hcase]
    rw [register_call]
    simp [registerField]
  rw [hcall, hword]

theorem digits_decimal {n : ℤ} (h : 0 ≤ n ∧ n < 100) : digits (York.decimal n) = n := by
  obtain ⟨hlow, hhigh⟩ := h
  interval_cases n <;> decide

include hk in
theorem york_command {handle : York.PortHandle} :
    (Input.york handle).commanded (setTemp k) = some (k : ℤ) := by
  have hnumber : (setTemp k).number = k := by
    obtain ⟨hlow, hhigh⟩ := hk
    interval_cases k <;> rfl
  have hrow : York.row (k - 18) = ⟨2, 0, 85, 16, -1, 4, k⟩ := by
    obtain ⟨hlow, hhigh⟩ := hk
    interval_cases k <;> decide
  have hgroup : 18 ≤ (k : ℤ) ∧ (k : ℤ) ≤ 30 := by omega
  simp only [Input.commanded, yorkKelongSetTemperature, York.yorkKelongSet,
    York.getAirYorkWriteArgs, hnumber, if_pos hgroup, York.fillArgs, hrow, valueField]
  rw [digits_decimal (by omega)]
  rfl

end Drivers

section Johnson

theorem status_step (unit : Fin 64) (status : IndoorStatus) (c : Command) :
    ((johnsonSendPackageHandle c.1 c.2 status).2.2 unit 1).setWidth 8 =
      (status unit 1).setWidth 8 ||| temperatureBits unit c := by
  rw [johnson_status]
  unfold temperatureBits temperatureByte
  by_cases haddr : 64 ≤ c.2.deviceAddr
  · simp [haddr]
  · by_cases hunit : unitOf c.2.deviceAddr = unit
    · cases hbits : johnsonBits c.1 <;> simp [haddr, hunit, withBits, BitVec.setWidth_or]
    · simp [haddr, hunit]

/-- The low byte starts at 25 and gathers the bits of all commands for the unit. -/
theorem status_gathered (unit : Fin 64) (history : List Command) :
    (indoorStatus history unit 1).setWidth 8 =
      gathered (temperatureBits unit) history ||| 25#8 := by
  have hinit : (initialIndoorStatus unit 1).setWidth 8 = 25#8 := by
    simp [initialIndoorStatus]
  rw [← hinit]
  exact foldl_gathered (temperatureBits unit) _ (fun s : IndoorStatus => (s unit 1).setWidth 8)
    (status_step unit) initialIndoorStatus history

/-- There is no case for 21 degrees. -/
theorem no_command (m : Message) (history : List Command) :
    (Input.johnson m history).commanded (setTemp 21) = none := by
  simp only [Input.commanded, johnsonSendPackageHandle, setTemp, johnsonBits]
  split_ifs <;> rfl

theorem johnson_bits {k : ℕ} (hk : 19 ≤ k ∧ k ≤ 30) (hne : k ≠ 21) :
    johnsonBits (setTemp k) = some ![0, BitVec.ofNat 16 k] := by
  obtain ⟨hlow, hhigh⟩ := hk
  interval_cases k <;> first | rfl | exact absurd rfl hne

/-- The sixth of the words that are written. -/
theorem sixth_word (deviceAddr : ℤ) (buffer rest : List Byte) (v w : BitVec 16) :
    wordAt (bytesOf (selectWords deviceAddr buffer++[v, w])++rest) 5 = w := by
  have hlen := select_words_length deviceAddr buffer
  rw [word_at_stored _ _ (by simp [hlen]), List.getD_append_right _ _ _ _ (by omega), hlen]
  rfl

theorem johnson_command {k : ℕ} (hk : 19 ≤ k ∧ k ≤ 30) (hne : k ≠ 21) {m : Message}
    {history : List Command} (h : (Input.johnson m history).Accepted) :
    (Input.johnson m history).commanded (setTemp k) =
      some ((gathered (temperatureBits (unitOf m.deviceAddr)) history |||
        (25#8 ||| BitVec.ofNat 8 k)).toNat : ℤ) := by
  have haddr : ¬64 ≤ m.deviceAddr := not_le.mpr h
  have hcode : (BitVec.ofNat 16 k).setWidth 8 = BitVec.ofNat 8 k := by
    apply BitVec.eq_of_toNat_eq
    simp
  have hword : (indoorStatus history (unitOf m.deviceAddr) 1 ||| BitVec.ofNat 16 k).setWidth 8 =
      gathered (temperatureBits (unitOf m.deviceAddr)) history ||| (25#8 ||| BitVec.ofNat 8 k) := by
    rw [BitVec.setWidth_or, status_gathered, BitVec.or_assoc, hcode]
  rw [← hword]
  simp only [Input.commanded, johnsonSendPackageHandle, haddr, if_false, johnson_bits hk hne,
    libCall, request, withBits]
  rw [if_neg (by decide)]
  simp [statusField, putFrame, sixth_word]

/-- The degrees come out if and only if they hold the bits of 25 and of all
temperatures the unit was set to before. -/
theorem johnson_command_iff {k : ℕ} (hk : 19 ≤ k ∧ k ≤ 30) {m : Message} {history : List Command}
    (h : (Input.johnson m history).Accepted) :
    (Input.johnson m history).commanded (setTemp k) = some (k : ℤ) ↔
      (Input.johnson m history).Sound k := by
  by_cases hne : k = 21
  · subst hne
    rw [no_command]
    simp [Input.Sound]
  · have hself : (BitVec.ofNat 8 k).toNat = k := by
      rw [BitVec.toNat_ofNat]
      omega
    have hbits : 25#8 ||| BitVec.ofNat 8 k = BitVec.ofNat 8 k ↔ k ∈ [25, 27, 29] := by
      obtain ⟨hlow, hhigh⟩ := hk
      interval_cases k <;> decide
    rw [johnson_command hk hne h, Option.some.injEq, Nat.cast_inj]
    unfold Input.Sound
    simp only
    rw [← hbits, ← gathered_within_iff]
    constructor
    · intro heq
      have hword : gathered (temperatureBits (unitOf m.deviceAddr)) history |||
          (25#8 ||| BitVec.ofNat 8 k) = BitVec.ofNat 8 k := by
        apply BitVec.eq_of_toNat_eq
        rw [heq, hself]
      have hboth : gathered (temperatureBits (unitOf m.deviceAddr)) history ||| 25#8 |||
          BitVec.ofNat 8 k = BitVec.ofNat 8 k := by
        rw [BitVec.or_assoc, hword]
      exact (within_of_or hboth).symm
    · intro hwithin
      rw [hwithin.1, hwithin.2, hself]

end Johnson

/-- A driver commands the degrees of the method if and only if, for the Daikin
adapter, they are the value of the message, and, for the Johnson gateway, they
hold every bit that is set in the unit's temperature. -/
theorem temperature_commanded_iff {k : ℕ} (hk : 19 ≤ k ∧ k ≤ 30) (input : Input)
    (h : input.Accepted) :
    input.commanded (setTemp k) = some (input.scale * k) ↔ input.Sound k := by
  cases input with
  | panasonnic handle => exact iff_of_true (panasonnic_command hk h) trivial
  | daikin value m g => exact daikin_command_iff hk h
  | hitachi m =>
    rw [hitachi_command hk h]
    simp [Input.scale, Input.Sound]
  | johnson m history =>
    rw [← johnson_command_iff hk h]
    simp [Input.scale]
  | york handle =>
    rw [york_command hk]
    simp [Input.scale, Input.Sound]

def message (deviceAddr : ℤ) : Message :=
  ⟨.doNothing, deviceAddr, 0, List.replicate 20 0, 20, false, false⟩

theorem daikin_twenty :
    (Input.daikin 20 (message 1) { initialAdapter with haStatus := .normal }).commanded
        (setTemp 20) = some 200 ↔
      (Input.daikin 20 (message 1) { initialAdapter with haStatus := .normal }).Sound 20 :=
  temperature_commanded_iff (by decide)
    (.daikin 20 (message 1) { initialAdapter with haStatus := .normal }) ⟨by decide, by decide⟩

/-- With an unused value of 0 the adapter is set to no degrees at all, and the
Johnson gateway goes to 29 degrees for 20, and does nothing for 21. -/
theorem unused_value_commanded :
    (Input.daikin 0 (message 1) { initialAdapter with haStatus := .normal }).Accepted ∧
      (Input.daikin 0 (message 1) { initialAdapter with haStatus := .normal }).commanded
        (setTemp 20) = some 0 ∧
      (Input.johnson (message 1) []).Accepted ∧
      (Input.johnson (message 1) []).commanded (setTemp 20) = some 29 ∧
      (Input.johnson (message 1) []).commanded (setTemp 21) = none := by
  refine ⟨⟨by decide, by decide⟩, by decide, ?_, by decide, by decide⟩
  exact (by decide : (1 : ℤ) < 64)

end RS485.Temperatures
