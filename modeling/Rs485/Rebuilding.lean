import Rs485.Gateways

/-!
# Building a modbus command again

The worker calls the send handler again on a message that is not done. The
handlers overwrite the address of the message, from which they choose the
registers, and one of them shifts the words of the buffer in place. The second
command is the first one for few messages.
-/

set_option autoImplicit false

namespace RS485.Rebuilding
open RS485.Platform RS485.Records RS485.Encoders RS485.Modbus RS485.Words RS485.Daikin
open RS485.Gateways

inductive Sender where
  | daikin (handle : SendHandle)
  | hitachiSendPackage
  | hitachiGetDeviceInfo
  | johnsonSendPackage
  | johnsonGetDeviceInfo

/-- What the drivers keep. -/
structure Globals where
  adapter : Adapter
  indoorStatus : IndoorStatus

def build (sender : Sender) (method : DeviceMethod) (value : BitVec 32) (m : Message)
    (g : Globals) : ℤ × Message × Globals :=
  match sender with
  | .daikin handle =>
    let (n, m, adapter) := Daikin.sendHandle handle method value m g.adapter
    (n, m, { g with adapter := adapter })
  | .hitachiSendPackage =>
    let (n, m) := hitachiSendPackageHandle method m
    (n, m, g)
  | .hitachiGetDeviceInfo =>
    let (n, m) := hitachiGetDeviceInfoSend m
    (n, m, g)
  | .johnsonSendPackage =>
    let (n, m, status) := johnsonSendPackageHandle method m g.indoorStatus
    (n, m, { g with indoorStatus := status })
  | .johnsonGetDeviceInfo =>
    let (n, m) := johnsonGetDeviceInfoSend m
    (n, m, g)

/-- What the worker sends for a message. -/
structure Command where
  code : FunctionCode
  slave : ℤ
  registerAddr : ℤ
  frameLen : ℤ
  buffer : List Byte

def command (built : ℤ × Message × Globals) : Command :=
  ⟨built.2.1.code, built.2.1.deviceAddr, built.2.1.registerAddr, built.1, built.2.1.buffer⟩

def BuildsSame (sender : Sender) (method : DeviceMethod) (value : BitVec 32) (m : Message)
    (g : Globals) : Prop :=
  let first := build sender method value m g
  command (build sender method value first.2.1 first.2.2) = command first

/-- Where the word that selects the unit stands. -/
def place (deviceAddr : ℤ) : ℕ := 3-deviceAddr.toNat/16

/-- The word that selects the unit, as the call leaves it. -/
def selection (deviceAddr : ℤ) (buffer : List Byte) : BitVec 16 :=
  wordAt buffer (place deviceAddr) <<< (deviceAddr.toNat % 16)

/-- The address is the default one already, or the message makes no use of it. -/
def Repeatable (sender : Sender) (method : DeviceMethod) (m : Message) (g : Globals) : Prop :=
  match sender with
  | .daikin .getDeviceInfoSend => True
  | .daikin handle =>
    (g.adapter.haStatus = .waitInit ∨ handle = .setMode ∧ method = .airFanAuto) ∨
      63 < m.deviceAddr ∨ m.deviceAddr = 2
  | .hitachiSendPackage =>
    127 < m.deviceAddr ∨ m.deviceAddr = 2 ∨
      ∀ offset value, hitachiCase method ≠ some (.set offset value)
  | .hitachiGetDeviceInfo => m.deviceAddr = 2
  | .johnsonSendPackage =>
    64 ≤ m.deviceAddr ∨
      match johnsonBits method with
      | none => m.deviceAddr.toNat % 16 = 0 ∨ selection m.deviceAddr m.buffer = 0
      | some bits => selection m.deviceAddr m.buffer = 0 ∧
        withBits g.indoorStatus (unitOf m.deviceAddr) bits =
          withBits g.indoorStatus (unitOf johnsonControlsVrvDefaultAddress) bits
  | .johnsonGetDeviceInfo => m.deviceAddr = 2

section Daikin

theorem put_frame_twice (buffer : List Byte) {frame frame' : List Byte}
    (hlen : frame'.length = frame.length) :
    putFrame (putFrame buffer frame) frame' = putFrame buffer frame ↔ frame' = frame := by
  unfold putFrame
  rw [hlen, List.drop_left]
  exact List.append_left_inj _

/-- A setting asked for again leaves the register as it is. -/
theorem register_again (method : DeviceMethod) (value : BitVec 32) (unit : Fin 64)
    (t : HoldRegisters) :
    (getDaikinHoldRegisterValue method value unit
        (getDaikinHoldRegisterValue method value unit t).2).1 =
      (getDaikinHoldRegisterValue method value unit t).1 := by
  cases method <;>
    first
    | rfl
    | simp only [getDaikinHoldRegisterValue, replace, write, Function.update_self, put_twice]

theorem unit_two_iff {deviceAddr : ℤ} (h : ¬63 < deviceAddr) :
    getDaikinWriteRegisterAddr (unitOf 2) = getDaikinWriteRegisterAddr (unitOf deviceAddr) ↔
      deviceAddr = 2 := by
  simp only [getDaikinWriteRegisterAddr, unitOf, Fin.val_ofNat]
  omega

theorem set_register_again_iff {offset : Fin 3} {method : DeviceMethod} {value : BitVec 32}
    {m : Message} {g : Globals} (h : ¬63 < m.deviceAddr) :
    let first := setRegister offset method value m g.adapter
    let second := setRegister offset method value first.2.1 first.2.2
    command (second.1, second.2.1, { g with adapter := second.2.2 }) =
        command (first.1, first.2.1, { g with adapter := first.2.2 }) ↔ m.deviceAddr = 2 := by
  have htwo : ¬(63:ℤ) < haAdapterDefaultAddress := by decide
  simp only [setRegister, h, htwo, if_false, command, Command.mk.injEq, true_and]
  constructor
  · rintro ⟨haddress, -⟩
    exact (unit_two_iff h).mp (add_right_cancel haddress)
  · intro heq
    have hunit : unitOf haAdapterDefaultAddress = unitOf m.deviceAddr := by rw [heq]; rfl
    refine ⟨by rw [hunit], ?_⟩
    rw [hunit, register_again]
    exact (put_frame_twice _ rfl).mpr rfl

theorem daikin_iff {handle : SendHandle} (h : handle ≠ .getDeviceInfoSend) (method : DeviceMethod)
    (value : BitVec 32) (m : Message) (g : Globals) :
    BuildsSame (.daikin handle) method value m g ↔
      (g.adapter.haStatus = .waitInit ∨ handle = .setMode ∧ method = .airFanAuto) ∨
        63 < m.deviceAddr ∨ m.deviceAddr = 2 := by
  unfold BuildsSame build
  by_cases hidle : g.adapter.haStatus = .waitInit ∨ handle = .setMode ∧ method = .airFanAuto
  · simp only [setter_eq h, hidle, if_true, true_or, command]
  · have hstatus : ∀ (m : Message),
        ¬((setRegister handle.offset method value m g.adapter).2.2.haStatus = .waitInit ∨
          handle = .setMode ∧ method = .airFanAuto) := by
      intro m
      have hkept : (setRegister handle.offset method value m g.adapter).2.2.haStatus =
          g.adapter.haStatus := by
        simp only [setRegister]
        split_ifs <;> rfl
      rwa [hkept]
    simp only [setter_eq h, hidle, hstatus, if_false, false_or]
    by_cases haddr : 63 < m.deviceAddr
    · simp only [setRegister, haddr, if_true, true_or]
    · simp only [haddr, false_or]
      exact set_register_again_iff haddr

/-- The request for the status is made from the status alone. -/
theorem daikin_info (method : DeviceMethod) (value : BitVec 32) (m : Message) (g : Globals) :
    BuildsSame (.daikin .getDeviceInfoSend) method value m g := by
  unfold BuildsSame build
  simp only [Daikin.sendHandle, getDeviceInfoSend, command]
  cases hstatus : g.adapter.haStatus <;> simp [hstatus]

end Daikin

section Hitachi

theorem hitachi_iff (method : DeviceMethod) (value : BitVec 32) (m : Message) (g : Globals) :
    BuildsSame .hitachiSendPackage method value m g ↔ 127 < m.deviceAddr ∨ m.deviceAddr = 2 ∨
      ∀ offset value, hitachiCase method ≠ some (.set offset value) := by
  unfold BuildsSame build
  have htwo : ¬(127:ℤ) < hitachiVrvManagerDefaultAddress := by decide
  by_cases haddr : 127 < m.deviceAddr
  · simp only [hitachiSendPackageHandle, haddr, if_true, true_or]
  · cases hcase : hitachiCase method with
    | none =>
      simp [hitachiSendPackageHandle, haddr, hcase, command]
    | some c =>
      cases c with
      | doNothing =>
        simp [hitachiSendPackageHandle, haddr, hcase, htwo, command]
      | set offset register =>
        simp only [hitachiSendPackageHandle, haddr, hcase, htwo, if_false, false_or, command,
          Command.mk.injEq, true_and, put_frame_twice _ rfl, and_true]
        constructor
        · intro haddress
          left
          simp only [hitachiVrvManagerDefaultAddress] at haddress
          omega
        · rintro (heq | hnone)
          · rw [heq]
            rfl
          · exact absurd rfl (hnone offset register)

theorem hitachi_info_iff (method : DeviceMethod) (value : BitVec 32) (m : Message) (g : Globals) :
    BuildsSame .hitachiGetDeviceInfo method value m g ↔ m.deviceAddr = 2 := by
  unfold BuildsSame build
  simp only [hitachiGetDeviceInfoSend, command, Command.mk.injEq, true_and, and_true,
    hitachiVrvManagerDefaultAddress, hitachiInfoRegisterLength]
  omega

end Hitachi

section Johnson

variable {deviceAddr : ℤ} (h : ¬64 ≤ deviceAddr) (buffer : List Byte)

include h in
theorem select_words_eq : selectWords deviceAddr buffer =
    (List.replicate 4 0).set (place deviceAddr) (selection deviceAddr buffer) := by
  unfold selectWords selection place
  simp only
  split_ifs with h48 h32 h16
  · have hplace : deviceAddr.toNat / 16 = 3 := by omega
    rw [hplace]
    rfl
  · have hplace : deviceAddr.toNat / 16 = 2 := by omega
    rw [hplace]
    rfl
  · have hplace : deviceAddr.toNat / 16 = 1 := by omega
    rw [hplace]
    rfl
  · have hplace : deviceAddr.toNat / 16 = 0 := by omega
    rw [hplace]
    rfl

theorem place_lt (deviceAddr : ℤ) : place deviceAddr < 4 := by
  unfold place
  omega

/-- The words of a command replace those of the one before. -/
theorem words_again {ws ws' : List (BitVec 16)} (hlen : ws'.length = ws.length) :
    putFrame (putFrame buffer (bytesOf ws)) (bytesOf ws') = putFrame buffer (bytesOf ws) ↔
      ws' = ws := by
  rw [put_frame_twice _ (by simp only [bytes_of_length, hlen])]
  exact ⟨bytes_of_injective, congrArg bytesOf⟩

theorem set_zeros_iff {i : ℕ} (hi : i < 4) (x y : BitVec 16) :
    (List.replicate 4 0).set i x = (List.replicate 4 0).set i y ↔ x = y := by
  constructor
  · intro hset
    have hat := congrArg (fun ws => ws.getD i 0) hset
    simpa [List.getD, hi] using hat
  · exact fun heq => by rw [heq]

/-- The words built are read back from the buffer. -/
theorem selected_again (deviceAddr : ℤ) (rest : List (BitVec 16)) {i : ℕ} (hi : i < 4) :
    wordAt (putFrame buffer (bytesOf (selectWords deviceAddr buffer++rest))) i =
      (selectWords deviceAddr buffer).getD i 0 := by
  have hlen := select_words_length deviceAddr buffer
  refine (word_at_stored _ _ (by simp [hlen]; omega)).trans ?_
  rw [List.getD_append _ _ _ _ (by omega)]

include h in
/-- The first four words of a second command to the same address. -/
theorem select_same_iff : selectWords deviceAddr
        (putFrame buffer (bytesOf (selectWords deviceAddr buffer))) =
      selectWords deviceAddr buffer ↔
        deviceAddr.toNat % 16 = 0 ∨ selection deviceAddr buffer = 0 := by
  have hword := selected_again buffer deviceAddr [] (place_lt deviceAddr)
  rw [List.append_nil, select_words_eq h buffer] at hword
  rw [select_words_eq h, select_words_eq h buffer, set_zeros_iff (place_lt deviceAddr), selection,
    hword]
  simp only [List.getD, List.getElem?_set_self, List.length_replicate, place_lt]
  exact shift_fixed_iff _ _

include h in
/-- The first four words of a command to the default address, after one to a
unit, are those of the unit only if all of them are zero. -/
theorem select_default_iff (rest : List (BitVec 16)) :
    selectWords johnsonControlsVrvDefaultAddress
        (putFrame buffer (bytesOf (selectWords deviceAddr buffer++rest))) =
      selectWords deviceAddr buffer ↔ selection deviceAddr buffer = 0 := by
  have hplace : place johnsonControlsVrvDefaultAddress = 3 := rfl
  have hdefault : ¬64 ≤ johnsonControlsVrvDefaultAddress := by decide
  have hword := selected_again buffer deviceAddr rest (i := 3) (by decide)
  rw [select_words_eq hdefault, selection, hplace, hword, select_words_eq h buffer]
  by_cases hthree : place deviceAddr = 3
  · rw [hthree, set_zeros_iff (by decide)]
    exact (shift_fixed_iff _ _).trans (by simp [johnsonControlsVrvDefaultAddress])
  · have hzero : ((List.replicate 4 (0 : BitVec 16)).set (place deviceAddr)
        (selection deviceAddr buffer)).getD 3 0 = 0#16 := by
      rw [List.getD, List.getElem?_set_ne hthree]
      rfl
    have hsame : (List.replicate 4 (0 : BitVec 16)).set (place deviceAddr) 0 = List.replicate 4 0 :=
      List.set_replicate_self
    rw [hzero, BitVec.zero_shiftLeft, ← set_zeros_iff (place_lt deviceAddr), hsame]
    exact eq_comm

theorem with_bits_again (status : IndoorStatus) (unit other : Fin 64) (bits : Fin 2 → BitVec 16) :
    withBits (Function.update status unit (withBits status unit bits)) other bits =
        withBits status unit bits ↔ withBits status unit bits = withBits status other bits := by
  by_cases hunit : unit = other
  · subst hunit
    simp only [iff_true]
    funext i
    simp only [withBits, Function.update_self, BitVec.or_assoc, BitVec.or_self]
  · have hother : withBits (Function.update status unit (withBits status unit bits)) other bits =
        withBits status other bits := by
      funext i
      rw [withBits, Function.update_of_ne (Ne.symm hunit)]
      rfl
    rw [hother]
    exact eq_comm

theorem append_same_iff {α : Type*} {s s' t t' : List α} (hlen : s.length = s'.length) :
    s++t = s'++t' ↔ s = s' ∧ t = t' :=
  ⟨fun heq => List.append_inj heq hlen, fun heq => by rw [heq.1, heq.2]⟩

theorem two_words_iff (words words' : Fin 2 → BitVec 16) :
    [words 0, words 1] = [words' 0, words' 1] ↔ words = words' := by
  simp [funext_iff, Fin.forall_fin_two]

theorem johnson_iff (method : DeviceMethod) (value : BitVec 32) (m : Message) (g : Globals) :
    BuildsSame .johnsonSendPackage method value m g ↔
      Repeatable .johnsonSendPackage method m g := by
  unfold BuildsSame build Repeatable
  have hdefault : ¬64 ≤ johnsonControlsVrvDefaultAddress := by decide
  by_cases haddr : 64 ≤ m.deviceAddr
  · simp only [johnsonSendPackageHandle, haddr, if_true, true_or]
  · cases hbits : johnsonBits method with
    | none =>
      simp only [johnsonSendPackageHandle, haddr, hbits, if_false, false_or, command,
        Command.mk.injEq, true_and]
      rw [words_again _ (by simp only [select_words_length])]
      exact select_same_iff haddr m.buffer
    | some bits =>
      simp only [johnsonSendPackageHandle, haddr, hdefault, hbits, if_false, false_or, command,
        Command.mk.injEq, true_and]
      rw [words_again _ (by simp only [List.length_append, select_words_length]; rfl),
        append_same_iff (by simp only [select_words_length]),
        select_default_iff haddr, two_words_iff]
      exact and_congr_right fun _ => with_bits_again _ _ _ _

theorem johnson_info_iff (method : DeviceMethod) (value : BitVec 32) (m : Message) (g : Globals) :
    BuildsSame .johnsonGetDeviceInfo method value m g ↔ m.deviceAddr = 2 := by
  unfold BuildsSame build
  simp only [johnsonGetDeviceInfoSend, command, Command.mk.injEq, true_and, and_true,
    johnsonControlsVrvDefaultAddress, johnsonInfoRegisterLength, johnsonDataRegisterStart]
  omega

end Johnson

section Twice

/-- The second command is the first one if and only if the address is the
default one already, or the message makes no use of it. -/
theorem builds_same_iff (sender : Sender) (method : DeviceMethod) (value : BitVec 32) (m : Message)
    (g : Globals) :
    BuildsSame sender method value m g ↔ Repeatable sender method m g := by
  cases sender with
  | daikin handle =>
    cases handle with
    | getDeviceInfoSend => exact iff_of_true (daikin_info method value m g) trivial
    | setTemperature => exact daikin_iff (by decide) method value m g
    | setMode => exact daikin_iff (by decide) method value m g
    | setSwing => exact daikin_iff (by decide) method value m g
    | setFan => exact daikin_iff (by decide) method value m g
    | setSwitch => exact daikin_iff (by decide) method value m g
  | hitachiSendPackage => exact hitachi_iff method value m g
  | hitachiGetDeviceInfo => exact hitachi_info_iff method value m g
  | johnsonSendPackage => exact johnson_iff method value m g
  | johnsonGetDeviceInfo => exact johnson_info_iff method value m g

def initialGlobals : Globals := ⟨initialAdapter, initialIndoorStatus⟩

def toUnitFive : Message where
  code := .doNothing
  deviceAddr := 5
  registerAddr := 0
  buffer := List.replicate 12 0
  bufferLen := 12
  broadcast := false
  done := false

/-- Switching unit 5 on, and then building the command again. -/
theorem second_command_to_unit_two :
    (command (build .hitachiSendPackage .airOn 0 toUnitFive initialGlobals)).registerAddr = 4020 ∧
      (command (build .hitachiSendPackage .airOn 0
        (build .hitachiSendPackage .airOn 0 toUnitFive initialGlobals).2.1
        initialGlobals)).registerAddr = 4008 ∧
      ¬BuildsSame .hitachiSendPackage .airOn 0 toUnitFive initialGlobals := by
  refine ⟨by decide, by decide, fun h => ?_⟩
  have haddress := congrArg Command.registerAddr h
  exact absurd haddress (by decide)

end Twice

end RS485.Rebuilding
