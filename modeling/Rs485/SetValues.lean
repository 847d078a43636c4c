import Rs485.Frames
import Rs485.Setters

/-!
# The values that are set

A percentage goes out as the low byte of the value of a message, and a
temperature as the low word of ten times the value. Which values come back from
the frame or the register.
-/

set_option autoImplicit false

namespace RS485.SetValues
open RS485.Platform RS485.Records RS485.General RS485.Encoders RS485.Frames
open RS485.Modbus RS485.Daikin RS485.Setters
open RS485.Temperatures (message)

section Spec

/-- A message that sets a value, for one of the three drivers. -/
inductive Input where
  | doya (handle : Encoders.PortHandle)
  | aoke (handle : Encoders.PortHandle)
  | daikin (value : BitVec 32) (m : Message) (address : Byte) (g : Adapter)

/-- The handle of a message that sets a percentage. -/
def percent (handle : Encoders.PortHandle) : Encoders.PortHandle :=
  { handle with data := { handle.data with method := .curtainSetPercent } }

def Input.value : Input → ℤ
  | .doya handle => handle.data.value.toInt
  | .aoke handle => handle.data.value.toInt
  | .daikin value _ _ _ => value.toInt

/-- The largest value that fits. -/
def Input.limit : Input → ℤ
  | .doya _ => 255
  | .aoke _ => 255
  | .daikin _ _ _ _ => 6553

/-- The driver takes the address, has room for the frame and is initialised. -/
def Input.Accepted : Input → Prop
  | .doya handle => 2 ≤ handle.data.addressLen ∧ 8 ≤ handle.packageBufferLen
  | .aoke handle => handle.data.addressLen = 3 ∧ 7 ≤ handle.packageBufferLen % 2 ^ 32
  | .daikin _ _ address g => address.toNat ≤ 63 ∧ g.haStatus ≠ .waitInit

/-- What the driver returns. It is the number of bytes or of registers. -/
def Input.ret : Input → ℤ
  | .doya handle => (doyaSendPackageHandle (percent handle)).1
  | .aoke handle => (aokeSendPackageHandle (percent handle)).1
  | .daikin value m address g => (setTemperature .airSetTemp value (addressed m address) g).1

/-- The value read back from the sixth byte of the frame, or from the register. -/
def Input.decoded : Input → ℤ
  | .doya handle => ((doyaSendPackageHandle (percent handle)).2.packageBuffer.getD 5 0).toNat
  | .aoke handle => ((aokeSendPackageHandle (percent handle)).2.packageBuffer.getD 5 0).toNat
  | .daikin value m address g =>
    let buffer := (setTemperature .airSetTemp value (addressed m address) g).2.1.buffer
    ((buffer.getD 0 0).toNat*256+(buffer.getD 1 0).toNat : ℕ)/10

end Spec

section Arithmetic

variable (value : BitVec 32)

theorem low_byte_iff :
    ((value.setWidth 8).toNat : ℤ) = value.toInt ↔ 0 ≤ value.toInt ∧ value.toInt ≤ 255 := by
  have hlt := value.isLt
  have hint := BitVec.toInt_eq_toNat_cond value
  rw [BitVec.toNat_setWidth]
  split_ifs at hint <;> omega

/-- Ten times the value is divided by ten again. -/
theorem tenth_iff : (((value*10).setWidth 16).toNat : ℤ)/10 = value.toInt ↔
    0 ≤ value.toInt ∧ value.toInt ≤ 6553 := by
  have hlt := value.isLt
  have hint := BitVec.toInt_eq_toNat_cond value
  have hten : BitVec.toNat (10 : BitVec 32) = 10 := rfl
  rw [BitVec.toNat_setWidth, BitVec.toNat_mul, hten, Nat.mod_mod_of_dvd _ (by decide : 2^16 ∣ 2^32)]
  split_ifs at hint <;> omega

end Arithmetic

section Drivers

/-- The frame has eight bytes. -/
theorem doya_sent (handle : Encoders.PortHandle) :
    (0 < (Input.doya handle).ret ↔ (Input.doya handle).Accepted) ∧
      ((Input.doya handle).Accepted →
        (Input.doya handle).decoded = (handle.data.value.setWidth 8).toNat) := by
  have hpackage : ∃ package, doyaPackage (percent handle).data = some package ∧
      package.cmd = .commandPercent ∧ package.data 0 = handle.data.value.setWidth 8 :=
    ⟨_, rfl, rfl, rfl⟩
  obtain ⟨package, hpackage, hcmd, hdata⟩ := hpackage
  have hbody : package.body = package.header++[handle.data.value.setWidth 8] := by
    rw [doya_body, Package.dataLen, hcmd, ← hdata]
    rfl
  have hsend : doyaSendPackage handle.packageBuffer handle.packageBufferLen package =
      putIfFits handle.packageBuffer handle.packageBufferLen
        (package.body++modbusCrc16 package.body) (-1) := by
    simp [doyaSendPackage, hcmd]
  have hlength : (package.body++modbusCrc16 package.body).length = 8 := by
    simp [hbody, Package.header, modbusCrc16]
  rcases doya_cases (percent handle) with ⟨hneg, hwhy⟩ | ⟨haddress, package', hsome, hput⟩
  · rw [hpackage] at hwhy
    have hshort : handle.data.addressLen < 2 := hwhy.resolve_right (by simp)
    have hnot : ¬(Input.doya handle).Accepted := fun h => absurd h.1 (not_le.mpr hshort)
    exact ⟨iff_of_false (not_lt.mpr hneg.le) hnot, fun h => absurd h hnot⟩
  · obtain rfl := Option.some.inj (hpackage.symm.trans hsome)
    have hboth := hput.trans hsend
    rw [putIfFits, hlength] at hboth
    by_cases hfit : 8 ≤ handle.packageBufferLen
    · rw [if_neg (by push_cast; omega)] at hboth
      obtain ⟨hret, hbuffer⟩ := Prod.mk.inj hboth
      refine ⟨iff_of_true ?_ ⟨haddress, hfit⟩, fun _ => ?_⟩
      · rw [show (Input.doya handle).ret = 8 from hret]
        decide
      · simp only [Input.decoded, hbuffer, putFrame, hbody, Package.header]
        rfl
    · rw [if_pos (by push_cast; omega)] at hboth
      have hret := (Prod.mk.inj hboth).1
      have hnot : ¬(Input.doya handle).Accepted := fun h => hfit h.2
      refine ⟨iff_of_false ?_ hnot, fun h => absurd h hnot⟩
      rw [show (Input.doya handle).ret = -1 from hret]
      decide

theorem aoke_sent (handle : Encoders.PortHandle) :
    (0 < (Input.aoke handle).ret ↔ (Input.aoke handle).Accepted) ∧
      ((Input.aoke handle).Accepted →
        (Input.aoke handle).decoded = (handle.data.value.setWidth 8).toNat) := by
  have haddressLen : (percent handle).data.addressLen = handle.data.addressLen := rfl
  have hbufferLen : (percent handle).packageBufferLen = handle.packageBufferLen := rfl
  have hmethod : (aokeAddress (percent handle).data).method = .curtainSetPercent := by
    unfold aokeAddress
    split_ifs <;> rfl
  have hvalue : (aokeAddress (percent handle).data).value = handle.data.value := by
    unfold aokeAddress
    split_ifs <;> rfl
  have hpackage : aokePackage (aokeAddress (percent handle).data) =
      some ([(aokeAddress (percent handle).data).address 0,
        (aokeAddress (percent handle).data).address 1,
        (aokeAddress (percent handle).data).address 2]++
          [aokeCommandPostion, handle.data.value.setWidth 8]) := by
    rw [aokePackage, hmethod, hvalue]
  simp only [Input.ret, Input.Accepted, Input.decoded, aokeSendPackageHandle, haddressLen,
    hbufferLen, hpackage]
  have herror : ¬(0 : ℤ) < -1 := by decide
  have hseven : (0 : ℤ) < 7 := by decide
  by_cases haddress : handle.data.addressLen = 3
  · by_cases hfit : handle.packageBufferLen % 2 ^ 32 < 7
    · rw [if_neg (not_not.mpr haddress), if_pos hfit]
      exact ⟨iff_of_false herror fun h => absurd hfit (not_lt.mpr h.2),
        fun h => absurd hfit (not_lt.mpr h.2)⟩
    · rw [if_neg (not_not.mpr haddress), if_neg hfit]
      exact ⟨iff_of_true hseven ⟨haddress, not_lt.mp hfit⟩, fun _ => rfl⟩
  · rw [if_pos haddress]
    exact ⟨iff_of_false herror fun h => haddress h.1, fun h => absurd h.1 haddress⟩

theorem daikin_sent (value : BitVec 32) (m : Message) (address : Byte) (g : Adapter) :
    (0 < (Input.daikin value m address g).ret ↔ (Input.daikin value m address g).Accepted) ∧
      ((Input.daikin value m address g).Accepted →
        (Input.daikin value m address g).decoded = (((value*10).setWidth 16).toNat : ℤ)/10) := by
  have hset : setTemperature .airSetTemp value (addressed m address) g =
      sendHandle .setTemperature .airSetTemp value (addressed m address) g := rfl
  simp only [Input.ret, Input.Accepted, Input.decoded, hset]
  by_cases hgated : Gated .setTemperature .airSetTemp g
  · have hinit : g.haStatus = .waitInit := hgated.resolve_right fun h => absurd h.1 (by decide)
    rw [setter_gated (by decide) value _ hgated]
    exact ⟨iff_of_false (lt_irrefl 0) fun h => h.2 hinit, fun h => absurd hinit h.2⟩
  · have hinit : g.haStatus ≠ .waitInit := fun h => hgated (Or.inl h)
    rw [setter_ungated (by decide) value _ hgated]
    by_cases hhigh : 63 < (addressed m address).deviceAddr
    · have hnot : ¬address.toNat ≤ 63 := by
        simp only [addressed] at hhigh
        omega
      rw [set_refused _ _ _ _ hhigh]
      have herror : ¬(0 : ℤ) < -1 := by decide
      exact ⟨iff_of_false herror fun h => hnot h.1, fun h => absurd h.1 hnot⟩
    · have hlow : address.toNat ≤ 63 := by
        simp only [addressed] at hhigh
        omega
      rw [set_sent _ _ _ _ hhigh rfl]
      refine ⟨iff_of_true Int.one_pos ⟨hlow, hinit⟩, fun _ => ?_⟩
      rw [← Temperatures.word_bytes ((value*10).setWidth 16)]
      rfl

end Drivers

/-- A value that is sent comes back exactly if it is not negative and not above the
limit of its driver. -/
theorem set_values_iff (input : Input) : (0 < input.ret → input.decoded = input.value) ↔
    (input.Accepted → 0 ≤ input.value ∧ input.value ≤ input.limit) := by
  cases input with
  | doya handle =>
    obtain ⟨hsent, hdecoded⟩ := doya_sent handle
    rw [hsent]
    refine forall_congr' fun haccepted => ?_
    rw [hdecoded haccepted]
    exact low_byte_iff handle.data.value
  | aoke handle =>
    obtain ⟨hsent, hdecoded⟩ := aoke_sent handle
    rw [hsent]
    refine forall_congr' fun haccepted => ?_
    rw [hdecoded haccepted]
    exact low_byte_iff handle.data.value
  | daikin value m address g =>
    obtain ⟨hsent, hdecoded⟩ := daikin_sent value m address g
    rw [hsent]
    refine forall_congr' fun haccepted => ?_
    rw [hdecoded haccepted]
    exact tenth_iff value

def tooMuch : Input := .doya { portHandle 20 2 .curtainSetPercent with
  data := ⟨fun _ => 1, 2, false, .curtainSetPercent, 256, 7⟩ }

def belowZero : Input := .daikin (-1) (message 0) 5 normalAdapter

/-- A curtain asked for 256 percent is sent 0, and an air conditioner asked for
-1 degrees gets ten times 6552, and a remainder. -/
theorem values_changed :
    (tooMuch.value = 256 ∧ tooMuch.decoded = 0 ∧
        ¬(0 < tooMuch.ret → tooMuch.decoded = tooMuch.value)) ∧
      (belowZero.value = -1 ∧ belowZero.decoded = 6552 ∧
        ¬(0 < belowZero.ret → belowZero.decoded = belowZero.value)) := by
  refine ⟨⟨by decide, by decide, fun h => ?_⟩, ⟨by decide, by decide, fun h => ?_⟩⟩
  · exact absurd (h (by decide)) (by decide)
  · exact absurd (h (by decide)) (by decide)

end RS485.SetValues
