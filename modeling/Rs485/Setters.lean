import Rs485.Recall
import Rs485.Temperatures

/-!
# The register a Daikin setter writes

The five setters share one switch over all methods. For a method of its own group
a setter writes the register the method is cached in. It does nothing while the
adapter is not initialised, nor does the one for the mode with the method of the
fan that it leaves out.
-/

set_option autoImplicit false

namespace RS485.Setters
open RS485.Platform RS485.Records RS485.Encoders RS485.Modbus RS485.Words RS485.Daikin
open RS485.Recall
open RS485.Temperatures (message)

section Spec

/-- The settings a setter is there for. -/
def Group : SendHandle → Setting → Prop
  | .setTemperature, s => s = .temperature
  | .setMode, s => ∃ code, s = .mode code
  | .setSwing, s => ∃ code, s = .nibble swingMask code
  | .setFan, s => ∃ code, s = .nibble fanMask code
  | .setSwitch, s => ∃ code, s = .nibble powerMask code
  | .getDeviceInfoSend, _ => False

/-- The message before a setter, whose address is a byte. -/
def addressed (m : Message) (address : Byte) : Message := { m with deviceAddr := address.toNat }

/-- A setter is not to do anything. -/
def Gated (handle : SendHandle) (method : DeviceMethod) (g : Adapter) : Prop :=
  g.haStatus = .waitInit ∨ handle = .setMode ∧ method = .airFanAuto

variable (handle : SendHandle) (method : DeviceMethod) (address : Byte) (g : Adapter)
  (sent : ℤ × Message × Adapter)

/-- The message sets one register of the unit to what it is now cached as, and no
other cached register has changed. -/
structure WritesOf (s : Setting) : Prop where
  register : sent.2.1.registerAddr = 2000+3*address.toNat+s.offset.val
  high : sent.2.1.buffer[0]? =
    some ((sent.2.2.registers (unitOf address.toNat) s.offset >>> 8).setWidth 8)
  low : sent.2.1.buffer[1]? =
    some ((sent.2.2.registers (unitOf address.toNat) s.offset).setWidth 8)
  others : ∀ u o, sent.2.2.registers u o ≠ g.registers u o → u = unitOf address.toNat ∧ o = s.offset

/-- A message that is sent writes the register its method means, and a method of
another group or an address that is too high is refused. -/
structure Exact : Prop where
  written : sent.1 = 1 ∧ sent.2.1.code = .writeSignleRegister →
    ∃ s, setting method = some s ∧ Group handle s ∧ WritesOf address g sent s
  refused : (¬∃ s, setting method = some s ∧ Group handle s) ∨ 63 < address.toNat →
    sent.1 < 0 ∧ sent.2.2.registers = g.registers

/-- What the setters do apart from the methods of another group. -/
structure ExactOf : Prop where
  gated : Gated handle method g → sent.1 = 0 ∧ sent.2.1.code = .doNothing ∧ sent.2.2 = g
  refused : ¬Gated handle method g → 63 < address.toNat → sent.1 < 0 ∧ sent.2.2 = g
  written : ∀ s, ¬Gated handle method g → address.toNat ≤ 63 → setting method = some s →
    Group handle s →
    sent.1 = 1 ∧ sent.2.1.code = .writeSignleRegister ∧ WritesOf address g sent s
  /-- a method that the switch does not know changes nothing that is cached -/
  unknown : setting method = none → sent.2.2 = g

end Spec

section Setters

variable {handle : SendHandle} {method : DeviceMethod} {s : Setting}

theorem group_offset (h : Group handle s) : s.offset = handle.offset := by
  cases handle with
  | setTemperature =>
    rw [show s = .temperature from h]
    rfl
  | setMode =>
    obtain ⟨code, rfl⟩ := h
    rfl
  | getDeviceInfoSend => exact h.elim
  | _ =>
    obtain ⟨code, rfl⟩ := h
    rfl

theorem call_other {t : HoldRegisters} {c : Recall.Command} (hs : setting c.method = some s)
    {u : Fin 64} {o : Fin 3} (h : (call t c).2 u o ≠ t u o) : u = c.unit ∧ o = s.offset := by
  by_cases hu : c.unit = u
  · have hasks : c.asks u = some s := by
      rw [Recall.Command.asks, if_pos hu, hs]
    refine ⟨hu.symm, ?_⟩
    by_contra ho
    rw [call_registers, hasks] at h
    cases s <;> exact h (if_neg ho)
  · rw [call_unit t hu] at h
    exact absurd rfl h

theorem setter_gated (h : handle ≠ .getDeviceInfoSend) (value : BitVec 32) (m : Message)
    {g : Adapter} (hg : Gated handle method g) :
    sendHandle handle method value m g = (0, { m with code := .doNothing }, g) := by
  rw [setter_eq h]
  exact if_pos hg

theorem setter_ungated (h : handle ≠ .getDeviceInfoSend) (value : BitVec 32) (m : Message)
    {g : Adapter} (hg : ¬Gated handle method g) :
    sendHandle handle method value m g = setRegister handle.offset method value m g := by
  rw [setter_eq h]
  exact if_neg hg

theorem set_refused (offset : Fin 3) (method : DeviceMethod) (value : BitVec 32) {m : Message}
    (g : Adapter) (h : 63 < m.deviceAddr) : setRegister offset method value m g =
      (-1, { m with code := .writeSignleRegister }, g) := by
  unfold setRegister
  exact if_pos h

theorem set_sent (offset : Fin 3) (method : DeviceMethod) (value : BitVec 32) {m : Message}
    (g : Adapter) (h : ¬63 < m.deviceAddr) {c : Recall.Command}
    (hc : c = ⟨method, value, unitOf m.deviceAddr⟩) : setRegister offset method value m g =
      (1, { m with
        code := .writeSignleRegister
        registerAddr := getDaikinWriteRegisterAddr (unitOf m.deviceAddr)+offset.val
        buffer := putFrame m.buffer
          [((call g.registers c).1 >>> 8).setWidth 8, (call g.registers c).1.setWidth 8]
        deviceAddr := haAdapterDefaultAddress },
        { g with registers := (call g.registers c).2 }) := by
  subst hc
  unfold setRegister
  exact if_neg h

theorem set_written (value : BitVec 32) (m : Message) {address : Byte} (g : Adapter)
    (h : address.toNat ≤ 63) (hs : setting method = some s) :
    (setRegister s.offset method value (addressed m address) g).1 = 1 ∧
      (setRegister s.offset method value (addressed m address) g).2.1.code =
        .writeSignleRegister ∧
      WritesOf address g (setRegister s.offset method value (addressed m address) g) s := by
  have hlow : ¬63 < (addressed m address).deviceAddr := by
    simp only [addressed]
    omega
  obtain ⟨c, hc⟩ : ∃ c : Recall.Command, c = ⟨method, value, unitOf address.toNat⟩ := ⟨_, rfl⟩
  have hmethod : setting c.method = some s := by rw [hc, hs]
  have hunit : c.unit = unitOf address.toNat := by rw [hc]
  have hreturned :
      (call g.registers c).1 = (call g.registers c).2 (unitOf address.toNat) s.offset := by
    apply call_returned
    rw [Recall.Command.asks, if_pos hunit, hmethod]
  rw [set_sent s.offset method value g hlow hc]
  refine ⟨rfl, rfl, ?_, ?_, ?_, ?_⟩
  · simp only [getDaikinWriteRegisterAddr, addressed, unit_of_nat (Nat.lt_succ_of_le h),
      holdRegisterDeviceControlStart, holdRegisterStart]
    ring
  · exact congrArg (fun w : BitVec 16 => some ((w >>> 8).setWidth 8)) hreturned
  · exact congrArg (fun w : BitVec 16 => some (w.setWidth 8)) hreturned
  · intro u o hne
    rw [← hunit]
    exact call_other hmethod hne

theorem set_unknown (offset : Fin 3) (value : BitVec 32) (m : Message) (g : Adapter)
    (hs : setting method = none) : (setRegister offset method value m g).2.2 = g := by
  by_cases h : 63 < m.deviceAddr
  · rw [set_refused offset method value g h]
  · obtain ⟨c, hc⟩ : ∃ c : Recall.Command, c = ⟨method, value, unitOf m.deviceAddr⟩ := ⟨_, rfl⟩
    have hsame : (call g.registers c).2 = g.registers := by
      rw [call_eq, hc, hs]
    rw [set_sent offset method value g h hc, hsame]

end Setters

/-- A setter is exact about the methods of its own group and about addresses that
are too high, unless it is not to do anything. -/
theorem setters_write_own (handle : SendHandle) (h : handle ≠ .getDeviceInfoSend)
    (method : DeviceMethod) (value : BitVec 32) (m : Message) (address : Byte) (g : Adapter) :
    ExactOf handle method address g (sendHandle handle method value (addressed m address) g) := by
  constructor
  · intro hgated
    rw [setter_gated h value _ hgated]
    exact ⟨rfl, rfl, rfl⟩
  · intro hgated haddress
    have hhigh : 63 < (addressed m address).deviceAddr := by
      simp only [addressed]
      omega
    rw [setter_ungated h value _ hgated, set_refused handle.offset method value g hhigh]
    exact ⟨(by decide : (-1 : ℤ) < 0), rfl⟩
  · intro s hgated haddress hs hgroup
    rw [setter_ungated h value _ hgated, ← group_offset hgroup]
    exact set_written value m g haddress hs
  · intro hs
    by_cases hgated : Gated handle method g
    · rw [setter_gated h value _ hgated]
    · rw [setter_ungated h value _ hgated]
      exact set_unknown handle.offset value _ g hs

def normalAdapter : Adapter := { initialAdapter with haStatus := .normal }

theorem temperature_written : ExactOf .setTemperature .airSetTemp 5 normalAdapter
    (sendHandle .setTemperature .airSetTemp 26 (addressed (message 0) 5) normalAdapter) :=
  setters_write_own .setTemperature (by decide) .airSetTemp 26 (message 0) 5 normalAdapter

/-- Before the adapter is initialised the address 100 is not refused. Afterwards the
setter of the temperature takes a method of the fan, and writes the temperature. -/
theorem setters_inexact :
    ¬Exact .setTemperature .airSetTemp 100 initialAdapter
        (sendHandle .setTemperature .airSetTemp 26 (addressed (message 0) 100) initialAdapter) ∧
      ¬Exact .setTemperature .airFanHigh 5 normalAdapter
        (sendHandle .setTemperature .airFanHigh 26 (addressed (message 0) 5) normalAdapter) := by
  constructor
  · intro h
    have hrefused := (h.refused (Or.inr (by decide))).1
    exact absurd hrefused (by decide)
  · intro h
    obtain ⟨s, hs, hgroup, -⟩ := h.written ⟨by decide, by decide⟩
    obtain rfl := Option.some.inj (show some (.nibble fanMask 0x5000) = some s from hs)
    cases hgroup

end RS485.Setters
