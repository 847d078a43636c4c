import Rs485.Daikin

/-!
# What the Daikin registers remember

Each method commands one setting, which is a field of a register. Over any
history of commands a field holds the code of the latest one for its unit. The
last unit starts from a row of zeros, and there two registers need a command
before they are as those of the other units.
-/

set_option autoImplicit false

namespace RS485.Recall
open RS485.Platform RS485.Records RS485.Encoders RS485.Words RS485.Daikin

structure Command where
  method : DeviceMethod
  value : BitVec 32
  unit : Fin 64

def call (t : HoldRegisters) (c : Command) : BitVec 16 × HoldRegisters :=
  getDaikinHoldRegisterValue c.method c.value c.unit t

def registers (history : List Command) : HoldRegisters :=
  history.foldl (fun t c => (call t c).2) initialRegisters

section Settings

def swingMask : BitVec 16 := 0x0f00
def fanMask : BitVec 16 := 0xf000
def powerMask : BitVec 16 := 0x000f
def restMask : BitVec 16 := 0x00f0
def modeMask : BitVec 16 := 0x000f

/-- What a method asks for. The first register has three fields. -/
inductive Setting where
  | nibble (mask code : BitVec 16)
  | mode (code : BitVec 16)
  | temperature
  deriving DecidableEq

def setting : DeviceMethod → Option Setting
  | .airSetTemp | .airSetTemp18 | .airSetTemp19 | .airSetTemp20 | .airSetTemp21 | .airSetTemp22
  | .airSetTemp23 | .airSetTemp24 | .airSetTemp25 | .airSetTemp26 | .airSetTemp27 | .airSetTemp28
  | .airSetTemp29 | .airSetTemp30 => some .temperature
  | .airSwingAuto => some (.nibble swingMask 0x0200)
  | .airSwingUpDown => some (.nibble swingMask 0x0400)
  | .airSwingLeftRight => some (.nibble swingMask 0x0000)
  | .airSwingUpDownLeftRight => some (.nibble swingMask 0x0700)
  | .airFanAuto => some (.nibble fanMask 0x3000)
  | .airFanHigh => some (.nibble fanMask 0x5000)
  | .airFanMiddle => some (.nibble fanMask 0x3000)
  | .airFanLow => some (.nibble fanMask 0x1000)
  | .airModeFaning => some (.mode 0x0000)
  | .airModeHeating => some (.mode 0x0001)
  | .airModeCooling => some (.mode 0x0002)
  | .airModeDrying => some (.mode 0x0007)
  | .airModeAutoing => some (.mode 0x0103)
  | .airOff => some (.nibble powerMask 0x0000)
  | .airOn => some (.nibble powerMask 0x0001)
  | _ => none

/-- The register a setting is a field of. -/
def Setting.offset : Setting → Fin 3
  | .nibble _ _ => onOffSwingFanOffset
  | .mode _ => modeOffset
  | .temperature => temperatureOffset

/-- The code lies in its field. That of the automatic mode has one bit beside it. -/
def Setting.Within : Setting → Prop
  | .nibble mask code => mask ∈ [swingMask, fanMask, powerMask] ∧ code &&& ~~~mask = 0
  | .mode code => code &&& ~~~modeMask = 0 ∨ code = 0x0103
  | .temperature => True

/-- The setting a command asks for, if it is for the unit. -/
def Command.asks (u : Fin 64) (c : Command) : Option Setting :=
  if c.unit = u then setting c.method else none

def nibbleCode (mask : BitVec 16) (u : Fin 64) (c : Command) : Option (BitVec 16) :=
  match c.asks u with
  | some (.nibble field code) => if field = mask then some code else none
  | _ => none

def modeCode (u : Fin 64) (c : Command) : Option (BitVec 16) :=
  match c.asks u with
  | some (.mode code) => some code
  | _ => none

/-- Ten times the value, modulo 2 ^ 16. -/
def temperatureCode (u : Fin 64) (c : Command) : Option (BitVec 16) :=
  match c.asks u with
  | some .temperature => some (BitVec.ofInt 16 (c.value.toInt * 10))
  | _ => none

end Settings

/-- The field of the first register holds the latest code, or the initial one. -/
def HoldsLatest (history : List Command) (u : Fin 64) (mask : BitVec 16) : Prop :=
  registers history u onOffSwingFanOffset &&& mask =
    latest (nibbleCode mask u) (initialRegisters u onOffSwingFanOffset &&& mask) history

/-- The registers of a unit after a history of commands, and what one command
more does to them and returns. -/
structure Remembers (history : List Command) (u : Fin 64) : Prop where
  swing : HoldsLatest history u swingMask
  fan : HoldsLatest history u fanMask
  power : HoldsLatest history u powerMask
  rest : registers history u onOffSwingFanOffset &&& restMask =
    initialRegisters u onOffSwingFanOffset &&& restMask
  mode : registers history u modeOffset =
    0x0100 ||| (latest (modeCode u) 0x0103 history &&& modeMask)
  temperature : registers history u temperatureOffset = latest (temperatureCode u) 250 history
  others : ∀ c : Command, c.unit ≠ u → registers (history++[c]) u = registers history u
  returned : ∀ (c : Command) (s : Setting), c.asks u = some s →
    (call (registers history) c).1 = registers (history++[c]) u s.offset

/-- The unit was set to the automatic mode and was given a temperature. -/
def Prepared (history : List Command) (u : Fin 64) : Prop :=
  (∃ c ∈ history, modeCode u c = some 0x0103) ∧ ∃ c ∈ history, temperatureCode u c ≠ none

section Calls

theorem setting_within {method : DeviceMethod} {s : Setting} (h : setting method = some s) :
    s.Within := by
  cases method <;> simp only [setting, reduceCtorEq, Option.some.injEq] at h <;> subst h <;>
    simp [Setting.Within, swingMask, fanMask, powerMask, modeMask]

/-- The switch, one case for each kind of setting. -/
theorem call_eq (t : HoldRegisters) (c : Command) :
    call t c = match setting c.method with
      | some (.nibble mask code) => replace t c.unit onOffSwingFanOffset (~~~mask) code
      | some (.mode code) => replace t c.unit modeOffset (~~~modeMask) code
      | some .temperature => write t c.unit temperatureOffset ((c.value * 10).setWidth 16)
      | none => (0xffff, t) := by
  obtain ⟨method, value, unit⟩ := c
  cases method <;> rfl

theorem write_registers (t : HoldRegisters) (unit : Fin 64) (offset : Fin 3) (value : BitVec 16)
    (o : Fin 3) :
    (write t unit offset value).2 unit o = if o = offset then value else t unit o := by
  simp only [write, Function.update_self, Function.update_apply]

theorem replace_registers (t : HoldRegisters) (unit : Fin 64) (offset : Fin 3)
    (keep code : BitVec 16) (o : Fin 3) : (replace t unit offset keep code).2 unit o =
      if o = offset then put keep code (t unit o) else t unit o := by
  rw [replace, write_registers]
  split_ifs with ho
  · rw [ho]
  · rfl

theorem write_unit (t : HoldRegisters) {unit u : Fin 64} (h : u ≠ unit) (offset : Fin 3)
    (value : BitVec 16) : (write t unit offset value).2 u = t u := by
  simp [write, h]

theorem call_unit (t : HoldRegisters) {c : Command} {u : Fin 64} (h : c.unit ≠ u) :
    (call t c).2 u = t u := by
  rw [call_eq]
  split <;> first | exact write_unit t h.symm _ _ | rfl

theorem asks_eq {u : Fin 64} {c : Command} {s : Setting} (h : c.asks u = some s) :
    c.unit = u ∧ setting c.method = some s := by
  unfold Command.asks at h
  split_ifs at h with hu
  exact ⟨hu, h⟩

theorem asks_within {u : Fin 64} {c : Command} {s : Setting} (h : c.asks u = some s) : s.Within :=
  setting_within (asks_eq h).2

/-- A command that asks nothing of the unit leaves its registers alone. -/
theorem call_nothing (t : HoldRegisters) {c : Command} {u : Fin 64} (h : c.asks u = none) :
    (call t c).2 u = t u := by
  by_cases hu : c.unit = u
  · have hnone : setting c.method = none := by simpa [Command.asks, hu] using h
    rw [call_eq, hnone]
  · exact call_unit t hu

theorem call_returned (t : HoldRegisters) {c : Command} {u : Fin 64} {s : Setting}
    (h : c.asks u = some s) : (call t c).1 = (call t c).2 u s.offset := by
  obtain ⟨rfl, hs⟩ := asks_eq h
  rw [call_eq, hs]
  cases s <;> exact ((write_registers t c.unit _ _ _).trans (if_pos rfl)).symm

theorem product_wraps (value : BitVec 32) :
    (value * 10).setWidth 16 = BitVec.ofInt 16 (value.toInt * 10) := by
  apply BitVec.eq_of_toNat_eq
  have hvalue := BitVec.toInt_eq_toNat_cond value
  simp only [BitVec.toNat_setWidth, BitVec.toNat_mul, BitVec.toNat_ofInt]
  split_ifs at hvalue <;> simp <;> omega

end Calls

section Steps

variable (t : HoldRegisters) (u : Fin 64) (c : Command)

/-- A call writes the register of the setting asked for and no other. -/
theorem call_registers (o : Fin 3) : (call t c).2 u o = match c.asks u with
    | some (.nibble mask code) =>
      if o = onOffSwingFanOffset then put (~~~mask) code (t u o) else t u o
    | some (.mode code) => if o = modeOffset then put (~~~modeMask) code (t u o) else t u o
    | some .temperature =>
      if o = temperatureOffset then BitVec.ofInt 16 (c.value.toInt * 10) else t u o
    | none => t u o := by
  cases h : c.asks u with
  | none => rw [call_nothing t h]
  | some s =>
    obtain ⟨rfl, hs⟩ := asks_eq h
    rw [call_eq, hs]
    cases s with
    | nibble mask code => exact replace_registers t c.unit _ _ _ o
    | mode code => exact replace_registers t c.unit _ _ _ o
    | temperature =>
      rw [← product_wraps]
      exact write_registers t c.unit _ _ o

theorem masks_apart {mask field : BitVec 16} (hfield : field ∈ [swingMask, fanMask, powerMask])
    (hmask : mask ∈ [swingMask, fanMask, powerMask, restMask]) (hne : field ≠ mask) :
    field &&& mask = 0 := by
  revert hne
  fin_cases hfield <;> fin_cases hmask <;> decide

theorem nibble_step {mask : BitVec 16}
    (hmask : mask ∈ [swingMask, fanMask, powerMask, restMask]) :
    (call t c).2 u onOffSwingFanOffset &&& mask =
      (nibbleCode mask u c).getD (t u onOffSwingFanOffset &&& mask) := by
  rw [call_registers]
  unfold nibbleCode
  cases h : c.asks u with
  | none => rfl
  | some s =>
    have hwithin := asks_within h
    cases s with
    | nibble field code =>
      obtain ⟨hfield, hcode⟩ := hwithin
      simp only [if_true]
      split_ifs with heq
      · subst heq
        rw [put_replaced (by simp), within_and hcode]
        rfl
      · have hapart := masks_apart hfield hmask heq
        exact put_kept (kept_apart hapart) (within_apart hcode hapart) _
    | mode code => rfl
    | temperature => rfl

theorem mode_step : (call t c).2 u modeOffset &&& modeMask =
    ((modeCode u c).map (· &&& modeMask)).getD (t u modeOffset &&& modeMask) := by
  rw [call_registers]
  unfold modeCode
  cases h : c.asks u with
  | none => rfl
  | some s =>
    cases s with
    | nibble field code => rfl
    | mode code => exact put_replaced (by simp) code _
    | temperature => rfl

/-- What a command adds to the upper bits of the mode register. -/
def upperBits : BitVec 16 := (modeCode u c).getD 0 &&& ~~~modeMask

theorem upper_step : (call t c).2 u modeOffset &&& ~~~modeMask =
    t u modeOffset &&& ~~~modeMask ||| upperBits u c := by
  rw [call_registers, upperBits]
  unfold modeCode
  cases h : c.asks u with
  | none => simp
  | some s =>
    cases s with
    | nibble field code => simp [modeOffset, onOffSwingFanOffset]
    | mode code =>
      simp only [if_true, Option.getD_some]
      rw [put, BitVec.and_or_distrib_right, BitVec.and_assoc, BitVec.and_self, BitVec.or_comm]
    | temperature => simp [modeOffset, temperatureOffset]

theorem temperature_step : (call t c).2 u temperatureOffset =
    (temperatureCode u c).getD (t u temperatureOffset) := by
  rw [call_registers]
  unfold temperatureCode
  cases h : c.asks u with
  | none => rfl
  | some s => cases s <;> rfl

theorem upper_bits_eq : upperBits u c = if modeCode u c = some 0x0103 then 0x0100 else 0 := by
  unfold upperBits
  split_ifs with h
  · rw [h]
    rfl
  · unfold modeCode at h ⊢
    cases hasks : c.asks u with
    | none => decide
    | some s =>
      cases s with
      | nibble field code => exact BitVec.zero_and
      | mode code =>
        rw [hasks] at h
        rcases asks_within hasks with hcode | rfl
        · exact hcode
        · exact absurd rfl h
      | temperature => exact BitVec.zero_and

end Steps

section History

variable (history : List Command) (u : Fin 64)

theorem holds_latest {mask : BitVec 16}
    (hmask : mask ∈ [swingMask, fanMask, powerMask, restMask]) : HoldsLatest history u mask :=
  foldl_latest (nibbleCode mask u) _ (fun t : HoldRegisters => t u onOffSwingFanOffset &&& mask)
    (fun t c => nibble_step t u c hmask) initialRegisters history

theorem rest_unchanged : registers history u onOffSwingFanOffset &&& restMask =
    initialRegisters u onOffSwingFanOffset &&& restMask := by
  have h : HoldsLatest history u restMask := holds_latest history u (by simp)
  rw [h]
  apply latest_of_none
  intro c _
  unfold nibbleCode
  cases hasks : c.asks u with
  | none => rfl
  | some s =>
    cases s with
    | nibble field code =>
      have hfield := (asks_within hasks).1
      have hne : field ≠ restMask := by
        fin_cases hfield <;> decide
      exact if_neg hne
    | mode code => rfl
    | temperature => rfl

theorem mode_nibble : registers history u modeOffset &&& modeMask =
    latest (modeCode u) (initialRegisters u modeOffset) history &&& modeMask := by
  have h := foldl_latest (fun c => (modeCode u c).map (· &&& modeMask)) _
    (fun t : HoldRegisters => t u modeOffset &&& modeMask) (fun t c => mode_step t u c)
    initialRegisters history
  exact h.trans (latest_map (modeCode u) (· &&& modeMask) (initialRegisters u modeOffset) history)

theorem mode_upper : registers history u modeOffset &&& ~~~modeMask =
    gathered (upperBits u) history ||| (initialRegisters u modeOffset &&& ~~~modeMask) :=
  foldl_gathered (upperBits u) _ (fun t : HoldRegisters => t u modeOffset &&& ~~~modeMask)
    (fun t c => upper_step t u c) initialRegisters history

theorem temperature_latest : registers history u temperatureOffset =
    latest (temperatureCode u) (initialRegisters u temperatureOffset) history :=
  foldl_latest (temperatureCode u) _ (fun t : HoldRegisters => t u temperatureOffset)
    (fun t c => temperature_step t u c) initialRegisters history

theorem registers_append (c : Command) :
    registers (history++[c]) = (call (registers history) c).2 := by
  rw [registers, List.foldl_append]
  rfl

theorem initial_row {u : Fin 64} (hu : u ≠ 63) : initialRegisters u = ![0x3761, 0x0103, 250] := by
  have hlt : u.val < 63 := by
    have := u.isLt
    have hne : u.val ≠ 63 := fun h => hu (Fin.ext h)
    omega
  exact if_pos hlt

/-- The upper bits of the mode register are set in every unit but the last, and
there by the automatic mode. -/
theorem upper_set_iff : registers history u modeOffset &&& ~~~modeMask = 0x0100 ↔
    u ≠ 63 ∨ ∃ c ∈ history, modeCode u c = some 0x0103 := by
  rw [mode_upper]
  have hwithin : gathered (upperBits u) history ||| 0x0100 = 0x0100 := by
    apply gathered_within
    intro c _
    rw [upper_bits_eq]
    split_ifs <;> rfl
  by_cases hu : u = 63
  · subst hu
    have hinit : initialRegisters 63 modeOffset &&& ~~~modeMask = 0#16 := by decide
    simp only [hinit, BitVec.or_zero, ne_eq, not_true_eq_false, false_or]
    constructor
    · intro h
      by_contra hnone
      have hzero : gathered (upperBits 63) history ||| 0#16 = 0#16 := by
        apply gathered_within
        intro c hc
        rw [upper_bits_eq, if_neg fun hcode => hnone ⟨c, hc, hcode⟩]
        rfl
      rw [BitVec.or_zero, h] at hzero
      exact absurd hzero (by decide)
    · rintro ⟨c, hc, hcode⟩
      have hself : gathered (upperBits 63) history ||| gathered (upperBits 63) history =
          gathered (upperBits 63) history := BitVec.or_self
      have hin := (gathered_within_iff (upperBits 63)).mp hself c hc
      rw [upper_bits_eq, if_pos hcode, BitVec.or_comm, hwithin] at hin
      exact hin.symm
  · have hinit : initialRegisters u modeOffset &&& ~~~modeMask = 0x0100 := by
      rw [initial_row hu]
      decide
    rw [hinit, hwithin]
    simp [hu]

/-- The mode register is as the other units have it from the start. -/
theorem mode_register_iff : registers history u modeOffset =
      0x0100 ||| (latest (modeCode u) 0x0103 history &&& modeMask) ↔
    u ≠ 63 ∨ ∃ c ∈ history, modeCode u c = some 0x0103 := by
  rw [← upper_set_iff]
  constructor
  · intro h
    rw [h, BitVec.and_or_distrib_right, BitVec.and_assoc]
    simp [modeMask]
  · intro h
    rw [split_word modeMask (registers history u modeOffset), h, mode_nibble]
    congr 1
    rcases (upper_set_iff history u).mp h with hu | ⟨c, hc, hcode⟩
    · rw [← latest_map (modeCode u) (· &&& modeMask), ← latest_map (modeCode u) (· &&& modeMask),
        initial_row hu]
      rfl
    · rw [latest_of_some (modeCode u) _ 0x0103 ⟨c, hc, by rw [hcode]; exact Option.some_ne_none _⟩]

theorem temperature_register_iff :
    registers history u temperatureOffset = latest (temperatureCode u) 250 history ↔
      u ≠ 63 ∨ ∃ c ∈ history, temperatureCode u c ≠ none := by
  rw [temperature_latest]
  by_cases hu : u = 63
  · subst hu
    simp only [ne_eq, not_true_eq_false, false_or]
    constructor
    · intro h
      by_contra hnone
      push Not at hnone
      rw [latest_of_none _ _ hnone, latest_of_none _ _ hnone] at h
      exact absurd h (by decide)
    · exact latest_of_some (temperatureCode 63) _ _
  · rw [initial_row hu]
    simp [hu, temperatureOffset]

theorem other_unit {c : Command} (h : c.unit ≠ u) :
    registers (history++[c]) u = registers history u := by
  rw [registers_append, call_unit _ h]

/-- After any history the registers of a unit hold the latest commands if and
only if it is not the last one, or was prepared by two of them. -/
theorem registers_remember_iff (history : List Command) (u : Fin 64) :
    Remembers history u ↔ u ≠ 63 ∨ Prepared history u := by
  constructor
  · intro h
    have hmode := (mode_register_iff history u).mp h.mode
    have htemperature := (temperature_register_iff history u).mp h.temperature
    by_cases hu : u = 63
    · simp only [hu, ne_eq, not_true_eq_false, false_or] at hmode htemperature
      right
      rw [hu]
      exact ⟨hmode, htemperature⟩
    · exact Or.inl hu
  · intro h
    exact {
      swing := holds_latest history u (by simp)
      fan := holds_latest history u (by simp)
      power := holds_latest history u (by simp)
      rest := rest_unchanged history u
      mode := (mode_register_iff history u).mpr (h.imp_right And.left)
      temperature := (temperature_register_iff history u).mpr (h.imp_right And.right)
      others := fun c hc => other_unit history u hc
      returned := by
        intro c s hs
        rw [registers_append]
        exact call_returned _ hs }

/-- Without a command the last unit has a mode register of zero. -/
theorem last_unit_differs :
    registers [] 63 modeOffset = 0 ∧ registers [] 63 temperatureOffset = 0 ∧ ¬Remembers [] 63 := by
  have hmode : registers [] 63 modeOffset = 0 := by decide
  refine ⟨hmode, by decide, ?_⟩
  intro h
  have hset := h.mode
  rw [hmode] at hset
  exact absurd hset (by decide)

end History

end RS485.Recall
