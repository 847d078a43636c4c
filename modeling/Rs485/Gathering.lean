import Rs485.Selection

/-!
# What the Johnson Controls gateway remembers

The four settings of a unit are bytes of its two words, and the power is a bit of
the byte of the mode. Commands only add bits. A byte holds the code of a command
if nothing that was added before, and nothing it started from, lies outside.
-/

set_option autoImplicit false

namespace RS485.Gathering
open RS485.Platform RS485.Records RS485.Encoders RS485.Modbus RS485.Words RS485.Daikin
open RS485.Gateways RS485.Rebuilding RS485.Selection
open RS485.Temperatures (message)

structure Command where
  method : DeviceMethod
  unit : Fin 64
  m : Message

def after (status : IndoorStatus) (c : Command) : IndoorStatus :=
  (send c.method c.unit c.m status).2.2

def statusOf (history : List Command) : IndoorStatus := history.foldl after initialIndoorStatus

section Spec

inductive Field where
  | temperature
  | fan
  | mode
  | swing
  deriving DecidableEq, Repr

def Field.part : Field → (Fin 2 → BitVec 16) → Byte
  | .temperature => temperatureByte
  | .fan => fanByte
  | .mode => modeByte
  | .swing => swingByte

/-- The other byte of the same word. -/
def Field.beside : Field → Field
  | .temperature => .fan
  | .fan => .temperature
  | .mode => .swing
  | .swing => .mode

/-- The field a method is to set, and its code. -/
def fieldCode : DeviceMethod → Option (Field × Byte)
  | .airSetTemp18 => some (.temperature, 18)
  | .airSetTemp19 => some (.temperature, 19)
  | .airSetTemp20 => some (.temperature, 20)
  | .airSetTemp21 => some (.temperature, 21)
  | .airSetTemp22 => some (.temperature, 22)
  | .airSetTemp23 => some (.temperature, 23)
  | .airSetTemp24 => some (.temperature, 24)
  | .airSetTemp25 => some (.temperature, 25)
  | .airSetTemp26 => some (.temperature, 26)
  | .airSetTemp27 => some (.temperature, 27)
  | .airSetTemp28 => some (.temperature, 28)
  | .airSetTemp29 => some (.temperature, 29)
  | .airSetTemp30 => some (.temperature, 30)
  | .airFanAuto => some (.fan, 0x04)
  | .airFanHigh => some (.fan, 0x03)
  | .airFanMiddle => some (.fan, 0x02)
  | .airFanLow => some (.fan, 0x01)
  | .airModeFaning => some (.mode, 0x03)
  | .airModeHeating => some (.mode, 0x04)
  | .airModeCooling => some (.mode, 0x01)
  | .airModeDrying => some (.mode, 0x02)
  | .airModeAutoing => some (.mode, 0x02)
  | .airSwingAuto => some (.swing, 0x02)
  | .airSwingUpDown => some (.swing, 0x02)
  | .airSwingLeftRight => some (.swing, 0x02)
  | .airSwingUpDownLeftRight => some (.swing, 0x00)
  | _ => none

/-- What a command after a history does to the words of the units, and sends. -/
structure Exact (history : List Command) (c : Command) : Prop where
  field : ∀ f v, fieldCode c.method = some (f, v) →
    f.part (after (statusOf history) c c.unit) = v ∧
      f.beside.part (after (statusOf history) c c.unit) =
        f.beside.part (statusOf history c.unit)
  power : (send .airOn c.unit c.m (statusOf history)).2.1 ≠
    (send .airOff c.unit c.m (statusOf history)).2.1
  others : ∀ u, u ≠ c.unit → after (statusOf history) c u = statusOf history u
  words : (send c.method c.unit c.m (statusOf history)).1 = 6 →
    [wordAt (send c.method c.unit c.m (statusOf history)).2.1.buffer 4,
        wordAt (send c.method c.unit c.m (statusOf history)).2.1.buffer 5] =
      [after (statusOf history) c c.unit 0, after (statusOf history) c c.unit 1]

/-- What a command adds to a byte of a unit. -/
def added (f : Field) (u : Fin 64) (c : Command) : Byte :=
  if c.unit = u then f.part ((johnsonBits c.method).getD fun _ => 0) else 0

/-- The methods that set the bit of the power. -/
def poweringMethods : List DeviceMethod :=
  [.airOn, .airModeFaning, .airModeDrying, .airModeAutoing]

/-- The code holds all bits the byte started with and was given for the unit, and
the unit had no command that sets the bit of the power. -/
structure Fresh (history : List Command) (c : Command) : Prop where
  initial : ∀ f v, fieldCode c.method = some (f, v) → f.part (initialIndoorStatus c.unit) ||| v = v
  earlier : ∀ f v, fieldCode c.method = some (f, v) → ∀ e ∈ history, added f c.unit e ||| v = v
  power : ∀ e ∈ history, e.unit = c.unit → e.method ∉ poweringMethods

end Spec

section Fields

variable (f : Field) (u : Fin 64)

theorem unit_of_val (a : Fin 64) : unitOf a.val = a := Fin.ext (unit_of_nat a.isLt)

theorem after_unit (status : IndoorStatus) (c : Command) (u : Fin 64) :
    after status c u =
      if c.unit = u then withBits status u ((johnsonBits c.method).getD fun _ => 0)
      else status u := by
  rw [after, send, johnson_status]
  simp only [unit_below, not_false_eq_true, true_and, unit_of_val]

theorem part_or (words bits : Fin 2 → BitVec 16) :
    f.part (fun i => words i ||| bits i) = f.part words ||| f.part bits := by
  cases f <;>
    simp only [Field.part, temperatureByte, fanByte, modeByte, swingByte,
      BitVec.ushiftRight_or_distrib, BitVec.setWidth_or]

theorem after_part (status : IndoorStatus) (c : Command) :
    f.part (after status c u) = f.part (status u) ||| added f u c := by
  rw [after_unit, added]
  by_cases hunit : c.unit = u
  · rw [if_pos hunit, if_pos hunit]
    exact part_or f (status u) _
  · rw [if_neg hunit, if_neg hunit]
    exact BitVec.or_zero.symm

/-- A byte gathers what the commands for its unit add. -/
theorem part_gathered (history : List Command) :
    f.part (statusOf history u) =
      gathered (added f u) history ||| f.part (initialIndoorStatus u) :=
  foldl_gathered (added f u) after (fun status => f.part (status u)) (after_part f u)
    initialIndoorStatus history

variable {f}

theorem code_added {v : Byte} {c : Command} (h : fieldCode c.method = some (f, v))
    (hne : c.method ≠ .airSetTemp21) : added f c.unit c = v := by
  rw [added, if_pos rfl]
  cases hm : c.method <;> rw [hm] at h hne <;>
    simp only [fieldCode, reduceCtorEq, Option.some.injEq, Prod.mk.injEq] at h <;>
    obtain ⟨rfl, rfl⟩ := h <;> first | rfl | exact absurd rfl hne

theorem beside_added {v : Byte} {c : Command} (h : fieldCode c.method = some (f, v)) :
    added f.beside c.unit c = 0 := by
  rw [added, if_pos rfl]
  cases hm : c.method <;> rw [hm] at h <;>
    simp only [fieldCode, reduceCtorEq, Option.some.injEq, Prod.mk.injEq] at h <;>
    obtain ⟨rfl, rfl⟩ := h <;> rfl

theorem field_set_iff (history : List Command) {c : Command} {v : Byte}
    (h : fieldCode c.method = some (f, v)) :
    f.part (after (statusOf history) c c.unit) = v ↔
      f.part (initialIndoorStatus c.unit) ||| v = v ∧
        ∀ e ∈ history, added f c.unit e ||| v = v := by
  by_cases hne : c.method = .airSetTemp21
  · -- 21 has no case, and is not reached from the 25 degrees of the start either
    rw [hne] at h
    obtain ⟨rfl, rfl⟩ : Field.temperature = f ∧ 21 = v := by simpa [fieldCode] using h
    have hinitial : Field.temperature.part (initialIndoorStatus c.unit) = 25#8 := by
      simp [Field.part, temperatureByte, initialIndoorStatus]
    have hadded : added .temperature c.unit c = 0#8 := by
      rw [added, if_pos rfl, hne]
      rfl
    rw [after_part, hadded, BitVec.or_zero, part_gathered, hinitial]
    refine iff_of_false (fun heq => ?_) fun hboth => absurd hboth.1 (by decide)
    have hwithin : gathered (added .temperature c.unit) history ||| 25#8 ||| 21#8 = 21#8 := by
      rw [heq]
      exact BitVec.or_self
    exact absurd (within_of_or hwithin).2 (by decide)
  · rw [after_part, code_added h hne, part_gathered, ← gathered_within_iff]
    constructor
    · exact fun heq => (within_of_or heq).symm
    · rintro ⟨hinitial, hgathered⟩
      rw [BitVec.or_assoc, hinitial, hgathered]

end Fields

section Frames

variable {method : DeviceMethod} {bits : Fin 2 → BitVec 16}
  (hbits : johnsonBits method = some bits) (a : Fin 64) (m : Message) (status : IndoorStatus)

include hbits in
theorem sent_frame : (send method a m status).2.1 = { m with
    code := .writeMultipleRegisters
    registerAddr := johnsonHoldRegisterStart
    buffer := putFrame m.buffer (bytesOf (selectWords a.val m.buffer++
      [withBits status a bits 0, withBits status a bits 1]))
    deviceAddr := johnsonControlsVrvDefaultAddress } := by
  simp only [send, johnsonSendPackageHandle, unit_below a, if_false, hbits, unit_of_val]

theorem word_after (buffer : List Byte) (ws rest : List (BitVec 16)) {i : ℕ}
    (hi : i < rest.length) :
    wordAt (putFrame buffer (bytesOf (ws++rest))) (ws.length+i) = rest.getD i 0 := by
  refine (word_at_stored _ _ (by simp [hi])).trans ?_
  rw [List.getD_append_right _ _ _ _ (by omega), Nat.add_sub_cancel_left]

theorem sent_words {c : Command}
    (h : (send c.method c.unit c.m status).1 = 6) :
    [wordAt (send c.method c.unit c.m status).2.1.buffer 4,
        wordAt (send c.method c.unit c.m status).2.1.buffer 5] =
      [after status c c.unit 0, after status c c.unit 1] := by
  cases hbits : johnsonBits c.method with
  | none => simp [send, johnsonSendPackageHandle, unit_below c.unit, hbits] at h
  | some bits =>
    have hlen := select_words_length c.unit.val c.m.buffer
    have hfour := word_after c.m.buffer (selectWords c.unit.val c.m.buffer)
      [withBits status c.unit bits 0, withBits status c.unit bits 1] (i := 0) (by simp)
    have hfive := word_after c.m.buffer (selectWords c.unit.val c.m.buffer)
      [withBits status c.unit bits 0, withBits status c.unit bits 1] (i := 1) (by simp)
    rw [hlen] at hfour hfive
    rw [sent_frame hbits, after_unit, if_pos rfl, hbits]
    simp only [hfour, hfive]
    rfl

theorem same_frame_iff (buffer : List Byte) (select : List (BitVec 16))
    (words words' : Fin 2 → BitVec 16) :
    putFrame buffer (bytesOf (select++[words 0, words 1])) =
        putFrame buffer (bytesOf (select++[words' 0, words' 1])) ↔ words = words' := by
  rw [← two_words_iff words words']
  constructor
  · intro h
    rw [putFrame, putFrame, bytes_of_length, bytes_of_length, List.length_append,
      List.length_append] at h
    exact List.append_cancel_left (bytes_of_injective (List.append_cancel_right h))
  · exact fun h => by rw [h]

/-- An ON and an OFF command send the same if the bit of the power is set. -/
theorem power_same_iff : (send .airOn a m status).2.1 = (send .airOff a m status).2.1 ↔
    (modeByte (status a)).getLsbD 1 = true := by
  have hbit : (modeByte (status a)).getLsbD 1 = (status a 0).getLsbD 9 := by
    simp [modeByte]
  have hframe : (send .airOn a m status).2.1 = (send .airOff a m status).2.1 ↔
      withBits status a ![0x02 <<< 8, 0] = withBits status a ![0x00 <<< 8, 0] := by
    have hon : johnsonBits .airOn = some (![0x02 <<< 8, 0] : Fin 2 → BitVec 16) := rfl
    have hoff : johnsonBits .airOff = some (![0x00 <<< 8, 0] : Fin 2 → BitVec 16) := rfl
    rw [sent_frame hon, sent_frame hoff]
    constructor
    · exact fun h => (same_frame_iff _ _ _ _).mp (congrArg Message.buffer h)
    · exact fun h => by rw [h]
  have hword : (0x02 <<< 8 : BitVec 16) = BitVec.twoPow 16 9 := by decide
  rw [hframe, hbit, ← or_two_pow_iff (by decide), ← hword]
  simp [withBits, funext_iff, Fin.forall_fin_two]

end Frames

section Power

theorem powering_iff (method : DeviceMethod) :
    (modeByte ((johnsonBits method).getD fun _ => 0)).getLsbD 1 = true ↔
      method ∈ poweringMethods := by
  cases method with
  | unknown value unnamed => simp [johnsonBits, modeByte, poweringMethods]
  | _ => decide

theorem power_differs_iff (history : List Command) (a : Fin 64) (m : Message) :
    (send .airOn a m (statusOf history)).2.1 ≠ (send .airOff a m (statusOf history)).2.1 ↔
      ∀ e ∈ history, e.unit = a → e.method ∉ poweringMethods := by
  have hbit : ∀ e, (added .mode a e).getLsbD 1 = true ↔
      e.unit = a ∧ e.method ∈ poweringMethods := by
    intro e
    rw [added, ← powering_iff]
    by_cases hunit : e.unit = a
    · rw [if_pos hunit]
      exact (and_iff_right hunit).symm
    · rw [if_neg hunit]
      simp [hunit]
  have hinitial : (Field.mode.part (initialIndoorStatus a)).getLsbD 1 = false := by
    simp [Field.part, modeByte, initialIndoorStatus]
  have hmode : (modeByte (statusOf history a)).getLsbD 1 = true ↔
      ∃ e ∈ history, e.unit = a ∧ e.method ∈ poweringMethods := by
    have hpart := part_gathered .mode a history
    rw [show Field.mode.part (statusOf history a) = modeByte (statusOf history a) from rfl] at hpart
    rw [hpart, BitVec.getLsbD_or, hinitial, Bool.or_false, gathered_bit]
    simp only [hbit]
  rw [ne_eq, power_same_iff, hmode]
  push Not
  exact Iff.rfl

end Power

/-- After any history a command sets its field, and the power can be told from the
frame, exactly if the code holds all that was added before. -/
theorem status_exact_iff (history : List Command) (c : Command) :
    Exact history c ↔ Fresh history c := by
  constructor
  · intro h
    constructor
    · exact fun f v hcode => ((field_set_iff history hcode).mp (h.field f v hcode).1).1
    · exact fun f v hcode => ((field_set_iff history hcode).mp (h.field f v hcode).1).2
    · exact (power_differs_iff history c.unit c.m).mp h.power
  · intro h
    constructor
    · intro f v hcode
      refine ⟨(field_set_iff history hcode).mpr ⟨h.initial f v hcode, h.earlier f v hcode⟩, ?_⟩
      rw [after_part, beside_added hcode]
      exact BitVec.or_zero
    · exact (power_differs_iff history c.unit c.m).mpr h.power
    · intro u hu
      rw [after_unit, if_neg (Ne.symm hu)]
    · exact sent_words (statusOf history)

/-- Unit 3 is set to 20 degrees, and goes to 29. Then it is switched on, and can no
longer be switched off. -/
theorem twenty_degrees_kept : fieldCode .airSetTemp20 = some (.temperature, 20) ∧
    temperatureByte (after (statusOf []) ⟨.airSetTemp20, 3, message 3⟩ 3) = 29 ∧
    ¬Exact [] ⟨.airSetTemp20, 3, message 3⟩ ∧
    ¬Exact [⟨.airOn, 3, message 3⟩] ⟨.airOff, 3, message 3⟩ := by
  refine ⟨rfl, by decide, ?_, ?_⟩
  · intro h
    exact absurd (h.field .temperature 20 rfl).1 (by decide)
  · intro h
    rw [status_exact_iff] at h
    exact h.power ⟨.airOn, 3, message 3⟩ (by simp) rfl (by decide)

end RS485.Gathering
