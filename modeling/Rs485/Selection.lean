import Rs485.Rebuilding
import Rs485.Temperatures

/-!
# The unit a Johnson Controls command selects

The driver does not set the bit of the unit, it shifts the word that stands in
the buffer. What the first four words come to depends on what an earlier message
has left there.
-/

set_option autoImplicit false

namespace RS485.Selection
open RS485.Platform RS485.Records RS485.Encoders RS485.Modbus RS485.Words RS485.Daikin
open RS485.Gateways RS485.Rebuilding
open RS485.Temperatures (message)

section Spec

/-- The call for a command to a unit. -/
def send (method : DeviceMethod) (a : Fin 64) (m : Message) (status : IndoorStatus) :
    ℤ × Message × IndoorStatus :=
  johnsonSendPackageHandle method { m with deviceAddr := a.val } status

/-- The first four words have one bit, which is that of the unit. -/
def Selects (a : Fin 64) (buffer : List Byte) : Prop :=
  ∀ i < 4, ∀ j < 16, (wordAt buffer i).getLsbD j = true ↔ i = 3-a.val/16 ∧ j = a.val%16

/-- The bits that the shift keeps of the word that was in the buffer. -/
def kept (a : Fin 64) (m : Message) : ℕ :=
  (wordAt m.buffer (3-a.val/16)).toNat % 2^(16-a.val%16)

end Spec

section Words

variable {method : DeviceMethod} (hm : (johnsonBits method).isSome = true) (a : Fin 64)
  (m : Message) (status : IndoorStatus)

theorem unit_below (a : Fin 64) : ¬64 ≤ (a.val : ℤ) := by omega

include hm in
/-- All words but that of the unit are zero. -/
theorem sent_word {i : ℕ} (hi : i < 4) :
    (send method a m status).1 = 6 ∧ wordAt (send method a m status).2.1.buffer i =
      if i = 3-a.val/16 then wordAt m.buffer (3-a.val/16) <<< (a.val%16) else 0 := by
  obtain ⟨bits, hbits⟩ := Option.isSome_iff_exists.mp hm
  have hselect := select_words_eq (unit_below a) m.buffer
  have hword : (selectWords a.val m.buffer).getD i 0 =
      if i = 3-a.val/16 then wordAt m.buffer (3-a.val/16) <<< (a.val%16) else 0 := by
    rw [hselect, List.getD, List.getElem?_set]
    simp only [place, selection, Int.toNat_natCast, List.length_replicate]
    by_cases hplace : 3-a.val/16 = i
    · rw [if_pos hplace, if_pos (by omega), if_pos hplace.symm]
      rfl
    · rw [if_neg hplace, if_neg (Ne.symm hplace), List.getElem?_replicate_of_lt hi]
      rfl
  rw [← hword]
  simp only [send, johnsonSendPackageHandle, unit_below a, if_false, hbits]
  exact ⟨trivial, selected_again m.buffer a.val _ hi⟩

include hm in
theorem sent_selects_iff :
    Selects a (send method a m status).2.1.buffer ↔ kept a m = 1 := by
  have hunit : a.val%16 < 16 := Nat.mod_lt _ (by decide)
  rw [kept, ← shift_one_iff hunit, ← one_bit_iff hunit]
  constructor
  · intro h j hj
    have hbit := h (3-a.val/16) (by omega) j hj
    rw [(sent_word hm a m status (by omega)).2, if_pos rfl] at hbit
    rw [hbit]
    exact and_iff_right rfl
  · intro h i hi j hj
    rw [(sent_word hm a m status hi).2]
    by_cases hplace : i = 3-a.val/16
    · rw [if_pos hplace, h j hj]
      exact (and_iff_right hplace).symm
    · rw [if_neg hplace]
      simp [hplace]

include hm in
theorem sent_same_iff (m' : Message) :
    (∀ i < 4, wordAt (send method a m status).2.1.buffer i =
        wordAt (send method a m' status).2.1.buffer i) ↔ kept a m = kept a m' := by
  have hunit : a.val%16 < 16 := Nat.mod_lt _ (by decide)
  rw [kept, kept, ← shift_same_iff hunit.le]
  constructor
  · intro h
    have hword := h (3-a.val/16) (by omega)
    rwa [(sent_word hm a m status (by omega)).2, (sent_word hm a m' status (by omega)).2,
      if_pos rfl, if_pos rfl] at hword
  · intro h i hi
    rw [(sent_word hm a m status hi).2, (sent_word hm a m' status hi).2, h]

end Words

/-- A command selects its unit, and no other, exactly if the bits the shift keeps
of the word in the buffer are a one. Two buffers lead to the same selection
exactly if they agree in these bits. -/
theorem johnson_selection_iff (method : DeviceMethod) (hm : (johnsonBits method).isSome = true)
    (a : Fin 64) (m : Message) (status : IndoorStatus) :
    ((send method a m status).1 = 6 ∧ Selects a (send method a m status).2.1.buffer ↔
        kept a m = 1) ∧
      ∀ m', (∀ i < 4, wordAt (send method a m status).2.1.buffer i =
          wordAt (send method a m' status).2.1.buffer i) ↔ kept a m = kept a m' := by
  refine ⟨?_, sent_same_iff hm a m status⟩
  rw [← sent_selects_iff hm a m status]
  exact and_iff_right (sent_word hm a m status (by decide : 0 < 4)).1

/-- A one stands in the fourth word of the buffer. -/
def prepared : Message := { message 5 with buffer := bytesOf [0, 0, 0, 1, 0, 0] }

theorem unit_five_selected : (send .airOn 5 prepared initialIndoorStatus).1 = 6 ∧
    Selects 5 (send .airOn 5 prepared initialIndoorStatus).2.1.buffer :=
  (johnson_selection_iff .airOn rfl 5 prepared initialIndoorStatus).1.mpr (by decide)

/-- With a buffer of zeros no unit is selected. -/
theorem no_unit_selected :
    (send .airOn 5 (message 5) initialIndoorStatus).1 = 6 ∧
      wordAt (send .airOn 5 (message 5) initialIndoorStatus).2.1.buffer 3 = 0 ∧
      ¬Selects 5 (send .airOn 5 (message 5) initialIndoorStatus).2.1.buffer := by
  have hzero : wordAt (send .airOn 5 (message 5) initialIndoorStatus).2.1.buffer 3 = 0 := by
    decide
  refine ⟨by decide, hzero, fun h => ?_⟩
  have hbit := (h 3 (by decide) 5 (by decide)).mpr (by decide)
  rw [hzero] at hbit
  exact absurd hbit (by decide)

end RS485.Selection
