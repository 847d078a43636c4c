import Mathlib

/-!
# Blocks of memory

A block is a list of cells with partial loads and stores, and may be divided
into slots of one size. Bits are numbered through the bytes of a block, eight
to a byte.
-/

set_option autoImplicit false

namespace RS485.Blocks

section Slots

variable {α : Type*}

def load (mem : List α) (offset n : ℕ) : Option (List α) :=
  if offset + n ≤ mem.length then some ((mem.drop offset).take n) else none

def store (mem : List α) (offset : ℕ) (data : List α) : Option (List α) :=
  if offset + data.length ≤ mem.length then
    some (mem.take offset++data++mem.drop (offset + data.length))
  else none

def slot (size : ℕ) (mem : List α) (k : ℕ) : List α := (mem.drop (k * size)).take size

theorem store_length {mem mem' : List α} {offset : ℕ} {data : List α}
    (h : store mem offset data = some mem') : mem'.length = mem.length := by
  unfold store at h
  split_ifs at h with hfit
  obtain rfl := Option.some.inj h
  simp
  omega

/-- The cells that are not stored to stay as they are. -/
theorem store_outside {mem mem' data : List α} {offset k : ℕ}
    (h : store mem offset data = some mem') (hk : k < offset ∨ offset + data.length ≤ k) :
    mem'[k]? = mem[k]? := by
  unfold store at h
  split_ifs at h with hfit
  obtain rfl := Option.some.inj h
  have htake : (mem.take offset).length = offset := by
    rw [List.length_take]
    omega
  rcases hk with hlt | hge
  · rw [List.append_assoc, List.getElem?_append_left (by omega), List.getElem?_take, if_pos hlt]
  · rw [List.getElem?_append_right (by rw [List.length_append, htake]; omega), List.getElem?_drop,
      List.length_append, htake]
    congr 1
    omega

theorem slot_fits {size limit k : ℕ} {mem : List α} (hlen : mem.length = limit * size)
    (hk : k < limit) : k * size + size ≤ mem.length := by
  calc k * size + size = (k + 1) * size := by ring
    _ ≤ limit * size := Nat.mul_le_mul_right size hk
    _ = mem.length := hlen.symm

theorem load_slot {size limit k : ℕ} {mem : List α} (hlen : mem.length = limit * size)
    (hk : k < limit) : load mem (k * size) size = some (slot size mem k) :=
  if_pos (slot_fits hlen hk)

theorem slots_apart (size : ℕ) {j k : ℕ} (h : j ≠ k) :
    j * size + size ≤ k * size ∨ k * size + size ≤ j * size := by
  rcases Nat.lt_or_gt_of_ne h with hlt | hgt
  · have := Nat.mul_le_mul_right size (Nat.succ_le_of_lt hlt)
    left
    linarith [Nat.succ_mul j size]
  · have := Nat.mul_le_mul_right size (Nat.succ_le_of_lt hgt)
    right
    linarith [Nat.succ_mul k size]

/-- Storing a whole slot replaces it and leaves every other slot alone. -/
theorem store_slot {size limit k : ℕ} {mem data : List α} (hlen : mem.length = limit * size)
    (hk : k < limit) (hdata : data.length = size) :
    ∃ mem', store mem (k * size) data = some mem' ∧ mem'.length = mem.length ∧
      ∀ j < limit, slot size mem' j = if j = k then data else slot size mem j := by
  have hfit := slot_fits hlen hk
  refine ⟨_, if_pos (by omega), store_length (if_pos (by omega)), fun j hj => ?_⟩
  have hfj := slot_fits hlen hj
  apply List.ext_getElem?
  intro i
  by_cases hjk : j = k
  · subst hjk
    simp only [slot, if_true, List.getElem?_take, List.getElem?_drop, List.append_assoc,
      List.getElem?_append, List.length_take]
    split_ifs with hi h1 h2 <;> grind
  · rw [if_neg hjk]
    have hapart := slots_apart size hjk
    simp only [slot, List.getElem?_take, List.getElem?_drop, List.append_assoc,
      List.getElem?_append, List.length_take]
    split_ifs with hi h1 h2 <;> grind

theorem slot_get {size i : ℕ} (hi : i < size) (mem : List α) (k : ℕ) :
    (slot size mem k)[i]? = mem[k * size + i]? := by
  rw [slot, List.getElem?_take, if_pos hi, List.getElem?_drop]

theorem slot_length {size limit k : ℕ} {mem : List α} (hlen : mem.length = limit * size)
    (hk : k < limit) : (slot size mem k).length = size := by
  have hfit := slot_fits hlen hk
  rw [slot, List.length_take, List.length_drop]
  omega

theorem load_cell {size limit k i : ℕ} {mem : List α} (hlen : mem.length = limit * size)
    (hk : k < limit) (hi : i < size) :
    load mem (k * size + i) 1 = some (slot size mem k)[i]?.toList := by
  have hfit := slot_fits hlen hk
  rw [load, if_pos (by omega), slot_get hi, List.take_add_one, List.take_zero, List.nil_append,
    List.getElem?_drop, Nat.add_zero]

/-- Storing a single cell replaces it in its slot and leaves every other slot alone. -/
theorem store_cell {size limit k i : ℕ} {mem : List α} (hlen : mem.length = limit * size)
    (hk : k < limit) (hi : i < size) (x : α) :
    ∃ mem', store mem (k * size + i) [x] = some mem' ∧ mem'.length = mem.length ∧
      slot size mem' k = (slot size mem k).set i x ∧
      ∀ j ≠ k, slot size mem' j = slot size mem j := by
  have hfit := slot_fits hlen hk
  refine ⟨mem.set (k * size + i) x, ?_, List.length_set, ?_, fun j hj => ?_⟩
  · rw [store, if_pos (by rw [List.length_singleton]; omega), List.set_eq_take_append_cons_drop,
      if_pos (by omega), List.append_assoc]
    rfl
  · apply List.ext_getElem?
    intro n
    by_cases hn : n < size
    · rw [slot_get hn, List.getElem?_set, List.getElem?_set, slot_get hn, slot_length hlen hk]
      by_cases heq : i = n
      · rw [if_pos (by omega), if_pos (by omega), if_pos heq, if_pos (by omega)]
      · rw [if_neg (by omega), if_neg heq]
    · rw [List.getElem?_eq_none (by simp [slot]; omega),
        List.getElem?_eq_none (by simp [slot]; omega)]
  · apply List.ext_getElem?
    intro n
    by_cases hn : n < size
    · have hapart := slots_apart size hj
      rw [slot_get hn, slot_get hn, List.getElem?_set_ne (by omega)]
    · rw [List.getElem?_eq_none (by simp [slot]; omega),
        List.getElem?_eq_none (by simp [slot]; omega)]

end Slots

section Bits

abbrev Bytes := List (BitVec 8)

def bitAt (bytes : Bytes) (i : ℕ) : Bool := (bytes.getD (i / 8) 0#8).getLsbD (i % 8)

theorem bit_unique {i j : ℕ} (hdiv : i / 8 = j / 8) (hmod : i % 8 = j % 8) : i = j := by
  omega

theorem one_shift_bit (k j : ℕ) (hj : j < 8) : (1#8 <<< k).getLsbD j = decide (j = k) := by
  simp only [BitVec.getLsbD_shiftLeft, BitVec.getLsbD_one]
  by_cases h : j = k <;> simp [h, hj] <;> omega

theorem mask_test (byte : BitVec 8) (k : ℕ) (hk : k < 8) :
    ((1#8 <<< k) &&& byte != 0#8) = byte.getLsbD k := by
  cases hb : byte.getLsbD k with
  | true =>
    have hbit : ((1#8 <<< k) &&& byte).getLsbD k = true := by
      rw [BitVec.getLsbD_and, one_shift_bit k k hk, hb]
      simp
    simp only [bne_iff_ne, ne_eq]
    intro h
    simp [h] at hbit
  | false =>
    have hzero : (1#8 <<< k) &&& byte = 0#8 := by
      apply BitVec.eq_of_getLsbD_eq
      intro j hj
      rw [BitVec.getLsbD_and, one_shift_bit k j hj]
      by_cases h : j = k <;> simp [h, hb]
    simp [hzero]

theorem bit_set (bytes : Bytes) (byte : BitVec 8) (k : ℕ) (hk : k < bytes.length) (i : ℕ) :
    bitAt (bytes.set k byte) i = if i / 8 = k then byte.getLsbD (i % 8) else bitAt bytes i := by
  unfold bitAt
  by_cases h : i / 8 = k
  · rw [if_pos h, h]
    simp [List.getD, hk]
  · rw [if_neg h]
    simp [List.getD, List.getElem?_set_ne (Ne.symm h)]

theorem bit_or_mask (bytes : Bytes) (k : ℕ) (hk : k / 8 < bytes.length) (i : ℕ) :
    bitAt (bytes.set (k / 8) (bytes[k / 8] ||| (1#8 <<< (k % 8)))) i =
      (decide (i = k) || bitAt bytes i) := by
  rw [bit_set bytes _ _ hk]
  by_cases h : i / 8 = k / 8
  · rw [if_pos h, BitVec.getLsbD_or, one_shift_bit _ _ (Nat.mod_lt i (by decide)), Bool.or_comm]
    have hiff : i % 8 = k % 8 ↔ i = k := ⟨bit_unique h, fun he => by rw [he]⟩
    simp [bitAt, hiff, h, List.getD, hk]
  · have hne : i ≠ k := fun he => h (by rw [he])
    simp [h, hne]

theorem bit_and_mask (bytes : Bytes) (k : ℕ) (hk : k / 8 < bytes.length) (i : ℕ) :
    bitAt (bytes.set (k / 8) (bytes[k / 8] &&& ~~~(1#8 <<< (k % 8)))) i =
      (!decide (i = k) && bitAt bytes i) := by
  rw [bit_set bytes _ _ hk]
  by_cases h : i / 8 = k / 8
  · have hi : i % 8 < 8 := Nat.mod_lt i (by decide)
    rw [if_pos h, BitVec.getLsbD_and, BitVec.getLsbD_not, one_shift_bit _ _ hi, Bool.and_comm]
    have hiff : i % 8 = k % 8 ↔ i = k := ⟨bit_unique h, fun he => by rw [he]⟩
    simp [bitAt, hiff, h, List.getD, hk, hi]
  · have hne : i ≠ k := fun he => h (by rw [he])
    simp [h, hne]

theorem bit_zeros (n i : ℕ) : bitAt (List.replicate n 0#8) i = false := by
  unfold bitAt
  by_cases h : i / 8 < n <;> simp [List.getD, h]

end Bits

end RS485.Blocks
