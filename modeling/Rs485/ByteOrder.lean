import Mathlib

/-!
# Bytes and words

A memory of words of four bytes, seen as a memory of bytes. The bytes of a word, and the
bytes of a value in it, come with the low one first or with the high one first. A value
that is aligned lies in one word, and is a field of its bits in either order.
-/

set_option autoImplicit false

namespace RS485.ByteOrder

inductive Endian where
  | little
  | big
  deriving DecidableEq

inductive Width where
  | one
  | two
  | four
  deriving DecidableEq

def Width.bytes : Width → ℕ
  | .one => 1
  | .two => 2
  | .four => 4

def Width.bits (w : Width) : ℕ := 8*w.bytes

abbrev Memory := BitVec 32 → BitVec 8

/-- Where the `k`th of `n` bytes comes in the order of their weight. The map is its own
inverse. -/
def Endian.place (e : Endian) (n k : ℕ) : ℕ :=
  match e with
  | .little => k
  | .big => n-1-k

/-- The address of the word a byte lies in. -/
def wordPtr (p : BitVec 32) : BitVec 32 := p &&& ~~~3

def bytesOf (e : Endian) (words : BitVec 32 → BitVec 32) : Memory :=
  fun p => (words (wordPtr p) >>> (8*e.place 4 (p.toNat % 4))).setWidth 8

def value (e : Endian) (w : Width) (m : Memory) (p : BitVec 32) : BitVec w.bits :=
  BitVec.ofFnLE fun i =>
    (m (p + BitVec.ofNat 32 (e.place w.bytes (i.val / 8)))).getLsbD (i.val % 8)

def store (e : Endian) (w : Width) (m : Memory) (p : BitVec 32) (v : BitVec w.bits) : Memory :=
  fun q =>
    if (q-p).toNat < w.bytes then (v >>> (8*e.place w.bytes (q-p).toNat)).setWidth 8 else m q

def Aligned (w : Width) (p : BitVec 32) : Prop := p.toNat % w.bytes = 0

instance (w : Width) (p : BitVec 32) : Decidable (Aligned w p) :=
  inferInstanceAs (Decidable (_ = _))

/-- The bits of its word below a value. -/
def shift (e : Endian) (w : Width) (p : BitVec 32) : ℕ :=
  match e with
  | .little => 8*(p.toNat % 4)
  | .big => 8*(4-w.bytes-p.toNat % 4)

/-- The bits of its word that a value takes. -/
def field (e : Endian) (w : Width) (p : BitVec 32) : BitVec 32 :=
  (BitVec.allOnes w.bits).setWidth 32 <<< shift e w p

/-- The word with the value in it. -/
def put (e : Endian) (w : Width) (p : BitVec 32) (v : BitVec w.bits) (word : BitVec 32) :
    BitVec 32 :=
  ((v.setWidth 32 <<< shift e w p) &&& field e w p) ||| (word &&& ~~~field e w p)

section Addresses

variable {w : Width} {p q : BitVec 32}

theorem word_ptr_nat (p : BitVec 32) : (wordPtr p).toNat = p.toNat / 4 * 4 := by
  have hshift : wordPtr p = (p >>> 2) <<< 2 := by
    apply BitVec.eq_of_getLsbD_eq
    intro i hi
    have hthree : (3 : BitVec 32).getLsbD i = decide (i < 2) := by
      revert i
      decide
    simp only [wordPtr, BitVec.getLsbD_and, BitVec.getLsbD_not, hthree, hi, decide_true,
      Bool.true_and, BitVec.getLsbD_shiftLeft, BitVec.getLsbD_ushiftRight]
    by_cases htwo : i < 2
    · simp [htwo]
    · simp [htwo, Nat.add_sub_cancel' (not_lt.mp htwo)]
  have hlt : p.toNat / 4 * 4 < 2 ^ 32 := lt_of_le_of_lt (Nat.div_mul_le_self _ _) p.isLt
  rw [hshift, BitVec.toNat_shiftLeft, BitVec.toNat_ushiftRight, Nat.shiftRight_eq_div_pow,
    Nat.shiftLeft_eq]
  exact Nat.mod_eq_of_lt hlt

theorem word_ptr_eq_iff : wordPtr p = wordPtr q ↔ p.toNat / 4 = q.toNat / 4 := by
  rw [BitVec.toNat_inj.symm, word_ptr_nat, word_ptr_nat]
  omega

theorem width_cases (w : Width) : w.bytes = 1 ∨ w.bytes = 2 ∨ w.bytes = 4 := by
  cases w <;> decide

/-- An aligned value does not reach into the next word. -/
theorem aligned_fits (h : Aligned w p) : p.toNat % 4 + w.bytes ≤ 4 := by
  have hmod : p.toNat % w.bytes = 0 := h
  rcases width_cases w with hw | hw | hw <;> rw [hw] at hmod ⊢ <;> omega

theorem byte_address (h : Aligned w p) {k : ℕ} (hk : k < w.bytes) :
    (p + BitVec.ofNat 32 k).toNat = p.toNat + k := by
  have hfits : p.toNat % 4 + w.bytes ≤ 4 := aligned_fits h
  have hlt : p.toNat < 2 ^ 32 := p.isLt
  rw [BitVec.toNat_add, BitVec.toNat_ofNat]
  omega

theorem byte_distance (h : Aligned w p) (hq : (q-p).toNat < w.bytes) :
    q.toNat = p.toNat + (q-p).toNat := by
  have hsum : q = p + BitVec.ofNat 32 (q-p).toNat := by
    rw [BitVec.ofNat_toNat, BitVec.setWidth_eq, BitVec.add_comm, BitVec.sub_add_cancel]
  calc q.toNat = (p + BitVec.ofNat 32 (q-p).toNat).toNat := by rw [← hsum]
    _ = p.toNat + (q-p).toNat := byte_address h hq

end Addresses

section Fields

variable {e : Endian} {w : Width} {words : BitVec 32 → BitVec 32} {p : BitVec 32}

theorem place_lt {n k : ℕ} (hk : k < n) : e.place n k < n := by
  cases e <;> simp only [Endian.place] <;> omega

/-- Where in its word a byte of the value comes. -/
theorem place_shift (h : Aligned w p) {k : ℕ} (hk : k < w.bytes) :
    8*e.place 4 ((p.toNat + k) % 4) = shift e w p + 8*e.place w.bytes k := by
  have hfits : p.toNat % 4 + w.bytes ≤ 4 := aligned_fits h
  cases e <;> simp only [Endian.place, shift] <;> omega

theorem place_place {n k : ℕ} (hk : k < n) : e.place n (e.place n k) = k := by
  cases e with
  | little => rfl
  | big =>
    simp only [Endian.place]
    omega

theorem shift_fits (h : Aligned w p) : shift e w p + w.bits ≤ 32 := by
  have hfits : p.toNat % 4 + w.bytes ≤ 4 := aligned_fits h
  cases e <;> simp only [shift, Width.bits] <;> omega

theorem value_field (h : Aligned w p) :
    value e w (bytesOf e words) p = (words (wordPtr p) >>> shift e w p).setWidth w.bits := by
  apply BitVec.eq_of_getLsbD_eq
  intro i hi
  have hbyte : i / 8 < w.bytes := by
    rw [Width.bits] at hi
    omega
  have hplace : e.place w.bytes (i / 8) < w.bytes := place_lt hbyte
  have haddress := byte_address h hplace
  have hword : wordPtr (p + BitVec.ofNat 32 (e.place w.bytes (i / 8))) = wordPtr p := by
    have hfits : p.toNat % 4 + w.bytes ≤ 4 := aligned_fits h
    rw [word_ptr_eq_iff, haddress]
    omega
  have hshift := @place_shift e w p h _ hplace
  rw [place_place hbyte] at hshift
  rw [value, BitVec.getLsbD_eq_getElem hi, BitVec.getElem_ofFnLE, bytesOf, hword, haddress, hshift]
  simp only [BitVec.getLsbD_setWidth, BitVec.getLsbD_ushiftRight, hi, decide_true, Bool.true_and,
    Nat.mod_lt i (show 8 > 0 by decide)]
  congr 1
  omega

theorem field_bit {i : ℕ} (hi : i < 32) : (field e w p).getLsbD i =
    decide (shift e w p ≤ i ∧ i < shift e w p + w.bits) := by
  simp only [field, BitVec.getLsbD_shiftLeft, BitVec.getLsbD_setWidth, BitVec.getLsbD_allOnes]
  by_cases hlow : i < shift e w p
  · simp [hlow]
  · have hbit : i-shift e w p < 32 := by omega
    simp [hi, hlow, hbit, not_lt.mp hlow, Nat.sub_lt_iff_lt_add' (not_lt.mp hlow)]

/-- The bits of the value, and nothing above them. -/
theorem masked_value (h : Aligned w p) (word : BitVec 32) :
    (word &&& field e w p) >>> shift e w p =
      ((word >>> shift e w p).setWidth w.bits).setWidth 32 := by
  have hfits := @shift_fits e w p h
  apply BitVec.eq_of_getLsbD_eq
  intro i hi
  simp only [BitVec.getLsbD_ushiftRight, BitVec.getLsbD_and, BitVec.getLsbD_setWidth, hi,
    decide_true, Bool.true_and]
  by_cases hbit : i < w.bits
  · rw [field_bit (by omega)]
    simp [hbit]
  · by_cases hword : shift e w p + i < 32
    · rw [field_bit hword]
      simp [hbit]
    · simp [hbit, BitVec.getLsbD_of_ge _ _ (not_lt.mp hword)]

/-- What stands above the value falls to the mask. -/
theorem masked_code (x word : BitVec 32) :
    ((x <<< shift e w p) &&& field e w p) ||| (word &&& ~~~field e w p) =
      put e w p (x.setWidth w.bits) word := by
  rw [put]
  congr 1
  apply BitVec.eq_of_getLsbD_eq
  intro i hi
  simp only [BitVec.getLsbD_and, BitVec.getLsbD_shiftLeft, BitVec.getLsbD_setWidth, field_bit hi]
  by_cases hlow : i < shift e w p
  · simp [hlow]
  · by_cases hbit : i < shift e w p + w.bits
    · have hbelow : i-shift e w p < 32 := by omega
      have hwithin : i-shift e w p < w.bits := by omega
      simp [hbelow, hwithin]
    · simp [hbit]

theorem put_bit (v : BitVec w.bits) (word : BitVec 32) {i : ℕ} (hi : i < 32) :
    (put e w p v word).getLsbD i =
      if shift e w p ≤ i ∧ i < shift e w p + w.bits then v.getLsbD (i-shift e w p)
      else word.getLsbD i := by
  simp only [put, BitVec.getLsbD_or, BitVec.getLsbD_and, BitVec.getLsbD_not,
    BitVec.getLsbD_shiftLeft, BitVec.getLsbD_setWidth, field_bit hi, hi, decide_true]
  split_ifs with hbit
  · have hbelow : i-shift e w p < 32 := by omega
    simp [hbit, hbelow, not_lt.mpr hbit.1]
  · simp [hbit]

theorem put_value (h : Aligned w p) (v : BitVec w.bits) (word : BitVec 32) :
    (put e w p v word >>> shift e w p).setWidth w.bits = v := by
  have hfits := @shift_fits e w p h
  apply BitVec.eq_of_getLsbD_eq
  intro i hi
  simp only [BitVec.getLsbD_setWidth, BitVec.getLsbD_ushiftRight, hi, decide_true, Bool.true_and]
  rw [put_bit _ _ (by omega), if_pos (by omega), Nat.add_sub_cancel_left]

/-- Storing a value changes its bytes and no other. -/
theorem put_bytes (h : Aligned w p) (v : BitVec w.bits) :
    bytesOf e (Function.update words (wordPtr p) (put e w p v (words (wordPtr p)))) =
      store e w (bytesOf e words) p v := by
  have hin : p.toNat % 4 + w.bytes ≤ 4 := aligned_fits h
  have hfits := @shift_fits e w p h
  have hbits : w.bits = 8*w.bytes := rfl
  funext q
  rw [store, bytesOf]
  split_ifs with hq
  · have haddress := byte_distance h hq
    have hword : wordPtr q = wordPtr p := by
      rw [word_ptr_eq_iff, haddress]
      omega
    have hplace : e.place w.bytes (q-p).toNat < w.bytes := place_lt hq
    rw [hword, Function.update_self, haddress, place_shift h hq]
    apply BitVec.eq_of_getLsbD_eq
    intro i hi
    simp only [BitVec.getLsbD_setWidth, BitVec.getLsbD_ushiftRight]
    rw [put_bit _ _ (by omega), if_pos (by omega)]
    congr 2
    omega
  · rw [bytesOf]
    by_cases hword : wordPtr q = wordPtr p
    · have hsame : q.toNat / 4 = p.toNat / 4 := word_ptr_eq_iff.mp hword
      have hout : q.toNat % 4 < p.toNat % 4 ∨ p.toNat % 4 + w.bytes ≤ q.toNat % 4 := by
        rw [BitVec.toNat_sub] at hq
        have hp : p.toNat < 2 ^ 32 := p.isLt
        omega
      rw [hword, Function.update_self]
      apply BitVec.eq_of_getLsbD_eq
      intro i hi
      have hbyte : e.place 4 (q.toNat % 4) < 4 := place_lt (by omega)
      simp only [BitVec.getLsbD_setWidth, BitVec.getLsbD_ushiftRight]
      rw [put_bit _ _ (by omega), if_neg]
      cases e <;> simp only [Endian.place, shift] <;> omega
    · rw [Function.update_of_ne hword]

end Fields

section Words

variable {e : Endian} {p : BitVec 32}

theorem word_ptr_aligned (h : Aligned .four p) : wordPtr p = p := by
  have hmod : p.toNat % 4 = 0 := h
  rw [BitVec.toNat_inj.symm, word_ptr_nat]
  omega

theorem shift_word (h : Aligned .four p) : shift e .four p = 0 := by
  have hmod : p.toNat % 4 = 0 := h
  cases e <;> simp [shift, hmod, Width.bytes]

theorem put_word (h : Aligned .four p) (v : BitVec Width.four.bits) (word : BitVec 32) :
    put e .four p v word = v := by
  have hbits : Width.four.bits = 32 := rfl
  apply BitVec.eq_of_getLsbD_eq
  intro i hi
  rw [put_bit _ _ hi, shift_word h, if_pos (by omega), Nat.sub_zero]
  rfl

theorem value_word (words : BitVec 32 → BitVec 32) (h : Aligned .four p) :
    value e .four (bytesOf e words) p = words p := by
  rw [value_field h, word_ptr_aligned h, shift_word h, BitVec.ushiftRight_zero]
  exact BitVec.setWidth_eq _

theorem word_bytes (words : BitVec 32 → BitVec 32) (h : Aligned .four p) (v : BitVec 32) :
    bytesOf e (Function.update words p v) = store e .four (bytesOf e words) p v := by
  have hput := @put_bytes e .four words p h v
  have hword : put e .four p v (words (wordPtr p)) = v := put_word h v _
  rwa [hword, word_ptr_aligned h] at hput

end Words

end RS485.ByteOrder
