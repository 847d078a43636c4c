import Mathlib

/-!
# Reflected cyclic redundancy checks

A check that is shifted to the right bit by bit, for any polynomial and width,
and the same check taken a byte at a time from a table.
-/

set_option autoImplicit false

namespace RS485.Crc

variable {w : ℕ}

/-- One shift. The bit that falls out decides whether the polynomial is added. -/
def shift (poly x : BitVec w) : BitVec w :=
  if x.getLsbD 0 = true then (x >>> 1) ^^^ poly else x >>> 1

def crcByte (poly crc : BitVec w) (byte : BitVec 8) : BitVec w :=
  (shift poly)^[8] (crc ^^^ byte.setWidth w)

def crc (poly init : BitVec w) (bytes : List (BitVec 8)) : BitVec w :=
  bytes.foldl (crcByte poly) init

/-- The entry of the table for a byte. -/
def entry (poly : BitVec w) (byte : BitVec 8) : BitVec w := (shift poly)^[8] (byte.setWidth w)

variable (poly : BitVec w)

theorem shift_xor (x y : BitVec w) : shift poly (x ^^^ y) = shift poly x ^^^ shift poly y := by
  unfold shift
  rw [BitVec.getLsbD_xor, BitVec.ushiftRight_xor_distrib]
  cases x.getLsbD 0 <;> cases y.getLsbD 0
  · rfl
  · exact BitVec.xor_assoc ..
  · simp only [Bool.xor_false, if_true, Bool.false_eq_true, if_false]
    rw [BitVec.xor_assoc, BitVec.xor_assoc, BitVec.xor_comm poly]
  · simp only [Bool.xor_self, Bool.false_eq_true, if_false, if_true]
    rw [BitVec.xor_assoc, ← BitVec.xor_assoc poly, BitVec.xor_comm poly, BitVec.xor_assoc,
      BitVec.xor_self, BitVec.xor_zero]

theorem shifts_xor (n : ℕ) (x y : BitVec w) :
    (shift poly)^[n] (x ^^^ y) = (shift poly)^[n] x ^^^ (shift poly)^[n] y := by
  induction n generalizing x y with
  | zero => rfl
  | succ n ih => rw [Function.iterate_succ_apply, shift_xor, ih]; rfl

/-- As long as zeros fall out, shifting is all that happens. -/
theorem shifts_zeros (n : ℕ) (x : BitVec w) (h : ∀ i < n, x.getLsbD i = false) :
    (shift poly)^[n] x = x >>> n := by
  induction n with
  | zero => simp
  | succ n ih =>
    rw [Function.iterate_succ_apply', ih fun i hi => h i (Nat.lt_succ_of_lt hi), shift]
    rw [if_neg (by simp [h n (Nat.lt_succ_self n)]), BitVec.shiftRight_add]

theorem low_byte (x : BitVec w) :
    x = ((x >>> 8) <<< 8) ^^^ (x.setWidth 8).setWidth w := by
  apply BitVec.eq_of_getLsbD_eq
  intro i hi
  simp only [BitVec.getLsbD_xor, BitVec.getLsbD_shiftLeft, BitVec.getLsbD_ushiftRight,
    BitVec.getLsbD_setWidth]
  by_cases h : i < 8
  · simp [h, hi]
  · rw [show 8+(i-8) = i by omega]
    simp [h, hi]

theorem crc_byte_eq (hw : 8 ≤ w) (crc : BitVec w) (byte : BitVec 8) :
    crcByte poly crc byte = (crc >>> 8) ^^^ entry poly (crc.setWidth 8 ^^^ byte) := by
  have hlow : (crc ^^^ byte.setWidth w).setWidth 8 = crc.setWidth 8 ^^^ byte := by
    apply BitVec.eq_of_getLsbD_eq
    intro i hi
    simp [hi, show i < w by omega]
  have hhigh : ((crc ^^^ byte.setWidth w) >>> 8) <<< 8 = (crc >>> 8) <<< 8 := by
    apply BitVec.eq_of_getLsbD_eq
    intro i hi
    simp only [BitVec.getLsbD_shiftLeft, BitVec.getLsbD_ushiftRight, BitVec.getLsbD_xor,
      BitVec.getLsbD_setWidth]
    by_cases h : i < 8
    · simp [h]
    · simp
  have hshift : (shift poly)^[8] ((crc >>> 8) <<< 8) = crc >>> 8 := by
    rw [shifts_zeros]
    · apply BitVec.eq_of_getLsbD_eq
      intro i hi
      simp only [BitVec.getLsbD_ushiftRight, BitVec.getLsbD_shiftLeft]
      by_cases h : 8+i < w
      · simp [h]
      · simp [h, BitVec.getLsbD_of_ge crc (8+i) (by omega)]
    · intro i hi
      simp [hi]
  rw [crcByte, low_byte (crc ^^^ byte.setWidth w), shifts_xor, hlow, hhigh, hshift]
  rfl

/-- The low `n` bytes of a number, lowest first. -/
def lowBytes (x : BitVec w) (n : ℕ) : List (BitVec 8) :=
  (List.range n).map fun i => (x >>> (8*i)).setWidth 8

theorem low_bytes_succ (x : BitVec w) (n : ℕ) :
    lowBytes x (n+1) = x.setWidth 8::lowBytes (x >>> 8) n := by
  rw [lowBytes, List.range_succ_eq_map, List.map_cons, List.map_map]
  congr 1
  apply List.map_congr_left
  intro i _
  rw [Function.comp_apply, ← BitVec.shiftRight_add]
  congr 2
  omega

theorem entry_zero : entry poly 0 = 0 := by
  have hzero : (0 : BitVec 8).setWidth w = 0 := by simp
  rw [entry, hzero, shifts_zeros poly 8 0 (by simp)]
  simp

/-- A check that takes in its own low byte drops it. -/
theorem crc_byte_own (hw : 8 ≤ w) (crc : BitVec w) :
    crcByte poly crc (crc.setWidth 8) = crc >>> 8 := by
  rw [crc_byte_eq poly hw, BitVec.xor_self]
  exact (congrArg _ (entry_zero poly)).trans (BitVec.xor_zero)

theorem crc_low_bytes (hw : 8 ≤ w) (x : BitVec w) (n : ℕ) :
    crc poly x (lowBytes x n) = x >>> (8*n) := by
  induction n generalizing x with
  | zero => simp [lowBytes, crc]
  | succ n ih =>
    have hstep : crc poly x (lowBytes x (n+1)) = crc poly (x >>> 8) (lowBytes (x >>> 8) n) := by
      rw [low_bytes_succ, crc, List.foldl_cons, crc_byte_own poly hw]
      rfl
    rw [hstep, ih, ← BitVec.shiftRight_add]
    congr 1
    omega

theorem crc_append (init : BitVec w) (bytes rest : List (BitVec 8)) :
    crc poly init (bytes++rest) = crc poly (crc poly init bytes) rest :=
  List.foldl_append

/-- The residue: bytes followed by all the bytes of their check have the check 0. -/
theorem crc_residue (hw : 8 ≤ w) {n : ℕ} (hn : w ≤ 8*n) (init : BitVec w)
    (bytes : List (BitVec 8)) :
    crc poly init (bytes++lowBytes (crc poly init bytes) n) = 0 := by
  rw [crc_append, crc_low_bytes poly hw]
  exact BitVec.ushiftRight_eq_zero hn

end RS485.Crc
