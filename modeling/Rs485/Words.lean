import Mathlib

/-!
# Fields of a word

A field is written by keeping the bits of a mask and adding a code. A code that
lies inside the bits not kept leaves the others alone. Over a history of writes
a field holds the latest code, and one that is only added to gathers the bits.
Words are stored in a block of bytes with the low byte first.
-/

set_option autoImplicit false

namespace RS485.Words

section Masks

variable {w : ℕ}

/-- `word = code | (word & keep)` -/
def put (keep code word : BitVec w) : BitVec w := code ||| (word &&& keep)

theorem put_kept {mask keep code : BitVec w} (hmask : keep &&& mask = mask)
    (hcode : code &&& mask = 0#w) (word : BitVec w) :
    put keep code word &&& mask = word &&& mask := by
  rw [put, BitVec.and_or_distrib_right, hcode, BitVec.and_assoc, hmask, BitVec.zero_or]

theorem put_replaced {mask keep : BitVec w} (hmask : keep &&& mask = 0#w) (code word : BitVec w) :
    put keep code word &&& mask = code &&& mask := by
  rw [put, BitVec.and_or_distrib_right, BitVec.and_assoc, hmask, BitVec.and_zero, BitVec.or_zero]

/-- Writing a field twice is writing it once, also for a code that spills over. -/
theorem put_twice (keep code word : BitVec w) :
    put keep code (put keep code word) = put keep code word := by
  apply BitVec.eq_of_getLsbD_eq
  intro i hi
  simp only [put, BitVec.getLsbD_or, BitVec.getLsbD_and]
  cases code.getLsbD i <;> cases word.getLsbD i <;> cases keep.getLsbD i <;> rfl

theorem within_and {mask code : BitVec w} (h : code &&& ~~~mask = 0#w) : code &&& mask = code := by
  apply BitVec.eq_of_getLsbD_eq
  intro i hi
  have hbit := congrArg (BitVec.getLsbD · i) h
  simp only [BitVec.getLsbD_and, BitVec.getLsbD_not, hi, decide_true, Bool.true_and,
    BitVec.getLsbD_zero] at hbit ⊢
  cases hcode : code.getLsbD i with
  | false => rfl
  | true => simpa [hcode] using hbit

theorem within_apart {mask mask' code : BitVec w} (h : code &&& ~~~mask = 0#w)
    (hmask : mask &&& mask' = 0#w) : code &&& mask' = 0#w := by
  rw [← within_and h, BitVec.and_assoc, hmask, BitVec.and_zero]

theorem kept_apart {mask mask' : BitVec w} (hmask : mask &&& mask' = 0#w) :
    ~~~mask &&& mask' = mask' := by
  rw [BitVec.and_comm]
  apply within_and
  rw [BitVec.not_not, BitVec.and_comm, hmask]

theorem or_apart {mask code : BitVec w} (h : code &&& mask = 0#w) (word : BitVec w) :
    (word ||| code) &&& mask = word &&& mask := by
  rw [BitVec.and_or_distrib_right, h, BitVec.or_zero]

theorem or_within {mask code word : BitVec w} (hcode : code &&& ~~~mask = 0#w)
    (hword : word &&& mask = 0#w) : (word ||| code) &&& mask = code := by
  rw [BitVec.and_or_distrib_right, hword, within_and hcode, BitVec.zero_or]

theorem clear_apart {mask mask' : BitVec w} (h : mask &&& mask' = 0#w) (word : BitVec w) :
    word &&& ~~~mask &&& mask' = word &&& mask' := by
  rw [BitVec.and_assoc, kept_apart h]

theorem clear_own (mask word : BitVec w) : word &&& ~~~mask &&& mask = 0#w := by
  rw [BitVec.and_assoc, BitVec.and_comm (~~~mask), BitVec.and_not_self]
  exact BitVec.and_zero

theorem split_word (mask word : BitVec w) : word = (word &&& ~~~mask) ||| (word &&& mask) := by
  rw [← BitVec.and_or_distrib_left]
  simp

/-- A shift that changes nothing is none at all, or one of zero. -/
theorem shift_fixed_iff (word : BitVec w) (n : ℕ) : word <<< n = word ↔ n = 0 ∨ word = 0#w := by
  constructor
  · intro h
    by_cases hn : n = 0
    · exact Or.inl hn
    · right
      have hclear : ∀ i, word.getLsbD i = false := by
        intro i
        induction i using Nat.strong_induction_on with
        | _ i ih =>
          rw [← h, BitVec.getLsbD_shiftLeft]
          by_cases hi : i < n
          · simp [hi]
          · rw [ih (i-n) (by omega), Bool.and_false]
      apply BitVec.eq_of_getLsbD_eq
      intro i _
      rw [hclear, BitVec.getLsbD_zero]
  · rintro (rfl | rfl)
    · exact BitVec.shiftLeft_zero word
    · exact BitVec.zero_shiftLeft n

/-- A shift to the left keeps the lower bits only. -/
theorem shift_same_iff {n : ℕ} (hn : n ≤ w) (x y : BitVec w) :
    x <<< n = y <<< n ↔ x.toNat % 2^(w-n) = y.toNat % 2^(w-n) := by
  have hpow : 2^w = 2^(w-n)*2^n := by
    rw [← Nat.pow_add, Nat.sub_add_cancel hn]
  have hshift : ∀ z : BitVec w, (z <<< n).toNat = z.toNat % 2^(w-n) * 2^n := by
    intro z
    rw [BitVec.toNat_shiftLeft, Nat.shiftLeft_eq, hpow, Nat.mul_mod_mul_right]
  rw [BitVec.toNat_eq, hshift, hshift]
  exact Nat.mul_left_inj (Nat.two_pow_pos n).ne'

theorem one_bit_iff {j : ℕ} (hj : j < w) (x : BitVec w) :
    (∀ i < w, x.getLsbD i = true ↔ i = j) ↔ x = BitVec.twoPow w j := by
  have hbit : ∀ i < w, ((BitVec.twoPow w j).getLsbD i = true ↔ i = j) := by
    intro i hi
    simp only [BitVec.getLsbD_twoPow, hj, decide_true, Bool.true_and, decide_eq_true_eq]
    exact eq_comm
  constructor
  · intro h
    apply BitVec.eq_of_getLsbD_eq
    intro i hi
    rw [Bool.eq_iff_iff, h i hi, hbit i hi]
  · rintro rfl
    exact hbit

theorem or_two_pow_iff {j : ℕ} (hj : j < w) (x : BitVec w) :
    x ||| BitVec.twoPow w j = x ↔ x.getLsbD j = true := by
  constructor
  · intro h
    rw [← h, BitVec.getLsbD_or, BitVec.getLsbD_twoPow]
    simp [hj]
  · intro h
    apply BitVec.eq_of_getLsbD_eq
    intro i hi
    rw [BitVec.getLsbD_or, BitVec.getLsbD_twoPow]
    by_cases heq : j = i
    · subst heq
      simp [h]
    · simp [heq]

/-- A shift leaves its own bit alone exactly if the bits kept are a one. -/
theorem shift_one_iff {n : ℕ} (hn : n < w) (x : BitVec w) :
    x <<< n = BitVec.twoPow w n ↔ x.toNat % 2^(w-n) = 1 := by
  have hone : (1#w).toNat % 2^(w-n) = 1 := by
    rw [BitVec.toNat_ofNat, Nat.mod_eq_of_lt (Nat.one_lt_two_pow (by omega)),
      Nat.mod_eq_of_lt (Nat.one_lt_two_pow (by omega))]
  rw [BitVec.twoPow_eq, shift_same_iff hn.le, hone]

end Masks

section Latest

variable {α β : Type*} (code : α → Option β)

/-- The code of the last entry that has one, and `first` when none has. -/
def latest (first : β) : List α → β
  | [] => first
  | x::xs => latest ((code x).getD first) xs

theorem latest_of_none (first : β) {xs : List α} (h : ∀ x ∈ xs, code x = none) :
    latest code first xs = first := by
  induction xs with
  | nil => rfl
  | cons x xs ih =>
    rw [latest, h x List.mem_cons_self]
    exact ih fun y hy => h y (List.mem_cons_of_mem x hy)

/-- What came first does not matter once an entry has a code. -/
theorem latest_of_some (first other : β) {xs : List α} (h : ∃ x ∈ xs, code x ≠ none) :
    latest code first xs = latest code other xs := by
  induction xs generalizing first other with
  | nil => simp at h
  | cons x xs ih =>
    rw [latest, latest]
    cases hx : code x with
    | some v => rfl
    | none =>
      apply ih
      obtain ⟨y, hy, hcode⟩ := h
      rcases List.mem_cons.mp hy with rfl | hy
      · exact absurd hx hcode
      · exact ⟨y, hy, hcode⟩

theorem latest_map {γ : Type*} (f : β → γ) (first : β) (xs : List α) :
    latest (fun x => (code x).map f) (f first) xs = f (latest code first xs) := by
  induction xs generalizing first with
  | nil => rfl
  | cons x xs ih =>
    rw [latest, latest, ← ih]
    cases code x <;> rfl

/-- A field that every step sets to its code, if it has one, holds the latest. -/
theorem foldl_latest {σ : Type*} (step : σ → α → σ) (field : σ → β)
    (h : ∀ s x, field (step s x) = (code x).getD (field s)) (s : σ) (xs : List α) :
    field (xs.foldl step s) = latest code (field s) xs := by
  induction xs generalizing s with
  | nil => rfl
  | cons x xs ih => rw [List.foldl_cons, ih, h, latest]

end Latest

section Gathered

variable {α : Type*} {w : ℕ} (bits : α → BitVec w)

/-- The bits of all entries. -/
def gathered : List α → BitVec w
  | [] => 0#w
  | x::xs => gathered xs ||| bits x

theorem gathered_within {bound : BitVec w} {xs : List α} (h : ∀ x ∈ xs, bits x ||| bound = bound) :
    gathered bits xs ||| bound = bound := by
  induction xs with
  | nil => exact BitVec.zero_or
  | cons x xs ih =>
    rw [gathered, BitVec.or_assoc, h x List.mem_cons_self]
    exact ih fun y hy => h y (List.mem_cons_of_mem x hy)

theorem within_of_or {a b bound : BitVec w} (h : a ||| b ||| bound = bound) :
    a ||| bound = bound ∧ b ||| bound = bound := by
  have hbit : ∀ i, (a.getLsbD i || b.getLsbD i || bound.getLsbD i) = bound.getLsbD i := by
    intro i
    rw [← BitVec.getLsbD_or, ← BitVec.getLsbD_or, h]
  constructor <;> apply BitVec.eq_of_getLsbD_eq <;> intro i _ <;> have := hbit i <;>
    rw [BitVec.getLsbD_or] <;> revert this <;>
    cases a.getLsbD i <;> cases b.getLsbD i <;> cases bound.getLsbD i <;> simp

/-- The bits of all entries lie in a bound exactly if those of each one do. -/
theorem gathered_within_iff {bound : BitVec w} {xs : List α} :
    gathered bits xs ||| bound = bound ↔ ∀ x ∈ xs, bits x ||| bound = bound := by
  constructor
  · intro h
    induction xs with
    | nil => simp
    | cons x xs ih =>
      obtain ⟨hrest, hx⟩ := within_of_or h
      intro y hy
      rcases List.mem_cons.mp hy with rfl | hy
      · exact hx
      · exact ih hrest y hy
  · exact gathered_within bits

theorem gathered_bit (i : ℕ) (xs : List α) :
    (gathered bits xs).getLsbD i = true ↔ ∃ x ∈ xs, (bits x).getLsbD i = true := by
  induction xs with
  | nil => simp [gathered]
  | cons x xs ih =>
    rw [gathered, BitVec.getLsbD_or, Bool.or_eq_true, ih]
    simp [or_comm]

/-- A field to which every step adds its bits gathers them. -/
theorem foldl_gathered {σ : Type*} (step : σ → α → σ) (field : σ → BitVec w)
    (h : ∀ s x, field (step s x) = field s ||| bits x) (s : σ) (xs : List α) :
    field (xs.foldl step s) = gathered bits xs ||| field s := by
  induction xs generalizing s with
  | nil => exact BitVec.zero_or.symm
  | cons x xs ih => rw [List.foldl_cons, ih, h, gathered, BitVec.or_assoc, BitVec.or_comm (bits x)]

end Gathered

section Storage

abbrev Bytes := List (BitVec 8)

def wordAt (bytes : Bytes) (i : ℕ) : BitVec 16 := bytes.getD (2*i+1) 0 ++ bytes.getD (2*i) 0

def bytesOf : List (BitVec 16) → Bytes
  | [] => []
  | w::ws => w.setWidth 8::(w >>> 8).setWidth 8::bytesOf ws

theorem bytes_of_length (ws : List (BitVec 16)) : (bytesOf ws).length = 2 * ws.length := by
  induction ws with
  | nil => rfl
  | cons w ws ih =>
    simp only [bytesOf, List.length_cons, ih]
    omega

theorem halves (w : BitVec 16) : ((w >>> 8).setWidth 8 ++ w.setWidth 8 : BitVec 16) = w := by
  apply BitVec.eq_of_toNat_eq
  simp only [BitVec.toNat_append, BitVec.toNat_setWidth, BitVec.toNat_ushiftRight]
  rw [← Nat.shiftLeft_add_eq_or_of_lt (by omega), Nat.shiftLeft_eq, Nat.shiftRight_eq_div_pow]
  omega

/-- The words stored are the words read. -/
theorem word_at_stored (ws : List (BitVec 16)) (rest : Bytes) {i : ℕ} (hi : i < ws.length) :
    wordAt (bytesOf ws++rest) i = ws.getD i 0 := by
  induction ws generalizing i with
  | nil => simp at hi
  | cons w ws ih =>
    cases i with
    | zero => exact halves w
    | succ i => exact ih (Nat.lt_of_succ_lt_succ hi)

theorem bytes_of_injective {ws ws' : List (BitVec 16)} (h : bytesOf ws = bytesOf ws') :
    ws = ws' := by
  have hlen : ws.length = ws'.length := by
    have := congrArg List.length h
    simp only [bytes_of_length] at this
    omega
  apply List.ext_getElem hlen
  intro i hi hi'
  have hword := word_at_stored ws [] hi
  rw [h, word_at_stored ws' [] hi', List.getD_eq_getElem _ _ hi,
    List.getD_eq_getElem _ _ hi'] at hword
  exact hword.symm

end Storage

end RS485.Words
