import Mathlib

/-!
# Circular buffers with running counters

A ring of `c` cells, and two counters of `w` bits that only ever go on by one and
wrap around. A counter stands for the cell of its remainder. The elements between
the counters keep their cells when a counter wraps if `c` divides `2 ^ w`.
-/

set_option autoImplicit false

namespace RS485.Circular

section Places

variable {w c : ℕ} {b : BitVec w} {i j : ℕ}

/-- The cell of the element number `i` from the counter `b` on. -/
def place (c : ℕ) (b : BitVec w) (i : ℕ) : ℕ := (b + BitVec.ofNat w i).toNat % c

theorem place_lt (hc : 0 < c) : place c b i < c := Nat.mod_lt _ hc

theorem place_zero : place c b 0 = b.toNat % c := by
  simp [place]

theorem place_next : place c (b + 1) i = place c b (i + 1) := by
  have hadd : b + 1 + BitVec.ofNat w i = b + BitVec.ofNat w (i + 1) := by
    rw [BitVec.add_assoc, BitVec.add_comm 1, BitVec.ofNat_add]
    rfl
  rw [place, place, hadd]

theorem place_before : place c (b - 1) (i + 1) = place c b i := by
  rw [← place_next, BitVec.sub_add_cancel]

theorem place_eq (h : c ∣ 2 ^ w) : place c b i = (b.toNat + i) % c := by
  rw [place, BitVec.toNat_add, BitVec.toNat_ofNat, Nat.mod_mod_of_dvd _ h, Nat.add_mod,
    Nat.mod_mod_of_dvd _ h, ← Nat.add_mod]

theorem places_apart (h : c ∣ 2 ^ w) (hi : i < c) (hj : j < c) (hne : i ≠ j) :
    place c b i ≠ place c b j := by
  intro heq
  rw [place_eq h, place_eq h] at heq
  have hmod : i ≡ j [MOD c] := Nat.ModEq.add_left_cancel' b.toNat heq
  exact hne (hmod.eq_of_lt_of_lt hi hj)

end Places

section Contents

variable {α : Type*} {w c : ℕ} {cells cells' : ℕ → α} {head tail : BitVec w} {xs : List α} {x : α}

/-- The cells from `tail` up to `head` hold the elements, in this order. -/
structure Holds (c : ℕ) (cells : ℕ → α) (head tail : BitVec w) (xs : List α) : Prop where
  head : head = tail + BitVec.ofNat w xs.length
  length : xs.length ≤ c
  cells : ∀ i y, xs[i]? = some y → cells (place c tail i) = y

theorem holds_empty : Holds c cells head head [] := ⟨by simp, Nat.zero_le _, by simp⟩

theorem head_place (h : Holds c cells head tail xs) : head.toNat % c = place c tail xs.length := by
  rw [place, h.head]

theorem holds_count (h : Holds c cells head tail xs) (hc : c < 2 ^ w) :
    (head - tail).toNat = xs.length := by
  have hlt : xs.length < 2 ^ w := h.length.trans_lt hc
  rw [h.head, BitVec.add_comm, BitVec.add_sub_cancel, BitVec.toNat_ofNat, Nat.mod_eq_of_lt hlt]

theorem holds_congr (h : Holds c cells head tail xs)
    (hsame : ∀ i < xs.length, cells' (place c tail i) = cells (place c tail i)) :
    Holds c cells' head tail xs := by
  refine ⟨h.head, h.length, fun i y hy => ?_⟩
  rw [hsame i (List.getElem?_eq_some_iff.mp hy).1]
  exact h.cells i y hy

/-- The cell at `head` is free, so the elements do not notice what is put into it. -/
theorem holds_free (hw : c ∣ 2 ^ w) (h : Holds c cells head tail xs) (hroom : xs.length < c)
    (hsame : ∀ k < c, k ≠ head.toNat % c → cells' k = cells k) :
    Holds c cells' head tail xs := by
  refine holds_congr h fun i hi => hsame _ (place_lt (by omega)) ?_
  rw [head_place h]
  exact places_apart hw (hi.trans hroom) hroom hi.ne

theorem holds_put (hw : c ∣ 2 ^ w) (h : Holds c cells head tail xs) (hroom : xs.length < c)
    (hx : cells' (head.toNat % c) = x)
    (hsame : ∀ k < c, k ≠ head.toNat % c → cells' k = cells k) :
    Holds c cells' (head + 1) tail (xs++[x]) := by
  have hold := holds_free hw h hroom hsame
  refine ⟨?_, by simpa using hroom, fun i y hy => ?_⟩
  · rw [h.head, List.length_append, List.length_singleton, BitVec.ofNat_add, BitVec.add_assoc]
    rfl
  · by_cases hi : i < xs.length
    · rw [List.getElem?_append_left hi] at hy
      exact hold.cells i y hy
    · have hlt := (List.getElem?_eq_some_iff.mp hy).1
      rw [List.length_append, List.length_singleton] at hlt
      obtain rfl : i = xs.length := by omega
      rw [List.getElem?_concat_length] at hy
      rw [← head_place h, hx]
      exact Option.some.inj hy

theorem holds_put_front (hw : c ∣ 2 ^ w) (h : Holds c cells head tail xs) (hroom : xs.length < c)
    (hx : cells' ((tail - 1).toNat % c) = x)
    (hsame : ∀ k < c, k ≠ (tail - 1).toNat % c → cells' k = cells k) :
    Holds c cells' head (tail - 1) (x::xs) := by
  refine ⟨?_, hroom, fun i y hy => ?_⟩
  · rw [h.head, List.length_cons, Nat.add_comm, BitVec.ofNat_add, ← BitVec.add_assoc]
    congr 1
    exact (BitVec.sub_add_cancel tail 1).symm
  · cases i with
    | zero =>
      rw [place_zero, hx]
      exact Option.some.inj hy
    | succ i =>
      rw [List.getElem?_cons_succ] at hy
      have hi := (List.getElem?_eq_some_iff.mp hy).1
      have happart : place c (tail - 1) (i + 1) ≠ place c (tail - 1) 0 :=
        places_apart hw (by omega) (by omega) (by omega)
      rw [place_zero] at happart
      rw [hsame _ (place_lt (by omega)) happart, place_before]
      exact h.cells i y hy

theorem holds_pop (h : Holds c cells head tail (x::xs)) :
    cells (tail.toNat % c) = x ∧ Holds c cells head (tail + 1) xs := by
  have hlength := h.length
  rw [List.length_cons] at hlength
  refine ⟨?_, ?_, by omega, fun i y hy => ?_⟩
  · rw [← place_zero]
    exact h.cells 0 x rfl
  · rw [h.head, List.length_cons, Nat.add_comm, BitVec.ofNat_add, BitVec.add_assoc]
    rfl
  · rw [place_next]
    exact h.cells (i + 1) y (by simpa using hy)

end Contents

end RS485.Circular
