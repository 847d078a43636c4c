import Mathlib

/-!
# Retry loops driven by a wrapping counter

The loop `do body while (--r && again)` over a 32-bit unsigned counter. The
counter is decremented before it is tested, so a start value of zero stands
for two to the power of thirty-two passes and not for none or one.
-/

set_option autoImplicit false

namespace RS485.Countdown

variable {σ : Type*}

/-- What one pass through the body does: it leaves the loop from inside, or it
reaches the loop test with a value for the second operand. -/
inductive Pass (σ : Type*)
  | leave (s : σ)
  | test (s : σ) (again : Bool)

def Pass.state : Pass σ → σ
  | .leave s => s
  | .test s _ => s

@[simp] theorem state_leave (s : σ) : (Pass.leave s).state = s := rfl

@[simp] theorem state_test (s : σ) (again : Bool) : (Pass.test s again).state = s := rfl

/-- The state, the counter and the number of passes when the loop is over. -/
structure Outcome (σ : Type*) where
  state : σ
  counter : BitVec 32
  passes : ℕ

theorem countdown_decreases (r : BitVec 32) (h : r - 1#32 ≠ 0#32) :
    (r - 1#32 - 1#32).toNat < (r - 1#32).toNat := by
  bv_omega

def doWhile (body : σ → Pass σ) (r : BitVec 32) (s : σ) : Outcome σ :=
  match body s with
  | .leave t => ⟨t, r, 1⟩
  | .test t again =>
    if r - 1#32 ≠ 0#32 ∧ again = true then
      let o := doWhile body (r - 1#32) t
      { o with passes := o.passes + 1 }
    else ⟨t, r - 1#32, 1⟩
termination_by (r - 1#32).toNat
decreasing_by exact countdown_decreases r (by tauto)

/-- The number of passes the counter alone allows. -/
def budget (r : BitVec 32) : ℕ := if r = 0#32 then 2^32 else r.toNat

theorem budget_pos (r : BitVec 32) : 0 < budget r := by
  unfold budget
  split_ifs with h
  · positivity
  · bv_omega

theorem budget_pred (r : BitVec 32) (h : r - 1#32 ≠ 0#32) : budget r = budget (r - 1#32) + 1 := by
  unfold budget
  rw [if_neg h]
  split_ifs with h0
  · subst h0; rfl
  · bv_omega

theorem budget_last (r : BitVec 32) (h : r - 1#32 = 0#32) : budget r = 1 := by
  have hr : r = 1#32 := by bv_omega
  subst hr
  rfl

/-- The body neither leaves the loop nor asks for another pass. -/
def Again (body : σ → Pass σ) (s : σ) : Prop := ∃ t, body s = .test t true

theorem doWhile_left {body : σ → Pass σ} {s t : σ} (h : body s = .leave t) (r : BitVec 32) :
    doWhile body r s = ⟨t, r, 1⟩ := by
  unfold doWhile
  simp only [h]

theorem doWhile_stop (body : σ → Pass σ) (r : BitVec 32) (s : σ) (h : ¬Again body s) :
    (doWhile body r s).passes = 1 := by
  unfold doWhile
  cases hb : body s with
  | leave t => rfl
  | test t again =>
    have hf : again = false := by
      by_contra hne
      exact h ⟨t, by simp [hb, Bool.eq_true_of_not_eq_false hne]⟩
    simp [hf]

theorem doWhile_again (body : σ → Pass σ) (r : BitVec 32) (s t : σ)
    (hr : r - 1#32 ≠ 0#32) (hb : body s = .test t true) :
    (doWhile body r s).passes = (doWhile body (r - 1#32) t).passes + 1 := by
  conv_lhs => unfold doWhile
  simp only [hb, ne_eq, hr, not_false_eq_true, and_self, if_true]

theorem doWhile_last (body : σ → Pass σ) (r : BitVec 32) (s : σ) (hr : r - 1#32 = 0#32) :
    (doWhile body r s).passes = 1 := by
  unfold doWhile
  cases hb : body s with
  | leave t => rfl
  | test t again => simp only [hr, ne_eq, not_true_eq_false, false_and, if_false]

theorem passes_pos (body : σ → Pass σ) (r : BitVec 32) (s : σ) :
    0 < (doWhile body r s).passes := by
  by_cases hr : r - 1#32 = 0#32
  · simp [doWhile_last body r s hr]
  · by_cases ha : Again body s
    · obtain ⟨t, ht⟩ := ha
      simp [doWhile_again body r s t hr ht]
    · simp [doWhile_stop body r s ha]

/-- The loop always ends, within the counter's own budget. -/
theorem passes_le_budget (body : σ → Pass σ) (r : BitVec 32) (s : σ) :
    (doWhile body r s).passes ≤ budget r := by
  induction hn : (r - 1#32).toNat generalizing r s with
  | zero =>
    have hr : r - 1#32 = 0#32 := by bv_omega
    simp [doWhile_last body r s hr, budget_last r hr]
  | succ n ih =>
    have hr : r - 1#32 ≠ 0#32 := by bv_omega
    by_cases ha : Again body s
    · obtain ⟨t, ht⟩ := ha
      have := ih (r - 1#32) t (by bv_omega)
      rw [doWhile_again body r s t hr ht, budget_pred r hr]
      omega
    · rw [doWhile_stop body r s ha]
      exact budget_pos r

/-- A body that always asks for another pass uses the whole budget. -/
theorem passes_of_always (body : σ → Pass σ) (h : ∀ s, Again body s) (r : BitVec 32) (s : σ) :
    (doWhile body r s).passes = budget r := by
  induction hn : (r - 1#32).toNat generalizing r s with
  | zero =>
    have hr : r - 1#32 = 0#32 := by bv_omega
    rw [doWhile_last body r s hr, budget_last r hr]
  | succ n ih =>
    have hr : r - 1#32 ≠ 0#32 := by bv_omega
    obtain ⟨t, ht⟩ := h s
    rw [doWhile_again body r s t hr ht, budget_pred r hr, ih (r - 1#32) t (by bv_omega)]

/-- What every pass adds one to counts the passes. -/
theorem passes_counted (body : σ → Pass σ) (count : σ → ℕ)
    (h : ∀ s, count (body s).state = count s + 1) (r : BitVec 32) (s : σ) :
    count (doWhile body r s).state = count s + (doWhile body r s).passes := by
  have hs := h s
  fun_induction doWhile body r s with
  | case1 r s t hb =>
    rw [hb] at hs
    exact hs
  | case2 r s t again hb hgo o ih =>
    rw [hb] at hs
    have := ih (h t)
    change count t = count s + 1 at hs
    show count (doWhile body (r - 1#32) t).state =
      count s + ((doWhile body (r - 1#32) t).passes + 1)
    omega
  | case3 r s t again hb hstop =>
    rw [hb] at hs
    exact hs

/-- The state that the pass number `k` finds. -/
def entered (body : σ → Pass σ) (s : σ) : ℕ → σ
  | 0 => s
  | k+1 => (body (entered body s k)).state

theorem entered_from_test {body : σ → Pass σ} {s t : σ} {again : Bool}
    (hb : body s = .test t again) (k : ℕ) : entered body s (k+1) = entered body t k := by
  induction k with
  | zero => simp only [entered, hb, state_test]
  | succ k ih => rw [entered, ih, entered]

/-- The loop makes its passes one after the other. -/
theorem doWhile_entered (body : σ → Pass σ) (r : BitVec 32) (s : σ) :
    (doWhile body r s).state = entered body s (doWhile body r s).passes := by
  fun_induction doWhile body r s with
  | case1 r s t hb => simp only [entered, hb, state_leave]
  | case2 r s t again hb hgo o ih => rw [entered_from_test hb, ← ih]
  | case3 r s t again hb hstop => simp only [entered, hb, state_test]

/-- Each pass but the last asks for another one, and the last one does not
unless the counter has run out. -/
theorem entered_again (body : σ → Pass σ) (r : BitVec 32) (s : σ) :
    ∀ k, k+1 < (doWhile body r s).passes → Again body (entered body s k) := by
  fun_induction doWhile body r s with
  | case1 r s t hb => exact fun k hk => absurd hk (by simp)
  | case2 r s t again hb hgo o ih =>
    intro k hk
    cases k with
    | zero => exact ⟨t, by rw [entered, hb, hgo.2]⟩
    | succ k =>
      rw [entered_from_test hb]
      exact ih k (Nat.lt_of_succ_lt_succ hk)
  | case3 r s t again hb hstop => exact fun k hk => absurd hk (by simp)

theorem entered_last (body : σ → Pass σ) (r : BitVec 32) (s : σ)
    (hlt : (doWhile body r s).passes < budget r) :
    ¬Again body (entered body s ((doWhile body r s).passes-1)) := by
  fun_induction doWhile body r s with
  | case1 r s t hb =>
    rintro ⟨u, hu⟩
    rw [Nat.sub_self, entered, hb] at hu
    exact absurd hu (by simp)
  | case2 r s t again hb hgo o ih =>
    have hpos : 0 < o.passes := passes_pos body (r - 1#32) t
    rw [budget_pred r hgo.1] at hlt
    have hlast := ih (by simpa using hlt)
    rw [← entered_from_test hb, Nat.sub_add_cancel hpos] at hlast
    exact hlast
  | case3 r s t again hb hstop =>
    rintro ⟨u, hu⟩
    rw [Nat.sub_self, entered, hb] at hu
    have hone : r - 1#32 ≠ 0#32 := fun h0 => by
      rw [budget_last r h0] at hlt
      exact absurd hlt (by simp)
    exact hstop ⟨hone, (Pass.test.inj hu).2⟩

/-- The count `r` itself bounds the passes, one pass being always made, unless
the counter starts at zero and the first pass asks for another one. -/
theorem passes_le_count_iff (body : σ → Pass σ) (r : BitVec 32) (s : σ) :
    (doWhile body r s).passes ≤ max 1 r.toNat ↔ r ≠ 0#32 ∨ ¬Again body s := by
  by_cases h0 : r = 0#32
  · subst h0
    have hr : 0#32 - 1#32 ≠ 0#32 := by decide
    constructor
    · intro hle
      refine Or.inr fun ⟨t, ht⟩ => ?_
      have hp := passes_pos body (0#32 - 1#32) t
      rw [doWhile_again body 0#32 s t hr ht] at hle
      have hmax : max 1 (0#32).toNat = 1 := rfl
      omega
    · rintro (h | h)
      · exact absurd rfl h
      · simp [doWhile_stop body 0#32 s h]
  · have hle := passes_le_budget body r s
    rw [budget, if_neg h0] at hle
    exact ⟨fun _ => Or.inl h0, fun _ => le_max_of_le_right hle⟩

def Pass.map {τ : Type*} (f : σ → τ) : Pass σ → Pass τ
  | .leave s => .leave (f s)
  | .test s again => .test (f s) again

end RS485.Countdown
