import Mathlib

/-!
# Runs of a partial step function

A step has no successor when the call it stands for crashes or never comes
back. A run ends there, and what is said about a run is said about the steps
that did return. The exactness rule reduces "every state of the run is good if
and only if every step met a condition" to one equivalence about a single step.
-/

set_option autoImplicit false

namespace RS485.Runs

variable {S Op : Type*}

def run (step : S → Op → Option S) : S → List Op → Option S
  | s, [] => some s
  | s, op::ops => (step s op).bind fun t => run step t ops

/-- `ok` holds of every step of the run that returns. -/
def EveryStep (step : S → Op → Option S) (ok : S → Op → S → Prop) : S → List Op → Prop
  | _, [] => True
  | s, op::ops => ∀ t, step s op = some t → ok s op t ∧ EveryStep step ok t ops

/-- `good` holds of the first state and of every state the run reaches. -/
def EveryState (step : S → Op → Option S) (good : S → Prop) (s : S) (ops : List Op) : Prop :=
  good s ∧ EveryStep step (fun _ _ t => good t) s ops

variable {step : S → Op → Option S}

theorem every_step_mono {ok ok' : S → Op → S → Prop}
    (h : ∀ s op t, step s op = some t → ok s op t → ok' s op t) (s : S) (ops : List Op)
    (hs : EveryStep step ok s ops) : EveryStep step ok' s ops := by
  induction ops generalizing s with
  | nil => trivial
  | cons op ops ih =>
    intro t ht
    obtain ⟨hok, hrest⟩ := hs t ht
    exact ⟨h s op t ht hok, ih t hrest⟩

/-- Two properties of steps that agree on the steps of a run agree on the run. -/
theorem every_step_iff {given ok cond : S → Op → S → Prop}
    (h : ∀ s op t, step s op = some t → given s op t → (ok s op t ↔ cond s op t)) (s : S)
    (ops : List Op) (hs : EveryStep step given s ops) :
    EveryStep step ok s ops ↔ EveryStep step cond s ops := by
  induction ops generalizing s with
  | nil => exact Iff.rfl
  | cons op ops ih =>
    refine forall_congr' fun t => forall_congr' fun ht => ?_
    obtain ⟨hgiven, hrest⟩ := hs t ht
    rw [h s op t ht hgiven, ih t hrest]

/-- A property that every step preserves holds all along the run. -/
theorem every_state_of_step {inv : S → Prop}
    (hstep : ∀ s op t, inv s → step s op = some t → inv t) (s : S) (hs : inv s)
    (ops : List Op) : EveryState step inv s ops := by
  refine ⟨hs, ?_⟩
  induction ops generalizing s with
  | nil => trivial
  | cons op ops ih =>
    intro t ht
    have hi := hstep s op t hs ht
    exact ⟨hi, ih t hi⟩

/-- What holds of every step out of a good state holds along a run of good states. -/
theorem every_step_of_states {good : S → Prop} {ok : S → Op → S → Prop}
    (h : ∀ s op t, good s → step s op = some t → ok s op t) (s : S) (ops : List Op)
    (hs : EveryState step good s ops) : EveryStep step ok s ops := by
  induction ops generalizing s with
  | nil => trivial
  | cons op ops ih =>
    intro t ht
    obtain ⟨hg, hrest⟩ := hs
    exact ⟨h s op t hg ht, ih t (hrest t ht)⟩

/-- `EveryState` speaks of exactly the states reached by the initial parts of
the run. -/
theorem every_state_iff (good : S → Prop) (s : S) (ops : List Op) :
    EveryState step good s ops ↔
      ∀ pre t, pre <+: ops → run step s pre = some t → good t := by
  induction ops generalizing s with
  | nil =>
    constructor
    · rintro ⟨hg, -⟩ pre t hpre ht
      obtain rfl := List.prefix_nil.mp hpre
      obtain rfl : s = t := by simpa [run] using ht
      exact hg
    · exact fun h => ⟨h [] s (List.prefix_refl _) rfl, trivial⟩
  | cons op ops ih =>
    constructor
    · rintro ⟨hg, hs⟩ pre t hpre ht
      rcases pre with _ | ⟨o, pre⟩
      · obtain rfl : s = t := by simpa [run] using ht
        exact hg
      · obtain ⟨rfl, htail⟩ := List.cons_prefix_cons.mp hpre
        obtain ⟨u, hu, hrun⟩ := Option.bind_eq_some_iff.mp ht
        exact (ih u).mp (hs u hu) pre t htail hrun
    · intro h
      refine ⟨h [] s List.nil_prefix rfl, fun u hu => (ih u).mpr fun pre t hpre ht => ?_⟩
      exact h (op::pre) t (List.cons_prefix_cons.mpr ⟨rfl, hpre⟩) (by simp [run, hu, ht])

/-- The exactness rule. From a good state that satisfies the invariant, a step
is fine exactly when it meets the condition, and a fine step leads to a good
state; then a run is fine throughout exactly when all its steps meet it. -/
theorem exact_run {inv good : S → Prop} (ok : S → Op → S → Prop) {cond : S → Op → Prop}
    (hinv : ∀ s op t, inv s → step s op = some t → inv t)
    (hgood : ∀ s op t, inv s → good s → step s op = some t → ok s op t → good t)
    (hexact : ∀ s op t, inv s → good s → step s op = some t → (ok s op t ↔ cond s op))
    (s : S) (hs : inv s) (hg : good s) (ops : List Op) :
    EveryStep step ok s ops ↔ EveryStep step (fun s op _ => cond s op) s ops := by
  induction ops generalizing s with
  | nil => exact Iff.rfl
  | cons op ops ih =>
    refine forall_congr' fun t => forall_congr' fun ht => ?_
    have hx := hexact s op t hs hg ht
    constructor
    · rintro ⟨hok, hrest⟩
      exact ⟨hx.mp hok, (ih t (hinv s op t hs ht) (hgood s op t hs hg ht hok)).mp hrest⟩
    · rintro ⟨hc, hrest⟩
      have hok := hx.mpr hc
      exact ⟨hok, (ih t (hinv s op t hs ht) (hgood s op t hs hg ht hok)).mpr hrest⟩

/-- The exactness rule for a property of states. -/
theorem exact_states {inv good : S → Prop} {cond : S → Op → Prop}
    (hinv : ∀ s op t, inv s → step s op = some t → inv t)
    (hexact : ∀ s op t, inv s → good s → step s op = some t → (good t ↔ cond s op))
    (s : S) (hs : inv s) (hg : good s) (ops : List Op) :
    EveryState step good s ops ↔ EveryStep step (fun s op _ => cond s op) s ops := by
  have h := exact_run (fun _ _ t => good t) hinv (fun _ _ _ _ _ _ h => h) hexact s hs hg ops
  exact ⟨fun hall => h.mp hall.2, fun hc => ⟨hg, h.mpr hc⟩⟩

/-- The exactness rule for an invariant that only good states keep. -/
theorem exact_good_states {inv good : S → Prop} {cond : S → Op → Prop}
    (hinv : ∀ s op t, inv s → good s → step s op = some t → good t → inv t)
    (hexact : ∀ s op t, inv s → good s → step s op = some t → (good t ↔ cond s op))
    (s : S) (hs : inv s) (hg : good s) (ops : List Op) :
    EveryState step good s ops ↔ EveryStep step (fun s op _ => cond s op) s ops := by
  unfold EveryState
  rw [and_iff_right hg]
  induction ops generalizing s with
  | nil => exact Iff.rfl
  | cons op ops ih =>
    refine forall_congr' fun t => forall_congr' fun ht => ?_
    have hx := hexact s op t hs hg ht
    constructor
    · rintro ⟨hgt, hrest⟩
      exact ⟨hx.mp hgt, (ih t (hinv s op t hs hg ht hgt) hgt).mp hrest⟩
    · rintro ⟨hc, hrest⟩
      have hgt := hx.mpr hc
      exact ⟨hgt, (ih t (hinv s op t hs hg ht hgt) hgt).mpr hrest⟩

section Allowed

variable {legal : S → Op → Prop}

/-- Every operation of the run may be called where it is, also one that does not return. -/
def Allowed (step : S → Op → Option S) (legal : S → Op → Prop) : S → List Op → Prop
  | _, [] => True
  | s, op::ops => legal s op ∧ ∀ t, step s op = some t → Allowed step legal t ops

theorem allowed_of_forall {fits : Op → Prop} {s : S} {ops : List Op} (h : ∀ op ∈ ops, fits op) :
    Allowed step (fun _ op => fits op) s ops := by
  induction ops generalizing s with
  | nil => trivial
  | cons op ops ih =>
    exact ⟨h op List.mem_cons_self, fun t _ => ih fun o ho => h o (List.mem_cons_of_mem op ho)⟩

/-- The simulation rule. If every legal operation returns and does what the abstract
step does, so does every allowed run. -/
theorem run_simulates {A : Type*} {abs : A → Op → A} {R : S → A → Prop}
    (h : ∀ s a op, R s a → legal s op → ∃ t, step s op = some t ∧ R t (abs a op)) {s : S} {a : A}
    (hs : R s a) {ops : List Op} (ha : Allowed step legal s ops) :
    ∃ t, run step s ops = some t ∧ R t (ops.foldl abs a) := by
  induction ops generalizing s a with
  | nil => exact ⟨s, rfl, hs⟩
  | cons op ops ih =>
    obtain ⟨hlegal, hrest⟩ := ha
    obtain ⟨u, hu, hR⟩ := h s a op hs hlegal
    obtain ⟨t, ht, hend⟩ := ih hR (hrest u hu)
    exact ⟨t, by rw [run, hu, Option.bind_some, ht], hend⟩

theorem run_append (s : S) (ops rest : List Op) :
    run step s (ops++rest) = (run step s ops).bind fun t => run step t rest := by
  induction ops generalizing s with
  | nil => rfl
  | cons op ops ih =>
    rw [List.cons_append, run, run, Option.bind_assoc]
    exact Option.bind_congr fun t _ => ih t

/-- The simulation rule for steps of different grain. Every legal step is matched by
some abstract steps, or by none. -/
theorem run_matches {A B : Type*} {abs : A → B → Option A} {R : S → A → Prop}
    (h : ∀ s a op, R s a → legal s op →
      ∃ t, step s op = some t ∧ ∃ moves b, run abs a moves = some b ∧ R t b)
    {s : S} {a : A} (hs : R s a) {ops : List Op} (ha : Allowed step legal s ops) :
    ∃ t, run step s ops = some t ∧ ∃ moves b, run abs a moves = some b ∧ R t b := by
  induction ops generalizing s a with
  | nil => exact ⟨s, rfl, [], a, rfl, hs⟩
  | cons op ops ih =>
    obtain ⟨hlegal, hrest⟩ := ha
    obtain ⟨u, hu, moves, b, hmoves, hR⟩ := h s a op hs hlegal
    obtain ⟨t, ht, moves', c, hmoves', hend⟩ := ih hR (hrest u hu)
    refine ⟨t, by rw [run, hu, Option.bind_some, ht], moves++moves', c, ?_, hend⟩
    rw [run_append, hmoves, Option.bind_some, hmoves']

/-- A step function that is total. -/
theorem run_total {next : S → Op → S} (s : S) (ops : List Op) :
    run (fun s op => some (next s op)) s ops = some (ops.foldl next s) := by
  induction ops generalizing s with
  | nil => rfl
  | cons op ops ih => exact ih (next s op)

/-- The exactness rule for runs that are allowed. -/
theorem exact_allowed {good : S → Prop} (ok : S → Op → S → Prop) {cond : S → Op → Prop}
    (hgood : ∀ s op t, good s → legal s op → step s op = some t → ok s op t → good t)
    (hexact : ∀ s op t, good s → legal s op → step s op = some t → (ok s op t ↔ cond s op))
    {s : S} (hg : good s) {ops : List Op} (ha : Allowed step legal s ops) :
    EveryStep step ok s ops ↔ EveryStep step (fun s op _ => cond s op) s ops := by
  induction ops generalizing s with
  | nil => exact Iff.rfl
  | cons op ops ih =>
    obtain ⟨hlegal, hrest⟩ := ha
    refine forall_congr' fun t => forall_congr' fun ht => ?_
    have hx := hexact s op t hg hlegal ht
    constructor
    · rintro ⟨hok, hsteps⟩
      exact ⟨hx.mp hok, (ih (hgood s op t hg hlegal ht hok) (hrest t ht)).mp hsteps⟩
    · rintro ⟨hc, hsteps⟩
      have hok := hx.mpr hc
      exact ⟨hok, (ih (hgood s op t hg hlegal ht hok) (hrest t ht)).mpr hsteps⟩

end Allowed

end RS485.Runs
