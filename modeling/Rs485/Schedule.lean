import Rs485.Ticking

/-!
# The schedule of a timer task

A counter that is compared with its period after each addition, first with
exact integers and then with the 32 bits of the code, and the ticks on which
the functions of registered tasks are called.
-/

set_option autoImplicit false

namespace RS485.Schedule
open RS485.Ring RS485.Timer RS485.Ticking

section Exact

/-- The accumulated time after `n` ticks of `step` ms, which starts again from 0
whenever it has reached the period. -/
def accumulated (step prev period : ℕ) : ℕ → ℕ
  | 0 => prev
  | n+1 =>
    let time := accumulated step prev period n+step
    if period ≤ time then 0 else time

/-- The accumulated time reaches the period on the tick after `n` ticks. -/
def Reaches (step prev period n : ℕ) : Prop := period ≤ accumulated step prev period n+step

def firstTick (step prev period : ℕ) : ℕ := max 1 ((period-prev) ⌈/⌉ step)

def gap (step period : ℕ) : ℕ := period ⌈/⌉ step

/-- The tick is the first one or comes a multiple of the gap after it. -/
def Scheduled (step prev period tick : ℕ) : Prop :=
  ∃ k, tick = firstTick step prev period+k*gap step period

variable {step prev period : ℕ}

theorem lt_ceil_iff (hs : 0 < step) {n time : ℕ} : n < time ⌈/⌉ step ↔ n*step < time := by
  rw [← not_le, ceilDiv_le_iff_le_smul hs, not_le, smul_eq_mul, Nat.mul_comm]

theorem lt_gap_iff (hs : 0 < step) {n : ℕ} : n < gap step period ↔ n*step < period :=
  lt_ceil_iff hs

theorem gap_pos (hs : 0 < step) (hp : 0 < period) : 0 < gap step period := by
  rw [lt_gap_iff hs]
  simpa using hp

theorem lt_first_iff (hs : 0 < step) {n : ℕ} (hn : 0 < n) :
    n < firstTick step prev period ↔ prev+n*step < period := by
  rw [firstTick, lt_max_iff, lt_ceil_iff hs]
  omega

theorem first_pos (step prev period : ℕ) : 0 < firstTick step prev period := by
  simp [firstTick]

theorem first_reaches (hs : 0 < step) (prev period : ℕ) :
    period ≤ prev+firstTick step prev period*step :=
  not_lt.mp ((lt_first_iff hs (first_pos step prev period)).not.mp (lt_irrefl _))

theorem accumulated_before (hs : 0 < step) {n : ℕ} (hn : n < firstTick step prev period) :
    accumulated step prev period n = prev+n*step := by
  induction n with
  | zero => simp [accumulated]
  | succ n ih =>
    have hlt := (lt_first_iff hs (Nat.succ_pos n)).mp hn
    rw [accumulated, ih (Nat.lt_of_succ_lt hn), if_neg (by rw [Nat.succ_mul] at hlt; omega),
      Nat.succ_mul]
    omega

/-- After the first firing the time runs through the multiples of the step below
the period, again and again. -/
theorem accumulated_after (hs : 0 < step) (hp : 0 < period) (k : ℕ) :
    accumulated step prev period (firstTick step prev period+k) =
      k % gap step period*step := by
  induction k with
  | zero =>
    obtain ⟨n, hn⟩ := Nat.exists_eq_succ_of_ne_zero (first_pos step prev period).ne'
    have hreach := first_reaches hs prev period
    rw [hn, Nat.succ_mul] at hreach
    rw [Nat.add_zero, hn, accumulated, accumulated_before hs (by omega), if_pos (by omega)]
    simp
  | succ k ih =>
    have hg := gap_pos hs hp
    have hlt := Nat.mod_lt k hg
    rw [← Nat.add_assoc, accumulated, ih]
    by_cases hlast : k % gap step period+1 < gap step period
    · have hbelow := (lt_gap_iff hs).mp hlast
      rw [if_neg (by rw [Nat.succ_mul] at hbelow; omega), ← Nat.mod_add_mod,
        Nat.mod_eq_of_lt hlast, Nat.succ_mul]
    · have habove := not_lt.mp (mt (lt_gap_iff hs).mpr hlast)
      have hmod : (k+1) % gap step period = 0 := by
        rw [← Nat.mod_add_mod, show k % gap step period+1 = gap step period by omega,
          Nat.mod_self]
      rw [if_pos (by rw [Nat.succ_mul] at habove; omega), hmod, Nat.zero_mul]

theorem reaches_iff (hs : 0 < step) (hp : 0 < period) (n : ℕ) :
    Reaches step prev period n ↔ Scheduled step prev period (n+1) := by
  have hg := gap_pos hs hp
  unfold Reaches Scheduled
  rcases Nat.lt_or_ge (n+1) (firstTick step prev period) with hn | hn
  · have hlt := (lt_first_iff hs (Nat.succ_pos n)).mp hn
    rw [accumulated_before hs (Nat.lt_of_succ_lt hn)]
    rw [Nat.succ_mul] at hlt
    exact ⟨fun h => by omega, fun ⟨k, hk⟩ => by omega⟩
  · rcases Nat.lt_or_ge n (firstTick step prev period) with hn' | hn'
    · have hreach := first_reaches hs prev period
      have heq : firstTick step prev period = n+1 := by omega
      rw [heq, Nat.succ_mul] at hreach
      rw [accumulated_before hs hn']
      exact ⟨fun _ => ⟨0, by omega⟩, fun _ => by omega⟩
    · obtain ⟨k, rfl⟩ := Nat.exists_eq_add_of_le hn'
      rw [accumulated_after hs hp, ← Nat.succ_mul, ← not_lt, ← lt_gap_iff hs]
      have hlt := Nat.mod_lt k hg
      constructor
      · intro h
        have hlast : (k+1) % gap step period = 0 := by
          rw [← Nat.mod_add_mod, show k % gap step period+1 = gap step period by omega,
            Nat.mod_self]
        obtain ⟨m, hm⟩ := Nat.dvd_of_mod_eq_zero hlast
        exact ⟨m, by rw [Nat.mul_comm m, ← hm]; omega⟩
      · rintro ⟨m, hm⟩ hsucc
        have hk : k+1 = m*gap step period := by omega
        have hmod : (k+1) % gap step period = 0 := by rw [hk, Nat.mul_mod_left]
        rw [← Nat.mod_add_mod, Nat.mod_eq_of_lt hsucc] at hmod
        omega

end Exact

section Counter

variable (percision : Percision)

theorem step_pos : 0 < percision.ms.toNat := by
  cases percision <;> decide

theorem step_le : percision.ms.toNat ≤ 10000 := by
  cases percision <;> decide

/-- The task after `n` ticks. -/
def counted (task : TimerTask) (n : ℕ) : TimerTask := (advanced percision)^[n] task

/-- The addition of the tick does not wrap, or still reaches the period. -/
def Fits (step prev period n : ℕ) : Prop :=
  let time := accumulated step prev period n+step
  time < 2^32 ∨ period ≤ time-2^32

/-- Neither the first firing nor a later one comes too late for 32 bits; a
wrapped first sum may still reach a short period. -/
def InRange (step prev period : ℕ) : Prop :=
  (prev+firstTick step prev period*step < 2^32 ∨
    period ≤ prev+firstTick step prev period*step-2^32) ∧
  gap step period*step < 2^32

variable {percision} {task : TimerTask}

theorem counted_succ (n : ℕ) :
    counted percision task (n+1) = advanced percision (counted percision task n) :=
  Function.iterate_succ_apply' ..

theorem counted_enable (percision : Percision) (he : task.enable = true) (n : ℕ) :
    (counted percision task n).enable = true ∧
      (counted percision task n).period = task.period := by
  induction n with
  | zero => exact ⟨he, rfl⟩
  | succ n ih =>
    rw [counted_succ]
    refine ⟨?_, advanced_period.trans ih.2⟩
    unfold advanced
    split_ifs <;> exact ih.1

theorem due_iff (he : task.enable = true) :
    Due percision task ↔ task.period.toNat ≤ (task.tick.toNat+percision.ms.toNat) % 2^32 := by
  rw [Due, BitVec.lt_def, BitVec.toNat_add, not_lt]
  simp [he]

theorem advanced_tick (he : task.enable = true) :
    (advanced percision task).tick.toNat =
      if Due percision task then 0 else (task.tick.toNat+percision.ms.toNat) % 2^32 := by
  unfold advanced Due
  rw [if_neg (by simp [he])]
  by_cases ht : task.tick+percision.ms < task.period
  · simp [ht]
  · simp [ht, he]

/-- As long as every addition fits, the counter is the accumulated time. -/
theorem counter_exact (he : task.enable = true) (n : ℕ)
    (hfits : ∀ m < n, Fits percision.ms.toNat task.tick.toNat task.period.toNat m) :
    (counted percision task n).tick.toNat =
      accumulated percision.ms.toNat task.tick.toNat task.period.toNat n := by
  induction n with
  | zero => rfl
  | succ n ih =>
    have hn := ih fun m hm => hfits m (Nat.lt_succ_of_lt hm)
    have hf := hfits n (Nat.lt_succ_self n)
    have hperiod := task.period.isLt
    have hms := step_le percision
    have htick := (counted percision task n).tick.isLt
    obtain ⟨hen, hper⟩ := counted_enable percision he n
    unfold Fits at hf
    rw [← hn] at hf
    simp only [counted_succ, advanced_tick hen, due_iff hen, hper, accumulated]
    rw [← hn]
    split_ifs <;> omega

theorem call_exact (he : task.enable = true) (n : ℕ)
    (hfits : ∀ m < n, Fits percision.ms.toNat task.tick.toNat task.period.toNat m) :
    (Due percision (counted percision task n) ↔
        Reaches percision.ms.toNat task.tick.toNat task.period.toNat n) ↔
      Fits percision.ms.toNat task.tick.toNat task.period.toNat n := by
  obtain ⟨hen, hper⟩ := counted_enable percision he n
  have hn := counter_exact he n hfits
  have hperiod := task.period.isLt
  have hms := step_le percision
  have htick := (counted percision task n).tick.isLt
  unfold Reaches Fits
  rw [due_iff hen, hper, ← hn]
  constructor <;> intro h <;> omega

theorem calls_exact (percision : Percision) (he : task.enable = true) :
    (∀ n, Due percision (counted percision task n) ↔
        Reaches percision.ms.toNat task.tick.toNat task.period.toNat n) ↔
      ∀ n, Fits percision.ms.toNat task.tick.toNat task.period.toNat n := by
  constructor
  · intro h n
    induction n using Nat.strong_induction_on with
    | h n ih => exact (call_exact he n ih).mp (h n)
  · exact fun h n => (call_exact he n fun m _ => h m).mpr (h n)

theorem fits_iff {step prev period : ℕ} (hs : 0 < step) (hle : step ≤ 10000) (hp : 0 < period)
    (hp32 : period < 2^32) : (∀ n, Fits step prev period n) ↔ InRange step prev period := by
  obtain ⟨f, hf⟩ := Nat.exists_eq_succ_of_ne_zero (first_pos step prev period).ne'
  obtain ⟨g, hg⟩ := Nat.exists_eq_succ_of_ne_zero (show 0 < gap step period from gap_pos hs hp).ne'
  have hfirst := accumulated_before hs (show f < firstTick step prev period by omega)
  have hlast := (lt_gap_iff hs).mp (show g < gap step period by omega)
  unfold Fits InRange
  constructor
  · intro h
    constructor
    · have hn := h f
      rw [hfirst] at hn
      rw [hf, Nat.succ_mul]
      simpa [Nat.add_assoc] using hn
    · have hn := h (firstTick step prev period+g)
      rw [accumulated_after hs hp, Nat.mod_eq_of_lt (by omega)] at hn
      rw [hg, Nat.succ_mul]
      omega
  · rintro ⟨h1, h2⟩ n
    rcases Nat.lt_or_ge n (firstTick step prev period) with hn | hn
    · rw [accumulated_before hs hn]
      rcases Nat.lt_or_ge (n+1) (firstTick step prev period) with hn' | hn'
      · have hlt := (lt_first_iff hs (Nat.succ_pos n)).mp hn'
        rw [Nat.succ_mul] at hlt
        omega
      · have heq : firstTick step prev period = n+1 := by omega
        rw [heq, Nat.succ_mul] at h1
        omega
    · obtain ⟨k, rfl⟩ := Nat.exists_eq_add_of_le hn
      rw [accumulated_after hs hp]
      have hlt := Nat.mod_lt k (show 0 < gap step period from gap_pos hs hp)
      have hmul := Nat.mul_le_mul_right step (Nat.succ_le_of_lt hlt)
      rw [Nat.succ_mul] at hmul
      left
      omega

end Counter

section Runs

variable (percision : Percision)

/-- The timer goes from `s` to `t` in `n` ticks. What the functions do may be
different on each tick. -/
def Ticks (behaviour : ℕ → Behaviour) : ℕ → State → State → Prop
  | 0, s, t => t = s
  | n+1, s, t => ∃ u fuel, Ticks behaviour n s u ∧
      timerTick percision (behaviour n) fuel u = some t

/-- No tick of the run leaves the task unregistered. -/
def Stays (behaviour : ℕ → Behaviour) (w : Timers) (id : ℕ) : Prop :=
  ∀ n t, Ticks percision behaviour n w.state t → (t.tasks id).isSome = true

/-- The ticks go on for ever, and on each the function of the task is called exactly
if the accumulated time reached the period. -/
def OnSchedule (behaviour : ℕ → Behaviour) (w : Timers) (id prev period : ℕ) : Prop :=
  ∀ n, ∃ t, Ticks percision behaviour (n+1) w.state t ∧
    (.called id ∈ t.log ↔ Reaches percision.ms.toNat prev period n)

/-- Every tick of the run leaves the next task registered, and registers finitely many. -/
def TameTicks (behaviour : ℕ → Behaviour) (w : Timers) : Prop :=
  ∀ n t, Ticks percision behaviour n w.state t → Tame percision (behaviour n) t

/-- What a walk leaves of the tasks `done` that it has passed, and of the tasks
`turn` that it has yet to come to. -/
structure Walked (s t : State) (done turn : List ℕ) : Prop where
  stored : ∃ xs, Stored t xs
  grows : s.fresh ≤ t.fresh
  old : ∀ id < s.fresh, (t.tasks id).isSome = true → id ∈ done++turn
  passed : ∀ id ∈ done, (t.tasks id).isSome = true →
    t.tasks id = s.tasks id ∧ (.called id ∈ t.log ↔ .called id ∈ s.log)
  counted : ∀ id ∈ turn, (t.tasks id).isSome = true → ∃ task, s.tasks id = some task ∧
    t.tasks id = some (advanced percision task) ∧
    (.called id ∈ t.log ↔ .called id ∈ s.log ∨ Due percision task)

variable {percision} {behaviour : Behaviour} {s s' t : State} {xs ys done rest : List ℕ} {p : ℕ}
  {task : TimerTask} {es : List Edit}

/-- What examining the task `p` leaves of the tasks that were there before. -/
theorem edited_task
    (hed : Edited es (touched percision s p task) s' xs ys) {id : ℕ} (hlt : id < s.fresh)
    (hsome : (s'.tasks id).isSome = true) :
    id ∈ xs ∧ .unregister id ∉ es ∧
      s'.tasks id = (if id = p then some (advanced percision task) else s.tasks id) ∧
      (.called id ∈ s'.log ↔ .called id ∈ s.log ∨ id = p ∧ Due percision task) := by
  obtain ⟨hid, hkept⟩ := (mem_edited hed hlt).mp ((hed.stored.allocated id).mp hsome)
  obtain ⟨events, hlog, hall⟩ := hed.log
  have hquiet : .called id ∉ events := by
    intro hmem
    rcases hall _ hmem with ⟨j, hj⟩ | ⟨j, hj, -⟩ <;> exact nomatch hj
  refine ⟨hid, hkept, ?_, ?_⟩
  · rw [hed.frame id hid hkept, touched]
    exact Function.update_apply ..
  · rw [hlog, touched]
    by_cases hdue : Due percision task <;> simp [hquiet, hdue]

theorem walked_last (hst : Stored s (done++[p])) (ht : s.tasks p = some task)
    (hed : Edited es (touched percision s p task) s' (done++[p]) ys) :
    Walked percision s s' done [p] := by
  have hd := stored_nodup hst
  refine ⟨⟨_, hed.stored⟩, le_of_add_le_left hed.grows, ?_, ?_, ?_⟩
  · exact fun id hlt hsome => (edited_task hed hlt hsome).1
  · intro id hid hsome
    have hne : id ≠ p := fun he => (List.nodup_append.mp hd).2.2 id hid p (by simp) he
    have h := edited_task hed (hst.fresh id (by simp [hid])) hsome
    simpa [hne] using h.2.2
  · intro id hid hsome
    obtain rfl := List.mem_singleton.mp hid
    have h := edited_task hed (hst.fresh id (by simp)) hsome
    exact ⟨task, ht, by simpa using h.2.2⟩

/-- A task of the tick that is there at its end was there after this round. -/
theorem round_kept {j : ℕ} (hed : Edited es (touched percision s p task) s' (done++p::j::rest) ys)
    (hj : .unregister j ∉ es)
    (hrest : Walked percision s' t ((done++[p]).filter (fun id => .unregister id ∉ es))
      (j::(rest.filter (fun id => .unregister id ∉ es)++ys)))
    {id : ℕ} (hlt : id < s.fresh) (hsome : (t.tasks id).isSome = true) :
    id ∈ done++p::j::rest ∧ .unregister id ∉ es ∧
      s'.tasks id = (if id = p then some (advanced percision task) else s.tasks id) ∧
      (.called id ∈ s'.log ↔ .called id ∈ s.log ∨ id = p ∧ Due percision task) := by
  have hgrows : s.fresh ≤ s'.fresh := le_of_add_le_left hed.grows
  apply edited_task hed hlt
  apply (hed.stored.allocated id).mpr
  have hmem := hrest.old id (hlt.trans_le hgrows) hsome
  simp only [List.mem_append, List.mem_cons, List.mem_filter, decide_eq_true_eq,
    List.not_mem_nil, or_false] at hmem ⊢
  rcases hmem with ⟨hmem, hk⟩ | rfl | ⟨hmem, hk⟩ | hmem
  · left
    exact ⟨by tauto, hk⟩
  · left
    exact ⟨by tauto, hj⟩
  · left
    exact ⟨by tauto, hk⟩
  · exact Or.inr hmem

/-- One round, and then what the rest of the walk does. -/
theorem walked_round {j : ℕ} (hst : Stored s (done++p::j::rest)) (ht : s.tasks p = some task)
    (hed : Edited es (touched percision s p task) s' (done++p::j::rest) ys)
    (hj : .unregister j ∉ es)
    (hrest : Walked percision s' t ((done++[p]).filter (fun id => .unregister id ∉ es))
      (j::(rest.filter (fun id => .unregister id ∉ es)++ys))) :
    Walked percision s t done (p::j::rest) := by
  have hd := stored_nodup hst
  have hgrows : s.fresh ≤ s'.fresh := le_of_add_le_left hed.grows
  refine ⟨hrest.stored, hgrows.trans hrest.grows, ?_, ?_, ?_⟩
  · exact fun id hlt hsome => (round_kept hed hj hrest hlt hsome).1
  · intro id hid hsome
    obtain ⟨-, hun, htask, hcalled⟩ :=
      round_kept hed hj hrest (hst.fresh id (by simp [hid])) hsome
    have hne : id ≠ p := fun he => (List.nodup_append.mp hd).2.2 id hid p (by simp) he
    obtain ⟨h1, h2⟩ := hrest.passed id (by simp [hid, hun]) hsome
    rw [if_neg hne] at htask
    simp only [hne, false_and, or_false] at hcalled
    exact ⟨h1.trans htask, h2.trans hcalled⟩
  · intro id hid hsome
    have hlt : id < s.fresh := hst.fresh id (List.mem_append_right _ hid)
    obtain ⟨-, hun, htask, hcalled⟩ := round_kept hed hj hrest hlt hsome
    by_cases hp : id = p
    · obtain ⟨h1, h2⟩ := hrest.passed id (by simp [hp, hp ▸ hun]) hsome
      rw [if_pos hp] at htask
      exact ⟨task, hp ▸ ht, h1.trans htask, h2.trans (by simpa [hp] using hcalled)⟩
    · have hmem : id ∈ j::(rest.filter (fun id => .unregister id ∉ es)++ys) := by
        simp only [List.mem_cons, hp, false_or] at hid
        simp only [List.mem_cons, List.mem_append, List.mem_filter, decide_eq_true_eq]
        tauto
      obtain ⟨task', h1, h2, h3⟩ := hrest.counted id hmem hsome
      rw [htask, if_neg hp] at h1
      simp only [hp, false_and, or_false] at hcalled
      exact ⟨task', h1, h2, by rw [h3, hcalled]⟩

theorem walk_walked (fuel : ℕ) {c : Cursor} (h : Placed c done p rest)
    (hw : walk percision behaviour fuel c = some t) :
    Walked percision c.state t done (p::rest) := by
  induction fuel generalizing c done rest p with
  | zero => exact nomatch hw
  | succ fuel ih =>
    obtain ⟨task, s', ys, ht, hex, hed⟩ :=
      examine_edited percision behaviour h.stored (show p ∈ done++p::rest by simp)
    rw [walk_task h.pos] at hw
    cases rest with
    | nil =>
      obtain ⟨node, hround⟩ := round_last h hex hed
      rw [hround, Option.bind_some] at hw
      cases fuel with
      | zero => exact nomatch hw
      | succ fuel =>
        obtain rfl := Option.some.inj ((walk_head rfl fuel).symm.trans hw)
        exact walked_last h.stored ht hed
    | cons j rest =>
      by_cases hj : .unregister j ∈ made percision behaviour c.state p
      · rw [round_crashes h hex hed hj] at hw
        exact nomatch hw
      · obtain ⟨c', hround, hstate, hplaced⟩ := round_spared h hex hed hj
        rw [hround, Option.bind_some] at hw
        exact walked_round h.stored ht hed hj (hstate ▸ ih hplaced hw)

/-- What a tick does to a task that is registered before and after it. -/
theorem tick_counts (hst : Stored s xs) {fuel : ℕ}
    (htick : timerTick percision behaviour fuel s = some t) :
    (∃ ys, Stored t ys) ∧ s.fresh ≤ t.fresh ∧
      ∀ id < s.fresh, (t.tasks id).isSome = true → ∃ task, s.tasks id = some task ∧
        t.tasks id = some (advanced percision task) ∧
        (.called id ∈ t.log ↔ Due percision task) := by
  cases xs with
  | nil =>
    rw [tick_empty hst] at htick
    obtain rfl := Option.some.inj htick
    refine ⟨⟨[], stored_cleared hst⟩, le_rfl, fun id _ hsome => ?_⟩
    exact absurd ((hst.allocated id).mp hsome) (by simp)
  | cons p rest =>
    obtain ⟨c, hstate, hplaced, -, hwalk⟩ := tick_walks hst
    have h := walk_walked fuel hplaced ((hwalk fuel).symm.trans htick)
    rw [hstate] at h
    refine ⟨h.stored, h.grows, fun id hlt hsome => ?_⟩
    obtain ⟨task, h1, h2, h3⟩ := h.counted id (h.old id hlt hsome) hsome
    exact ⟨task, h1, h2, by simpa using h3⟩

theorem ticks_stored (w : Timers) {behaviour : ℕ → Behaviour} (n : ℕ)
    (ht : Ticks percision behaviour n w.state t) : ∃ xs, Stored t xs := by
  induction n generalizing t with
  | zero =>
    obtain rfl := ht
    exact ⟨_, w.stored⟩
  | succ n ih =>
    obtain ⟨u, fuel, hu, htick⟩ := ht
    obtain ⟨xs, hst⟩ := ih hu
    exact (tick_counts hst htick).1

theorem ticks_counted (w : Timers) {id : ℕ} (hid : w.state.tasks id = some task)
    {behaviour : ℕ → Behaviour} (n : ℕ) (ht : Ticks percision behaviour n w.state t) :
    id < t.fresh ∧ ((t.tasks id).isSome = true → t.tasks id = some (counted percision task n)) := by
  induction n generalizing t with
  | zero =>
    obtain rfl := ht
    have hmem := (w.stored.allocated id).mp (by rw [hid]; rfl)
    exact ⟨w.stored.fresh id hmem, fun _ => hid⟩
  | succ n ih =>
    obtain ⟨u, fuel, hu, htick⟩ := ht
    obtain ⟨xs, hst⟩ := ticks_stored w n hu
    obtain ⟨hlt, htask⟩ := ih hu
    obtain ⟨-, hgrows, hcounts⟩ := tick_counts hst htick
    refine ⟨hlt.trans_le hgrows, fun hsome => ?_⟩
    obtain ⟨task', h1, h2, -⟩ := hcounts id hlt hsome
    rw [h2, counted_succ]
    rw [htask (by rw [h1]; rfl)] at h1
    rw [Option.some.inj h1]

theorem called_iff (w : Timers) {id : ℕ} (hid : w.state.tasks id = some task)
    {behaviour : ℕ → Behaviour} (n : ℕ) (ht : Ticks percision behaviour (n+1) w.state t)
    (hsome : (t.tasks id).isSome = true) :
    .called id ∈ t.log ↔ Due percision (counted percision task n) := by
  obtain ⟨u, fuel, hu, htick⟩ := ht
  obtain ⟨xs, hst⟩ := ticks_stored w n hu
  obtain ⟨hlt, htask⟩ := ticks_counted w hid n hu
  obtain ⟨-, -, hcounts⟩ := tick_counts hst htick
  obtain ⟨task', h1, -, h3⟩ := hcounts id hlt hsome
  rw [htask (by rw [h1]; rfl)] at h1
  rw [h3, Option.some.inj h1]

def quiet : Behaviour := fun _ _ => []

theorem quiet_walk {c : Cursor} (h : Placed c done p rest) :
    ∃ fuel t, walk percision quiet fuel c = some t ∧ Stored t (done++p::rest) := by
  induction rest generalizing c done p with
  | nil =>
    obtain ⟨task, s', ys, ht, hex, hed⟩ :=
      examine_edited percision quiet h.stored (show p ∈ done++[p] by simp)
    obtain ⟨node, hround⟩ := round_last h hex hed
    have hmade : made percision quiet c.state p = [] := by simp [made, ht, quiet]
    rw [examine_eq ht, hmade] at hex
    obtain rfl := Option.some.inj hex
    exact ⟨2, _, by rw [walk_task h.pos, hround]; rfl, touched_stored h.stored (by simp) ht⟩
  | cons j rest ih =>
    obtain ⟨task, ht⟩ := stored_task h.stored (show p ∈ done++p::j::rest by simp)
    have hmade : made percision quiet c.state p = [] := by simp [made, ht, quiet]
    have hst : Stored (touched percision c.state p task) (done++p::j::rest) :=
      touched_stored h.stored (by simp) ht
    have hex : examine percision quiet c.state p = some (touched percision c.state p task) := by
      rw [examine_eq ht, hmade]
      rfl
    obtain ⟨c', hround, -, hplaced⟩ :=
      round_spared h hex (hmade ▸ edited_nil hst) (by simp [hmade])
    have hplaced : Placed c' (done++[p]) j rest := by simpa [hmade] using hplaced
    obtain ⟨fuel, t, hwalk, hstored⟩ := ih hplaced
    exact ⟨fuel+1, t, by rw [walk_task h.pos, hround]; exact hwalk, by simpa using hstored⟩

theorem quiet_tick (percision : Percision) (hst : Stored s xs) :
    ∃ fuel t, timerTick percision quiet fuel s = some t ∧ Stored t xs := by
  cases xs with
  | nil => exact ⟨0, _, tick_empty hst 0, stored_cleared hst⟩
  | cons p rest =>
    obtain ⟨c, -, hplaced, -, htick⟩ := tick_walks hst
    obtain ⟨fuel, t, hwalk, hstored⟩ := quiet_walk hplaced
    exact ⟨fuel, t, (htick fuel).trans hwalk, hstored⟩

theorem quiet_ticks (percision : Percision) (w : Timers) (n : ℕ) :
    ∃ t, Ticks percision (fun _ => quiet) n w.state t ∧ Stored t w.tasks := by
  induction n with
  | zero => exact ⟨_, rfl, w.stored⟩
  | succ n ih =>
    obtain ⟨u, hu, hst⟩ := ih
    obtain ⟨fuel, t, htick, hstored⟩ := quiet_tick percision hst
    exact ⟨t, ⟨u, fuel, hu, htick⟩, hstored⟩

theorem ticks_unique (w : Timers) {behaviour : ℕ → Behaviour} (n : ℕ)
    (ht : Ticks percision behaviour n w.state t) (ht' : Ticks percision behaviour n w.state s') :
    t = s' := by
  induction n generalizing t s' with
  | zero => exact Eq.trans ht (Eq.symm ht')
  | succ n ih =>
    obtain ⟨u, fuel, hu, htick⟩ := ht
    obtain ⟨u', fuel', hu', htick'⟩ := ht'
    obtain rfl := ih hu hu'
    obtain ⟨xs, hst⟩ := ticks_stored w n hu
    exact tick_unique hst htick htick'

/-- The ticks go on as long as they are tame. -/
theorem ticks_of_tame {w : Timers} {behaviour : ℕ → Behaviour}
    (h : TameTicks percision behaviour w) (n : ℕ) : ∃ t, Ticks percision behaviour n w.state t := by
  induction n with
  | zero => exact ⟨_, rfl⟩
  | succ n ih =>
    obtain ⟨u, hu⟩ := ih
    obtain ⟨xs, hst⟩ := ticks_stored w n hu
    obtain ⟨fuel, t, htick, -⟩ := robust_of_tame (w := ⟨u, xs, hst⟩) (h n u hu)
    exact ⟨t, u, fuel, hu, htick⟩

theorem on_schedule_iff (percision : Percision) {behaviour : ℕ → Behaviour} (w : Timers) {id : ℕ}
    (hid : w.state.tasks id = some task) (hstays : Stays percision behaviour w id) :
    OnSchedule percision behaviour w id task.tick.toNat task.period.toNat ↔
      TameTicks percision behaviour w ∧ ∀ n, Due percision (counted percision task n) ↔
        Reaches percision.ms.toNat task.tick.toNat task.period.toNat n := by
  constructor
  · intro h
    refine ⟨fun n u hu => ?_, fun n => ?_⟩
    · obtain ⟨t, ⟨u', fuel, hu', htick⟩, -⟩ := h n
      obtain rfl := ticks_unique w n hu hu'
      obtain ⟨xs, hst⟩ := ticks_stored w n hu
      exact tame_of_tick hst htick
    · obtain ⟨t, ht, hcalled⟩ := h n
      exact (called_iff w hid n ht (hstays _ t ht)).symm.trans hcalled
  · rintro ⟨htame, h⟩ n
    obtain ⟨t, ht⟩ := ticks_of_tame htame (n+1)
    exact ⟨t, ht, (called_iff w hid n ht (hstays _ t ht)).trans (h n)⟩

/-- A registered and enabled task that stays registered is called on exactly the ticks
of its schedule if and only if every tick is tame and the times of the task are in
range; and these ticks are the first one, and every multiple of the gap after it. -/
theorem timer_schedule_iff (percision : Percision) (behaviour : ℕ → Behaviour) (w : Timers)
    (id : ℕ) (prev period : BitVec 32) (h : w.state.tasks id = some ⟨period, prev, true⟩)
    (hstays : Stays percision behaviour w id) :
    (OnSchedule percision behaviour w id prev.toNat period.toNat ↔
      TameTicks percision behaviour w ∧ InRange percision.ms.toNat prev.toNat period.toNat) ∧
    ∀ n, Reaches percision.ms.toNat prev.toNat period.toNat n ↔
      Scheduled percision.ms.toNat prev.toNat period.toNat (n+1) := by
  have hs := step_pos percision
  have hp : 0 < period.toNat := by
    have hne := w.stored.period id _ h
    have : period.toNat ≠ 0 := fun h0 => hne (BitVec.eq_of_toNat_eq h0)
    omega
  refine ⟨?_, reaches_iff hs hp⟩
  have hcalls := on_schedule_iff percision w h hstays
  have hexact := calls_exact percision (show (TimerTask.mk period prev true).enable = true from rfl)
  rw [hcalls, hexact, fits_iff hs (step_le percision) hp period.isLt]

theorem quiet_stays (percision : Percision) (w : Timers) {id : ℕ}
    (hid : (w.state.tasks id).isSome = true) : Stays percision (fun _ => quiet) w id := by
  intro n t ht
  obtain ⟨u, hu, hst⟩ := quiet_ticks percision w n
  obtain rfl := ticks_unique w n ht hu
  exact (hst.allocated id).mpr ((w.stored.allocated id).mp hid)

theorem second_schedule :
    ∃ w : Timers, w.state.tasks 0 = some ⟨5000, 0, true⟩ ∧
      (OnSchedule .s1 (fun _ => quiet) w 0 0 5000 ↔
        TameTicks .s1 (fun _ => quiet) w ∧ InRange 1000 0 5000) ∧
      ∀ n, Reaches 1000 0 5000 n ↔ Scheduled 1000 0 5000 (n+1) := by
  obtain ⟨s, hs, h, -⟩ :=
    register_stored stored_init ⟨0, 5000, true, true, true⟩ ⟨rfl, by decide, rfl⟩
  obtain rfl := (Prod.mk.inj (Option.some.inj hs)).2
  exact ⟨⟨_, _, h⟩, rfl, timer_schedule_iff .s1 (fun _ => quiet) ⟨_, _, h⟩ 0 0 5000 rfl
    (quiet_stays .s1 ⟨_, _, h⟩ rfl)⟩

/-- With the largest preset value the first sum wraps, and a task that should be
called on the first tick is not. -/
theorem largest_preset_wraps :
    ∃ w : Timers, applyEdits [.register ⟨4294967295, 5000, true, true, true⟩] init =
        some w.state ∧
      Reaches 1000 4294967295 5000 0 ∧ ¬OnSchedule .s1 (fun _ => quiet) w 0 4294967295 5000 := by
  obtain ⟨s, hs, h, -⟩ :=
    register_stored stored_init ⟨4294967295, 5000, true, true, true⟩ ⟨rfl, by decide, rfl⟩
  obtain rfl := (Prod.mk.inj (Option.some.inj hs)).2
  obtain ⟨w, hw, hid⟩ : ∃ w : Timers, applyEdits [.register ⟨4294967295, 5000, true, true, true⟩]
      init = some w.state ∧ w.state.tasks 0 = some ⟨5000, 4294967295, true⟩ :=
    ⟨⟨_, _, h⟩, rfl, rfl⟩
  refine ⟨w, hw, by unfold Reaches accumulated; omega, fun hon => ?_⟩
  have hstays := quiet_stays .s1 w (by rw [hid]; rfl)
  obtain ⟨-, hexact⟩ := (on_schedule_iff .s1 w hid hstays).mp hon
  have hdue : Due .s1 ⟨5000, 4294967295, true⟩ :=
    (hexact 0).mpr (by unfold Reaches accumulated; decide)
  exact absurd hdue (by decide)

end Runs

end RS485.Schedule
