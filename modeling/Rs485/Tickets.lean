import Mathlib

/-!
# Rings with tickets

Threads pass messages through a ring of `d` slots. A put and a take begin with a
ticket, and the ticket's remainder is the slot. The put waits until its slot is empty,
and the take until it is full. The tickets pair the puts with the takes, provided that
a ticket is given only when the last put, or take, of its slot has ended.
-/

set_option autoImplicit false

namespace RS485.Tickets

section Rings

variable {T B : Type*}

/-- What a thread is doing at the ring, and what it has seen in its slot. -/
inductive View (B : Type*) where
  | away
  | putting (message : B) (slot : ℕ) (ready : Bool)
  | taking (slot : ℕ) (seen : Option B)

variable (d : ℕ) (slots : ℕ → Option B) (puts : List B) (takers : List T) (view : T → View B)
  (tick : T → ℕ)

/-- The put of this ticket has ended. -/
def Stored (w : ℕ) : Prop :=
  w < puts.length ∧ ∀ t m k ready, view t = .putting m k ready → tick t ≠ w

/-- The take of this ticket has ended. -/
def Cleared (w : ℕ) : Prop :=
  w < takers.length ∧ ∀ t k seen, view t = .taking k seen → tick t ≠ w

/-- `puts` are the messages and `takers` the threads in the order of their tickets, and
`tick` are the tickets of the threads at the ring. -/
structure Sound : Prop where
  putting : ∀ t m k ready, view t = .putting m k ready →
    puts[tick t]? = some m ∧ k = tick t % d ∧ (ready = true → slots k = none)
  alone : ∀ t m k ready t' m' k' ready', view t = .putting m k ready →
    view t' = .putting m' k' ready' → tick t = tick t' → t = t'
  taking : ∀ t k seen, view t = .taking k seen →
    takers[tick t]? = some t ∧ k = tick t % d ∧ ∀ m, seen = some m → slots k = some m
  behind : takers.length ≤ puts.length
  taken : ∀ w, Cleared takers view tick w → Stored puts view tick w
  order : ∀ w w', Stored puts view tick w' → w < w' → w % d = w' % d → Cleared takers view tick w
  putLaps : ∀ w w', w' < puts.length → w < w' → w % d = w' % d → Stored puts view tick w
  takeLaps : ∀ w w', w' < takers.length → w < w' → w % d = w' % d → Cleared takers view tick w
  full : ∀ w, Stored puts view tick w → ¬ Cleared takers view tick w → slots (w % d) = puts[w]?
  empty : ∀ k m, slots k = some m →
    ∃ w, Stored puts view tick w ∧ ¬ Cleared takers view tick w ∧ w % d = k

end Rings

section Moves

variable {T B : Type*} {d : ℕ} {slots : ℕ → Option B} {puts : List B}
  {takers : List T} {view : T → View B} {tick : T → ℕ} {t : T} {m : B} {k : ℕ}

/-- The message in the slot of a take is the one of its own ticket. -/
theorem own_ticket (h : Sound d slots puts takers view tick) {seen : Option B}
    (hview : view t = .taking k seen) {w : ℕ} (hstored : Stored puts view tick w)
    (hcleared : ¬ Cleared takers view tick w) (hw : w % d = k) : w = tick t := by
  obtain ⟨htaker, hk, -⟩ := h.taking t k seen hview
  have htick := (List.getElem?_eq_some_iff.mp htaker).1
  rcases Nat.lt_trichotomy w (tick t) with hlt | heq | hgt
  · exact absurd (h.takeLaps w (tick t) htick hlt (hw.trans hk)) hcleared
  · exact heq
  · have hpast := h.order (tick t) w hstored hgt (hk.symm.trans hw.symm)
    exact absurd rfl (hpast.2 t k seen hview)

/-- A full slot gives the take its own message. -/
theorem slot_message (h : Sound d slots puts takers view tick) {seen : Option B}
    (hview : view t = .taking k seen) (hslot : slots k = some m) :
    puts[tick t]? = some m ∧ Stored puts view tick (tick t) := by
  obtain ⟨w, hstored, hcleared, hw⟩ := h.empty k m hslot
  obtain rfl := own_ticket h hview hstored hcleared hw
  have hfull := h.full _ hstored hcleared
  rw [hw, hslot] at hfull
  exact ⟨hfull.symm, hstored⟩

/-- Two puts are never under way at one slot. -/
theorem put_alone (h : Sound d slots puts takers view tick) {s : T} {m' : B} {ready ready' : Bool}
    (hview : view t = .putting m k ready) (hview' : view s = .putting m' k ready') : s = t := by
  obtain ⟨hget, hk, -⟩ := h.putting t m k ready hview
  obtain ⟨hget', hk', -⟩ := h.putting s m' k ready' hview'
  have htick := (List.getElem?_eq_some_iff.mp hget).1
  have htick' := (List.getElem?_eq_some_iff.mp hget').1
  rcases Nat.lt_trichotomy (tick s) (tick t) with hlt | heq | hgt
  · have hpast := h.putLaps (tick s) (tick t) htick hlt (hk'.symm.trans hk)
    exact absurd rfl (hpast.2 s m' k ready' hview')
  · exact h.alone s m' k ready' t m k ready hview' hview heq
  · have hpast := h.putLaps (tick t) (tick s) htick' hgt (hk.symm.trans hk')
    exact absurd rfl (hpast.2 t m k ready hview)

/-- Two takes are never under way at one slot. -/
theorem take_alone (h : Sound d slots puts takers view tick) {s : T} {seen seen' : Option B}
    (hview : view t = .taking k seen) (hview' : view s = .taking k seen') : s = t := by
  obtain ⟨hget, hk, -⟩ := h.taking t k seen hview
  obtain ⟨hget', hk', -⟩ := h.taking s k seen' hview'
  have htick := (List.getElem?_eq_some_iff.mp hget).1
  have htick' := (List.getElem?_eq_some_iff.mp hget').1
  rcases Nat.lt_trichotomy (tick s) (tick t) with hlt | heq | hgt
  · have hpast := h.takeLaps (tick s) (tick t) htick hlt (hk'.symm.trans hk)
    exact absurd rfl (hpast.2 s k seen' hview')
  · rw [heq, hget, Option.some.injEq] at hget'
    exact hget'.symm
  · have hpast := h.takeLaps (tick t) (tick s) htick' hgt (hk.symm.trans hk')
    exact absurd rfl (hpast.2 t k seen hview)

/-- When no put is under way, the next one laps no other. -/
theorem put_lap_idle (hidle : ∀ s m k ready, view s ≠ .putting m k ready) {w : ℕ}
    (hw : w < puts.length) : Stored puts view tick w :=
  ⟨hw, fun s m k ready hs => absurd hs (hidle s m k ready)⟩

theorem take_lap_idle (hidle : ∀ s k seen, view s ≠ .taking k seen) {w : ℕ}
    (hw : w < takers.length) : Cleared takers view tick w :=
  ⟨hw, fun s k seen hs => absurd hs (hidle s k seen)⟩

/-- The next put laps no other when the one of `d` tickets before has ended. -/
theorem put_lap_last (h : Sound d slots puts takers view tick)
    (hlast : d ≤ puts.length → Stored puts view tick (puts.length - d)) (hd : 0 < d) {w : ℕ}
    (hw : w < puts.length) (hmod : w % d = puts.length % d) : Stored puts view tick w := by
  have hdvd : d ∣ puts.length - w := (Nat.modEq_iff_dvd' hw.le).mp hmod
  have hle : d ≤ puts.length - w := Nat.le_of_dvd (by omega) hdvd
  rcases Nat.lt_or_ge w (puts.length - d) with hlt | hge
  · refine h.putLaps w (puts.length - d) (by omega) hlt ?_
    rw [hmod, ← Nat.mod_eq_sub_mod (by omega)]
  · obtain rfl : w = puts.length - d := by omega
    exact hlast (by omega)

/-- The next take laps no other when its own put has ended. -/
theorem take_lap_stored (h : Sound d slots puts takers view tick)
    (hstored : Stored puts view tick takers.length) {w : ℕ} (hw : w < takers.length)
    (hmod : w % d = takers.length % d) : Cleared takers view tick w :=
  h.order w _ hstored hw hmod

/-- A step after which the same tickets have ended. -/
theorem sound_kept (h : Sound d slots puts takers view tick) {view' : T → View B} {tick' : T → ℕ}
    (hstored : ∀ w, Stored puts view' tick' w ↔ Stored puts view tick w)
    (hcleared : ∀ w, Cleared takers view' tick' w ↔ Cleared takers view tick w)
    (hputting : ∀ t m k ready, view' t = .putting m k ready →
      puts[tick' t]? = some m ∧ k = tick' t % d ∧ (ready = true → slots k = none))
    (halone : ∀ t m k ready t' m' k' ready', view' t = .putting m k ready →
      view' t' = .putting m' k' ready' → tick' t = tick' t' → t = t')
    (htaking : ∀ t k seen, view' t = .taking k seen →
      takers[tick' t]? = some t ∧ k = tick' t % d ∧ ∀ m, seen = some m → slots k = some m) :
    Sound d slots puts takers view' tick' where
  putting := hputting
  alone := halone
  taking := htaking
  behind := h.behind
  taken := by simpa only [hstored, hcleared] using h.taken
  order := by simpa only [hstored, hcleared] using h.order
  putLaps := by simpa only [hstored] using h.putLaps
  takeLaps := by simpa only [hcleared] using h.takeLaps
  full := by simpa only [hstored, hcleared] using h.full
  empty := by simpa only [hstored, hcleared] using h.empty

variable [DecidableEq T]

theorem other_thread {s : T} {x y : View B} (hxy : x ≠ y) (hs : Function.update view t x s = y) :
    s ≠ t ∧ view s = y := by
  have hst : s ≠ t := by
    rintro rfl
    rw [Function.update_self] at hs
    exact hxy hs
  exact ⟨hst, by rwa [Function.update_of_ne hst] at hs⟩

theorem stored_update (x : View B) (n w : ℕ) :
    Stored puts (Function.update view t x) (Function.update tick t n) w ↔
      w < puts.length ∧ (∀ m k ready, x = .putting m k ready → n ≠ w) ∧
        ∀ s ≠ t, ∀ m k ready, view s = .putting m k ready → tick s ≠ w := by
  unfold Stored
  refine and_congr_right fun _ => ⟨fun h => ⟨fun m k ready hx => ?_, fun s hs m k ready hv => ?_⟩,
    fun h s m k ready hv => ?_⟩
  · simpa using h t m k ready (by simpa using hx)
  · simpa [hs] using h s m k ready (by simpa [hs] using hv)
  · by_cases hs : s = t
    · subst hs
      simpa using h.1 m k ready (by simpa using hv)
    · simpa [hs] using h.2 s hs m k ready (by simpa [hs] using hv)

theorem cleared_update (x : View B) (n w : ℕ) :
    Cleared takers (Function.update view t x) (Function.update tick t n) w ↔
      w < takers.length ∧ (∀ k seen, x = .taking k seen → n ≠ w) ∧
        ∀ s ≠ t, ∀ k seen, view s = .taking k seen → tick s ≠ w := by
  unfold Cleared
  refine and_congr_right fun _ => ⟨fun h => ⟨fun k seen hx => ?_, fun s hs k seen hv => ?_⟩,
    fun h s k seen hv => ?_⟩
  · simpa using h t k seen (by simpa using hx)
  · simpa [hs] using h s k seen (by simpa [hs] using hv)
  · by_cases hs : s = t
    · subst hs
      simpa using h.1 k seen (by simpa using hv)
    · simpa [hs] using h.2 s hs k seen (by simpa [hs] using hv)

theorem stored_view (x : View B) (w : ℕ) :
    Stored puts (Function.update view t x) tick w ↔
      w < puts.length ∧ (∀ m k ready, x = .putting m k ready → tick t ≠ w) ∧
        ∀ s ≠ t, ∀ m k ready, view s = .putting m k ready → tick s ≠ w := by
  have h := @stored_update _ _ puts view tick t _ x (tick t) w
  rwa [Function.update_eq_self] at h

theorem cleared_view (x : View B) (w : ℕ) :
    Cleared takers (Function.update view t x) tick w ↔
      w < takers.length ∧ (∀ k seen, x = .taking k seen → tick t ≠ w) ∧
        ∀ s ≠ t, ∀ k seen, view s = .taking k seen → tick s ≠ w := by
  have h := @cleared_update _ _ takers view tick t _ x (tick t) w
  rwa [Function.update_eq_self] at h

/-- What the thread `t` contributes, apart from the others. -/
theorem stored_split (t : T) (w : ℕ) :
    Stored puts view tick w ↔
      w < puts.length ∧ (∀ m k ready, view t = .putting m k ready → tick t ≠ w) ∧
        ∀ s ≠ t, ∀ m k ready, view s = .putting m k ready → tick s ≠ w := by
  have h := @stored_view _ _ puts view tick t _ (view t) w
  rwa [Function.update_eq_self] at h

theorem cleared_split (t : T) (w : ℕ) :
    Cleared takers view tick w ↔
      w < takers.length ∧ (∀ k seen, view t = .taking k seen → tick t ≠ w) ∧
        ∀ s ≠ t, ∀ k seen, view s = .taking k seen → tick s ≠ w := by
  have h := @cleared_view _ _ takers view tick t _ (view t) w
  rwa [Function.update_eq_self] at h

/-- A put takes the next ticket, when the puts before it at its slot have ended. -/
theorem put_ticket (h : Sound d slots puts takers view tick) (haway : view t = .away)
    (hlap : ∀ w < puts.length, w % d = puts.length % d → Stored puts view tick w) :
    Sound d slots (puts++[m]) takers
      (Function.update view t (.putting m (puts.length % d) false))
      (Function.update tick t puts.length) := by
  have hstored : ∀ w, Stored (puts++[m])
      (Function.update view t (.putting m (puts.length % d) false))
      (Function.update tick t puts.length) w ↔ Stored puts view tick w := fun w => by
    rw [stored_update, stored_split t, haway]
    simp
    grind
  have hcleared : ∀ w, Cleared takers
      (Function.update view t (.putting m (puts.length % d) false))
      (Function.update tick t puts.length) w ↔ Cleared takers view tick w := fun w => by
    rw [cleared_update, cleared_split t, haway]
    simp
  have hlength : (puts++[m]).length = puts.length + 1 := by simp
  refine ⟨fun s m' k' ready hs => ?_, fun s m' k' ready s' m'' k'' ready' hs hs' heq => ?_,
    fun s k' seen hs => ?_, ?_, ?_, ?_, ?_, ?_, ?_, ?_⟩
  · by_cases hst : s = t
    · subst hst
      rw [Function.update_self] at hs ⊢
      cases hs
      exact ⟨List.getElem?_concat_length, rfl, fun hready => nomatch hready⟩
    · rw [Function.update_of_ne hst] at hs ⊢
      obtain ⟨hget, hk, hready⟩ := h.putting s m' k' ready hs
      have hlt := (List.getElem?_eq_some_iff.mp hget).1
      exact ⟨by rwa [List.getElem?_append_left hlt], hk, hready⟩
  · have hold (s : T) (m' : B) (k' : ℕ) (ready : Bool) (hs : view s = .putting m' k' ready) :
        tick s < puts.length :=
      (List.getElem?_eq_some_iff.mp (h.putting s m' k' ready hs).1).1
    grind [Function.update_apply, h.alone]
  · obtain ⟨hst, hs⟩ := other_thread (by nofun) hs
    rw [Function.update_of_ne hst]
    exact h.taking s k' seen hs
  · rw [hlength]
    exact Nat.le_succ_of_le h.behind
  · simpa only [hstored, hcleared] using h.taken
  · simpa only [hstored, hcleared] using h.order
  · intro w w' hw' hlt hmod
    rw [hstored]
    rcases Nat.lt_succ_iff_lt_or_eq.mp (hlength ▸ hw') with hold | rfl
    · exact h.putLaps w w' hold hlt hmod
    · exact hlap w hlt hmod
  · simpa only [hcleared] using h.takeLaps
  · intro w
    rw [hstored, hcleared]
    intro hw hnot
    rw [List.getElem?_append_left hw.1]
    exact h.full w hw hnot
  · simpa only [hstored, hcleared] using h.empty

/-- A put has seen that its slot is empty. -/
theorem put_ready (h : Sound d slots puts takers view tick)
    (hview : view t = .putting m k false) (hslot : slots k = none) :
    Sound d slots puts takers (Function.update view t (.putting m k true)) tick := by
  have hstored : ∀ w, Stored puts (Function.update view t (.putting m k true)) tick w ↔
      Stored puts view tick w := fun w => by
    rw [stored_view, stored_split t, hview]
    simp
  have hcleared : ∀ w, Cleared takers (Function.update view t (.putting m k true)) tick w ↔
      Cleared takers view tick w := fun w => by
    rw [cleared_view, cleared_split t, hview]
    simp
  refine sound_kept h hstored hcleared (fun s m' k' ready hs => ?_)
    (fun s m' k' ready s' m'' k'' ready' hs hs' heq => ?_) fun s k' seen hs => ?_
  · by_cases hst : s = t
    · subst hst
      rw [Function.update_self] at hs
      cases hs
      obtain ⟨hget, hk, -⟩ := h.putting s m k false hview
      exact ⟨hget, hk, fun _ => hslot⟩
    · rw [Function.update_of_ne hst] at hs
      exact h.putting s m' k' ready hs
  · grind [Function.update_apply, h.alone]
  · obtain ⟨hst, hs⟩ := other_thread (by nofun) hs
    exact h.taking s k' seen hs

/-- A put stores its message in the empty slot. -/
theorem put_store (h : Sound d slots puts takers view tick)
    (hview : view t = .putting m k true) :
    Sound d (Function.update slots k (some m)) puts takers (Function.update view t .away) tick := by
  obtain ⟨hget, hk, hready⟩ := h.putting t m k true hview
  have hempty := hready rfl
  have htick := (List.getElem?_eq_some_iff.mp hget).1
  have hunstored : ¬ Stored puts view tick (tick t) := fun hs => hs.2 t m k true hview rfl
  have hstored : ∀ w, Stored puts (Function.update view t .away) tick w ↔
      Stored puts view tick w ∨ w = tick t := fun w => by
    have halone := h.alone t m k true
    rw [stored_view, stored_split t, hview]
    grind
  have hcleared : ∀ w, Cleared takers (Function.update view t .away) tick w ↔
      Cleared takers view tick w := fun w => by
    rw [cleared_view, cleared_split t, hview]
    simp
  have hfree : ∀ w, Stored puts view tick w → w % d = k → Cleared takers view tick w := by
    intro w hw hmod
    by_contra hnot
    have hfull := h.full w hw hnot
    rw [hmod, hempty, List.getElem?_eq_getElem hw.1] at hfull
    exact nomatch hfull
  refine ⟨fun s m' k' ready hs => ?_, fun s m' k' ready s' m'' k'' ready' hs hs' heq => ?_,
    fun s k' seen hs => ?_, h.behind, ?_, ?_, ?_, ?_, ?_, ?_⟩
  · obtain ⟨hst, hs⟩ := other_thread (by nofun) hs
    obtain ⟨hget', hk', hready'⟩ := h.putting s m' k' ready hs
    have hkk : k' ≠ k := by
      rintro rfl
      exact hst (put_alone h hview hs)
    exact ⟨hget', hk', by rwa [Function.update_of_ne hkk]⟩
  · grind [Function.update_apply, h.alone]
  · obtain ⟨hst, hs⟩ := other_thread (by nofun) hs
    obtain ⟨htaker, hk', hseen⟩ := h.taking s k' seen hs
    refine ⟨htaker, hk', fun m' hm' => ?_⟩
    have hkk : k' ≠ k := by
      rintro rfl
      rw [hseen m' hm'] at hempty
      exact nomatch hempty
    rw [Function.update_of_ne hkk]
    exact hseen m' hm'
  · intro w hw
    rw [hcleared] at hw
    exact (hstored w).mpr (Or.inl (h.taken w hw))
  · intro w w' hw' hlt hmod
    rw [hcleared]
    rcases (hstored w').mp hw' with hold | rfl
    · exact h.order w w' hold hlt hmod
    · exact hfree w (h.putLaps w _ htick hlt hmod) (hmod.trans hk.symm)
  · intro w w' hw' hlt hmod
    exact (hstored w).mpr (Or.inl (h.putLaps w w' hw' hlt hmod))
  · simpa only [hcleared] using h.takeLaps
  · intro w hw hnot
    rw [hcleared] at hnot
    rcases (hstored w).mp hw with hold | rfl
    · have hne : w % d ≠ k := fun hmod => hnot (hfree w hold hmod)
      rw [Function.update_of_ne hne]
      exact h.full w hold hnot
    · rw [← hk, Function.update_self, hget]
  · intro k' m' hslot
    by_cases hkk : k' = k
    · subst hkk
      refine ⟨tick t, (hstored _).mpr (Or.inr rfl), fun hc => ?_, hk.symm⟩
      exact hunstored (h.taken _ ((hcleared _).mp hc))
    · rw [Function.update_of_ne hkk] at hslot
      obtain ⟨w, hw, hnot, hmod⟩ := h.empty k' m' hslot
      exact ⟨w, (hstored w).mpr (Or.inl hw), fun hc => hnot ((hcleared w).mp hc), hmod⟩

/-- A take gets the next ticket, when the takes before it at its slot have ended. -/
theorem take_ticket (h : Sound d slots puts takers view tick) (haway : view t = .away)
    (hlap : ∀ w < takers.length, w % d = takers.length % d → Cleared takers view tick w)
    (hbehind : takers.length < puts.length) :
    Sound d slots puts (takers++[t])
      (Function.update view t (.taking (takers.length % d) none))
      (Function.update tick t takers.length) := by
  have hstored : ∀ w, Stored puts (Function.update view t (.taking (takers.length % d) none))
      (Function.update tick t takers.length) w ↔ Stored puts view tick w := fun w => by
    rw [stored_update, stored_split t, haway]
    simp
  have hcleared : ∀ w, Cleared (takers++[t])
      (Function.update view t (.taking (takers.length % d) none))
      (Function.update tick t takers.length) w ↔ Cleared takers view tick w := fun w => by
    rw [cleared_update, cleared_split t, haway]
    simp
    grind
  have hlength : (takers++[t]).length = takers.length + 1 := by simp
  refine ⟨fun s m' k' ready hs => ?_, fun s m' k' ready s' m'' k'' ready' hs hs' heq => ?_,
    fun s k' seen hs => ?_, ?_, ?_, ?_, ?_, ?_, ?_, ?_⟩
  · obtain ⟨hst, hs⟩ := other_thread (by nofun) hs
    rw [Function.update_of_ne hst]
    exact h.putting s m' k' ready hs
  · grind [Function.update_apply, h.alone]
  · by_cases hst : s = t
    · subst hst
      rw [Function.update_self] at hs ⊢
      cases hs
      exact ⟨List.getElem?_concat_length, rfl, fun m hm => nomatch hm⟩
    · rw [Function.update_of_ne hst] at hs ⊢
      obtain ⟨htaker, hk, hseen⟩ := h.taking s k' seen hs
      have hlt := (List.getElem?_eq_some_iff.mp htaker).1
      exact ⟨by rwa [List.getElem?_append_left hlt], hk, hseen⟩
  · rw [hlength]
    exact hbehind
  · simpa only [hstored, hcleared] using h.taken
  · simpa only [hstored, hcleared] using h.order
  · simpa only [hstored] using h.putLaps
  · intro w w' hw' hlt hmod
    rw [hcleared]
    rcases Nat.lt_succ_iff_lt_or_eq.mp (hlength ▸ hw') with hold | rfl
    · exact h.takeLaps w w' hold hlt hmod
    · exact hlap w hlt hmod
  · simpa only [hstored, hcleared] using h.full
  · simpa only [hstored, hcleared] using h.empty

/-- A take has seen the message in its slot. -/
theorem take_seen (h : Sound d slots puts takers view tick)
    (hview : view t = .taking k none) (hslot : slots k = some m) :
    Sound d slots puts takers (Function.update view t (.taking k (some m))) tick := by
  have hstored : ∀ w, Stored puts (Function.update view t (.taking k (some m))) tick w ↔
      Stored puts view tick w := fun w => by
    rw [stored_view, stored_split t, hview]
    simp
  have hcleared : ∀ w, Cleared takers (Function.update view t (.taking k (some m))) tick w ↔
      Cleared takers view tick w := fun w => by
    rw [cleared_view, cleared_split t, hview]
    simp
  refine sound_kept h hstored hcleared (fun s m' k' ready hs => ?_)
    (fun s m' k' ready s' m'' k'' ready' hs hs' heq => ?_) fun s k' seen hs => ?_
  · obtain ⟨hst, hs⟩ := other_thread (by nofun) hs
    exact h.putting s m' k' ready hs
  · grind [Function.update_apply, h.alone]
  · by_cases hst : s = t
    · subst hst
      rw [Function.update_self] at hs
      cases hs
      obtain ⟨htaker, hk, -⟩ := h.taking s k none hview
      exact ⟨htaker, hk, fun m' hm' => Option.some.inj hm' ▸ hslot⟩
    · rw [Function.update_of_ne hst] at hs
      exact h.taking s k' seen hs

/-- A take empties its slot. -/
theorem take_clear (h : Sound d slots puts takers view tick)
    (hview : view t = .taking k (some m)) :
    Sound d (Function.update slots k none) puts takers (Function.update view t .away) tick := by
  obtain ⟨htaker, hk, hseen⟩ := h.taking t k (some m) hview
  have hslot := hseen m rfl
  obtain ⟨hmessage, hown⟩ := slot_message h hview hslot
  have hstored : ∀ w, Stored puts (Function.update view t .away) tick w ↔
      Stored puts view tick w := fun w => by
    rw [stored_view, stored_split t, hview]
    simp
  have hcleared : ∀ w, Cleared takers (Function.update view t .away) tick w ↔
      Cleared takers view tick w ∨ w = tick t := fun w => by
    have htakers := h.taking
    rw [cleared_view, cleared_split t, hview]
    grind
  refine ⟨fun s m' k' ready hs => ?_, fun s m' k' ready s' m'' k'' ready' hs hs' heq => ?_,
    fun s k' seen hs => ?_, h.behind, ?_, ?_, ?_, ?_, ?_, ?_⟩
  · obtain ⟨hst, hs⟩ := other_thread (by nofun) hs
    obtain ⟨hget', hk', hready'⟩ := h.putting s m' k' ready hs
    refine ⟨hget', hk', fun hready => ?_⟩
    by_cases hkk : k' = k
    · rw [hkk, Function.update_self]
    · rw [Function.update_of_ne hkk]
      exact hready' hready
  · grind [Function.update_apply, h.alone]
  · obtain ⟨hst, hs⟩ := other_thread (by nofun) hs
    obtain ⟨htaker', hk', hseen'⟩ := h.taking s k' seen hs
    have hkk : k' ≠ k := by
      rintro rfl
      exact hst (take_alone h hview hs)
    exact ⟨htaker', hk', by rwa [Function.update_of_ne hkk]⟩
  · intro w hw
    rw [hstored]
    rcases (hcleared w).mp hw with hold | rfl
    · exact h.taken w hold
    · exact hown
  · intro w w' hw' hlt hmod
    exact (hcleared w).mpr (Or.inl (h.order w w' ((hstored w').mp hw') hlt hmod))
  · simpa only [hstored] using h.putLaps
  · intro w w' hw' hlt hmod
    exact (hcleared w).mpr (Or.inl (h.takeLaps w w' hw' hlt hmod))
  · intro w hw hnot
    rw [hstored] at hw
    rw [hcleared, not_or] at hnot
    have hne : w % d ≠ k := fun hmod => hnot.2 (own_ticket h hview hw hnot.1 hmod)
    rw [Function.update_of_ne hne]
    exact h.full w hw hnot.1
  · intro k' m' hslot'
    have hkk : k' ≠ k := by
      rintro rfl
      rw [Function.update_self] at hslot'
      exact nomatch hslot'
    rw [Function.update_of_ne hkk] at hslot'
    obtain ⟨w, hw, hnot, hmod⟩ := h.empty k' m' hslot'
    refine ⟨w, (hstored w).mpr hw, fun hc => ?_, hmod⟩
    rcases (hcleared w).mp hc with hold | rfl
    · exact hnot hold
    · exact hkk (hmod.symm.trans hk.symm)

/-- The ticket of a thread that is away is of no account. -/
theorem tick_away (h : Sound d slots puts takers view tick) (haway : view t = .away) (n : ℕ) :
    Sound d slots puts takers view (Function.update tick t n) := by
  have hstored : ∀ w, Stored puts view (Function.update tick t n) w ↔ Stored puts view tick w :=
    fun w => by
      have hupdate := @stored_update _ _ puts view tick t _ (view t) n w
      rw [Function.update_eq_self] at hupdate
      rw [hupdate, stored_split t, haway]
      simp
  have hcleared : ∀ w, Cleared takers view (Function.update tick t n) w ↔
      Cleared takers view tick w := fun w => by
    have hupdate := @cleared_update _ _ takers view tick t _ (view t) n w
    rw [Function.update_eq_self] at hupdate
    rw [hupdate, cleared_split t, haway]
    simp
  have hother {s : T} {y : View B} (hy : y ≠ .away) (hs : view s = y) : s ≠ t := by
    rintro rfl
    exact hy (hs.symm.trans haway)
  refine sound_kept h hstored hcleared (fun s m k ready hs => ?_)
    (fun s m k ready s' m' k' ready' hs hs' heq => ?_) fun s k seen hs => ?_
  · rw [Function.update_of_ne (hother (by nofun) hs)]
    exact h.putting s m k ready hs
  · rw [Function.update_of_ne (hother (by nofun) hs),
      Function.update_of_ne (hother (by nofun) hs')] at heq
    exact h.alone s m k ready s' m' k' ready' hs hs' heq
  · rw [Function.update_of_ne (hother (by nofun) hs)]
    exact h.taking s k seen hs

end Moves

section Counts

variable {T P : Type*} [Fintype T] (weight : P → ℤ) (phase : T → P)

/-- How much the threads weigh by their phases. -/
def total : ℤ := ∑ t, weight (phase t)

variable {weight phase}

theorem total_update [DecidableEq T] (t : T) (p : P) :
    total weight (Function.update phase t p) = total weight phase - weight (phase t) + weight p := by
  have hothers : ∑ s ∈ Finset.univ.erase t, weight (Function.update phase t p s) =
      ∑ s ∈ Finset.univ.erase t, weight (phase s) :=
    Finset.sum_congr rfl fun s hs => by rw [Function.update_of_ne (Finset.ne_of_mem_erase hs)]
  have hold := Finset.add_sum_erase Finset.univ (fun s => weight (phase s)) (Finset.mem_univ t)
  have hnew := Finset.add_sum_erase Finset.univ
    (fun s => weight (Function.update phase t p s)) (Finset.mem_univ t)
  simp only [Function.update_self, hothers] at hnew
  rw [total, total, ← hnew, ← hold]
  ring

theorem total_nonneg (h : ∀ p, 0 ≤ weight p) : 0 ≤ total weight phase :=
  Finset.sum_nonneg fun t _ => h (phase t)

theorem total_mono {weight' : P → ℤ} (h : ∀ p, weight p ≤ weight' p) :
    total weight phase ≤ total weight' phase :=
  Finset.sum_le_sum fun t _ => h (phase t)

theorem le_total (h : ∀ p, 0 ≤ weight p) (t : T) : weight (phase t) ≤ total weight phase :=
  Finset.single_le_sum (fun s _ => h (phase s)) (Finset.mem_univ t)

theorem pair_le_total [DecidableEq T] (h : ∀ p, 0 ≤ weight p) {t t' : T} (hne : t ≠ t') :
    weight (phase t) + weight (phase t') ≤ total weight phase := by
  have hpair := Finset.sum_pair (f := fun s => weight (phase s)) hne
  rw [← hpair]
  exact Finset.sum_le_sum_of_subset_of_nonneg (Finset.subset_univ _) fun s _ _ => h (phase s)

theorem total_alone {t : T} (h : ∀ s ≠ t, weight (phase s) = 0) :
    total weight phase = weight (phase t) :=
  Finset.sum_eq_single t (fun s _ hs => h s hs) fun ht => absurd (Finset.mem_univ t) ht

end Counts

end RS485.Tickets
