import Rs485.MessageQueue

/-!
# Passing messages

The tickets of `message_queue.c` pair each put with the take of the same number as
long as one thread does all the puts of a ring, or one does all the takes: many senders
and one receiver, or one sender and many receivers. The number of the messages keeps the
puts of many threads from lapping each other.
-/

set_option autoImplicit false

namespace RS485.MessagePassing
open RS485.MessageQueue RS485.Tickets

section Usage

variable {T B : Type*}

/-- Who puts into the rings and who takes out of them. -/
structure Usage (T : Type*) where
  mayPut : Part → T → Prop
  mayTake : Part → T → Prop

/-- One thread does all the puts of the ring, or one does all the takes. -/
def Usage.OneSided (u : Usage T) (part : Part) : Prop :=
  (∃ x, ∀ t, u.mayPut part t → t = x) ∨ ∃ y, ∀ t, u.mayTake part t → t = y

def Usage.Keeps (u : Usage T) : Act T B → Prop
  | .call t (.put part _) => u.mayPut part t
  | .call t (.take part _) => u.mayTake part t
  | .go _ => True

def Usage.Allows (u : Usage T) (t : T) : Phase B → Prop
  | .idle => True
  | .put part _ _ => u.mayPut part t
  | .take part _ _ => u.mayTake part t

/-- What a thread does at the ring, between its ticket and its store. -/
def view (part : Part) : Phase B → View B
  | .put p m (.loadSlot pos) => if p = part then .putting m pos.toNat false else .away
  | .put p m (.storeSlot pos) => if p = part then .putting m pos.toNat true else .away
  | .take p _ (.loadSlot pos) => if p = part then .taking pos.toNat none else .away
  | .take p _ (.storeSlot pos rv) => if p = part then .taking pos.toNat (some rv) else .away
  | _ => .away

/-- The tickets of one ring are in order, and agree with the positions. -/
structure Ticketed (d : ℕ) (r : Ring T B) (part : Part) (phase : T → Phase B) (tick : T → ℕ) :
    Prop where
  sound : Sound d r.slots r.puts r.takers (fun t => view part (phase t)) tick
  putPos : r.putPos.toNat % d = r.puts.length % d
  takePos : r.takePos.toNat % d = r.takers.length % d

variable [DecidableEq T] {d : ℕ} {r : Ring T B} {part : Part} {phase : T → Phase B}
  {tick : T → ℕ} {t : T}

theorem view_update (part : Part) (phase : T → Phase B) (t : T) (p : Phase B) :
    (fun s => view part (Function.update phase t p s)) =
      Function.update (fun s => view part (phase s)) t (view part p) := by
  funext s
  exact Function.apply_update (fun _ => view part) phase t p s

/-- A thread that is not at the ring before its access, nor after it. -/
theorem ticketed_away (h : Ticketed d r part phase tick) (haway : view part (phase t) = .away)
    {p : Phase B} (hp : view part p = .away) (n : ℕ) :
    Ticketed d r part (Function.update phase t p) (Function.update tick t n) := by
  refine ⟨?_, h.putPos, h.takePos⟩
  have hview : (fun s => view part (Function.update phase t p s)) =
      fun s => view part (phase s) := by
    rw [view_update, hp, ← haway, Function.update_eq_self]
  rw [hview]
  exact tick_away h.sound haway n

theorem position_next {pos : BitVec 32} {n : ℕ} (hd : d ∣ 2 ^ 32) (h : pos.toNat % d = n % d) :
    (pos+1).toNat % d = (n + 1) % d := by
  rw [BitVec.toNat_add, Nat.mod_mod_of_dvd _ hd, Nat.add_mod, h, ← Nat.add_mod]
  rfl

/-- Who has the next ticket: the thread that is about to fetch a position, and else the
thread keeps its own. -/
def putTick (r : Ring T B) (old : ℕ) : PutAt → ℕ
  | .fetchPos => r.puts.length
  | _ => old

def takeTick (r : Ring T B) (old : ℕ) : TakeAt B → ℕ
  | .fetchPos => r.takers.length
  | _ => old

variable {maxDepth : BitVec 32} {m : B}

theorem ticketed_put (hd : maxDepth.toNat ∣ 2 ^ 32)
    (h : Ticketed maxDepth.toNat r part phase tick) {a : PutAt} (hphase : phase t = .put part m a)
    (hlap : a = .fetchPos → ∀ w < r.puts.length, w % maxDepth.toNat = r.puts.length % maxDepth.toNat →
      Stored r.puts (fun s => view part (phase s)) tick w) :
    Ticketed maxDepth.toNat (putStep maxDepth r m a).1 part
      (Function.update phase t (putPhase part m (putStep maxDepth r m a).2))
      (Function.update tick t (putTick r (tick t) a)) := by
  cases a with
  | fetchPos =>
    have haway : view part (phase t) = .away := by rw [hphase]; rfl
    have hpos : (r.putPos % maxDepth).toNat = r.puts.length % maxDepth.toNat := by
      rw [BitVec.toNat_umod, h.putPos]
    refine ⟨?_, ?_, h.takePos⟩
    · rw [view_update]
      simpa [putStep, putPhase, view, putTick, hpos] using
        put_ticket (m := m) h.sound haway (hlap rfl)
    · simpa [putStep] using position_next hd h.putPos
  | loadSlot pos =>
    have htick : Function.update tick t (putTick r (tick t) (.loadSlot pos)) = tick :=
      Function.update_eq_self t tick
    rw [htick]
    have hview : view part (phase t) = .putting m pos.toNat false := by simp [hphase, view]
    cases hslot : r.slots pos.toNat with
    | some cur =>
      have hnext : putPhase part m (putStep maxDepth r m (.loadSlot pos)).2 = phase t := by
        simp [putStep, putPhase, hslot, hphase]
      rw [hnext, Function.update_eq_self]
      exact h
    | none =>
      refine ⟨?_, h.putPos, h.takePos⟩
      rw [view_update]
      simpa [putStep, putPhase, view, hslot] using put_ready h.sound hview hslot
  | storeSlot pos =>
    have htick : Function.update tick t (putTick r (tick t) (.storeSlot pos)) = tick :=
      Function.update_eq_self t tick
    rw [htick]
    have hview : view part (phase t) = .putting m pos.toNat true := by simp [hphase, view]
    refine ⟨?_, h.putPos, h.takePos⟩
    rw [view_update]
    exact put_store h.sound hview
  | addCount =>
    have haway := ticketed_away h (p := .put part m .loadBlocked) (by rw [hphase]; rfl) rfl (tick t)
    exact ⟨haway.sound, haway.putPos, haway.takePos⟩
  | subBlocked =>
    have haway := ticketed_away h (p := .put part m .post) (by rw [hphase]; rfl) rfl (tick t)
    exact ⟨haway.sound, haway.putPos, haway.takePos⟩
  | post =>
    have haway := ticketed_away h (p := .idle) (by rw [hphase]; rfl) rfl (tick t)
    exact ⟨haway.sound, haway.putPos, haway.takePos⟩
  | loadBlocked =>
    have haway := ticketed_away h (by rw [hphase]; rfl)
      (p := putPhase part m (putStep maxDepth r m .loadBlocked).2)
      (by simp only [putStep]; split_ifs <;> rfl) (tick t)
    exact ⟨haway.sound, haway.putPos, haway.takePos⟩

theorem ticketed_take (hd : maxDepth.toNat ∣ 2 ^ 32)
    (h : Ticketed maxDepth.toNat r part phase tick) {mode : Mode} {a : TakeAt B}
    (hphase : phase t = .take part mode a)
    (hlap : a = .fetchPos → r.takers.length < r.puts.length ∧
      ∀ w < r.takers.length, w % maxDepth.toNat = r.takers.length % maxDepth.toNat →
        Cleared r.takers (fun s => view part (phase s)) tick w) :
    Ticketed maxDepth.toNat (takeStep maxDepth t r mode a).1 part
      (Function.update phase t ((takeStep maxDepth t r mode a).2.phase part))
      (Function.update tick t (takeTick r (tick t) a)) := by
  cases a with
  | fetchPos =>
    have haway : view part (phase t) = .away := by rw [hphase]; rfl
    have hpos : (r.takePos % maxDepth).toNat = r.takers.length % maxDepth.toNat := by
      rw [BitVec.toNat_umod, h.takePos]
    obtain ⟨hbehind, hcleared⟩ := hlap rfl
    refine ⟨?_, h.putPos, ?_⟩
    · rw [view_update]
      simpa [takeStep, Outcome.phase, view, takeTick, hpos] using
        take_ticket h.sound haway hcleared hbehind
    · simpa [takeStep] using position_next hd h.takePos
  | loadSlot pos =>
    have htick : Function.update tick t (takeTick r (tick t) (.loadSlot pos)) = tick :=
      Function.update_eq_self t tick
    rw [htick]
    have hview : view part (phase t) = .taking pos.toNat none := by simp [hphase, view]
    cases hslot : r.slots pos.toNat with
    | none =>
      have hnext : (takeStep maxDepth t r mode (.loadSlot pos)).2.phase part = phase t := by
        simp [takeStep, Outcome.phase, hslot, hphase]
      rw [hnext, Function.update_eq_self]
      simpa [takeStep, hslot] using h
    | some rv =>
      have hstep : takeStep maxDepth t r mode (.loadSlot pos) =
          (r, .goes mode (.storeSlot pos rv)) := by simp [takeStep, hslot]
      rw [hstep]
      refine ⟨?_, h.putPos, h.takePos⟩
      rw [view_update]
      simpa [Outcome.phase, view] using take_seen h.sound hview hslot
  | storeSlot pos rv =>
    have htick : Function.update tick t (takeTick r (tick t) (.storeSlot pos rv)) = tick :=
      Function.update_eq_self t tick
    rw [htick]
    have hview : view part (phase t) = .taking pos.toNat (some rv) := by simp [hphase, view]
    have hnext : view part ((takeStep maxDepth t r mode (.storeSlot pos rv)).2.phase part) =
        .away := by cases mode <;> rfl
    refine ⟨?_, h.putPos, h.takePos⟩
    rw [view_update, hnext]
    exact take_clear h.sound hview
  | subCount =>
    have haway := ticketed_away h (p := (takeStep maxDepth t r mode .subCount).2.phase part)
      (by rw [hphase]; rfl) (by simp only [takeStep]; split_ifs <;> rfl) (tick t)
    exact ⟨haway.sound, haway.putPos, haway.takePos⟩
  | addCount =>
    have haway := ticketed_away h (p := (takeStep maxDepth t r mode .addCount).2.phase part)
      (by rw [hphase]; rfl) (by cases mode <;> rfl) (tick t)
    exact ⟨haway.sound, haway.putPos, haway.takePos⟩
  | addBlocked =>
    have haway := ticketed_away h (p := .take part .second .subCount) (by rw [hphase]; rfl) rfl
      (tick t)
    exact ⟨haway.sound, haway.putPos, haway.takePos⟩
  | subBlocked rv =>
    have haway := ticketed_away h (p := .idle) (by rw [hphase]; rfl) rfl (tick t)
    exact ⟨haway.sound, haway.putPos, haway.takePos⟩
  | wait =>
    have haway := ticketed_away h (p := (takeStep maxDepth t r mode .wait).2.phase part)
      (by rw [hphase]; rfl) (by simp only [takeStep]; split_ifs <;> rfl) (tick t)
    rw [takeStep] at haway ⊢
    split_ifs at haway ⊢ <;> exact ⟨haway.sound, haway.putPos, haway.takePos⟩

end Usage

section Counts

variable {T B : Type*}

/-- A put that has a ticket and has not counted its message. -/
def putClaims : PutAt → ℤ
  | .fetchPos | .loadBlocked | .subBlocked | .post => 0
  | .loadSlot _ | .storeSlot _ | .addCount => 1

/-- A take that has the count of a message and no ticket. -/
def takeClaims : TakeAt B → ℤ
  | .fetchPos => 1
  | _ => 0

/-- A take that has to give a count back. -/
def takeOwes : TakeAt B → ℤ
  | .addCount => 1
  | _ => 0

def claims (part : Part) : Phase B → ℤ
  | .idle => 0
  | .put p _ a => if p = part then putClaims a else 0
  | .take p _ a => if p = part then takeClaims a else 0

def owes (part : Part) : Phase B → ℤ
  | .take p _ a => if p = part then takeOwes a else 0
  | _ => 0

/-- The count of a ring and its tickets. -/
structure Counted [Fintype T] (r : Ring T B) (part : Part) (phase : T → Phase B) : Prop where
  count : r.count + total (claims part) phase + total (owes part) phase =
    r.puts.length - r.takers.length
  room : r.takers.length + total (claims part) phase ≤ r.puts.length

theorem claims_nonneg (part : Part) (p : Phase B) : 0 ≤ claims part p := by
  cases p with
  | idle => exact le_rfl
  | put p m a =>
    rw [claims]
    split_ifs
    · cases a <;> simp [putClaims]
    · exact le_rfl
  | take p mode a =>
    rw [claims]
    split_ifs
    · cases a <;> simp [takeClaims]
    · exact le_rfl

theorem owes_nonneg (part : Part) (p : Phase B) : 0 ≤ owes part p := by
  cases p with
  | idle | put => exact le_rfl
  | take p mode a =>
    rw [owes]
    split_ifs
    · cases a <;> simp [takeOwes]
    · exact le_rfl

/-- What an access of a put does to the count, and to the claims of its thread. -/
theorem put_balance (maxDepth : BitVec 32) (r : Ring T B) (part : Part) (m : B) (a : PutAt) :
    (putStep maxDepth r m a).1.takers = r.takers ∧
      owes part (putPhase part m (putStep maxDepth r m a).2) = 0 ∧
      (putStep maxDepth r m a).1.count + claims part (putPhase part m (putStep maxDepth r m a).2)
        + r.puts.length = r.count + putClaims a + (putStep maxDepth r m a).1.puts.length ∧
      claims part (putPhase part m (putStep maxDepth r m a).2) + r.puts.length ≤
        putClaims a + (putStep maxDepth r m a).1.puts.length := by
  cases a with
  | fetchPos =>
    simp [putStep, putPhase, claims, owes, putClaims]
    omega
  | loadSlot pos =>
    simp only [putStep, putPhase]
    split_ifs <;> simp [claims, owes, putClaims]
  | loadBlocked =>
    simp only [putStep]
    split_ifs <;> simp [putPhase, claims, owes, putClaims]
  | storeSlot pos | subBlocked | post => simp [putStep, putPhase, claims, owes, putClaims]
  | addCount =>
    simp [putStep, putPhase, claims, owes, putClaims]

/-- A take claims a message only while the count is positive. -/
theorem take_balance (maxDepth : BitVec 32) (t : T) (r : Ring T B) (part : Part) (mode : Mode)
    (a : TakeAt B) :
    (takeStep maxDepth t r mode a).1.puts = r.puts ∧
      (takeStep maxDepth t r mode a).1.count
        + claims part ((takeStep maxDepth t r mode a).2.phase part)
        + owes part ((takeStep maxDepth t r mode a).2.phase part)
        + (takeStep maxDepth t r mode a).1.takers.length =
          r.count + takeClaims a + takeOwes a + r.takers.length ∧
      ((takeStep maxDepth t r mode a).1.takers.length
          + claims part ((takeStep maxDepth t r mode a).2.phase part) ≤
          r.takers.length + takeClaims a ∨
        (takeStep maxDepth t r mode a).1.takers.length
          + claims part ((takeStep maxDepth t r mode a).2.phase part) ≤
          r.takers.length + takeClaims a + 1 ∧ 0 < r.count) := by
  cases a with
  | subCount =>
    simp only [takeStep]
    split_ifs with hpos <;> simp [Outcome.phase, claims, owes, takeClaims, takeOwes, hpos]
  | fetchPos =>
    simp [takeStep, Outcome.phase, claims, owes, takeClaims, takeOwes]
    omega
  | loadSlot pos =>
    simp only [takeStep]
    split <;> simp [Outcome.phase, claims, owes, takeClaims, takeOwes]
  | storeSlot pos rv =>
    cases mode <;> simp [takeStep, gotten, Outcome.phase, claims, owes, takeClaims, takeOwes]
  | addCount =>
    cases mode <;> simp [takeStep, failed, Outcome.phase, claims, owes, takeClaims, takeOwes]
  | addBlocked => simp [takeStep, Outcome.phase, claims, owes, takeClaims, takeOwes]
  | subBlocked rv => simp [takeStep, Outcome.phase, claims, owes, takeClaims, takeOwes]
  | wait =>
    simp only [takeStep]
    split_ifs <;> simp [Outcome.phase, claims, owes, takeClaims, takeOwes]

variable [Fintype T] [DecidableEq T] {r : Ring T B} {part : Part} {phase : T → Phase B} {t : T}
  {maxDepth : BitVec 32} {m : B}

theorem counted_put (h : Counted r part phase) {a : PutAt} (hphase : phase t = .put part m a) :
    Counted (putStep maxDepth r m a).1 part
      (Function.update phase t (putPhase part m (putStep maxDepth r m a).2)) := by
  obtain ⟨htakers, howes, hcount, hroom⟩ := put_balance maxDepth r part m a
  have hclaims : claims part (phase t) = putClaims a := by rw [hphase, claims, if_pos rfl]
  have howed : owes part (phase t) = 0 := by rw [hphase]; rfl
  have hold := h.count
  have hfits := h.room
  refine ⟨?_, ?_⟩
  · rw [total_update, total_update, hclaims, howed, howes, htakers]
    omega
  · rw [total_update, hclaims, htakers]
    omega

theorem counted_take (h : Counted r part phase) {mode : Mode} {a : TakeAt B}
    (hphase : phase t = .take part mode a) :
    Counted (takeStep maxDepth t r mode a).1 part
      (Function.update phase t ((takeStep maxDepth t r mode a).2.phase part)) := by
  obtain ⟨hputs, hcount, hroom⟩ := take_balance maxDepth t r part mode a
  have hclaims : claims part (phase t) = takeClaims a := by rw [hphase, claims, if_pos rfl]
  have howed : owes part (phase t) = takeOwes a := by rw [hphase, owes, if_pos rfl]
  have hold := h.count
  have hfits := h.room
  have howes : 0 ≤ total (owes part) phase := total_nonneg (owes_nonneg part)
  refine ⟨?_, ?_⟩
  · rw [total_update, total_update, hclaims, howed, hputs]
    omega
  · rw [total_update, hclaims, hputs]
    omega

/-- An access at the other ring. -/
theorem counted_other (h : Counted r part phase) {p : Phase B}
    (hclaims : claims part p = claims part (phase t)) (howes : owes part p = owes part (phase t)) :
    Counted r part (Function.update phase t p) := by
  have hold := h.count
  have hfits := h.room
  refine ⟨?_, ?_⟩
  · rw [total_update, total_update, hclaims, howes]
    omega
  · rw [total_update, hclaims]
    omega

end Counts

section Latest

variable {T B : Type*} {u : Usage T} {r : Ring T B} {part : Part} {phase : T → Phase B}
  {tick : T → ℕ} {t : T} {maxDepth : BitVec 32} {m : B}

/-- A thread that is alone with its puts, or its takes, has the last ticket. -/
structure Latest (u : Usage T) (r : Ring T B) (part : Part) (phase : T → Phase B) (tick : T → ℕ) :
    Prop where
  put : (∃ x, ∀ t, u.mayPut part t → t = x) → ∀ t m k ready,
    view part (phase t) = .putting m k ready → tick t + 1 = r.puts.length
  take : (∃ y, ∀ t, u.mayTake part t → t = y) → ∀ t k seen,
    view part (phase t) = .taking k seen → tick t + 1 = r.takers.length

theorem putting_may {p : Phase B} {k : ℕ} {ready : Bool} (hp : u.Allows t p)
    (hview : view part p = .putting m k ready) : u.mayPut part t := by
  cases p with
  | idle => exact nomatch hview
  | put q m' a =>
    by_cases hq : q = part
    · exact hq ▸ hp
    · cases a <;> simp [view, hq] at hview
  | take q mode a => cases a <;> simp [view] at hview <;> split_ifs at hview

theorem taking_may {p : Phase B} {k : ℕ} {seen : Option B} (hp : u.Allows t p)
    (hview : view part p = .taking k seen) : u.mayTake part t := by
  cases p with
  | idle => exact nomatch hview
  | take q mode a =>
    by_cases hq : q = part
    · exact hq ▸ hp
    · cases a <;> simp [view, hq] at hview
  | put q m' a => cases a <;> simp [view] at hview <;> split_ifs at hview

variable [DecidableEq T]

theorem latest_put (hallow : ∀ t, u.Allows t (phase t)) (h : Latest u r part phase tick)
    {a : PutAt} (hphase : phase t = .put part m a) :
    Latest u (putStep maxDepth r m a).1 part
      (Function.update phase t (putPhase part m (putStep maxDepth r m a).2))
      (Function.update tick t (putTick r (tick t) a)) := by
  refine ⟨fun ⟨x, hx⟩ s m' k' ready hs => ?_, fun hone s k' seen hs => ?_⟩
  · have hmay : u.mayPut part t := by
      have := hallow t
      rwa [hphase] at this
    by_cases hst : s = t
    · subst hst
      rw [Function.update_self] at hs ⊢
      cases a with
      | fetchPos => simp [putStep, putTick]
      | loadSlot pos =>
        exact h.put ⟨x, hx⟩ s m pos.toNat false (by simp [hphase, view])
      | storeSlot pos | addCount | subBlocked | post => exact nomatch hs
      | loadBlocked =>
        simp only [putStep] at hs
        split_ifs at hs <;> exact nomatch hs
    · rw [Function.update_of_ne hst] at hs
      exact absurd ((hx s (putting_may (hallow s) hs)).trans (hx t hmay).symm) hst
  · have htakers : (putStep maxDepth r m a).1.takers = r.takers :=
      (put_balance maxDepth r part m a).1
    rw [htakers]
    by_cases hst : s = t
    · subst hst
      rw [Function.update_self] at hs
      cases a with
      | loadSlot pos =>
        simp only [putStep, putPhase] at hs
        split_ifs at hs <;> simp [view] at hs
      | loadBlocked =>
        simp only [putStep] at hs
        split_ifs at hs <;> exact nomatch hs
      | fetchPos => simp [putStep, putPhase, view] at hs
      | storeSlot pos | addCount | subBlocked | post => exact nomatch hs
    · rw [Function.update_of_ne hst] at hs ⊢
      exact h.take hone s k' seen hs

theorem latest_take (hallow : ∀ t, u.Allows t (phase t)) (h : Latest u r part phase tick)
    {mode : Mode} {a : TakeAt B} (hphase : phase t = .take part mode a) :
    Latest u (takeStep maxDepth t r mode a).1 part
      (Function.update phase t ((takeStep maxDepth t r mode a).2.phase part))
      (Function.update tick t (takeTick r (tick t) a)) := by
  refine ⟨fun hone s m' k' ready hs => ?_, fun ⟨y, hy⟩ s k' seen hs => ?_⟩
  · have hputs : (takeStep maxDepth t r mode a).1.puts = r.puts :=
      (take_balance maxDepth t r part mode a).1
    rw [hputs]
    by_cases hst : s = t
    · subst hst
      rw [Function.update_self] at hs
      cases a with
      | subCount | wait =>
        simp only [takeStep] at hs
        split_ifs at hs <;> exact nomatch hs
      | loadSlot pos =>
        simp only [takeStep] at hs
        split at hs <;> simp [Outcome.phase, view] at hs
      | fetchPos => simp [takeStep, Outcome.phase, view] at hs
      | storeSlot | addCount => cases mode <;> exact nomatch hs
      | addBlocked | subBlocked => exact nomatch hs
    · rw [Function.update_of_ne hst] at hs ⊢
      exact h.put hone s m' k' ready hs
  · have hmay : u.mayTake part t := by
      have := hallow t
      rwa [hphase] at this
    by_cases hst : s = t
    · subst hst
      rw [Function.update_self] at hs ⊢
      cases a with
      | fetchPos => simp [takeStep, takeTick]
      | loadSlot pos =>
        have hsame : (takeStep maxDepth s r mode (.loadSlot pos)).1.takers = r.takers := by
          simp only [takeStep]
          split <;> rfl
        rw [hsame]
        exact h.take ⟨y, hy⟩ s pos.toNat none (by simp [hphase, view])
      | subCount | wait =>
        simp only [takeStep] at hs
        split_ifs at hs <;> exact nomatch hs
      | storeSlot | addCount => cases mode <;> exact nomatch hs
      | addBlocked | subBlocked => exact nomatch hs
    · rw [Function.update_of_ne hst] at hs
      exact absurd ((hy s (taking_may (hallow s) hs)).trans (hy t hmay).symm) hst

/-- An access of a thread that is not at this ring. -/
theorem latest_other (h : Latest u r part phase tick) (haway : view part (phase t) = .away)
    {p : Phase B} (hp : view part p = .away) (n : ℕ) :
    Latest u r part (Function.update phase t p) (Function.update tick t n) := by
  refine ⟨fun hone s m k ready hs => ?_, fun hone s k seen hs => ?_⟩
  · have hst : s ≠ t := by
      rintro rfl
      rw [Function.update_self, hp] at hs
      exact nomatch hs
    rw [Function.update_of_ne hst] at hs ⊢
    exact h.put hone s m k ready hs
  · have hst : s ≠ t := by
      rintro rfl
      rw [Function.update_self, hp] at hs
      exact nomatch hs
    rw [Function.update_of_ne hst] at hs ⊢
    exact h.take hone s k seen hs

end Latest

section Places

variable {T B : Type*}

/-- Where a message can be. -/
inductive Place (T : Type*) where
  | slot (part : Part) (k : ℕ)
  | hand (t : T)

/-- The message a call has in its hands. -/
def inHand : Phase B → List B
  | .put _ m .fetchPos | .put _ m (.loadSlot _) | .put _ m (.storeSlot _) => [m]
  | .take _ _ (.subBlocked rv) => [rv]
  | _ => []

def hands (s : System T B) (t : T) : List B := s.held t++inHand (s.phase t)

def IsAt (s : System T B) (m : B) : Place T → Prop
  | .slot part k => (s.ring part).slots k = some m
  | .hand t => m ∈ hands s t

/-- Every message is at one place, and nothing else is anywhere. -/
structure Placed (messages : List B) (s : System T B) : Prop where
  unique : ∀ m p q, IsAt s m p → IsAt s m q → p = q
  once : ∀ t, (hands s t).Nodup
  known : ∀ m p, IsAt s m p → m ∈ messages
  kept : ∀ m ∈ messages, ∃ p, IsAt s m p

/-- Nothing moves. -/
theorem placed_same {messages : List B} {s s' : System T B} (h : Placed messages s)
    (hslots : ∀ part, (s'.ring part).slots = (s.ring part).slots)
    (hhands : ∀ t, (hands s' t).Perm (hands s t)) : Placed messages s' := by
  have hat : ∀ m p, IsAt s' m p ↔ IsAt s m p := by
    intro m p
    cases p with
    | slot part k => rw [IsAt, IsAt, hslots]
    | hand t => exact (hhands t).mem_iff
  refine ⟨fun m p q hp hq => h.unique m p q ((hat m p).mp hp) ((hat m q).mp hq),
    fun t => (hhands t).nodup_iff.mpr (h.once t), fun m p hp => h.known m p ((hat m p).mp hp),
    fun m hm => ?_⟩
  obtain ⟨p, hp⟩ := h.kept m hm
  exact ⟨p, (hat m p).mpr hp⟩

/-- One message moves from a place to another one. -/
theorem placed_moved {messages : List B} {s s' : System T B} (h : Placed messages s) {m : B}
    {p q : Place T} (hfrom : IsAt s m p) (hto : ∀ r, IsAt s' m r ↔ r = q)
    (hothers : ∀ m' ≠ m, ∀ r, IsAt s' m' r ↔ IsAt s m' r)
    (honce : ∀ t, (hands s' t).Nodup) : Placed messages s' := by
  refine ⟨fun m' r r' hr hr' => ?_, honce, fun m' r hr => ?_, fun m' hm' => ?_⟩
  · by_cases hm : m' = m
    · subst hm
      rw [(hto r).mp hr, (hto r').mp hr']
    · exact h.unique m' r r' ((hothers m' hm r).mp hr) ((hothers m' hm r').mp hr')
  · by_cases hm : m' = m
    · exact hm ▸ h.known m p hfrom
    · exact h.known m' r ((hothers m' hm r).mp hr)
  · by_cases hm : m' = m
    · exact ⟨q, hm ▸ (hto q).mpr rfl⟩
    · obtain ⟨r, hr⟩ := h.kept m' hm'
      exact ⟨r, (hothers m' hm r).mpr hr⟩

variable [DecidableEq T] {messages : List B} {s : System T B} {t : T} {part : Part}
  {m : B}

theorem go_put {a : PutAt} (hphase : s.phase t = .put part m a) :
    s.go t = { s with ring := Function.update s.ring part (putStep s.maxDepth (s.ring part) m a).1,
                      phase := Function.update s.phase t
                        (putPhase part m (putStep s.maxDepth (s.ring part) m a).2) } := by
  simp only [System.go, hphase]

theorem go_take {mode : Mode} {a : TakeAt B} (hphase : s.phase t = .take part mode a) :
    s.go t = { s with ring := Function.update s.ring part
                        (takeStep s.maxDepth t (s.ring part) mode a).1,
                      phase := Function.update s.phase t
                        ((takeStep s.maxDepth t (s.ring part) mode a).2.phase part),
                      held := Function.update s.held t (s.held t++
                        (takeStep s.maxDepth t (s.ring part) mode a).2.messages),
                      received := Function.update s.received part
                        (Function.update (s.received part) t (s.received part t++
                          (takeStep s.maxDepth t (s.ring part) mode a).2.messages)) } := by
  simp only [System.go, hphase]

/-- A thread stores the message it has in its hands. -/
theorem placed_store (h : Placed messages s) {pos : BitVec 32}
    (hphase : s.phase t = .put part m (.storeSlot pos))
    (hslot : (s.ring part).slots pos.toNat = none) : Placed messages (s.go t) := by
  have hhand : IsAt s m (.hand t) := by simp [IsAt, hands, hphase, inHand]
  have hnodup := h.once t
  rw [hands, hphase, inHand] at hnodup
  have hheld : m ∉ s.held t := fun hm =>
    (List.nodup_append.mp hnodup).2.2 m hm m (List.mem_singleton_self m) rfl
  have hhands (r : T) : hands (s.go t) r = if r = t then s.held t else hands s r := by
    rw [go_put hphase]
    split_ifs with hr
    · subst hr
      simp [hands, putStep, putPhase, inHand]
    · simp [hands, Function.update_of_ne hr]
  have hslots (q : Part) (k : ℕ) : ((s.go t).ring q).slots k =
      if q = part ∧ k = pos.toNat then some m else (s.ring q).slots k := by
    rw [go_put hphase]
    by_cases hq : q = part
    · subst hq
      simp [putStep, Function.update_apply]
    · simp [hq]
  refine placed_moved (q := .slot part pos.toNat) h hhand (fun r => ?_) (fun m' hm' r => ?_)
    (fun r => ?_)
  · cases r with
    | slot q k =>
      rw [IsAt, hslots, Place.slot.injEq]
      split_ifs with hqk
      · exact iff_of_true rfl hqk
      · refine iff_of_false (fun hold => ?_) hqk
        exact nomatch h.unique m (.slot q k) (.hand t) hold hhand
    | hand r =>
      rw [IsAt, hhands]
      split_ifs with hr
      · exact iff_of_false hheld (by nofun)
      · refine iff_of_false (fun hold => ?_) (by nofun)
        exact hr (Place.hand.inj (h.unique m (.hand r) (.hand t) hold hhand))
  · cases r with
    | slot q k =>
      rw [IsAt, IsAt, hslots]
      split_ifs with hqk
      · rw [hqk.1, hqk.2, hslot]
        exact iff_of_false (fun heq => hm' (Option.some.inj heq).symm) (by nofun)
      · exact Iff.rfl
    | hand r =>
      rw [IsAt, IsAt, hhands]
      split_ifs with hr
      · rw [hr, hands, hphase, inHand, List.mem_append, List.mem_singleton, or_iff_left hm']
      · exact Iff.rfl
  · rw [hhands]
    split_ifs with hr
    · exact (List.nodup_append.mp hnodup).1
    · exact h.once r

/-- A thread empties the slot, and has the message in its hands. -/
theorem placed_clear (h : Placed messages s) {mode : Mode} {pos : BitVec 32} {rv : B}
    (hphase : s.phase t = .take part mode (.storeSlot pos rv))
    (hslot : (s.ring part).slots pos.toNat = some rv) : Placed messages (s.go t) := by
  have hat : IsAt s rv (.slot part pos.toNat) := hslot
  have hnothand (r : T) : rv ∉ hands s r := fun hr =>
    nomatch h.unique rv (.hand r) (.slot part pos.toNat) hr hat
  have hhands (r : T) : (hands (s.go t) r).Perm (if r = t then rv::hands s t else hands s r) := by
    rw [go_take hphase]
    split_ifs with hr
    · subst hr
      have hold : hands s r = s.held r := by simp [hands, hphase, inHand]
      rw [hold]
      cases mode <;> simp [hands, takeStep, gotten, Outcome.phase, Outcome.messages, inHand]
    · simp [hands, Function.update_of_ne hr]
  have hslots (q : Part) (k : ℕ) : ((s.go t).ring q).slots k =
      if q = part ∧ k = pos.toNat then none else (s.ring q).slots k := by
    rw [go_take hphase]
    by_cases hq : q = part
    · subst hq
      simp [takeStep, Function.update_apply]
    · simp [hq]
  refine placed_moved (q := .hand t) h hat (fun r => ?_) (fun m' hm' r => ?_) (fun r => ?_)
  · cases r with
    | slot q k =>
      rw [IsAt, hslots]
      split_ifs with hqk
      · exact iff_of_false (by nofun) (by nofun)
      · refine iff_of_false (fun hold => ?_) (by nofun)
        exact hqk ((Place.slot.injEq ..).mp
          (h.unique rv (.slot q k) (.slot part pos.toNat) hold hat))
    | hand r =>
      rw [IsAt, (hhands r).mem_iff]
      split_ifs with hr
      · exact iff_of_true List.mem_cons_self (by rw [hr])
      · exact iff_of_false (hnothand r) fun heq => hr (Place.hand.inj heq)
  · cases r with
    | slot q k =>
      rw [IsAt, IsAt, hslots]
      split_ifs with hqk
      · rw [hqk.1, hqk.2, hslot]
        exact iff_of_false (by nofun) fun heq => hm' (Option.some.inj heq).symm
      · exact Iff.rfl
    | hand r =>
      rw [IsAt, IsAt, (hhands r).mem_iff]
      split_ifs with hr
      · rw [hr, List.mem_cons, or_iff_right hm']
      · exact Iff.rfl
  · rw [(hhands r).nodup_iff]
    split_ifs with hr
    · exact List.nodup_cons.mpr ⟨hnothand t, h.once t⟩
    · exact h.once r

theorem placed_put (h : Placed messages s) {a : PutAt} (hphase : s.phase t = .put part m a)
    (hready : ∀ pos, a = .storeSlot pos → (s.ring part).slots pos.toNat = none) :
    Placed messages (s.go t) := by
  by_cases hstore : ∃ pos, a = .storeSlot pos
  · obtain ⟨pos, rfl⟩ := hstore
    exact placed_store h hphase (hready pos rfl)
  · have hold : inHand (putPhase part m (putStep s.maxDepth (s.ring part) m a).2) =
        inHand (s.phase t) := by
      rw [hphase]
      cases a with
      | storeSlot pos => exact absurd ⟨pos, rfl⟩ hstore
      | loadSlot pos =>
        simp only [putStep, putPhase]
        split_ifs <;> rfl
      | loadBlocked =>
        simp only [putStep]
        split_ifs <;> rfl
      | fetchPos | addCount | subBlocked | post => rfl
    have hslots : (putStep s.maxDepth (s.ring part) m a).1.slots = (s.ring part).slots := by
      cases a with
      | storeSlot pos => exact absurd ⟨pos, rfl⟩ hstore
      | fetchPos | loadSlot | addCount | loadBlocked | subBlocked | post => rfl
    rw [go_put hphase]
    refine placed_same h (fun q => ?_) (fun r => ?_)
    · by_cases hq : q = part
      · subst hq
        simpa using hslots
      · simp [hq]
    · by_cases hr : r = t
      · subst hr
        simp [hands, hold]
      · simp [hands, hr]

theorem placed_take (h : Placed messages s) {mode : Mode} {a : TakeAt B}
    (hphase : s.phase t = .take part mode a)
    (hseen : ∀ pos rv, a = .storeSlot pos rv → (s.ring part).slots pos.toNat = some rv) :
    Placed messages (s.go t) := by
  by_cases hstore : ∃ pos rv, a = .storeSlot pos rv
  · obtain ⟨pos, rv, rfl⟩ := hstore
    exact placed_clear h hphase (hseen pos rv rfl)
  · have hold : (takeStep s.maxDepth t (s.ring part) mode a).2.messages ++
        inHand ((takeStep s.maxDepth t (s.ring part) mode a).2.phase part) =
        inHand (s.phase t) := by
      rw [hphase]
      cases a with
      | storeSlot pos rv => exact absurd ⟨pos, rv, rfl⟩ hstore
      | loadSlot pos =>
        simp only [takeStep]
        split <;> rfl
      | subCount | wait =>
        simp only [takeStep]
        split_ifs <;> rfl
      | addCount => cases mode <;> rfl
      | fetchPos | addBlocked | subBlocked => rfl
    have hslots : (takeStep s.maxDepth t (s.ring part) mode a).1.slots = (s.ring part).slots := by
      cases a with
      | storeSlot pos rv => exact absurd ⟨pos, rv, rfl⟩ hstore
      | loadSlot pos =>
        simp only [takeStep]
        split <;> rfl
      | wait =>
        simp only [takeStep]
        split_ifs <;> rfl
      | subCount | fetchPos | addCount | addBlocked | subBlocked => rfl
    rw [go_take hphase]
    refine placed_same h (fun q => ?_) (fun r => ?_)
    · by_cases hq : q = part
      · subst hq
        simpa using hslots
      · simp [hq]
    · by_cases hr : r = t
      · subst hr
        simp [hands, hold]
      · simp [hands, hr]

variable [DecidableEq B]

theorem placed_call (h : Placed messages s) (c : Call B) : Placed messages (act s (.call t c)) := by
  cases hphase : s.phase t with
  | put | take =>
    simp only [act, hphase]
    exact h
  | idle =>
    cases c with
    | put q m =>
      simp only [act, hphase]
      split_ifs with hheld
      · refine placed_same h (fun _ => rfl) (fun r => ?_)
        by_cases hr : r = t
        · subst hr
          simpa [hands, inHand, hphase] using
            (List.perm_append_singleton _ _).trans (List.perm_cons_erase hheld).symm
        · simp [hands, hr]
      · exact h
    | take q blocking =>
      simp only [act, hphase]
      refine placed_same h (fun _ => rfl) (fun r => ?_)
      by_cases hr : r = t
      · subst hr
        simp [hands, inHand, hphase]
      · simp [hands, hr]

end Places

section Laps

variable {T B : Type*} [Fintype T] {u : Usage T} {messages : List B} {s : System T B}
  {tick : T → ℕ} {t : T} {part : Part} {m : B}

/-- What holds of the system in all runs of these threads. -/
structure Inv (u : Usage T) (messages : List B) (s : System T B) (tick : T → ℕ) : Prop where
  oneSided : ∀ part, u.OneSided part
  depth : messages.length = s.maxDepth.toNat
  divides : s.maxDepth.toNat ∣ 2 ^ 32
  allows : ∀ t, u.Allows t (s.phase t)
  ticketed : ∀ part, Ticketed s.maxDepth.toNat (s.ring part) part s.phase tick
  counted : ∀ part, Counted (s.ring part) part s.phase
  latest : ∀ part, Latest u (s.ring part) part s.phase tick
  placed : Placed messages s

theorem depth_pos (h : Inv u messages s tick) : 0 < s.maxDepth.toNat := by
  have hne : s.maxDepth.toNat ≠ 0 := fun hzero => by
    have hdvd := h.divides
    rw [hzero, zero_dvd_iff] at hdvd
    exact absurd hdvd (by decide)
  omega

omit [Fintype T] in
theorem putting_hand {p : Phase B} {b : B} {k : ℕ} {ready : Bool}
    (hview : view part p = .putting b k ready) : inHand p = [b] := by
  cases p with
  | idle => exact nomatch hview
  | take q mode a => cases a <;> simp [view] at hview <;> split_ifs at hview
  | put q m a =>
    cases a with
    | loadSlot pos | storeSlot pos =>
      simp only [view] at hview
      split_ifs at hview
      cases hview
      rfl
    | fetchPos | addCount | loadBlocked | subBlocked | post => exact nomatch hview

omit [Fintype T] in
theorem putting_claims {p : Phase B} {b : B} {k : ℕ} {ready : Bool}
    (hview : view part p = .putting b k ready) : claims part p = 1 := by
  cases p with
  | idle => exact nomatch hview
  | take q mode a => cases a <;> simp [view] at hview <;> split_ifs at hview
  | put q m a =>
    cases a with
    | loadSlot pos | storeSlot pos =>
      simp only [view] at hview
      split_ifs at hview with hq
      simp [claims, hq, putClaims]
    | fetchPos | addCount | loadBlocked | subBlocked | post => exact nomatch hview

/-- Where the message of a ticket is, as long as its take has not ended. -/
theorem ticket_place (h : Inv u messages s tick) {w : ℕ} (hw : w < (s.ring part).puts.length)
    (hcleared : ¬ Cleared (s.ring part).takers (fun t => view part (s.phase t)) tick w) :
    ∃ b p, (s.ring part).puts[w]? = some b ∧ IsAt s b p ∧
      (p = .slot part (w % s.maxDepth.toNat) ∨
        ∃ t k ready, p = .hand t ∧ view part (s.phase t) = .putting b k ready ∧ tick t = w) := by
  have hsound := (h.ticketed part).sound
  have hget : (s.ring part).puts[w]? = some (s.ring part).puts[w] := List.getElem?_eq_getElem hw
  by_cases hstored : Stored (s.ring part).puts (fun t => view part (s.phase t)) tick w
  · have hfull := hsound.full w hstored hcleared
    exact ⟨_, .slot part (w % s.maxDepth.toNat), hget, hfull.trans hget, Or.inl rfl⟩
  · unfold Stored at hstored
    push Not at hstored
    obtain ⟨t, b, k, ready, hview, htick⟩ := hstored hw
    obtain ⟨hb, -, -⟩ := hsound.putting t b k ready hview
    rw [htick] at hb
    refine ⟨b, .hand t, hb, ?_, Or.inr ⟨t, k, ready, rfl, hview, htick⟩⟩
    rw [IsAt, hands, putting_hand hview]
    exact List.mem_append_right _ (List.mem_singleton_self b)

/-- Two tickets of one lap do not have the same message. -/
theorem tickets_apart (h : Inv u messages s tick) {w w' : ℕ} (hlt : w < w')
    (hlap : w' < w + s.maxDepth.toNat) (hw' : w' < (s.ring part).puts.length)
    (hcleared : ¬ Cleared (s.ring part).takers (fun t => view part (s.phase t)) tick w)
    (hcleared' : ¬ Cleared (s.ring part).takers (fun t => view part (s.phase t)) tick w') :
    (s.ring part).puts[w]? ≠ (s.ring part).puts[w']? := by
  intro hsame
  obtain ⟨b, p, hb, hp, hwhere⟩ := ticket_place h (hlt.trans hw') hcleared
  obtain ⟨b', p', hb', hp', hwhere'⟩ := ticket_place h hw' hcleared'
  rw [hb, hb', Option.some.injEq] at hsame
  subst hsame
  have hpp := h.placed.unique b p p' hp hp'
  rcases hwhere with rfl | ⟨t, k, ready, rfl, -, htick⟩ <;>
    rcases hwhere' with rfl | ⟨t', k', ready', rfl, -, htick'⟩
  · have hmod : w % s.maxDepth.toNat = w' % s.maxDepth.toNat := ((Place.slot.injEq ..).mp hpp).2
    have hdvd := (Nat.modEq_iff_dvd' hlt.le).mp hmod
    have hle := Nat.le_of_dvd (by omega) hdvd
    omega
  · exact nomatch hpp
  · exact nomatch hpp
  · have htt := Place.hand.inj hpp
    rw [← htick, ← htick', htt] at hlt
    exact lt_irrefl _ hlt

/-- A message that has not got its ticket yet is not the message of a ticket. -/
theorem fresh_message (h : Inv u messages s tick) (hphase : s.phase t = .put part m .fetchPos)
    {w : ℕ} (hw : w < (s.ring part).puts.length)
    (hcleared : ¬ Cleared (s.ring part).takers (fun t => view part (s.phase t)) tick w) :
    (s.ring part).puts[w]? ≠ some m := by
  intro hsame
  obtain ⟨b, p, hb, hp, hwhere⟩ := ticket_place h hw hcleared
  rw [hb, Option.some.injEq] at hsame
  subst hsame
  have hhand : IsAt s b (.hand t) := by simp [IsAt, hands, hphase, inHand]
  have hpt := h.placed.unique b p (.hand t) hp hhand
  rcases hwhere with rfl | ⟨t', k, ready, rfl, hview, -⟩
  · exact nomatch hpt
  · rw [Place.hand.inj hpt, hphase] at hview
    exact nomatch hview

/-- There are not enough messages for a put to lap another one, if one thread takes. -/
theorem last_lap_stored (h : Inv u messages s tick) (hphase : s.phase t = .put part m .fetchPos)
    (hone : ∃ y, ∀ t, u.mayTake part t → t = y)
    (hd : s.maxDepth.toNat ≤ (s.ring part).puts.length) :
    Stored (s.ring part).puts (fun t => view part (s.phase t)) tick
      ((s.ring part).puts.length - s.maxDepth.toNat) := by
  by_contra hstored
  have hsound := (h.ticketed part).sound
  have hpos := depth_pos h
  have hfirst : ¬ Cleared (s.ring part).takers (fun t => view part (s.phase t)) tick
      ((s.ring part).puts.length - s.maxDepth.toNat) := fun hc => hstored (hsound.taken _ hc)
  have hcleared : ∀ w, (s.ring part).puts.length - s.maxDepth.toNat ≤ w →
      ¬ Cleared (s.ring part).takers (fun t => view part (s.phase t)) tick w := by
    intro w hle hw
    have hlt : (s.ring part).puts.length - s.maxDepth.toNat < (s.ring part).takers.length :=
      hle.trans_lt hw.1
    unfold Cleared at hfirst
    push Not at hfirst
    obtain ⟨t', k, seen, hview, htick⟩ := hfirst hlt
    have hlast := (h.latest part).take hone t' k seen hview
    have hwlt := hw.1
    obtain rfl : w = (s.ring part).puts.length - s.maxDepth.toNat := by omega
    exact hstored (hsound.taken _ hw)
  let lap := (s.ring part).puts.drop ((s.ring part).puts.length - s.maxDepth.toNat)
  have hlength : lap.length = s.maxDepth.toNat := by
    rw [List.length_drop]
    omega
  have hnodup : (m::lap).Nodup := by
    refine List.nodup_cons.mpr ⟨fun hm => ?_, List.nodup_iff_getElem?_ne_getElem?.mpr ?_⟩
    · obtain ⟨i, hi, hget⟩ := List.mem_iff_getElem.mp hm
      refine fresh_message h hphase (w := (s.ring part).puts.length - s.maxDepth.toNat + i)
        (by omega) (hcleared _ (by omega)) ?_
      rw [← List.getElem?_drop, List.getElem?_eq_getElem hi, hget]
    · intro i j hij hj
      rw [List.getElem?_drop, List.getElem?_drop]
      exact tickets_apart h (by omega) (by omega) (by omega) (hcleared _ (by omega))
        (hcleared _ (by omega))
  have hknown : m::lap ⊆ messages := by
    intro b hb
    rcases List.mem_cons.mp hb with rfl | hb
    · exact h.placed.known b (.hand t) (by simp [IsAt, hands, hphase, inHand])
    · obtain ⟨i, hi, rfl⟩ := List.mem_iff_getElem.mp hb
      have hw : (s.ring part).puts.length - s.maxDepth.toNat + i < (s.ring part).puts.length := by
        omega
      obtain ⟨b, p, hget, hp, -⟩ := ticket_place h hw (hcleared _ (by omega))
      rw [← List.getElem?_drop, List.getElem?_eq_getElem hi, Option.some.injEq] at hget
      exact hget ▸ h.placed.known b p hp
  have hle := (List.subperm_of_subset hnodup hknown).length_le
  rw [List.length_cons, hlength, h.depth] at hle
  omega

/-- A put laps no other. -/
theorem put_laps (h : Inv u messages s tick) (hphase : s.phase t = .put part m .fetchPos) :
    ∀ w < (s.ring part).puts.length,
      w % s.maxDepth.toNat = (s.ring part).puts.length % s.maxDepth.toNat →
        Stored (s.ring part).puts (fun t => view part (s.phase t)) tick w := by
  intro w hw hmod
  rcases h.oneSided part with ⟨x, hx⟩ | hone
  · refine put_lap_idle (fun r b k ready hr => ?_) hw
    have hmay : u.mayPut part t := by
      have hallows := h.allows t
      rwa [hphase] at hallows
    have hrt : r = t := (hx r (putting_may (h.allows r) hr)).trans (hx t hmay).symm
    rw [hrt, hphase] at hr
    exact nomatch hr
  · exact put_lap_last (h.ticketed part).sound (last_lap_stored h hphase hone) (depth_pos h) hw hmod

variable [DecidableEq T]

/-- A take that has the count of a message finds a put of its own ticket, and laps no
other take. -/
theorem take_laps (h : Inv u messages s tick) {mode : Mode}
    (hphase : s.phase t = .take part mode .fetchPos) :
    (s.ring part).takers.length < (s.ring part).puts.length ∧
      ∀ w < (s.ring part).takers.length,
        w % s.maxDepth.toNat = (s.ring part).takers.length % s.maxDepth.toNat →
          Cleared (s.ring part).takers (fun t => view part (s.phase t)) tick w := by
  have hclaim : claims part (s.phase t) = 1 := by simp [hphase, claims, takeClaims]
  have hle : claims part (s.phase t) ≤ total (claims part) s.phase :=
    le_total (claims_nonneg part) t
  have hroom := (h.counted part).room
  have hbehind : (s.ring part).takers.length < (s.ring part).puts.length := by omega
  refine ⟨hbehind, fun w hw hmod => ?_⟩
  rcases h.oneSided part with hone | ⟨y, hy⟩
  · refine take_lap_stored (h.ticketed part).sound ⟨hbehind, fun r b k ready hr htick => ?_⟩ hw hmod
    have hclaim' := putting_claims hr
    have hrt : r ≠ t := by
      rintro rfl
      change view part (s.phase r) = _ at hr
      rw [hphase] at hr
      exact nomatch hr
    have hpair : claims part (s.phase r) + claims part (s.phase t) ≤
        total (claims part) s.phase := pair_le_total (claims_nonneg part) hrt
    have hlast := (h.latest part).put hone r b k ready hr
    omega
  · refine take_lap_idle (fun r k seen hr => ?_) hw
    have hmay : u.mayTake part t := by
      have hallows := h.allows t
      rwa [hphase] at hallows
    have hrt : r = t := (hy r (taking_may (h.allows r) hr)).trans (hy t hmay).symm
    rw [hrt, hphase] at hr
    exact nomatch hr

/-- The ticket of a thread after its next access. -/
def nextTick (s : System T B) (tick : T → ℕ) (t : T) : ℕ :=
  match s.phase t with
  | .idle => tick t
  | .put part _ a => putTick (s.ring part) (tick t) a
  | .take part _ a => takeTick (s.ring part) (tick t) a

omit [Fintype T] [DecidableEq T] in
/-- A call at one ring is not seen at the other. -/
theorem put_elsewhere {q : Part} (hq : q ≠ part) (m : B) (p : Option PutAt) :
    view q (putPhase part m p) = .away ∧ claims q (putPhase part m p) = 0 ∧
      owes q (putPhase part m p) = 0 := by
  cases p with
  | none => exact ⟨rfl, rfl, rfl⟩
  | some a =>
    refine ⟨?_, if_neg hq.symm, rfl⟩
    cases a <;> simp [putPhase, view, hq.symm]

omit [Fintype T] [DecidableEq T] in
theorem take_elsewhere {q : Part} (hq : q ≠ part) (o : Outcome B) :
    view q (o.phase part) = .away ∧ claims q (o.phase part) = 0 ∧ owes q (o.phase part) = 0 := by
  cases o with
  | returns rv => exact ⟨rfl, rfl, rfl⟩
  | goes mode a =>
    refine ⟨?_, if_neg hq.symm, if_neg hq.symm⟩
    cases a <;> simp [Outcome.phase, view, hq.symm]

theorem inv_put (h : Inv u messages s tick) {a : PutAt} (hphase : s.phase t = .put part m a) :
    Inv u messages (s.go t) (Function.update tick t (putTick (s.ring part) (tick t) a)) := by
  have hplaced := placed_put h.placed hphase fun pos ha => by
    have hview : view part (s.phase t) = .putting m pos.toNat true := by simp [hphase, ha, view]
    exact ((h.ticketed part).sound.putting t m pos.toNat true hview).2.2 rfl
  have hallows : u.mayPut part t := by
    have hallows := h.allows t
    rwa [hphase] at hallows
  rw [go_put hphase] at hplaced ⊢
  refine ⟨h.oneSided, h.depth, h.divides, fun r => ?_, fun q => ?_, fun q => ?_, fun q => ?_, hplaced⟩
  · by_cases hr : r = t
    · subst hr
      simp only [Function.update_self]
      cases (putStep s.maxDepth (s.ring part) m a).2 with
      | none => trivial
      | some a => exact hallows
    · simp only [Function.update_of_ne hr]
      exact h.allows r
  · by_cases hq : q = part
    · subst hq
      simp only [Function.update_self]
      exact ticketed_put h.divides (h.ticketed q) hphase fun ha => put_laps h (ha ▸ hphase)
    · simp only [Function.update_of_ne hq]
      exact ticketed_away (h.ticketed q) (by rw [hphase]; exact (put_elsewhere hq m (some a)).1)
        (put_elsewhere hq m _).1 _
  · by_cases hq : q = part
    · subst hq
      simp only [Function.update_self]
      exact counted_put (h.counted q) hphase
    · simp only [Function.update_of_ne hq]
      obtain ⟨-, hclaims, howes⟩ := put_elsewhere hq m (some a)
      obtain ⟨-, hclaims', howes'⟩ := put_elsewhere hq m
        (putStep s.maxDepth (s.ring part) m a).2
      exact counted_other (h.counted q) (by rw [hphase, hclaims']; exact hclaims.symm)
        (by rw [hphase, howes']; exact howes.symm)
  · by_cases hq : q = part
    · subst hq
      simp only [Function.update_self]
      exact latest_put h.allows (h.latest q) hphase
    · simp only [Function.update_of_ne hq]
      exact latest_other (h.latest q) (by rw [hphase]; exact (put_elsewhere hq m (some a)).1)
        (put_elsewhere hq m _).1 _

theorem inv_take (h : Inv u messages s tick) {mode : Mode} {a : TakeAt B}
    (hphase : s.phase t = .take part mode a) :
    Inv u messages (s.go t) (Function.update tick t (takeTick (s.ring part) (tick t) a)) := by
  have hplaced := placed_take h.placed hphase fun pos rv ha => by
    have hview : view part (s.phase t) = .taking pos.toNat (some rv) := by
      simp [hphase, ha, view]
    exact ((h.ticketed part).sound.taking t pos.toNat (some rv) hview).2.2 rv rfl
  have hallows : u.mayTake part t := by
    have hallows := h.allows t
    rwa [hphase] at hallows
  rw [go_take hphase] at hplaced ⊢
  refine ⟨h.oneSided, h.depth, h.divides, fun r => ?_, fun q => ?_, fun q => ?_, fun q => ?_, hplaced⟩
  · by_cases hr : r = t
    · subst hr
      simp only [Function.update_self]
      cases (takeStep s.maxDepth r (s.ring part) mode a).2 with
      | returns rv => trivial
      | goes mode a => exact hallows
    · simp only [Function.update_of_ne hr]
      exact h.allows r
  · by_cases hq : q = part
    · subst hq
      simp only [Function.update_self]
      exact ticketed_take h.divides (h.ticketed q) hphase fun ha => take_laps h (ha ▸ hphase)
    · simp only [Function.update_of_ne hq]
      exact ticketed_away (h.ticketed q)
        (by rw [hphase]; exact (take_elsewhere hq (.goes mode a)).1) (take_elsewhere hq _).1 _
  · by_cases hq : q = part
    · subst hq
      simp only [Function.update_self]
      exact counted_take (h.counted q) hphase
    · simp only [Function.update_of_ne hq]
      obtain ⟨-, hclaims, howes⟩ := take_elsewhere hq (Outcome.goes mode a)
      obtain ⟨-, hclaims', howes'⟩ := take_elsewhere hq
        (takeStep s.maxDepth t (s.ring part) mode a).2
      exact counted_other (h.counted q) (by rw [hphase, hclaims']; exact hclaims.symm)
        (by rw [hphase, howes']; exact howes.symm)
  · by_cases hq : q = part
    · subst hq
      simp only [Function.update_self]
      exact latest_take h.allows (h.latest q) hphase
    · simp only [Function.update_of_ne hq]
      exact latest_other (h.latest q)
        (by rw [hphase]; exact (take_elsewhere hq (.goes mode a)).1) (take_elsewhere hq _).1 _

theorem inv_go (h : Inv u messages s tick) (t : T) :
    Inv u messages (s.go t) (Function.update tick t (nextTick s tick t)) := by
  unfold nextTick
  cases hphase : s.phase t with
  | idle =>
    have hgo : s.go t = s := by simp only [System.go, hphase]
    rw [hgo, Function.update_eq_self]
    exact h
  | put part m a => exact inv_put h hphase
  | take part mode a => exact inv_take h hphase

theorem inv_enter (h : Inv u messages s tick) (hidle : s.phase t = .idle) {p : Phase B}
    (hp : ∀ q, view q p = .away ∧ claims q p = 0 ∧ owes q p = 0) (hallows : u.Allows t p)
    {held : T → List B}
    (hplaced : Placed messages { s with phase := Function.update s.phase t p, held := held }) :
    Inv u messages { s with phase := Function.update s.phase t p, held := held } tick := by
  refine ⟨h.oneSided, h.depth, h.divides, fun r => ?_, fun q => ?_, fun q => ?_, fun q => ?_, hplaced⟩
  · by_cases hr : r = t
    · subst hr
      simpa only [Function.update_self] using hallows
    · simpa only [Function.update_of_ne hr] using h.allows r
  · have haway := ticketed_away (h.ticketed q) (by rw [hidle]; rfl) (hp q).1 (tick t)
    rwa [Function.update_eq_self] at haway
  · exact counted_other (h.counted q) (by rw [hidle]; exact (hp q).2.1)
      (by rw [hidle]; exact (hp q).2.2)
  · have hother := latest_other (h.latest q) (by rw [hidle]; rfl) (hp q).1 (tick t)
    rwa [Function.update_eq_self] at hother

theorem inv_call [DecidableEq B] (h : Inv u messages s tick) {c : Call B}
    (hkeeps : u.Keeps (.call t c)) : Inv u messages (act s (.call t c)) tick := by
  have hplaced := placed_call (t := t) h.placed c
  cases hphase : s.phase t with
  | put | take =>
    simp only [act, hphase]
    exact h
  | idle =>
    cases c with
    | put q m =>
      simp only [act, hphase] at hplaced ⊢
      split_ifs at hplaced ⊢ with hheld
      · have hallows : u.Allows t (.put q m .fetchPos) := hkeeps
        exact inv_enter h hphase (fun p => ⟨rfl, by simp [claims, putClaims], rfl⟩) hallows hplaced
      · exact h
    | take q blocking =>
      simp only [act, hphase] at hplaced ⊢
      have hallows : u.Allows t
          (.take q (if blocking then .first else .once) .subCount : Phase B) := hkeeps
      exact inv_enter h hphase
        (fun p => ⟨rfl, by simp [claims, takeClaims], by simp [owes, takeOwes]⟩) hallows hplaced

end Laps

section Dealing

variable {T B : Type*}

theorem zip_past {takers : List T} {puts : List B} (h : takers.length ≤ puts.length)
    (more : List B) : takers.zip (puts++more) = takers.zip puts := by
  induction takers generalizing puts with
  | nil => rfl
  | cons t takers ih =>
    cases puts with
    | nil => exact absurd h (by simp)
    | cons m puts =>
      rw [List.cons_append, List.zip_cons_cons, List.zip_cons_cons, ih (Nat.le_of_succ_le_succ h)]

variable [DecidableEq T] {u : Usage T} {messages : List B} {s : System T B}
  {tick : T → ℕ} {t : T} {part : Part} {m : B}

/-- The messages that the tickets of the thread are for, in the order of the tickets. -/
def deal (takers : List T) (puts : List B) (t : T) : List B :=
  ((takers.zip puts).filter fun p => p.1 = t).map Prod.snd

theorem deal_put {takers : List T} {puts : List B} (h : takers.length ≤ puts.length) (m : B)
    (t : T) : deal takers (puts++[m]) t = deal takers puts t := by
  rw [deal, deal, zip_past h]

theorem deal_take {takers : List T} {puts : List B} (h : takers.length < puts.length) (t r : T) :
    deal (takers++[t]) puts r =
      deal takers puts r ++ if r = t then puts[takers.length]?.toList else [] := by
  have hzip : (takers++[t]).zip puts = takers.zip puts ++ [(t, puts[takers.length])] := by
    have hlength : (puts.take takers.length).length = takers.length := by simp; omega
    have hsplit := List.take_append_drop takers.length puts
    have hold : takers.zip puts = takers.zip (puts.take takers.length) := by
      conv_lhs => rw [← hsplit]
      exact zip_past hlength.ge _
    calc (takers++[t]).zip puts
        = (takers++[t]).zip (puts.take takers.length ++ puts.drop takers.length) := by rw [hsplit]
      _ = takers.zip (puts.take takers.length) ++ [t].zip (puts.drop takers.length) :=
        List.zip_append hlength.symm
      _ = takers.zip puts ++ [(t, puts[takers.length])] := by
        rw [← hold, List.drop_eq_getElem_cons h]
        rfl
  rw [deal, deal, hzip, List.filter_append, List.map_append, List.getElem?_eq_getElem h]
  by_cases hr : r = t
  · subst hr
    simp
  · simp [hr, Ne.symm hr]

/-- The message that the call of a thread is about to return. -/
def underWay (part : Part) (puts : List B) (ticket : ℕ) : Phase B → List B
  | .take p _ (.loadSlot _) => if p = part then puts[ticket]?.toList else []
  | .take p _ (.storeSlot _ rv) | .take p _ (.subBlocked rv) => if p = part then [rv] else []
  | _ => []

/-- The threads have the messages of their tickets. -/
def Dealt (s : System T B) (tick : T → ℕ) : Prop :=
  ∀ part t, deal (s.ring part).takers (s.ring part).puts t =
    s.received part t ++ underWay part (s.ring part).puts (tick t) (s.phase t)

theorem underWay_put (q : Part) (puts : List B) (n : ℕ) (part : Part) (m : B) (p : Option PutAt) :
    underWay q puts n (putPhase part m p) = [] := by
  cases p with
  | none => rfl
  | some a => rfl

theorem underWay_elsewhere {q : Part} (hq : q ≠ part) (puts : List B) (n : ℕ) (o : Outcome B) :
    underWay q puts n (o.phase part) = [] := by
  cases o with
  | returns rv => rfl
  | goes mode a => cases a <;> simp [Outcome.phase, underWay, hq.symm]

omit [DecidableEq T] in
/-- A new message is not the one of a ticket that a take has. -/
theorem underWay_more {d : ℕ} {slots : ℕ → Option B} {puts : List B} {takers : List T}
    {phase : T → Phase B} (hsound : Sound d slots puts takers (fun t => view part (phase t)) tick)
    (m : B) (t : T) :
    underWay part (puts++[m]) (tick t) (phase t) = underWay part puts (tick t) (phase t) := by
  cases hphase : phase t with
  | idle | put => rfl
  | take p mode a =>
    cases a with
    | loadSlot pos =>
      simp only [underWay]
      split_ifs with hp
      · have hview : view part (phase t) = .taking pos.toNat none := by simp [hphase, view, hp]
        obtain ⟨htaker, -, -⟩ := hsound.taking t pos.toNat none hview
        have hlt := (List.getElem?_eq_some_iff.mp htaker).1.trans_le hsound.behind
        rw [List.getElem?_append_left hlt]
      · rfl
    | _ => rfl

theorem dealt_put (h : Dealt s tick) {a : PutAt} (hphase : s.phase t = .put part m a)
    (hsound : Sound s.maxDepth.toNat (s.ring part).slots (s.ring part).puts (s.ring part).takers
      (fun t => view part (s.phase t)) tick) (n : ℕ) :
    Dealt (s.go t) (Function.update tick t n) := by
  intro q r
  have hold := h q r
  have hsame : underWay q ((s.go t).ring q).puts (Function.update tick t n r) ((s.go t).phase r) =
      underWay q ((s.go t).ring q).puts (tick r) (s.phase r) := by
    rw [go_put hphase]
    by_cases hr : r = t
    · subst hr
      simp only [Function.update_self]
      rw [underWay_put, hphase]
      rfl
    · simp only [Function.update_of_ne hr]
  rw [hsame, go_put hphase]
  by_cases hq : q = part
  · subst hq
    simp only [Function.update_self]
    rw [(put_balance s.maxDepth (s.ring q) q m a).1]
    have hputs : (putStep s.maxDepth (s.ring q) m a).1.puts = (s.ring q).puts ∨
        (putStep s.maxDepth (s.ring q) m a).1.puts = (s.ring q).puts++[m] := by
      cases a <;> simp [putStep]
    rcases hputs with hputs | hputs
    · rw [hputs]
      exact hold
    · rw [hputs, deal_put hsound.behind, underWay_more hsound]
      exact hold
  · simpa only [Function.update_of_ne hq] using hold

theorem dealt_take (h : Dealt s tick) {mode : Mode} {a : TakeAt B}
    (hphase : s.phase t = .take part mode a)
    (hsound : Sound s.maxDepth.toNat (s.ring part).slots (s.ring part).puts (s.ring part).takers
      (fun t => view part (s.phase t)) tick)
    (hbehind : a = .fetchPos → (s.ring part).takers.length < (s.ring part).puts.length) :
    Dealt (s.go t) (Function.update tick t (takeTick (s.ring part) (tick t) a)) := by
  intro q r
  have hold := h q r
  rw [go_take hphase]
  by_cases hq : q = part
  · subst hq
    by_cases hr : r = t
    · subst hr
      simp only [Function.update_self]
      rw [(take_balance s.maxDepth r (s.ring q) q mode a).1]
      rw [hphase] at hold
      cases a with
      | fetchPos =>
        simp only [takeStep, takeTick, Outcome.phase, Outcome.messages, underWay, if_true,
          List.append_nil]
        rw [deal_take (hbehind rfl), if_pos rfl, hold]
        simp [underWay]
      | loadSlot pos =>
        cases hslot : (s.ring q).slots pos.toNat with
        | none =>
          simpa [takeStep, hslot, Outcome.phase, Outcome.messages, underWay, takeTick] using hold
        | some rv =>
          have hview : view q (s.phase r) = .taking pos.toNat none := by simp [hphase, view]
          have hmessage := (slot_message hsound hview hslot).1
          simpa [takeStep, hslot, Outcome.phase, Outcome.messages, underWay, takeTick,
            hmessage] using hold
      | storeSlot pos rv =>
        cases mode <;>
          simpa [takeStep, gotten, Outcome.phase, Outcome.messages, underWay] using hold
      | subCount =>
        simp only [takeStep]
        split_ifs <;> simpa [Outcome.phase, Outcome.messages, underWay] using hold
      | addCount =>
        cases mode <;>
          simpa [takeStep, failed, Outcome.phase, Outcome.messages, underWay] using hold
      | addBlocked => simpa [takeStep, Outcome.phase, Outcome.messages, underWay] using hold
      | subBlocked rv => simpa [takeStep, Outcome.phase, Outcome.messages, underWay] using hold
      | wait =>
        simp only [takeStep]
        split_ifs <;> simpa [Outcome.phase, Outcome.messages, underWay] using hold
    · simp only [Function.update_self, Function.update_of_ne hr]
      rw [(take_balance s.maxDepth t (s.ring q) q mode a).1]
      by_cases hfetch : a = .fetchPos
      · subst hfetch
        simp only [takeStep]
        rw [deal_take (hbehind rfl), if_neg hr, List.append_nil]
        exact hold
      · have htakers : (takeStep s.maxDepth t (s.ring q) mode a).1.takers = (s.ring q).takers := by
          cases a with
          | fetchPos => exact absurd rfl hfetch
          | loadSlot pos =>
            simp only [takeStep]
            split <;> rfl
          | wait =>
            simp only [takeStep]
            split_ifs <;> rfl
          | subCount | storeSlot | addCount | addBlocked | subBlocked => rfl
        rw [htakers]
        exact hold
  · simp only [Function.update_of_ne hq]
    by_cases hr : r = t
    · subst hr
      rw [hphase] at hold
      simp only [Function.update_self]
      rw [underWay_elsewhere hq, hold]
      have hnone := underWay_elsewhere hq (s.ring q).puts (tick r) (Outcome.goes mode a)
      exact congrArg _ hnone
    · simpa only [Function.update_of_ne hr] using hold

end Dealing

section Start

variable {T B : Type*} {maxDepth : BitVec 32} {messages : List B}

theorem start_sound (hlength : messages.length = maxDepth.toNat) (part : Part) :
    Sound maxDepth.toNat ((start maxDepth messages : System T B).ring part).slots
      ((start maxDepth messages : System T B).ring part).puts
      ((start maxDepth messages : System T B).ring part).takers (fun _ => .away) (fun _ => 0) := by
  cases part with
  | queue =>
    exact ⟨by nofun, by nofun, by nofun, le_rfl, fun w hw => (nomatch hw.1),
      fun w w' hw' => (nomatch hw'.1), fun w w' hw' => (nomatch hw'), fun w w' hw' => (nomatch hw'),
      fun w hw => (nomatch hw.1), by nofun⟩
  | allocator =>
    have hclear (w : ℕ) :
      ¬ Cleared ([] : List T) (fun _ : T => (View.away : View B)) (fun _ => 0) w :=
      fun hw => nomatch hw.1
    have hlt {w : ℕ} (hw : w < messages.length) : w % maxDepth.toNat = w :=
      Nat.mod_eq_of_lt (hlength ▸ hw)
    refine ⟨by nofun, by nofun, by nofun, Nat.zero_le _, fun w hw => absurd hw (hclear w),
      fun w w' hw' hww hmod => ?_, fun w w' hw' hww hmod => ?_, fun w w' hw' => (nomatch hw'),
      fun w hw _ => ?_, fun k m hslot => ?_⟩
    · rw [hlt hw'.1, hlt (hww.trans hw'.1)] at hmod
      omega
    · rw [hlt hw', hlt (hww.trans hw')] at hmod
      omega
    · rw [hlt hw.1]
      rfl
    · have hk : k < messages.length := (List.getElem?_eq_some_iff.mp hslot).1
      exact ⟨k, ⟨hk, by nofun⟩, hclear k, hlt hk⟩

theorem start_place {m : B} {p : Place T} (hp : IsAt (start maxDepth messages) m p) :
    ∃ i, p = .slot .allocator i ∧ messages[i]? = some m := by
  cases p with
  | hand t => exact nomatch hp
  | slot part k =>
    cases part with
    | queue => exact nomatch hp
    | allocator => exact ⟨k, rfl, hp⟩

variable [Fintype T]

theorem start_inv {u : Usage T} (hu : ∀ part, u.OneSided part)
    (hlength : messages.length = maxDepth.toNat)
    (hdvd : maxDepth.toNat ∣ 2 ^ 32) (hnodup : messages.Nodup) :
    Inv u messages (start maxDepth messages) (fun _ => 0) := by
  refine ⟨hu, hlength, hdvd, fun _ => trivial, fun part => ⟨start_sound hlength part, ?_, ?_⟩,
    fun part => ?_, fun part => ⟨by nofun, by nofun⟩, ?_, fun t => List.nodup_nil,
    fun m p hp => ?_, fun m hm => ?_⟩
  · cases part with
    | allocator => simp [start, hlength]
    | queue => rfl
  · cases part <;> rfl
  · have hclaims : total (claims part) (fun _ : T => (.idle : Phase B)) = 0 :=
      Finset.sum_eq_zero fun _ _ => rfl
    have howes : total (owes part) (fun _ : T => (.idle : Phase B)) = 0 :=
      Finset.sum_eq_zero fun _ _ => rfl
    cases part <;> constructor <;> simp [start, hclaims, howes, hlength]
  · intro m p q hp hq
    obtain ⟨i, rfl, hi⟩ := start_place hp
    obtain ⟨j, rfl, hj⟩ := start_place hq
    have hi' := (List.getElem?_eq_some_iff.mp hi).1
    rw [(List.getElem?_inj hi' hnodup).mp (hi.trans hj.symm)]
  · obtain ⟨i, -, hi⟩ := start_place hp
    exact List.mem_of_getElem? hi
  · obtain ⟨i, hi, rfl⟩ := List.mem_iff_getElem.mp hm
    exact ⟨.slot .allocator i, List.getElem?_eq_getElem hi⟩

omit [Fintype T] in
theorem start_dealt [DecidableEq T] (maxDepth : BitVec 32) (messages : List B) (tick : T → ℕ) :
    Dealt (start maxDepth messages) tick := by
  intro part t
  cases part <;> rfl

end Start

section Runs

variable {T B : Type*} [Fintype T] [DecidableEq T] [DecidableEq B] {u : Usage T}
  {messages : List B} {s : System T B} {tick : T → ℕ}

theorem act_keeps (h : Inv u messages s tick) (hdealt : Dealt s tick) {a : Act T B}
    (ha : u.Keeps a) : ∃ tick', Inv u messages (act s a) tick' ∧ Dealt (act s a) tick' := by
  cases a with
  | call t c =>
    refine ⟨tick, inv_call h ha, fun part r => ?_⟩
    have hold := hdealt part r
    cases hphase : s.phase t with
    | put | take =>
      simp only [act, hphase]
      exact hold
    | idle =>
      by_cases hr : r = t
      · subst hr
        rw [hphase] at hold
        cases c with
        | put q m =>
          simp only [act, hphase]
          split_ifs
          · simpa [underWay] using hold
          · simpa [underWay, hphase] using hold
        | take q blocking => simpa [act, hphase, underWay] using hold
      · cases c with
        | put q m =>
          simp only [act, hphase]
          split_ifs <;> simpa [hr] using hold
        | take q blocking => simpa [act, hphase, hr] using hold
  | go t =>
    refine ⟨_, inv_go h t, ?_⟩
    unfold nextTick
    rw [act]
    cases hphase : s.phase t with
    | idle =>
      have hgo : s.go t = s := by simp only [System.go, hphase]
      rw [hgo, Function.update_eq_self]
      exact hdealt
    | put part m a => exact dealt_put hdealt hphase (h.ticketed part).sound _
    | take part mode a =>
      exact dealt_take hdealt hphase (h.ticketed part).sound fun ha =>
        (take_laps h (ha ▸ hphase)).1

theorem run_keeps (acts : List (Act T B)) (hacts : ∀ a ∈ acts, u.Keeps a)
    (h : Inv u messages s tick) (hdealt : Dealt s tick) :
    ∃ tick', Inv u messages (acts.foldl act s) tick' ∧ Dealt (acts.foldl act s) tick' := by
  induction acts generalizing s tick with
  | nil => exact ⟨tick, h, hdealt⟩
  | cons a acts ih =>
    obtain ⟨tick', hinv, hdealt'⟩ := act_keeps h hdealt (hacts a List.mem_cons_self)
    exact ih (fun b hb => hacts b (List.mem_cons_of_mem a hb)) hinv hdealt'

variable {memory messageSize maxDepth : BitVec 32}

omit [DecidableEq T] [DecidableEq B] in
theorem init_inv (hu : ∀ part, u.OneSided part)
    (hsize : 0 < messageSize.toNat ∧ messageSize.toNat < 2 ^ 31)
    (hdepth : 0 < maxDepth.toNat ∧ maxDepth.toNat < 2 ^ 31)
    (hfits : (padSize messageSize).toNat * (roundToPow2 maxDepth).toNat < 2 ^ 32) :
    Inv u (freelist memory messageSize maxDepth) (messageQueueInit memory messageSize maxDepth)
      (fun _ => 0) := by
  have hpadded : 0 < (padSize messageSize).toNat := by
    rw [pad_size hsize.2]
    omega
  have hdvd : (roundToPow2 maxDepth).toNat ∣ 2 ^ 32 := by
    have hclog : Nat.clog 2 maxDepth.toNat ≤ 31 := Nat.clog_le_of_le_pow hdepth.2.le
    rw [round_pow2 hdepth.1 hdepth.2.le]
    exact Nat.pow_dvd_pow 2 (by omega)
  rw [round_to_pow2] at hfits
  exact start_inv hu (freelist_length memory messageSize maxDepth) hdvd
    (freelist_nodup hfits hpadded)

/-- The messages are never lost, and never at two places. A thread that is out of its
calls has received the messages of its tickets, so each message goes to one receiver,
in the order in which the senders began to write. -/
theorem messages_pass (u : Usage T) (hu : ∀ part, u.OneSided part)
    (hsize : 0 < messageSize.toNat ∧ messageSize.toNat < 2 ^ 31)
    (hdepth : 0 < maxDepth.toNat ∧ maxDepth.toNat < 2 ^ 31)
    (hfits : (padSize messageSize).toNat * (roundToPow2 maxDepth).toNat < 2 ^ 32)
    (acts : List (Act T (BitVec 32))) (hacts : ∀ a ∈ acts, u.Keeps a) :
    let s := acts.foldl act (messageQueueInit memory messageSize maxDepth : System T (BitVec 32))
    Placed (freelist memory messageSize maxDepth) s ∧
      ∀ part t, s.phase t = .idle →
        s.received part t = deal (s.ring part).takers (s.ring part).puts t := by
  have hinit : Inv u (freelist memory messageSize maxDepth) (messageQueueInit memory messageSize
    maxDepth) (fun _ => 0) := init_inv hu hsize hdepth hfits
  obtain ⟨tick, hinv, hdealt⟩ := run_keeps acts hacts hinit (start_dealt _ _ _)
  refine ⟨hinv.placed, fun part t hidle => ?_⟩
  have hdeal := hdealt part t
  rw [hidle] at hdeal
  exact (hdeal.trans (List.append_nil _)).symm

/-- Any thread sends, and one receives. -/
def manySenders (receiver : T) : Usage T where
  mayPut
    | .allocator, t => t = receiver
    | .queue, _ => True
  mayTake
    | .allocator, _ => True
    | .queue, t => t = receiver

omit [Fintype T] [DecidableEq T] in
theorem many_senders_one_sided (receiver : T) (part : Part) :
    (manySenders receiver).OneSided part := by
  cases part with
  | allocator => exact Or.inl ⟨receiver, fun _ h => h⟩
  | queue => exact Or.inr ⟨receiver, fun _ h => h⟩

inductive Thread where
  | sender
  | secondSender
  | reader
  deriving DecidableEq

instance : Fintype Thread where
  elems := {.sender, .secondSender, .reader}
  complete t := by cases t <;> decide

def goes (t : Thread) (n : ℕ) : List (Act Thread (BitVec 32)) := List.replicate n (.go t)

/-- Two threads get messages at the same time and send them, and the second one overtakes
the first. The reader reads both, and frees one. -/
def overtaken : List (Act Thread (BitVec 32)) :=
  [.call .sender messageQueueMessageAlloc, .call .secondSender messageQueueMessageAllocBlocking,
    .go .sender, .go .secondSender, .go .secondSender, .go .sender]++
    goes .sender 2++goes .secondSender 2++
    .call .sender (messageQueueWrite 0x10068)::
    .call .secondSender (messageQueueWrite 0x10000)::
    goes .secondSender 2++goes .sender 5++goes .secondSender 3++
    .call .reader messageQueueRead::goes .reader 4++
    .call .reader messageQueueTryread::goes .reader 4++
    .call .reader (messageQueueMessageFree 0x10068)::goes .reader 5

theorem two_senders_pass :
    let s : System Thread (BitVec 32) := overtaken.foldl act (messageQueueInit 0x10000 100 6)
    (s.received .queue .reader = [0x10000, 0x10068] ∧ s.held .reader = [0x10000]) ∧
      Placed (freelist 0x10000 100 6) s ∧ ∀ part t, s.phase t = .idle →
        s.received part t = deal (s.ring part).takers (s.ring part).puts t := by
  have hkeeps : ∀ a ∈ overtaken, (manySenders .reader).Keeps a := by
    simp [overtaken, goes, Usage.Keeps, manySenders, messageQueueMessageAlloc,
      messageQueueMessageAllocBlocking, messageQueueWrite, messageQueueRead, messageQueueTryread,
      messageQueueMessageFree]
  exact ⟨by decide +kernel, messages_pass (manySenders .reader)
    (many_senders_one_sided Thread.reader) (by decide) (by decide) (by decide) overtaken hkeeps⟩

end Runs

end RS485.MessagePassing
