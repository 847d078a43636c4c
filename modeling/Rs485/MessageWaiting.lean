import Rs485.MessagePassing

/-!
# Waiting for messages

`message_queue_read` and `message_queue_message_alloc_blocking` announce themselves in
`blocked_readers`, look once more, and sleep. Who puts a message looks for readers when
the message is counted. With one reader no message comes unnoticed.
-/

set_option autoImplicit false

namespace RS485.MessageWaiting
open RS485.MessageQueue RS485.Tickets RS485.MessagePassing

section Weights

variable {T B : Type*}

/-- A put that has taken a reader off `blocked_readers`, and posts next. -/
def putPosts : PutAt → ℤ
  | .fetchPos | .loadSlot _ | .storeSlot _ | .addCount | .loadBlocked | .subBlocked => 0
  | .post => 1

/-- A put that has counted its message, and has not returned. -/
def putAlert : PutAt → ℤ
  | .fetchPos | .loadSlot _ | .storeSlot _ | .addCount => 0
  | .loadBlocked | .subBlocked | .post => 1

/-- A reader that has announced itself, and has neither been woken nor gone. -/
def takeWaits (mode : Mode) : TakeAt B → ℤ
  | .subCount | .fetchPos | .loadSlot _ | .storeSlot _ _ | .addCount => if mode = .second then 1 else 0
  | .addBlocked => 0
  | .subBlocked _ | .wait => 1

def posts (part : Part) : Phase B → ℤ
  | .put p _ a => if p = part then putPosts a else 0
  | .idle | .take _ _ _ => 0

def alert (part : Part) : Phase B → ℤ
  | .put p _ a => if p = part then putAlert a else 0
  | .idle | .take _ _ _ => 0

def waits (part : Part) : Phase B → ℤ
  | .take p mode a => if p = part then takeWaits mode a else 0
  | .idle | .put _ _ _ => 0

/-- The second look was in vain. -/
def Asleep (part : Part) (p : Phase B) : Prop :=
  p = .take part .second .addCount ∨ ∃ mode, p = .take part mode .wait

theorem posts_nonneg (part : Part) (p : Phase B) : 0 ≤ posts part p := by
  cases p with
  | idle | take => exact le_rfl
  | put q m a =>
    rw [posts]
    split_ifs
    · cases a <;> simp [putPosts]
    · exact le_rfl

theorem posts_le_alert (part : Part) (p : Phase B) : posts part p ≤ alert part p := by
  cases p with
  | idle | take => exact le_rfl
  | put q m a =>
    rw [posts, alert]
    split_ifs
    · cases a <;> simp [putPosts, putAlert]
    · exact le_rfl

theorem asleep_waits {part : Part} {p : Phase B} (h : Asleep part p) : waits part p = 1 := by
  rcases h with rfl | ⟨mode, rfl⟩ <;> simp [waits, takeWaits]

/-- `blocked_readers` are the waiting readers less those that a wake-up is for; and a
reader that is asleep while there are messages has a wake-up coming. -/
structure Watched [Fintype T] (r : Ring T B) (part : Part) (phase : T → Phase B) (y : T) : Prop where
  wakes : ((r.blockedReaders.toNat : ℤ) + r.sem + total (posts part) phase
    - total (waits part) phase) % 2 ^ 32 = 0
  warned : Asleep part (phase y) → 0 < r.count + total (owes part) phase →
    0 < r.sem ∨ 0 < total (alert part) phase

/-- What an access of a put does to the readers that wait. -/
theorem put_wakes (maxDepth : BitVec 32) (r : Ring T B) (part : Part) (m : B) (a : PutAt) :
    waits part (putPhase part m (putStep maxDepth r m a).2) = 0 ∧
      (((putStep maxDepth r m a).1.blockedReaders.toNat : ℤ) + (putStep maxDepth r m a).1.sem
        + posts part (putPhase part m (putStep maxDepth r m a).2)
        - (r.blockedReaders.toNat + r.sem + putPosts a)) % 2 ^ 32 = 0 := by
  cases a with
  | fetchPos | storeSlot | addCount => simp [putStep, putPhase, posts, waits, putPosts]
  | loadSlot pos =>
    simp only [putStep, putPhase]
    split_ifs <;> simp [posts, waits, putPosts]
  | loadBlocked =>
    simp only [putStep]
    split_ifs <;> simp [putPhase, posts, waits, putPosts]
  | subBlocked =>
    refine ⟨rfl, ?_⟩
    simp [putStep, putPhase, posts, putPosts]
    omega
  | post =>
    refine ⟨rfl, ?_⟩
    simp [putStep, putPhase, posts, putPosts]
    omega

theorem take_wakes (maxDepth : BitVec 32) (t : T) (r : Ring T B) (part : Part) (mode : Mode)
    (a : TakeAt B) :
    posts part ((takeStep maxDepth t r mode a).2.phase part) = 0 ∧
      alert part ((takeStep maxDepth t r mode a).2.phase part) = 0 ∧
      (((takeStep maxDepth t r mode a).1.blockedReaders.toNat : ℤ)
        + (takeStep maxDepth t r mode a).1.sem
        - waits part ((takeStep maxDepth t r mode a).2.phase part)
        - (r.blockedReaders.toNat + r.sem - takeWaits mode a)) % 2 ^ 32 = 0 := by
  cases a with
  | subCount =>
    simp only [takeStep]
    split_ifs <;> simp [Outcome.phase, posts, alert, waits, takeWaits]
  | fetchPos => simp [takeStep, Outcome.phase, posts, alert, waits, takeWaits]
  | loadSlot pos =>
    simp only [takeStep]
    split <;> simp [Outcome.phase, posts, alert, waits, takeWaits]
  | storeSlot pos rv =>
    cases mode <;> simp [takeStep, gotten, Outcome.phase, posts, alert, waits, takeWaits]
  | addCount =>
    cases mode <;> simp [takeStep, failed, Outcome.phase, posts, alert, waits, takeWaits]
  | addBlocked =>
    refine ⟨rfl, rfl, ?_⟩
    simp [takeStep, Outcome.phase, waits, takeWaits]
    omega
  | subBlocked rv =>
    refine ⟨rfl, rfl, ?_⟩
    simp [takeStep, Outcome.phase, waits, takeWaits]
    omega
  | wait =>
    simp only [takeStep]
    split_ifs with hsem
    · simp [Outcome.phase, posts, alert, waits, takeWaits]
    · refine ⟨rfl, rfl, ?_⟩
      simp [Outcome.phase, waits, takeWaits]
      omega

end Weights

section Steps

variable {T B : Type*} [Fintype T] [DecidableEq T] {u : Usage T} {r : Ring T B} {part : Part}
  {phase : T → Phase B} {t y : T} {m : B} {maxDepth : BitVec 32}

theorem asleep_take {p : Phase B} (h : Asleep part p) : ∃ mode a, p = .take part mode a := by
  rcases h with rfl | ⟨mode, rfl⟩
  · exact ⟨.second, .addCount, rfl⟩
  · exact ⟨mode, .wait, rfl⟩

omit [DecidableEq T] in
/-- Only the one reader waits, and only it owes a count. -/
theorem reader_alone (hallows : ∀ t, u.Allows t (phase t)) (hone : ∀ t, u.mayTake part t → t = y) :
    total (waits part) phase = waits part (phase y) ∧
      total (owes part) phase = owes part (phase y) := by
  have hother (s : T) (hs : s ≠ y) (mode : Mode) (a : TakeAt B) : phase s ≠ .take part mode a := by
    intro hphase
    have hmay := hallows s
    rw [hphase] at hmay
    exact hs (hone s hmay)
  constructor
  · refine total_alone fun s hs => ?_
    cases hphase : phase s with
    | idle | put => rfl
    | take q mode a =>
      have hq : q ≠ part := fun hq => hother s hs mode a (by rw [hphase, hq])
      exact if_neg hq
  · refine total_alone fun s hs => ?_
    cases hphase : phase s with
    | idle | put => rfl
    | take q mode a =>
      have hq : q ≠ part := fun hq => hother s hs mode a (by rw [hphase, hq])
      exact if_neg hq

/-- Every put that has counted its message is alert until it has woken a reader, or has
found that none waits. -/
theorem watched_put (hallows : ∀ t, u.Allows t (phase t)) (hone : ∀ t, u.mayTake part t → t = y)
    (h : Watched r part phase y) {a : PutAt} (hphase : phase t = .put part m a) :
    Watched (putStep maxDepth r m a).1 part
      (Function.update phase t (putPhase part m (putStep maxDepth r m a).2)) y := by
  obtain ⟨hwaits, hwakes⟩ := put_wakes maxDepth r part m a
  obtain ⟨-, howes, -, -⟩ := put_balance maxDepth r part m a
  have hold := h.wakes
  have hposts : posts part (phase t) = putPosts a := by rw [hphase, posts, if_pos rfl]
  have hwaited : waits part (phase t) = 0 := by rw [hphase]; rfl
  have howed : owes part (phase t) = 0 := by rw [hphase]; rfl
  have hnew : (((putStep maxDepth r m a).1.blockedReaders.toNat : ℤ)
      + (putStep maxDepth r m a).1.sem
      + total (posts part) (Function.update phase t (putPhase part m (putStep maxDepth r m a).2))
      - total (waits part) (Function.update phase t (putPhase part m (putStep maxDepth r m a).2)))
        % 2 ^ 32 = 0 := by
    rw [total_update, total_update, hposts, hwaited, hwaits]
    omega
  refine ⟨hnew, fun hasleep hcount => ?_⟩
  have hty : y ≠ t := by
    rintro rfl
    rw [Function.update_self] at hasleep
    obtain ⟨mode, a', htake⟩ := asleep_take hasleep
    cases hnext : (putStep maxDepth r m a).2 <;> rw [hnext] at htake <;> exact nomatch htake
  rw [Function.update_of_ne hty] at hasleep
  have hone' := (reader_alone hallows hone).1
  rw [asleep_waits hasleep] at hone'
  rw [total_update, howes, howed, sub_zero, add_zero] at hcount
  have halert : alert part (phase t) = putAlert a := by rw [hphase, alert, if_pos rfl]
  have hsum : total (alert part) (Function.update phase t
      (putPhase part m (putStep maxDepth r m a).2)) = total (alert part) phase
        - alert part (phase t) + alert part (putPhase part m (putStep maxDepth r m a).2) :=
    total_update t _
  rw [halert] at hsum
  have hnonneg : 0 ≤ total (alert part) phase :=
    total_nonneg fun p => (posts_nonneg part p).trans (posts_le_alert part p)
  cases a with
  | fetchPos | storeSlot =>
    rw [hsum]
    simpa [putStep, putPhase, alert, putAlert] using h.warned hasleep hcount
  | loadSlot pos =>
    rw [hsum]
    simp only [putStep, putPhase]
    split_ifs <;> simpa [alert, putAlert] using h.warned hasleep hcount
  | addCount =>
    right
    rw [hsum]
    simp [putStep, putPhase, alert, putAlert]
    omega
  | loadBlocked =>
    by_cases hzero : r.blockedReaders = 0
    · -- the reader waits, so what it was taken off for is a wake-up
      have hnext : putStep maxDepth r m .loadBlocked = (r, none) := by
        simp only [putStep, if_pos hzero]
      have hnone : (0 : BitVec 32).toNat = 0 := rfl
      rw [hnext] at hnew ⊢
      dsimp only at hnew ⊢
      have hwaiting : total (waits part) (Function.update phase t (putPhase part m none)) = 1 := by
        rw [total_update, hwaited, hone']
        rfl
      have hcovered : total (posts part) (Function.update phase t (putPhase part m none)) ≤
          total (alert part) (Function.update phase t (putPhase part m none)) :=
        total_mono (posts_le_alert part)
      have hposted : 0 ≤ total (posts part) (Function.update phase t (putPhase part m none)) :=
        total_nonneg (posts_nonneg part)
      rw [hwaiting, hzero, hnone] at hnew
      omega
    · have hnext : putStep maxDepth r m .loadBlocked = (r, some .subBlocked) := by
        simp only [putStep, if_neg hzero]
      rw [hnext] at hcount
      rw [hsum, hnext]
      simpa [putPhase, alert, putAlert] using h.warned hasleep hcount
  | subBlocked =>
    rw [hsum]
    simpa [putStep, putPhase, alert, putAlert] using h.warned hasleep hcount
  | post =>
    left
    simp [putStep]

theorem watched_take (hallows : ∀ t, u.Allows t (phase t)) (hone : ∀ t, u.mayTake part t → t = y)
    (h : Watched r part phase y) {mode : Mode} {a : TakeAt B}
    (hphase : phase t = .take part mode a) :
    Watched (takeStep maxDepth t r mode a).1 part
      (Function.update phase t ((takeStep maxDepth t r mode a).2.phase part)) y := by
  obtain ⟨hposts, halert, hwakes⟩ := take_wakes maxDepth t r part mode a
  have hold := h.wakes
  have hmay := hallows t
  rw [hphase] at hmay
  obtain rfl : t = y := hone t hmay
  have hposted : posts part (phase t) = 0 := by rw [hphase]; rfl
  have halerted : alert part (phase t) = 0 := by rw [hphase]; rfl
  have hwaited : waits part (phase t) = takeWaits mode a := by rw [hphase, waits, if_pos rfl]
  have hwarned := h.warned
  refine ⟨?_, fun hasleep hcount => ?_⟩
  · rw [total_update, total_update, hposts, hposted, hwaited]
    omega
  · rw [Function.update_self] at hasleep
    rw [total_update, halert, halerted, sub_zero, add_zero]
    have howes := (reader_alone hallows hone).2
    have howed : owes part (phase t) = takeOwes a := by rw [hphase, owes, if_pos rfl]
    rw [total_update, howes, howed, sub_self, zero_add] at hcount
    rw [howes, howed] at hwarned
    cases a with
    | subCount =>
      simp only [takeStep] at hasleep hcount
      split_ifs at hasleep hcount with hpos
      · simp [Asleep, Outcome.phase] at hasleep
      · simp [Outcome.phase, owes, takeOwes] at hcount
        exact absurd hcount hpos
    | fetchPos => simp [Asleep, takeStep, Outcome.phase] at hasleep
    | loadSlot pos =>
      simp only [takeStep] at hasleep
      split at hasleep <;> simp [Asleep, Outcome.phase] at hasleep
    | storeSlot pos rv => cases mode <;> simp [Asleep, takeStep, gotten, Outcome.phase] at hasleep
    | addCount =>
      cases mode with
      | once | first => simp [Asleep, takeStep, failed, Outcome.phase] at hasleep
      | second =>
        refine hwarned (Or.inl hphase) ?_
        simpa [takeStep, failed, Outcome.phase, owes, takeOwes] using hcount
    | addBlocked => simp [Asleep, takeStep, Outcome.phase] at hasleep
    | subBlocked rv => simp [Asleep, takeStep, Outcome.phase] at hasleep
    | wait =>
      simp only [takeStep] at hasleep hcount ⊢
      split_ifs at hasleep hcount ⊢ with hsem
      · refine hwarned (Or.inr ⟨mode, hphase⟩) ?_
        simpa [Outcome.phase, owes, takeOwes] using hcount
      · simp [Asleep, Outcome.phase] at hasleep

/-- A phase in which a thread makes nothing of the ring, and does not sleep at it. -/
structure Unseen (part : Part) (p : Phase B) : Prop where
  posts : posts part p = 0
  alert : alert part p = 0
  waits : waits part p = 0
  owes : owes part p = 0
  awake : ¬ Asleep part p

theorem watched_unseen (h : Watched r part phase y) {p : Phase B}
    (hbefore : Unseen part (phase t)) (hafter : Unseen part p) :
    Watched r part (Function.update phase t p) y := by
  have hold := h.wakes
  refine ⟨?_, fun hnew hcount => ?_⟩
  · rw [total_update, total_update, hbefore.posts, hafter.posts, hbefore.waits, hafter.waits]
    omega
  · have hyt : y ≠ t := by
      rintro rfl
      rw [Function.update_self] at hnew
      exact hafter.awake hnew
    rw [Function.update_of_ne hyt] at hnew
    rw [total_update, hbefore.owes, hafter.owes, sub_zero, add_zero] at hcount
    rw [total_update, hbefore.alert, hafter.alert, sub_zero, add_zero]
    exact h.warned hnew hcount

end Steps

section Runs

variable {T B : Type*} [Fintype T] [DecidableEq T] {u : Usage T} {messages : List B}
  {s : System T B} {tick : T → ℕ} {part : Part} {y : T}

omit [Fintype T] [DecidableEq T] in
theorem idle_unseen : Unseen part (.idle : Phase B) := ⟨rfl, rfl, rfl, rfl, by simp [Asleep]⟩

omit [Fintype T] [DecidableEq T] in
theorem put_unseen {q : Part} (hq : part ≠ q) (m : B) (p : Option PutAt) :
    Unseen part (putPhase q m p) := by
  cases p with
  | none => exact idle_unseen
  | some a => exact ⟨if_neg hq.symm, if_neg hq.symm, rfl, rfl, by simp [Asleep, putPhase]⟩

omit [Fintype T] [DecidableEq T] in
theorem take_unseen {q : Part} (hq : part ≠ q) (o : Outcome B) : Unseen part (o.phase q) := by
  cases o with
  | returns rv => exact idle_unseen
  | goes mode a =>
    exact ⟨rfl, rfl, if_neg hq.symm, if_neg hq.symm, by simp [Asleep, Outcome.phase, hq.symm]⟩

/-- The reader of the ring is watched, and has had all of its tickets. -/
structure Reading (s : System T B) (part : Part) (y : T) : Prop where
  watched : Watched (s.ring part) part s.phase y
  takers : ∀ t ∈ (s.ring part).takers, t = y

theorem reading_put (hinv : Inv u messages s tick) (hone : ∀ t, u.mayTake part t → t = y)
    (h : Reading s part y) {t : T} {q : Part} {m : B} {a : PutAt}
    (hphase : s.phase t = .put q m a) : Reading (s.go t) part y := by
  rw [go_put hphase]
  by_cases hq : part = q
  · subst hq
    refine ⟨?_, ?_⟩
    · simp only [Function.update_self]
      exact watched_put hinv.allows hone h.watched hphase
    · simp only [Function.update_self]
      rw [(put_balance s.maxDepth (s.ring part) part m a).1]
      exact h.takers
  · refine ⟨?_, ?_⟩
    · simp only [Function.update_of_ne hq]
      exact watched_unseen h.watched (hphase ▸ put_unseen hq m (some a)) (put_unseen hq m _)
    · simpa only [Function.update_of_ne hq] using h.takers

theorem reading_take (hinv : Inv u messages s tick) (hone : ∀ t, u.mayTake part t → t = y)
    (h : Reading s part y) {t : T} {q : Part} {mode : Mode} {a : TakeAt B}
    (hphase : s.phase t = .take q mode a) : Reading (s.go t) part y := by
  rw [go_take hphase]
  by_cases hq : part = q
  · subst hq
    have hmay := hinv.allows t
    rw [hphase] at hmay
    refine ⟨?_, ?_⟩
    · simp only [Function.update_self]
      exact watched_take hinv.allows hone h.watched hphase
    · simp only [Function.update_self]
      have htakers : ∀ r ∈ (takeStep s.maxDepth t (s.ring part) mode a).1.takers,
          r ∈ (s.ring part).takers ∨ r = t := by
        intro r hr
        cases a with
        | fetchPos => simpa [takeStep] using hr
        | loadSlot pos =>
          simp only [takeStep] at hr
          split at hr <;> exact Or.inl hr
        | wait =>
          simp only [takeStep] at hr
          split_ifs at hr <;> exact Or.inl hr
        | subCount | storeSlot | addCount | addBlocked | subBlocked => exact Or.inl hr
      intro r hr
      rcases htakers r hr with hold | rfl
      · exact h.takers r hold
      · exact hone r hmay
  · refine ⟨?_, ?_⟩
    · simp only [Function.update_of_ne hq]
      exact watched_unseen h.watched (hphase ▸ take_unseen hq (.goes mode a)) (take_unseen hq _)
    · simpa only [Function.update_of_ne hq] using h.takers

/-- A thread begins a call. -/
theorem reading_enter (h : Reading s part y) {t : T} (hidle : s.phase t = .idle) {p : Phase B}
    (hp : Unseen part p) (held : T → List B) :
    Reading { s with phase := Function.update s.phase t p, held := held } part y :=
  ⟨watched_unseen h.watched (hidle ▸ idle_unseen) hp, h.takers⟩

variable [DecidableEq B]

theorem reading_act (hinv : Inv u messages s tick) (hone : ∀ t, u.mayTake part t → t = y)
    (h : Reading s part y) (a : Act T B) : Reading (act s a) part y := by
  cases a with
  | go t =>
    rw [act]
    cases hphase : s.phase t with
    | idle =>
      have hgo : s.go t = s := by simp only [System.go, hphase]
      rwa [hgo]
    | put q m a => exact reading_put hinv hone h hphase
    | take q mode a => exact reading_take hinv hone h hphase
  | call t c =>
    cases hphase : s.phase t with
    | put | take =>
      simp only [act, hphase]
      exact h
    | idle =>
      cases c with
      | put q m =>
        simp only [act, hphase]
        split_ifs
        · exact reading_enter h hphase
            ⟨by simp [posts, putPosts], by simp [alert, putAlert], rfl, rfl, by simp [Asleep]⟩ _
        · exact h
      | take q blocking =>
        simp only [act, hphase]
        exact reading_enter h hphase ⟨rfl, rfl, by cases blocking <;> simp [waits, takeWaits],
          by simp [owes, takeOwes], by simp [Asleep]⟩ _

theorem run_reading (hone : ∀ t, u.mayTake part t → t = y) (acts : List (Act T B))
    (hacts : ∀ a ∈ acts, u.Keeps a) (hinv : Inv u messages s tick) (hdealt : Dealt s tick)
    (h : Reading s part y) : Reading (acts.foldl act s) part y := by
  induction acts generalizing s tick with
  | nil => exact h
  | cons a acts ih =>
    obtain ⟨tick', hinv', hdealt'⟩ := act_keeps hinv hdealt (hacts a List.mem_cons_self)
    exact ih (fun b hb => hacts b (List.mem_cons_of_mem a hb)) hinv' hdealt'
      (reading_act hinv hone h a)

omit [DecidableEq T] [DecidableEq B] in
theorem start_reading (maxDepth : BitVec 32) (messages : List B) (part : Part) (y : T) :
    Reading (start maxDepth messages) part y := by
  have hposts : total (posts part) (fun _ : T => (.idle : Phase B)) = 0 :=
    Finset.sum_eq_zero fun _ _ => rfl
  have hwaits : total (waits part) (fun _ : T => (.idle : Phase B)) = 0 :=
    Finset.sum_eq_zero fun _ _ => rfl
  refine ⟨⟨?_, fun hasleep => ?_⟩, ?_⟩
  · cases part <;> simp [start, hposts, hwaits]
  · simp [Asleep, start] at hasleep
  · cases part <;> simp [start]

omit [Fintype T] [DecidableEq B] in
theorem deal_alone {takers : List T} (puts : List B) (h : ∀ t ∈ takers, t = y) :
    deal takers puts y = puts.take takers.length := by
  induction takers generalizing puts with
  | nil => rfl
  | cons t takers ih =>
    cases puts with
    | nil => rfl
    | cons m puts =>
      have hty := h t List.mem_cons_self
      have hrest := ih puts fun r hr => h r (List.mem_cons_of_mem t hr)
      rw [deal] at hrest ⊢
      simp [hty, hrest]

omit [DecidableEq T] [DecidableEq B] in
/-- A reader that is asleep while nothing is being put has nothing left to take. -/
theorem all_taken (hinv : Inv u messages s tick) (hone : ∀ t, u.mayTake part t → t = y)
    (h : Reading s part y) {mode : Mode} (hphase : s.phase y = .take part mode .wait)
    (hsem : (s.ring part).sem = 0) (hputs : ∀ t m a, s.phase t ≠ .put part m a) :
    (s.ring part).takers.length = (s.ring part).puts.length := by
  have halert : total (alert part) s.phase = 0 := Finset.sum_eq_zero fun t _ => by
    cases hput : s.phase t with
    | idle | take => rfl
    | put q m a =>
      have hq : q ≠ part := fun hq => hputs t m a (by rw [hput, hq])
      exact if_neg hq
  have hclaims : total (claims part) s.phase = 0 := Finset.sum_eq_zero fun t _ => by
    cases hput : s.phase t with
    | idle => rfl
    | put q m a =>
      have hq : q ≠ part := fun hq => hputs t m a (by rw [hput, hq])
      exact if_neg hq
    | take q mode' a =>
      by_cases hq : q = part
      · have hmay := hinv.allows t
        rw [hput, hq] at hmay
        rw [hone t hmay, hphase] at hput
        cases hput
        rw [claims, if_pos rfl]
        rfl
      · exact if_neg hq
  have howes : total (owes part) s.phase = 0 := by
    rw [(reader_alone hinv.allows hone).2, hphase, owes, if_pos rfl]
    rfl
  have hcount := (hinv.counted part).count
  have hroom := (hinv.counted part).room
  have hwarned := h.watched.warned (Or.inr ⟨mode, hphase⟩)
  rw [hclaims, howes] at hcount
  rw [howes, hsem, halert] at hwarned
  omega

variable {memory messageSize maxDepth : BitVec 32}

/-- No message comes unnoticed: when the one reader sleeps, and nobody is about to wake it
or to put a message, it has received all the messages, in the order of the tickets. -/
theorem nothing_unread (u : Usage T) (part : Part) (y : T)
    (hone : ∀ t, u.mayTake part t → t = y) (hother : ∀ q ≠ part, u.OneSided q)
    (hsize : 0 < messageSize.toNat ∧ messageSize.toNat < 2 ^ 31)
    (hdepth : 0 < maxDepth.toNat ∧ maxDepth.toNat < 2 ^ 31)
    (hfits : (padSize messageSize).toNat * (roundToPow2 maxDepth).toNat < 2 ^ 32)
    (acts : List (Act T (BitVec 32))) (hacts : ∀ a ∈ acts, u.Keeps a) {s : System T (BitVec 32)}
    (hrun : acts.foldl act (messageQueueInit memory messageSize maxDepth) = s) {mode : Mode}
    (hphase : s.phase y = .take part mode .wait) (hsem : (s.ring part).sem = 0)
    (hputs : ∀ t m a, s.phase t ≠ .put part m a) : s.received part y = (s.ring part).puts := by
  have hu : ∀ q, u.OneSided q := fun q => by
    by_cases hq : q = part
    · exact hq ▸ Or.inr ⟨y, hone⟩
    · exact hother q hq
  have hinit : Inv u (freelist memory messageSize maxDepth) (messageQueueInit memory messageSize
    maxDepth) (fun _ => 0) := init_inv hu hsize hdepth hfits
  have hreading := run_reading hone acts hacts hinit (start_dealt _ _ _) (start_reading _ _ _ _)
  obtain ⟨tick, hinv, hdealt⟩ := run_keeps acts hacts hinit (start_dealt _ _ _)
  rw [hrun] at hreading hinv hdealt
  have htaken := all_taken hinv hone hreading hphase hsem hputs
  have hdeal : deal (s.ring part).takers (s.ring part).puts y = s.received part y ++
    underWay part (s.ring part).puts (tick y) (s.phase y) := hdealt part y
  rw [hphase] at hdeal
  have htakers : ∀ t ∈ (s.ring part).takers, t = y := hreading.takers
  rw [deal_alone _ htakers, htaken, List.take_length] at hdeal
  exact (hdeal.trans (List.append_nil _)).symm

/-- The reader sleeps, is woken by the first message, and sleeps again. -/
def wokenOnce : List (Act Thread (BitVec 32)) :=
  .call .reader messageQueueRead::goes .reader 5++
    .call .sender messageQueueMessageAlloc::goes .sender 4++
    .call .sender (messageQueueWrite 0x10000)::goes .sender 7++goes .reader 5++
    .call .reader messageQueueRead::goes .reader 5

def asleepAgain : System Thread (BitVec 32) :=
  wokenOnce.foldl act (messageQueueInit 0x10000 100 6)

theorem woken_once_unread :
    asleepAgain.received .queue .reader = (asleepAgain.ring .queue).puts := by
  have hphase : asleepAgain.phase .reader = .take .queue .second .wait := by decide +kernel
  have hidle : ∀ t ≠ .reader, asleepAgain.phase t = .idle := by decide +kernel
  have hkeeps : ∀ a ∈ wokenOnce, (manySenders .reader).Keeps a := by
    simp [wokenOnce, goes, Usage.Keeps, manySenders, messageQueueRead, messageQueueMessageAlloc,
      messageQueueWrite]
  have hone : ∀ t, (manySenders Thread.reader).mayTake .queue t → t = .reader := fun _ h => h
  have hrun : wokenOnce.foldl act (messageQueueInit 0x10000 100 6) = asleepAgain := rfl
  have hsem : (asleepAgain.ring .queue).sem = 0 := by decide +kernel
  refine @nothing_unread Thread _ _ 0x10000 100 6 (manySenders .reader) .queue .reader hone
    (fun q _ => many_senders_one_sided Thread.reader q) (by decide) (by decide) (by decide)
    wokenOnce hkeeps asleepAgain hrun .second hphase hsem fun t m a => ?_
  by_cases ht : t = .reader
  · rw [ht, hphase]
    simp
  · rw [hidle t ht]
    simp

end Runs

end RS485.MessageWaiting
