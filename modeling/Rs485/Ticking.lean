import Rs485.Timer

/-!
# One tick of the timer

The walk of a tick against the edits of the functions it calls. The cursor is
one task ahead of the one examined, so the function of a task may unregister
any task but the next one; and a tick lasts as long as its functions go on
registering tasks.
-/

set_option autoImplicit false

namespace RS485.Ticking
open RS485.Ring RS485.Timer

/-- A task list: a state that stores it. -/
structure Timers where
  state : State
  tasks : List ℕ
  stored : Stored state tasks

section Examine

variable (percision : Percision) (behaviour : Behaviour)

/-- The function of the task is called on this tick. -/
def Due (task : TimerTask) : Prop :=
  task.enable = true ∧ ¬task.tick + percision.ms < task.period

instance (task : TimerTask) : Decidable (Due percision task) := by
  unfold Due
  infer_instance

/-- The counter of a task after it was examined. -/
def advanced (task : TimerTask) : TimerTask :=
  if task.enable = false then task
  else if task.tick + percision.ms < task.period then
    { task with tick := task.tick + percision.ms }
  else { task with tick := 0#32 }

/-- The state after a task was examined, before its function does anything. -/
def touched (s : State) (id : ℕ) (task : TimerTask) : State :=
  { s with
    tasks := Function.update s.tasks id (some (advanced percision task))
    log := s.log++.examined id::(if Due percision task then [.called id] else []) }

/-- The edits that examining a task leads to. -/
def made (s : State) (id : ℕ) : List Edit :=
  match s.tasks id with
  | none => []
  | some task => if Due percision task then behaviour (touched percision s id task) id else []

variable {percision behaviour} {s : State} {xs : List ℕ} {id : ℕ} {task : TimerTask}

theorem advanced_period : (advanced percision task).period = task.period := by
  unfold advanced
  split_ifs <;> rfl

theorem update_self_task (h : s.tasks id = some task) :
    Function.update s.tasks id (some task) = s.tasks := by
  rw [← h, Function.update_eq_self]

theorem examine_eq (h : s.tasks id = some task) :
    examine percision behaviour s id =
      applyEdits (made percision behaviour s id) (touched percision s id task) := by
  unfold examine made touched Due advanced
  simp only [h, Option.bind_eq_bind, Option.bind_some]
  by_cases he : task.enable = false
  · simp [he, applyEdits, State.note, update_self_task h]
  · by_cases ht : task.tick + percision.ms < task.period
    · simp [he, ht, applyEdits, State.note, State.put]
    · simp [he, ht, State.note, State.put]

theorem touched_stored (h : Stored s xs) (hid : id ∈ xs) (ht : s.tasks id = some task) :
    Stored (touched percision s id task) xs := by
  have hp : (advanced percision task).period ≠ 0#32 := by
    rw [advanced_period]
    exact h.period id task ht
  have hput := stored_put h hid hp
  exact ⟨hput.ring, hput.allocated, hput.fresh, hput.loose, hput.period⟩

variable (percision behaviour) in
theorem examine_edited (h : Stored s xs) (hid : id ∈ xs) :
    ∃ task s' ys, s.tasks id = some task ∧ examine percision behaviour s id = some s' ∧
      Edited (made percision behaviour s id) (touched percision s id task) s' xs ys := by
  obtain ⟨task, ht⟩ := stored_task h hid
  obtain ⟨s', ys, happly, hed⟩ :=
    edits_edited (made percision behaviour s id) (touched_stored h hid ht)
  exact ⟨task, s', ys, ht, by rw [examine_eq ht, happly], hed⟩

end Examine

section Rounds

variable (percision : Percision) (behaviour : Behaviour)

def rounds : ℕ → Cursor → Option Cursor
  | 0, c => some c
  | k+1, c => (walkRound percision behaviour c).bind (rounds k)

/-- The cursor after `k` rounds of a tick. -/
def visit (s : State) (k : ℕ) : Option Cursor :=
  (start { s with log := [] }).bind (rounds percision behaviour k)

/-- The function of the examined task, if it is called, leaves the task behind
its own registered. -/
def Spares (c : Cursor) : Prop :=
  ∀ id j, c.pos = .task id → c.node = .task j →
    .unregister j ∉ made percision behaviour c.state id

/-- Every function that the tick calls leaves the task behind its own
registered, and all of them together register finitely many tasks. -/
def Tame (s : State) : Prop :=
  (∀ k c, visit percision behaviour s k = some c → Spares percision behaviour c) ∧
  ∃ bound, ∀ k c, visit percision behaviour s k = some c → c.state.fresh ≤ bound

def examinedIn (log : List Event) : List ℕ :=
  log.filterMap fun
    | .examined id => some id
    | _ => none

/-- No task is examined or called after it was unregistered. -/
def Alive (log : List Event) : Prop :=
  log.Pairwise fun e e' => ∀ id, e = .unregistered id → e' ≠ .examined id ∧ e' ≠ .called id

/-- The tick ends, examines every task that stays registered exactly once and in
list order, and leaves unregistered tasks alone. -/
def Robust (w : Timers) : Prop :=
  ∃ fuel s', timerTick percision behaviour fuel w.state = some s' ∧
    (examinedIn s'.log).filter (fun id => id ∈ w.tasks ∧ (s'.tasks id).isSome) =
      w.tasks.filter (fun id => (s'.tasks id).isSome) ∧
    Alive s'.log

end Rounds

/-- The cursor is on `p`, with `done` before it and `rest` behind it. -/
structure Placed (c : Cursor) (done : List ℕ) (p : ℕ) (rest : List ℕ) : Prop where
  stored : Stored c.state (done++p::rest)
  pos : c.pos = .task p
  node : c.node = (rest.map Cell.task).headD .head

section Walk

variable {percision : Percision} {behaviour : Behaviour} {c : Cursor} {done rest : List ℕ} {p : ℕ}

theorem stored_next {s : State} {j : ℕ} (h : Stored s (done++j::rest)) :
    s.links.next (.task j) = some ((rest.map Cell.task).headD .head) := by
  have hring := h.ring
  rw [List.map_append, List.map_cons] at hring
  exact seg_next ((seg_append ..).mp hring.1).2

theorem stored_first {s : State} {xs : List ℕ} (h : Stored s xs) :
    s.links.next .head = some ((xs.map Cell.task).headD .head) :=
  seg_next h.ring.1

/-- The round on the last task leaves the cursor on the head. -/
theorem round_last (h : Placed c done p []) {s' : State} {ys : List ℕ} {task : TimerTask}
    (hex : examine percision behaviour c.state p = some s')
    (hed : Edited (made percision behaviour c.state p) (touched percision c.state p task) s'
      (done++[p]) ys) :
    ∃ node, walkRound percision behaviour c = some ⟨s', .head, node⟩ := by
  have hnode : c.node = .head := h.node
  obtain ⟨node, hnext⟩ : ∃ node, s'.links.next .head = some node := ⟨_, stored_first hed.stored⟩
  exact ⟨node, by simp [walkRound, h.pos, hex, hnode, hnext]⟩

/-- Edits that spare the next task leave it between the tasks behind it and the ones ahead. -/
theorem filter_spared {es : List Edit} {j : ℕ} (hj : .unregister j ∉ es) (ys : List ℕ) :
    (done++p::j::rest).filter (fun id => .unregister id ∉ es)++ys =
      (done++[p]).filter (fun id => .unregister id ∉ es)++
        j::(rest.filter (fun id => .unregister id ∉ es)++ys) := by
  rw [show done++p::j::rest = (done++[p])++j::rest by simp, List.filter_append,
    List.filter_cons_of_pos (by simpa using hj)]
  simp

theorem round_spared {j : ℕ} (h : Placed c done p (j::rest)) {s' : State} {ys : List ℕ}
    {task : TimerTask} (hex : examine percision behaviour c.state p = some s')
    (hed : Edited (made percision behaviour c.state p) (touched percision c.state p task) s'
      (done++p::j::rest) ys)
    (hj : .unregister j ∉ made percision behaviour c.state p) :
    ∃ c', walkRound percision behaviour c = some c' ∧ c'.state = s' ∧
      Placed c' ((done++[p]).filter (fun id => .unregister id ∉ made percision behaviour c.state p))
        j (rest.filter (fun id => .unregister id ∉ made percision behaviour c.state p)++ys) := by
  have hnode : c.node = .task j := h.node
  have hst := hed.stored
  rw [filter_spared hj] at hst
  refine ⟨⟨s', .task j, _⟩, ?_, rfl, ⟨hst, rfl, rfl⟩⟩
  simp only [walkRound, h.pos, hex, hnode, Option.bind_eq_bind, Option.bind_some, stored_next hst]
  rfl

theorem round_crashes {j : ℕ} (h : Placed c done p (j::rest)) {s' : State} {ys : List ℕ}
    {task : TimerTask} (hex : examine percision behaviour c.state p = some s')
    (hed : Edited (made percision behaviour c.state p) (touched percision c.state p task) s'
      (done++p::j::rest) ys)
    (hj : .unregister j ∈ made percision behaviour c.state p) :
    walkRound percision behaviour c = none := by
  have hnode : c.node = .task j := h.node
  have hgone : j ∉ (done++p::j::rest).filter
      (fun id => .unregister id ∉ made percision behaviour c.state p)++ys := by
    rw [List.mem_append, not_or]
    refine ⟨by simp [hj], fun hy => ?_⟩
    have hlt := h.stored.fresh j (by simp)
    have hge := hed.new j hy
    exact (hlt.trans_le hge).false
  simp [walkRound, h.pos, hex, hnode, hed.stored.loose j hgone]

end Walk

/-- What the log says when the tasks `done` of the list were examined. The tick
began with the tasks `old`. -/
structure Ledger (old : List ℕ) (s : State) (xs done : List ℕ) : Prop where
  once : (examinedIn s.log).filter (· ∈ xs) = done
  order : xs.filter (· ∈ old) = old.filter (· ∈ xs)
  born : ∀ id ∈ old, id < s.fresh
  seen : ∀ id ∈ examinedIn s.log, id < s.fresh
  alive : Alive s.log
  gone : ∀ id, .unregistered id ∈ s.log → id < s.fresh ∧ id ∉ xs

section Ledger

variable {percision : Percision} {old done xs ys : List ℕ} {s s' : State} {p : ℕ}
  {task : TimerTask} {es : List Edit}

theorem ledger_init (h : Stored s xs) : Ledger xs { s with log := [] } xs [] := by
  refine ⟨rfl, ?_, h.fresh, by simp [examinedIn], List.Pairwise.nil, by simp⟩
  rw [List.filter_eq_self.mpr (by simp)]

theorem mem_edited {id : ℕ} (hed : Edited es (touched percision s p task) s' xs ys)
    (hlt : id < s.fresh) :
    id ∈ xs.filter (fun id => .unregister id ∉ es)++ys ↔ id ∈ xs ∧ .unregister id ∉ es := by
  have hys : id ∉ ys := fun hy => (hlt.trans_le (hed.new id hy)).false
  simp [hys]

theorem log_edited (hed : Edited es (touched percision s p task) s' xs ys) :
    ∃ news, s'.log = s.log++news ∧ examinedIn news = [p] ∧ Alive news ∧
      ∀ e ∈ news, e = .examined p ∨ e = .called p ∨ (∃ id, e = .registered id) ∨
        ∃ id, e = .unregistered id ∧ id < s'.fresh ∧
          id ∉ xs.filter (fun id => .unregister id ∉ es)++ys := by
  obtain ⟨events, hlog, hall⟩ := hed.log
  have hquiet : examinedIn events = [] := by
    apply List.filterMap_eq_nil_iff.mpr
    intro e he
    rcases hall e he with ⟨id, rfl⟩ | ⟨id, rfl, -⟩ <;> rfl
  have hafter : Alive events := by
    apply List.pairwise_of_forall_mem_list
    intro e _ e' he' id _
    rcases hall e' he' with ⟨j, rfl⟩ | ⟨j, rfl, -⟩ <;> simp
  refine ⟨(.examined p::if Due percision task then [.called p] else [])++events, ?_, ?_, ?_, ?_⟩
  · rw [hlog, touched, List.append_assoc]
  · split_ifs <;> simp_all [examinedIn]
  · apply List.pairwise_append.mpr
    refine ⟨?_, hafter, ?_⟩
    · split_ifs <;> simp
    · intro e he e' _ id heq
      split_ifs at he <;> simp_all
  · intro e he
    rcases List.mem_append.mp he with he | he
    · split_ifs at he <;> simp at he <;> tauto
    · rcases hall e he with hreg | hun
      · exact Or.inr (Or.inr (Or.inl hreg))
      · exact Or.inr (Or.inr (Or.inr hun))

/-- Of the tasks that were examined the edits leave those they do not unregister. -/
theorem once_edited (h : Ledger old s xs done) (hp : p ∈ xs)
    (hed : Edited es (touched percision s p task) s' xs ys)
    (hseen : ∀ id ∈ examinedIn s.log++[p], id < s.fresh) :
    (examinedIn s.log++[p]).filter (· ∈ xs.filter (fun id => .unregister id ∉ es)++ys) =
      (done++[p]).filter (fun id => .unregister id ∉ es) := by
  calc (examinedIn s.log++[p]).filter (· ∈ xs.filter (fun id => .unregister id ∉ es)++ys)
      = (examinedIn s.log++[p]).filter (fun id => id ∈ xs ∧ .unregister id ∉ es) := by
        apply List.filter_congr
        intro id hid
        simp only [mem_edited hed (hseen id hid)]
    _ = ((examinedIn s.log++[p]).filter (· ∈ xs)).filter (fun id => .unregister id ∉ es) := by
        rw [List.filter_filter]
        apply List.filter_congr
        intro id _
        simp [Bool.and_comm]
    _ = (done++[p]).filter (fun id => .unregister id ∉ es) := by
        rw [List.filter_append, h.once]
        simp [hp]

/-- The edits keep the order of the tasks that were there before the tick. -/
theorem order_edited (h : Ledger old s xs done)
    (hed : Edited es (touched percision s p task) s' xs ys) :
    (xs.filter (fun id => .unregister id ∉ es)++ys).filter (· ∈ old) =
      old.filter (· ∈ xs.filter (fun id => .unregister id ∉ es)++ys) := by
  have hys : ys.filter (· ∈ old) = [] := by
    apply List.filter_eq_nil_iff.mpr
    intro id hid hold
    exact ((h.born id (by simpa using hold)).trans_le (hed.new id hid)).false
  calc (xs.filter (fun id => .unregister id ∉ es)++ys).filter (· ∈ old)
      = (xs.filter (· ∈ old)).filter (fun id => .unregister id ∉ es) := by
        rw [List.filter_append, hys, List.append_nil, List.filter_filter, List.filter_filter]
        apply List.filter_congr
        intro id _
        rw [Bool.and_comm]
    _ = old.filter (· ∈ xs.filter (fun id => .unregister id ∉ es)++ys) := by
        rw [h.order, List.filter_filter]
        apply List.filter_congr
        intro id hid
        simp only [mem_edited hed (h.born id hid)]
        simp [Bool.and_comm]

/-- Examining the task `p` moves it to the examined ones. -/
theorem ledger_step (h : Ledger old s xs done) (hst : Stored s xs) (hp : p ∈ xs)
    (hed : Edited es (touched percision s p task) s' xs ys) :
    Ledger old s' (xs.filter (fun id => .unregister id ∉ es)++ys)
      ((done++[p]).filter (fun id => .unregister id ∉ es)) := by
  obtain ⟨news, hlog, hone, halive, hnews⟩ := log_edited hed
  have hgrows : s.fresh ≤ s'.fresh := le_of_add_le_left hed.grows
  have hplt : p < s.fresh := hst.fresh p hp
  have hexamined : examinedIn s'.log = examinedIn s.log++[p] := by
    rw [hlog, examinedIn, List.filterMap_append]
    exact congrArg _ hone
  have hseen : ∀ id ∈ examinedIn s.log++[p], id < s.fresh := by
    intro id hid
    rcases List.mem_append.mp hid with hid | hid
    · exact h.seen id hid
    · exact List.mem_singleton.mp hid ▸ hplt
  constructor
  · rw [hexamined]
    exact once_edited h hp hed hseen
  · exact order_edited h hed
  · exact fun id hid => (h.born id hid).trans_le hgrows
  · rw [hexamined]
    exact fun id hid => (hseen id hid).trans_le hgrows
  · rw [hlog]
    apply List.pairwise_append.mpr
    refine ⟨h.alive, halive, ?_⟩
    rintro e he e' he' id rfl
    have hne : p ≠ id := fun hpe => (h.gone id he).2 (hpe ▸ hp)
    rcases hnews e' he' with rfl | rfl | ⟨j, rfl⟩ | ⟨j, rfl, -⟩ <;> simp [hne]
  · intro id hid
    rw [hlog] at hid
    rcases List.mem_append.mp hid with hid | hid
    · obtain ⟨hlt, hout⟩ := h.gone id hid
      exact ⟨hlt.trans_le hgrows, fun hmem => hout ((mem_edited hed hlt).mp hmem).1⟩
    · rcases hnews _ hid with he | he | ⟨j, he⟩ | ⟨j, he, hlt, hout⟩
      · exact nomatch he
      · exact nomatch he
      · exact nomatch he
      · obtain rfl := Event.unregistered.inj he
        exact ⟨hlt, hout⟩

/-- What the log says at the end of the tick, when only tasks that were
registered last, `ys`, were not examined. -/
theorem ledger_final (h : Ledger old s (xs++ys) xs) (hst : Stored s (xs++ys))
    (hys : ∀ id ∈ ys, id ∉ old) :
    (examinedIn s.log).filter (fun id => id ∈ old ∧ (s.tasks id).isSome) =
      old.filter (fun id => (s.tasks id).isSome) := by
  have hmem : ∀ id, (s.tasks id).isSome = decide (id ∈ xs++ys) := by
    intro id
    rw [Bool.eq_iff_iff, hst.allocated, decide_eq_true_iff]
  have hnone : ys.filter (· ∈ old) = [] := by
    apply List.filter_eq_nil_iff.mpr
    exact fun id hid => by simpa using hys id hid
  calc (examinedIn s.log).filter (fun id => id ∈ old ∧ (s.tasks id).isSome)
      = ((examinedIn s.log).filter (· ∈ xs++ys)).filter (· ∈ old) := by
        rw [List.filter_filter]
        apply List.filter_congr
        intro id _
        rw [hmem, Bool.decide_and]
        simp
    _ = (xs++ys).filter (· ∈ old) := by
        rw [h.once, List.filter_append, hnone, List.append_nil]
    _ = old.filter (fun id => (s.tasks id).isSome) := by
        rw [h.order]
        simp only [hmem]

end Ledger

section Whole

variable {percision : Percision} {behaviour : Behaviour} {old : List ℕ}

theorem rounds_head {c : Cursor} (h : c.pos = .head) {k : ℕ} {c' : Cursor}
    (hk : rounds percision behaviour k c = some c') : c' = c := by
  cases k with
  | zero => exact (Option.some.inj hk).symm
  | succ k => simp [rounds, walkRound, h] at hk

theorem spares_head {c : Cursor} (h : c.pos = .head) : Spares percision behaviour c := by
  intro id j hpos
  rw [h] at hpos
  exact nomatch hpos

theorem walk_head {c : Cursor} (h : c.pos = .head) (fuel : ℕ) :
    walk percision behaviour (fuel+1) c = some c.state := if_pos h

theorem walk_task {c : Cursor} {p : ℕ} (h : c.pos = .task p) (fuel : ℕ) :
    walk percision behaviour (fuel+1) c =
      (walkRound percision behaviour c).bind (walk percision behaviour fuel) := by
  rw [walk, if_neg (by simp [h])]
  rfl

/-- The tasks still to be examined, with those that may yet be registered, get
fewer with each round. -/
theorem walk_ends (bound n : ℕ) {c : Cursor} {done rest : List ℕ} {p : ℕ}
    (h : Placed c done p rest) (hl : Ledger old c.state (done++p::rest) done)
    (hn : rest.length+(bound-c.state.fresh) < n)
    (htame : ∀ k c', rounds percision behaviour k c = some c' →
      Spares percision behaviour c' ∧ c'.state.fresh ≤ bound) :
    ∃ fuel s', walk percision behaviour fuel c = some s' ∧
      (examinedIn s'.log).filter (fun id => id ∈ old ∧ (s'.tasks id).isSome) =
        old.filter (fun id => (s'.tasks id).isSome) ∧ Alive s'.log := by
  induction n generalizing c done rest p with
  | zero => omega
  | succ n ih =>
    have hp : p ∈ done++p::rest := by simp
    obtain ⟨task, s', ys, -, hex, hed⟩ := examine_edited percision behaviour h.stored hp
    have hl' := ledger_step hl h.stored hp hed
    cases rest with
    | nil =>
      obtain ⟨node, hround⟩ := round_last h hex hed
      refine ⟨2, s', ?_, ?_, hl'.alive⟩
      · rw [walk_task h.pos, hround]
        rfl
      · apply ledger_final hl' hed.stored
        exact fun id hid hold => ((hl.born id hold).trans_le (hed.new id hid)).false
    | cons j rest =>
      have hspares := (htame 0 c rfl).1 p j h.pos h.node
      obtain ⟨c', hround, hstate, hplaced⟩ := round_spared h hex hed hspares
      have htame' : ∀ k c'', rounds percision behaviour k c' = some c'' →
          Spares percision behaviour c'' ∧ c''.state.fresh ≤ bound := by
        intro k c'' hk
        exact htame (k+1) c'' (by rw [rounds, hround]; exact hk)
      have hbound := (htame' 0 c' rfl).2
      have hgrows := hed.grows
      have hlen := List.length_filter_le
        (fun id => decide (Edit.unregister id ∉ made percision behaviour c.state p)) rest
      rw [filter_spared hspares, ← hstate] at hl'
      rw [← hstate] at hgrows
      change c.state.fresh+ys.length ≤ c'.state.fresh at hgrows
      obtain ⟨fuel, t, hwalk, hrest⟩ := ih hplaced hl' (by
        rw [List.length_append]
        simp only [List.length_cons] at hn
        omega) htame'
      exact ⟨fuel+1, t, by rw [walk_task h.pos, hround]; exact hwalk, hrest⟩

/-- A walk that ends spared the next task at each of its rounds. -/
theorem walk_tame (fuel : ℕ) {c : Cursor} {done rest : List ℕ} {p : ℕ}
    (h : Placed c done p rest) {t : State} (hw : walk percision behaviour fuel c = some t) :
    ∀ k c', rounds percision behaviour k c = some c' →
      Spares percision behaviour c' ∧ c'.state.fresh ≤ t.fresh := by
  induction fuel generalizing c done rest p with
  | zero => exact nomatch hw
  | succ fuel ih =>
    have hp : p ∈ done++p::rest := by simp
    obtain ⟨task, s', ys, -, hex, hed⟩ := examine_edited percision behaviour h.stored hp
    have hgrows : c.state.fresh ≤ s'.fresh := le_of_add_le_left hed.grows
    rw [walk_task h.pos] at hw
    cases rest with
    | nil =>
      obtain ⟨node, hround⟩ := round_last h hex hed
      rw [hround, Option.bind_some] at hw
      have ht : s' = t := by
        cases fuel with
        | zero => exact nomatch hw
        | succ fuel => exact Option.some.inj ((walk_head rfl fuel).symm.trans hw)
      rintro (_ | k) c' hk
      · obtain rfl := Option.some.inj hk
        refine ⟨fun id j _ hnode => ?_, ht ▸ hgrows⟩
        have hhead : c.node = .head := h.node
        rw [hhead] at hnode
        exact nomatch hnode
      · rw [rounds, hround, Option.bind_some] at hk
        obtain rfl := rounds_head rfl hk
        exact ⟨spares_head rfl, ht ▸ le_rfl⟩
    | cons j rest =>
      by_cases hj : .unregister j ∈ made percision behaviour c.state p
      · rw [round_crashes h hex hed hj] at hw
        exact nomatch hw
      · obtain ⟨c₁, hround, hstate, hplaced⟩ := round_spared h hex hed hj
        rw [hround, Option.bind_some] at hw
        have hrest := ih hplaced hw
        rintro (_ | k) c' hk
        · obtain rfl := Option.some.inj hk
          refine ⟨fun id i hpos hnode => ?_, ?_⟩
          · obtain rfl := Cell.task.inj (h.pos.symm.trans hpos)
            obtain rfl := Cell.task.inj (h.node.symm.trans hnode)
            exact hj
          · have := (hrest 0 c₁ rfl).2
            rw [hstate] at this
            exact hgrows.trans this
        · rw [rounds, hround, Option.bind_some] at hk
          exact hrest k c' hk

theorem list_empty_iff {s : State} {xs : List ℕ} (h : Stored s xs) :
    listEmptyCareful s = true ↔ xs = [] := by
  unfold listEmptyCareful
  rw [stored_first h, seg_prev h.ring.1]
  cases xs with
  | nil => simp
  | cons x xs => simp

theorem start_placed {s : State} {p : ℕ} {rest : List ℕ} (h : Stored s (p::rest)) :
    ∃ c, start s = some c ∧ c.state = s ∧ Placed c [] p rest := by
  refine ⟨⟨s, .task p, (rest.map Cell.task).headD .head⟩, ?_, rfl, h, rfl, rfl⟩
  have hfirst : s.links.next .head = some (.task p) := stored_first h
  have hnext : s.links.next (.task p) = some ((rest.map Cell.task).headD .head) :=
    stored_next (by simpa using h : Stored s ([]++p::rest))
  simp only [start, hfirst, hnext, Option.bind_eq_bind, Option.bind_some]

theorem stored_cleared {s : State} {xs : List ℕ} (h : Stored s xs) :
    Stored { s with log := [] } xs :=
  ⟨h.ring, h.allocated, h.fresh, h.loose, h.period⟩

theorem tick_empty {s : State} (h : Stored s []) (fuel : ℕ) :
    timerTick percision behaviour fuel s = some { s with log := [] } := by
  have hempty := (list_empty_iff (stored_cleared h)).mpr rfl
  simp only [timerTick, hempty, if_true]

/-- A tick of a list that is not empty is a walk from its first task. -/
theorem tick_walks {s : State} {p : ℕ} {rest : List ℕ} (h : Stored s (p::rest)) :
    ∃ c, c.state = { s with log := [] } ∧ Placed c [] p rest ∧
      (∀ k, visit percision behaviour s k = rounds percision behaviour k c) ∧
      ∀ fuel, timerTick percision behaviour fuel s = walk percision behaviour fuel c := by
  have hempty : listEmptyCareful { s with log := [] } = false := by
    rw [Bool.eq_false_iff]
    exact fun he => nomatch (list_empty_iff (stored_cleared h)).mp he
  obtain ⟨c, hc, hstate, hplaced⟩ := start_placed (stored_cleared h)
  refine ⟨c, hstate, hplaced, fun k => ?_, fun fuel => ?_⟩
  · simp only [visit, hc, Option.bind_some]
  · simp only [timerTick, hempty, hc, Option.bind_eq_bind, Option.bind_some, Bool.false_eq_true,
      if_false]

/-- A tick that ends is tame. -/
theorem tame_of_tick {s t : State} {xs : List ℕ} (h : Stored s xs) {fuel : ℕ}
    (ht : timerTick percision behaviour fuel s = some t) : Tame percision behaviour s := by
  cases xs with
  | nil =>
    have hfirst : s.links.next .head = some .head := stored_first h
    have hvisit : ∀ k c', visit percision behaviour s k = some c' → c' =
        ⟨{ s with log := [] }, .head, .head⟩ := by
      intro k c' hk
      have hstart : start { s with log := [] } = some ⟨{ s with log := [] }, .head, .head⟩ := by
        simp [start, hfirst]
      rw [visit, hstart, Option.bind_some] at hk
      exact rounds_head rfl hk
    refine ⟨fun k c' hk => ?_, s.fresh, fun k c' hk => ?_⟩ <;> obtain rfl := hvisit k c' hk
    · exact spares_head rfl
    · exact le_rfl
  | cons p rest =>
    obtain ⟨c, -, hplaced, hvisit, htick⟩ := tick_walks h
    have htame := walk_tame fuel hplaced ((htick fuel).symm.trans ht)
    simp only [Tame, hvisit]
    exact ⟨fun k c' hk => (htame k c' hk).1, t.fresh, fun k c' hk => (htame k c' hk).2⟩

theorem robust_of_tame {w : Timers} (h : Tame percision behaviour w.state) :
    Robust percision behaviour w := by
  obtain ⟨s, xs, hst⟩ := w
  cases xs with
  | nil => exact ⟨0, _, tick_empty hst 0, by simp [examinedIn], List.Pairwise.nil⟩
  | cons p rest =>
    obtain ⟨c, hstate, hplaced, hvisit, htick⟩ := tick_walks hst
    obtain ⟨hspares, bound, hbound⟩ := h
    have hl : Ledger (p::rest) c.state ([]++p::rest) [] := hstate ▸ ledger_init hst
    have htame : ∀ k c', rounds percision behaviour k c = some c' →
        Spares percision behaviour c' ∧ c'.state.fresh ≤ bound := by
      intro k c' hk
      rw [← hvisit k] at hk
      exact ⟨hspares k c' hk, hbound k c' hk⟩
    obtain ⟨fuel, t, hwalk, hrest⟩ := walk_ends bound _ hplaced hl (Nat.lt_succ_self _) htame
    exact ⟨fuel, t, (htick fuel).trans hwalk, hrest⟩

/-- A tick is robust exactly when each function it calls leaves the task behind
its own registered, and finitely many tasks are registered in the course of it. -/
theorem tick_robust_iff (percision : Percision) (behaviour : Behaviour) (w : Timers) :
    Robust percision behaviour w ↔ Tame percision behaviour w.state := by
  constructor
  · rintro ⟨fuel, t, ht, -⟩
    exact tame_of_tick w.stored ht
  · exact robust_of_tame

/-- A tick has one end, with any fuel that gets there. -/
theorem walk_unique {fuel fuel' : ℕ} {c : Cursor} {t t' : State}
    (h : walk percision behaviour fuel c = some t)
    (h' : walk percision behaviour fuel' c = some t') : t = t' := by
  induction fuel generalizing c fuel' with
  | zero => exact nomatch h
  | succ fuel ih =>
    cases fuel' with
    | zero => exact nomatch h'
    | succ fuel' =>
      cases hpos : c.pos with
      | head =>
        rw [walk_head hpos] at h h'
        exact Option.some.inj (h.symm.trans h')
      | task p =>
        rw [walk_task hpos] at h h'
        obtain ⟨c', hc, hw⟩ := Option.bind_eq_some_iff.mp h
        rw [hc, Option.bind_some] at h'
        exact ih hw h'

theorem tick_unique {s t t' : State} {xs : List ℕ} (hst : Stored s xs) {fuel fuel' : ℕ}
    (h : timerTick percision behaviour fuel s = some t)
    (h' : timerTick percision behaviour fuel' s = some t') : t = t' := by
  cases xs with
  | nil =>
    rw [tick_empty hst] at h h'
    exact Option.some.inj (h.symm.trans h')
  | cons p rest =>
    obtain ⟨c, -, -, -, htick⟩ := tick_walks hst
    rw [htick] at h h'
    exact walk_unique h h'

/-- The first of two tasks unregisters the second. -/
theorem next_task_unregistered :
    ∃ w : Timers, applyEdits (List.replicate 2 (.register ⟨0, 1000, true, true, true⟩)) init =
        some w.state ∧
      ¬Robust .s1 (fun _ id => if id = 0 then [.unregister 1] else []) w := by
  obtain ⟨s, hs, h⟩ := register_stored stored_init ⟨0, 1000, true, true, true⟩ ⟨rfl, by decide, rfl⟩
  obtain ⟨t, ht, h'⟩ := register_stored h.1 ⟨0, 1000, true, true, true⟩ ⟨rfl, by decide, rfl⟩
  obtain rfl := (Prod.mk.inj (Option.some.inj hs)).2
  obtain rfl := (Prod.mk.inj (Option.some.inj ht)).2
  refine ⟨⟨_, _, h'.1⟩, rfl, ?_⟩
  rintro ⟨_ | fuel, t, hw, -⟩ <;> exact nomatch hw

end Whole

end RS485.Ticking
