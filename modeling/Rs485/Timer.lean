import Rs485.Klist
import Rs485.Platform

/-!
# The timer

`timer.c` over the links of `klist.h`. A tick walks over the task list and
calls the functions of the tasks that are due, which may register and
unregister tasks themselves. Links of freed or poisoned memory are null, and a
walk that follows one has no result.
-/

set_option autoImplicit false

namespace RS485.Timer
open RS485.Platform RS485.Ring RS485.Klist

/-- Addresses of `struct timer_task` are numbers; none is given out twice. -/
inductive Cell where
  | head
  | task (id : ℕ)
  deriving DecidableEq, Repr

/-- The configurable values of `TIMER_PERCISION`. -/
inductive Percision where
  | ms10
  | ms50
  | ms100
  | ms500
  | s1
  | s10
  deriving DecidableEq, Repr

def Percision.ms : Percision → BitVec 32
  | .ms10 => 10
  | .ms50 => 50
  | .ms100 => 100
  | .ms500 => 500
  | .s1 => 1000
  | .s10 => 10000

structure TimerTask where
  period : BitVec 32
  tick : BitVec 32
  enable : Bool
  deriving DecidableEq

inductive Event where
  | examined (id : ℕ)
  | called (id : ℕ)
  | registered (id : ℕ)
  | unregistered (id : ℕ)
  deriving DecidableEq, Repr

structure State where
  links : Links Cell
  tasks : ℕ → Option TimerTask
  fresh : ℕ
  log : List Event

/-- The arguments of `timer_task_register`. The flags say whether the function
is not null, and whether there is memory. -/
structure Registration where
  prev : BitVec 32
  period : BitVec 32
  function : Bool
  enable : Bool
  room : Bool
  deriving DecidableEq

/-- What a task function does to the task list. -/
inductive Edit where
  | register (r : Registration)
  | unregister (id : ℕ)
  deriving DecidableEq

/-- The edits of the function of a task, in the state it is called in. -/
abbrev Behaviour := State → ℕ → List Edit

def init : State where
  links := initListHead ⟨fun _ => none, fun _ => none⟩ .head
  tasks _ := none
  fresh := 0
  log := []

def State.put (s : State) (id : ℕ) (task : TimerTask) : State :=
  { s with tasks := Function.update s.tasks id (some task) }

def State.note (s : State) (e : Event) : State := { s with log := s.log++[e] }

def timerTaskRegister (s : State) (r : Registration) : Option (ℤ × State) :=
  if r.function = false ∨ r.period = 0#32 then some (-EINVAL, s)
  else if r.room = false then some (-ENOMEM, s)
  else do
    let links ← listAddTail s.links (.task s.fresh) .head
    let s' := { s with links := links, fresh := s.fresh+1 }
    some (0, (s'.put s.fresh ⟨r.period, r.prev, r.enable⟩).note (.registered s.fresh))

def timerTaskUnregister (s : State) (id : Option ℕ) : Option (ℤ × State) :=
  match id with
  | none => some (-EINVAL, s)
  | some id => do
    let links ← listDel s.links (.task id)
    let s' := { s with links := links, tasks := Function.update s.tasks id none }
    some (0, s'.note (.unregistered id))

/-- A task function unregisters tasks that are still registered. -/
def applyEdit (s : State) : Edit → Option State
  | .register r => do
    let (_, s) ← timerTaskRegister s r
    some s
  | .unregister id =>
    if (s.tasks id).isSome then do
      let (_, s) ← timerTaskUnregister s (some id)
      some s
    else some s

def applyEdits : List Edit → State → Option State
  | [], s => some s
  | e::es, s => do
    let s ← applyEdit s e
    applyEdits es s

structure Cursor where
  state : State
  pos : Cell
  node : Cell

section Tick

variable (percision : Percision) (behaviour : Behaviour)

/-- The body of the loop for the task `id`. -/
def examine (s : State) (id : ℕ) : Option State := do
  let task ← s.tasks id
  let s := s.note (.examined id)
  if task.enable = false then some s
  else
    let tick := task.tick + percision.ms
    if tick < task.period then some (s.put id { task with tick := tick })
    else
      let s := (s.put id { task with tick := 0#32 }).note (.called id)
      applyEdits (behaviour s id) s

/-- One round of `list_for_each_entry_safe`: the body, `pos = n` and
`n = n->next`. -/
def walkRound (c : Cursor) : Option Cursor :=
  match c.pos with
  | .head => none
  | .task id => do
    let s ← examine percision behaviour c.state id
    let next ← s.links.next c.node
    some ⟨s, c.node, next⟩

def walk : ℕ → Cursor → Option State
  | 0, _ => none
  | fuel+1, c =>
    if c.pos = .head then some c.state
    else do
      let c ← walkRound percision behaviour c
      walk fuel c

def start (s : State) : Option Cursor := do
  let pos ← s.links.next .head
  let node ← s.links.next pos
  some ⟨s, pos, node⟩

def listEmptyCareful (s : State) : Bool :=
  s.links.next .head = some .head ∧ s.links.next .head = s.links.prev .head

/-- One iteration of the loop of `timer_task_pthread_handle`. The log is that of
this tick. -/
def timerTick (fuel : ℕ) (s : State) : Option State :=
  let s := { s with log := [] }
  if listEmptyCareful s then some s
  else do
    let c ← start s
    walk percision behaviour fuel c

end Tick

/-- The list holds the tasks `xs` in this order, and they are the ones that are
allocated. -/
structure Stored (s : State) (xs : List ℕ) : Prop where
  ring : IsRing s.links .head (xs.map .task)
  allocated : ∀ id, (s.tasks id).isSome = true ↔ id ∈ xs
  fresh : ∀ id ∈ xs, id < s.fresh
  loose : ∀ id, id ∉ xs → s.links.next (.task id) = none
  period : ∀ id task, s.tasks id = some task → task.period ≠ 0#32

section Stored

variable {s : State} {xs : List ℕ}

theorem stored_init : Stored init [] := by
  refine ⟨init_ring _ _, by simp [init], by simp, fun id _ => ?_, by simp [init]⟩
  simp [init, initListHead, setNext, setPrev]

theorem stored_nodup (h : Stored s xs) : xs.Nodup :=
  (List.nodup_cons.mp h.ring.2).2.of_map _

theorem stored_task (h : Stored s xs) {id : ℕ} (hid : id ∈ xs) :
    ∃ task, s.tasks id = some task :=
  Option.isSome_iff_exists.mp ((h.allocated id).mpr hid)

theorem stored_put (h : Stored s xs) {id : ℕ} (hid : id ∈ xs) {task : TimerTask}
    (hp : task.period ≠ 0#32) : Stored (s.put id task) xs := by
  refine ⟨h.ring, fun j => ?_, h.fresh, h.loose, fun j t hj => ?_⟩
  · by_cases hji : j = id
    · simp [State.put, hji, hid]
    · simpa [State.put, hji] using h.allocated j
  · by_cases hji : j = id
    · obtain rfl : task = t := by simpa [State.put, hji] using hj
      exact hp
    · exact h.period j t (by simpa [State.put, hji] using hj)

theorem task_not_mem {id : ℕ} (hid : id ∉ xs) :
    (.task id : Cell) ∉ Cell.head::xs.map .task := by
  simpa using hid

/-- The arguments are in order, and there is memory. -/
def Accepted (r : Registration) : Prop := r.function = true ∧ r.period ≠ 0#32 ∧ r.room = true

theorem register_stored (h : Stored s xs) (r : Registration) (hr : Accepted r) :
    ∃ s', timerTaskRegister s r = some (0, s') ∧ Stored s' (xs++[s.fresh]) ∧
      s'.fresh = s.fresh+1 ∧ s'.log = s.log++[.registered s.fresh] ∧
      ∀ id ≠ s.fresh, s'.tasks id = s.tasks id := by
  obtain ⟨hfunction, hperiod, hroom⟩ := hr
  have hfresh : s.fresh ∉ xs := fun hmem => (h.fresh _ hmem).false
  obtain ⟨links, hadd, hring, hout⟩ := list_add_tail_ring h.ring (task_not_mem hfresh)
  have hreg : timerTaskRegister s r = some (0,
      { links := links
        tasks := Function.update s.tasks s.fresh (some ⟨r.period, r.prev, r.enable⟩)
        fresh := s.fresh+1
        log := s.log++[.registered s.fresh] }) := by
    simp only [timerTaskRegister, hfunction, hperiod, hroom, hadd]
    rfl
  refine ⟨_, hreg, ⟨by simpa using hring, fun id => ?_, fun id hid => ?_, fun id hid => ?_,
    fun id task htask => ?_⟩, rfl, rfl, fun id hid => Function.update_of_ne hid _ _⟩
  · by_cases hid : id = s.fresh
    · simp [hid]
    · simpa [hid] using h.allocated id
  · rcases List.mem_append.mp hid with hid | hid
    · exact Nat.lt_succ_of_lt (h.fresh id hid)
    · rw [List.mem_singleton.mp hid]
      exact Nat.lt_succ_self _
  · rw [List.mem_append, List.mem_singleton, not_or] at hid
    have hcell : (.task id : Cell) ∉ Cell.task s.fresh::Cell.head::xs.map .task := by
      simpa using ⟨hid.2, hid.1⟩
    exact ((hout _ hcell).1).trans (h.loose id hid.1)
  · by_cases hid : id = s.fresh
    · obtain rfl : _ = task := by simpa [hid] using htask
      exact hperiod
    · exact h.period id task (by simpa [hid] using htask)

theorem register_refused (r : Registration) (hr : ¬Accepted r) :
    ∃ error, timerTaskRegister s r = some (error, s) := by
  unfold timerTaskRegister
  split_ifs with hbad hroom
  · exact ⟨_, rfl⟩
  · exact ⟨_, rfl⟩
  · refine absurd ⟨?_, fun hp => hbad (Or.inr hp), ?_⟩ hr
    · simpa using fun hf => hbad (Or.inl hf)
    · simpa using hroom

theorem unregister_stored (h : Stored s xs) {id : ℕ} (hid : id ∈ xs) :
    ∃ s', timerTaskUnregister s (some id) = some (0, s') ∧ Stored s' (xs.erase id) ∧
      s'.fresh = s.fresh ∧ s'.log = s.log++[.unregistered id] ∧
      ∀ j ≠ id, s'.tasks j = s.tasks j := by
  obtain ⟨pre, post, rfl⟩ := List.append_of_mem hid
  have hd := stored_nodup h
  have hpre : id ∉ pre := fun hmem => (List.nodup_append.mp hd).2.2 id hmem id (by simp) rfl
  have hring : IsRing s.links .head (pre.map .task++.task id::post.map .task) := by
    simpa using h.ring
  obtain ⟨links, hdel, hr, hout⟩ := list_del_ring hring
  have hun : timerTaskUnregister s (some id) = some (0,
      { s with
        links := links
        tasks := Function.update s.tasks id none
        log := s.log++[.unregistered id] }) := by
    simp only [timerTaskUnregister, hdel]
    rfl
  have hnext : links.next (.task id) = none := by
    obtain ⟨p, -, hdel⟩ := Option.bind_eq_some_iff.mp hdel
    obtain ⟨q, -, hdel⟩ := Option.bind_eq_some_iff.mp hdel
    rw [← Option.some.inj hdel]
    simp [setNext, setPrev]
  have herase : (pre++id::post).erase id = pre++post := by
    rw [List.erase_append_right _ hpre, List.erase_cons_head]
  refine ⟨_, hun, ?_, rfl, rfl, fun j hj => Function.update_of_ne hj _ _⟩
  rw [herase]
  have hmem : ∀ j, j ∈ pre++post ↔ j ∈ pre++id::post ∧ j ≠ id := by
    intro j
    rw [← herase, hd.mem_erase_iff, and_comm]
  refine ⟨by simpa using hr, ?_, ?_, ?_, ?_⟩
  · intro j
    rw [hmem]
    by_cases hj : j = id
    · simp [hj]
    · simpa [hj] using h.allocated j
  · exact fun j hj => h.fresh j ((hmem j).mp hj).1
  · intro j hj
    by_cases hji : j = id
    · rw [hji]
      exact hnext
    · have hj' : j ∉ pre++id::post := fun hmem' => hj ((hmem j).mpr ⟨hmem', hji⟩)
      have hcell := task_not_mem hj'
      simp only [List.map_append, List.map_cons] at hcell
      exact ((hout _ hcell).1).trans (h.loose j hj')
  · intro j task htask
    by_cases hji : j = id
    · simp [hji] at htask
    · exact h.period j task (by simpa [hji] using htask)

end Stored

/-- What edits do to the list: the tasks they unregister are gone, and the ones
they register stand behind the others. -/
structure Edited (es : List Edit) (s s' : State) (xs ys : List ℕ) : Prop where
  stored : Stored s' (xs.filter (fun id => .unregister id ∉ es)++ys)
  new : ∀ id ∈ ys, s.fresh ≤ id
  grows : s.fresh+ys.length ≤ s'.fresh
  frame : ∀ id ∈ xs, .unregister id ∉ es → s'.tasks id = s.tasks id
  log : ∃ events, s'.log = s.log++events ∧ ∀ e ∈ events, (∃ id, e = .registered id) ∨
    ∃ id, e = .unregistered id ∧ id < s'.fresh ∧
      id ∉ xs.filter (fun id => .unregister id ∉ es)++ys

section Edits

variable {s s' : State} {xs ys : List ℕ}

theorem edited_nil (h : Stored s xs) : Edited [] s s xs [] := by
  exact ⟨by simpa using h, by simp, by simp, by simp, [], by simp, by simp⟩

theorem filter_unregister {es : List Edit} {id : ℕ} :
    xs.filter (fun j => .unregister j ∉ .unregister id::es) =
      (xs.filter (· ≠ id)).filter (fun j => .unregister j ∉ es) := by
  rw [List.filter_filter]
  apply List.filter_congr
  intro j _
  simp [Bool.and_comm]

theorem filter_register {es : List Edit} {r : Registration} (zs : List ℕ) :
    zs.filter (fun id => .unregister id ∉ .register r::es) =
      zs.filter (fun id => .unregister id ∉ es) := by simp

/-- A task that is not listed is not unregistered. -/
theorem filter_absent {es : List Edit} {id : ℕ} (hid : id ∉ xs) :
    xs.filter (fun j => .unregister j ∉ .unregister id::es) =
      xs.filter (fun j => .unregister j ∉ es) := by
  rw [filter_unregister]
  congr 1
  refine List.filter_eq_self.mpr fun j hj => ?_
  simpa using fun he : j = id => hid (he ▸ hj)

theorem filter_erased {es : List Edit} {id : ℕ} (hd : xs.Nodup) :
    (xs.erase id).filter (fun j => .unregister j ∉ es) =
      xs.filter (fun j => .unregister j ∉ .unregister id::es) := by
  rw [filter_unregister, hd.erase_eq_filter]
  congr 2
  funext j
  rw [Bool.eq_iff_iff]
  simp

theorem edited_refused {es : List Edit} {r : Registration} (hed : Edited es s s' xs ys) :
    Edited (.register r::es) s s' xs ys :=
  ⟨by simpa [filter_register] using hed.stored, hed.new, hed.grows, by simpa using hed.frame,
    by simpa [filter_register] using hed.log⟩

theorem edited_absent {es : List Edit} {id : ℕ} (hid : id ∉ xs) (hed : Edited es s s' xs ys) :
    Edited (.unregister id::es) s s' xs ys := by
  refine ⟨?_, hed.new, hed.grows, fun j hj hkept => ?_, ?_⟩
  · rw [filter_absent hid]
    exact hed.stored
  · exact hed.frame j hj (fun hmem => hkept (List.mem_cons_of_mem _ hmem))
  · rw [filter_absent hid]
    exact hed.log

/-- A registered task stands at the end of the list, unless a later edit takes it off. -/
theorem edited_registered {es : List Edit} {r : Registration} {s₁ : State} (h : Stored s xs)
    (hfresh : s₁.fresh = s.fresh+1) (hlog : s₁.log = s.log++[.registered s.fresh])
    (hsame : ∀ id, id ≠ s.fresh → s₁.tasks id = s.tasks id)
    (hed : Edited es s₁ s' (xs++[s.fresh]) ys) :
    Edited (.register r::es) s s' xs ([s.fresh].filter (fun id => .unregister id ∉ es)++ys) := by
  have hsplit : (xs++[s.fresh]).filter (fun id => .unregister id ∉ es)++ys =
      xs.filter (fun id => .unregister id ∉ .register r::es)++
        ([s.fresh].filter (fun id => .unregister id ∉ es)++ys) := by
    rw [filter_register, List.filter_append, List.append_assoc]
  have hone := List.length_filter_le (fun id => decide (Edit.unregister id ∉ es)) [s.fresh]
  have hgrows := hed.grows
  obtain ⟨events, hevents, hall⟩ := hed.log
  refine ⟨hsplit ▸ hed.stored, ?_, ?_, ?_, .registered s.fresh::events, ?_, ?_⟩
  · intro id hid
    rcases List.mem_append.mp hid with hid | hid
    · exact (List.mem_singleton.mp (List.mem_filter.mp hid).1).ge
    · have := hed.new id hid
      omega
  · rw [List.length_append]
    simp only [List.length_singleton] at hone
    omega
  · intro id hid hkept
    have hne : id ≠ s.fresh := (h.fresh id hid).ne
    rw [hed.frame id (by simp [hid]) (by simpa using hkept), hsame id hne]
  · rw [hevents, hlog, List.append_assoc]
    rfl
  · intro e he
    rcases List.mem_cons.mp he with rfl | he
    · exact Or.inl ⟨_, rfl⟩
    · exact hsplit ▸ hall e he

theorem edited_unregistered {es : List Edit} {id : ℕ} {s₁ : State} (h : Stored s xs)
    (hid : id ∈ xs) (hfresh : s₁.fresh = s.fresh) (hlog : s₁.log = s.log++[.unregistered id])
    (hsame : ∀ j, j ≠ id → s₁.tasks j = s.tasks j) (hed : Edited es s₁ s' (xs.erase id) ys) :
    Edited (.unregister id::es) s s' xs ys := by
  have hfilter : (xs.erase id).filter (fun j => .unregister j ∉ es) =
      xs.filter (fun j => .unregister j ∉ .unregister id::es) := filter_erased (stored_nodup h)
  have hgrows := hed.grows
  obtain ⟨events, hevents, hall⟩ := hed.log
  refine ⟨hfilter ▸ hed.stored, hfresh ▸ hed.new, by omega, ?_, .unregistered id::events, ?_, ?_⟩
  · intro j hj hkept
    simp only [List.mem_cons, Edit.unregister.injEq, not_or] at hkept
    have hj' : j ∈ xs.erase id := (List.mem_erase_of_ne hkept.1).mpr hj
    rw [hed.frame j hj' hkept.2, hsame j hkept.1]
  · rw [hevents, hlog, List.append_assoc]
    rfl
  · intro e he
    rcases List.mem_cons.mp he with rfl | he
    · refine Or.inr ⟨id, rfl, ?_, ?_⟩
      · have := h.fresh id hid
        omega
      · rw [List.mem_append, not_or]
        refine ⟨by simp, fun hy => ?_⟩
        have h1 := hed.new id hy
        have h2 := h.fresh id hid
        omega
    · exact hfilter ▸ hall e he

theorem edits_edited (es : List Edit) (h : Stored s xs) :
    ∃ s' ys, applyEdits es s = some s' ∧ Edited es s s' xs ys := by
  induction es generalizing s xs with
  | nil => exact ⟨s, [], rfl, edited_nil h⟩
  | cons e es ih =>
    cases e with
    | register r =>
      by_cases hr : Accepted r
      · obtain ⟨s₁, hreg, h₁, hfresh, hlog, hsame⟩ := register_stored h r hr
        obtain ⟨s', ys, happly, hed⟩ := ih h₁
        refine ⟨s', _, ?_, edited_registered h hfresh hlog hsame hed⟩
        simpa [applyEdits, applyEdit, hreg] using happly
      · obtain ⟨error, hreg⟩ := register_refused (s := s) r hr
        obtain ⟨s', ys, happly, hed⟩ := ih h
        refine ⟨s', ys, ?_, edited_refused hed⟩
        simpa [applyEdits, applyEdit, hreg] using happly
    | unregister id =>
      by_cases hid : id ∈ xs
      · obtain ⟨s₁, hun, h₁, hfresh, hlog, hsame⟩ := unregister_stored h hid
        obtain ⟨s', ys, happly, hed⟩ := ih h₁
        refine ⟨s', ys, ?_, edited_unregistered h hid hfresh hlog hsame hed⟩
        simpa [applyEdits, applyEdit, (h.allocated id).mpr hid, hun] using happly
      · have hnone : (s.tasks id).isSome = false := by
          rw [Bool.eq_false_iff]
          exact fun hs => hid ((h.allocated id).mp hs)
        obtain ⟨s', ys, happly, hed⟩ := ih h
        refine ⟨s', ys, ?_, edited_absent hid hed⟩
        simpa [applyEdits, applyEdit, hnone] using happly

end Edits

end RS485.Timer
