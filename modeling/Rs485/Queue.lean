import Rs485.Klist
import Rs485.Platform
import Rs485.Records
import Rs485.Runs

/-!
# The queue of the custom stack

Any number of writers put entries at the head of a list and post a semaphore;
the handler waits for the semaphore, takes the oldest entry, processes it in
place and only then removes it. The steps below may come in any order, so a run
is an interleaving. A step that is not possible where it is tried, such as a
successful wait at count zero, has no result.
-/

set_option autoImplicit false

namespace RS485.Queue
open RS485.Platform RS485.Records RS485.Ring RS485.Klist RS485.Runs

/-- `struct custom_stack_data` and its address, which is never used twice. -/
structure Entry where
  addr : ℕ
  data : WriteDevice
  deriving DecidableEq

inductive Handler where
  | waiting
  | picking
  /-- in `do_bus_message` with an entry, or with what `list_entry` makes of a null pointer -/
  | handling (node : Option Entry)
  deriving DecidableEq

/-- `struct rs485_custom_stack` with the threads at work on it. -/
structure Stack where
  /-- newest first -/
  list : List Entry
  sem : ℕ
  /-- the writers between insertion and post -/
  posting : List Entry
  /-- the writers whose post failed -/
  withdrawing : List Entry
  handler : Handler
  next : ℕ
  /-- the entries inserted so far, oldest first -/
  inserted : List Entry
  /-- the entries given to `do_bus_message` so far, oldest first -/
  passed : List Entry
  /-- the entries of the writes that returned an error after insertion -/
  failed : List Entry
  /-- one entry for each call of `free` -/
  freed : List Entry

def start : Stack := ⟨[], 0, [], [], .waiting, 0, [], [], [], []⟩

/-- `sizeof(write_device_t)` -/
def writeDeviceSize : ℤ := 20

/-- `custom_bus_write` up to the insertion. -/
def customBusWrite (s : Stack) (buffer : Option WriteDevice) (len : ℤ) (calloc : Bool) :
    ℤ × Stack :=
  match buffer with
  | none => (-EINVAL, s)
  | some data =>
    if len ≠ writeDeviceSize then (-EPERM, s)
    else if calloc then
      let node : Entry := ⟨s.next, data⟩
      (0, { s with
        list := node::s.list
        posting := node::s.posting
        next := s.next+1
        inserted := s.inserted++[node] })
    else (-ENOMEM, s)

def semPost (s : Stack) (node : Entry) (ok : Bool) : Option Stack :=
  if node ∈ s.posting then
    let s := { s with posting := s.posting.erase node }
    some (if ok then { s with sem := s.sem+1 } else { s with withdrawing := node::s.withdrawing })
  else none

/-- `sem_post_fail`; an entry that is gone already is freed a second time. -/
def withdraw (s : Stack) (node : Entry) : Option Stack :=
  if node ∈ s.withdrawing then
    some { s with
      withdrawing := s.withdrawing.erase node
      list := s.list.erase node
      freed := node::s.freed
      failed := node::s.failed }
  else none

/-- A wait that fails takes no count, and the handler goes on all the same. -/
def semWait (s : Stack) (ok : Bool) : Option Stack :=
  match s.handler with
  | .waiting =>
    if ok then
      match s.sem with
      | 0 => none
      | sem+1 => some { s with sem := sem, handler := .picking }
    else some { s with handler := .picking }
  | _ => none

/-- The walk ends on the oldest entry. The null test after it never fires: the
null pointer has become the address of an entry by then. -/
def pick (s : Stack) : Option Stack :=
  match s.handler with
  | .picking =>
    let node := s.list.getLast?
    some { s with handler := .handling node, passed := s.passed++node.toList }
  | _ => none

/-- `list_del(target); free(node);` -/
def remove (s : Stack) : Option Stack :=
  match s.handler with
  | .handling (some node) =>
    some { s with handler := .waiting, list := s.list.erase node, freed := node::s.freed }
  | _ => none

inductive Op where
  | write (buffer : Option WriteDevice) (len : ℤ) (calloc : Bool)
  | post (node : Entry) (ok : Bool)
  | withdraw (node : Entry)
  | wait (ok : Bool)
  | pick
  | remove

def step (s : Stack) : Op → Option Stack
  | .write buffer len calloc => some (customBusWrite s buffer len calloc).2
  | .post node ok => semPost s node ok
  | .withdraw node => withdraw s node
  | .wait ok => semWait s ok
  | .pick => pick s
  | .remove => remove s

section Cases

variable {s t : Stack} {node : Entry} {ok : Bool}

/-- The stack with a new entry. -/
def withEntry (s : Stack) (data : WriteDevice) : Stack :=
  { s with
    list := ⟨s.next, data⟩::s.list
    posting := ⟨s.next, data⟩::s.posting
    next := s.next+1
    inserted := s.inserted++[⟨s.next, data⟩] }

theorem write_cases (s : Stack) (buffer : Option WriteDevice) (len : ℤ) (calloc : Bool) :
    (¬(buffer ≠ none ∧ len = writeDeviceSize ∧ calloc = true) ∧
        (customBusWrite s buffer len calloc).1 ≠ 0 ∧ (customBusWrite s buffer len calloc).2 = s) ∨
      ∃ data, buffer = some data ∧ len = writeDeviceSize ∧ calloc = true ∧
        (customBusWrite s buffer len calloc).1 = 0 ∧
        (customBusWrite s buffer len calloc).2 = withEntry s data := by
  have herror : -EINVAL ≠ 0 ∧ -EPERM ≠ 0 ∧ -ENOMEM ≠ 0 := by decide
  unfold customBusWrite
  cases buffer with
  | none => exact Or.inl ⟨by simp, herror.1, rfl⟩
  | some data =>
    simp only
    split_ifs with hlen hcalloc
    · exact Or.inl ⟨by simp [hlen], herror.2.1, rfl⟩
    · exact Or.inr ⟨data, rfl, not_not.mp hlen, hcalloc, rfl, rfl⟩
    · exact Or.inl ⟨by simp [hcalloc], herror.2.2, rfl⟩

theorem post_cases (h : semPost s node ok = some t) : node ∈ s.posting ∧
    ((ok = true ∧ t = { s with posting := s.posting.erase node, sem := s.sem+1 }) ∨
      ok = false ∧ t = { s with
        posting := s.posting.erase node
        withdrawing := node::s.withdrawing }) := by
  unfold semPost at h
  split_ifs at h with hmem hok
  · exact ⟨hmem, Or.inl ⟨hok, (Option.some.inj h).symm⟩⟩
  · exact ⟨hmem, Or.inr ⟨Bool.eq_false_of_not_eq_true hok, (Option.some.inj h).symm⟩⟩

theorem withdraw_cases (h : withdraw s node = some t) : node ∈ s.withdrawing ∧ t = { s with
    withdrawing := s.withdrawing.erase node
    list := s.list.erase node
    freed := node::s.freed
    failed := node::s.failed } := by
  unfold withdraw at h
  split_ifs at h with hmem
  exact ⟨hmem, (Option.some.inj h).symm⟩

theorem wait_cases (h : semWait s ok = some t) : s.handler = .waiting ∧
    ((ok = true ∧ ∃ sem, s.sem = sem+1 ∧ t = { s with sem := sem, handler := .picking }) ∨
      ok = false ∧ t = { s with handler := .picking }) := by
  unfold semWait at h
  cases hn : s.handler with
  | picking => simp [hn] at h
  | handling o => simp [hn] at h
  | waiting =>
    refine ⟨rfl, ?_⟩
    cases ok with
    | false => exact Or.inr ⟨rfl, by simpa [hn] using h.symm⟩
    | true =>
      cases hsem : s.sem with
      | zero => simp [hn, hsem] at h
      | succ sem => exact Or.inl ⟨rfl, sem, rfl, by simpa [hn, hsem] using h.symm⟩

theorem pick_cases (h : pick s = some t) : s.handler = .picking ∧ t = { s with
    handler := .handling s.list.getLast?
    passed := s.passed++s.list.getLast?.toList } := by
  unfold pick at h
  cases hn : s.handler with
  | waiting => simp [hn] at h
  | handling o => simp [hn] at h
  | picking => exact ⟨rfl, by simpa [hn] using h.symm⟩

theorem remove_cases (h : remove s = some t) : ∃ node, s.handler = .handling (some node) ∧
    t = { s with handler := .waiting, list := s.list.erase node, freed := node::s.freed } := by
  unfold remove at h
  split at h
  · next node hn => exact ⟨node, hn, (Option.some.inj h).symm⟩
  · exact absurd h (by simp)

end Cases

section Links

/-- The cells of the queue: the head in the stack, and the entries by address. -/
inductive Cell where
  | head
  | node (addr : ℕ)
  deriving DecidableEq

/-- The ring of links that a queue stands for. -/
def Stands (l : Links Cell) (list : List Entry) : Prop :=
  IsRing l .head (list.map fun e => .node e.addr)

/-- `list_for_each(pos, &stack->list) target = pos;` -/
def oldest (l : Links Cell) (fuel : ℕ) : Option (Option Cell) := do
  let next ← l.next .head
  let visited ← listForEach l .head fuel next
  some visited.getLast?

/-- What a step of the stack does to the links. -/
def linksStep (l : Links Cell) (s : Stack) : Op → Option (Links Cell)
  | .write buffer len calloc =>
    if (customBusWrite s buffer len calloc).1 = 0 then listAdd l (.node s.next) .head else some l
  | .withdraw node => listDel l (.node node.addr)
  | .remove =>
    match s.handler with
    | .handling (some node) => listDel l (.node node.addr)
    | _ => none
  | _ => some l

/-- A step of the stack with the links of its queue. -/
def linkedStep (step : Stack → Op → Option Stack) (p : Stack × Links Cell) (op : Op) :
    Option (Stack × Links Cell) := do
  let t ← step p.1 op
  let l ← linksStep p.2 p.1 op
  some (t, l)

def linkedStart : Stack × Links Cell := (start, initListHead ⟨fun _ => none, fun _ => none⟩ .head)

variable {l : Links Cell} {list : List Entry}

theorem insert_stands (h : Stands l list) (node : Entry) (hnew : ∀ e ∈ list, e.addr ≠ node.addr) :
    ∃ l', listAdd l (.node node.addr) .head = some l' ∧ Stands l' (node::list) := by
  have hfree : Cell.node node.addr ∉ Cell.head::list.map fun e => .node e.addr := by
    simpa using hnew
  obtain ⟨l', hadd, hring, -⟩ := list_add_ring h hfree
  exact ⟨l', hadd, hring⟩

theorem oldest_stands (h : Stands l list) (fuel : ℕ) (hf : list.length < fuel) :
    oldest l fuel = some (list.getLast?.map fun e => .node e.addr) := by
  have hwalk := for_each_ring h fuel (by simpa using hf)
  obtain ⟨next, hnext, hvisit⟩ := Option.bind_eq_some_iff.mp hwalk
  simp [oldest, hnext, hvisit]

theorem remove_stands (h : Stands l list) {node : Entry} (hmem : node ∈ list) :
    ∃ l', listDel l (.node node.addr) = some l' ∧ Stands l' (list.erase node) := by
  obtain ⟨xs, ys, hnot, rfl, herase⟩ := List.exists_erase_eq hmem
  rw [Stands, List.map_append, List.map_cons] at h
  obtain ⟨l', hdel, hring, -⟩ := list_del_ring h
  refine ⟨l', hdel, ?_⟩
  rw [Stands, herase, List.map_append]
  exact hring

end Links

end RS485.Queue
