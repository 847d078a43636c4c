import Rs485.Klist
import Rs485.Attached

/-!
# The attached lists of the sdk

`wlist.c` on a heap of list heads and list nodes. A node that belongs to a list
points back to it, and a list may carry callbacks that are told when a node is
attached, passed by an iterator or detached. A result is missing where the code
reads through a null pointer, or reads the memory beside a list head as a node.
-/

set_option autoImplicit false

namespace RS485.Wlist
open RS485.Ring RS485.Klist

/-- A `struct list_head`: the one inside a list, or the one inside a node. -/
inductive Cell (L N : Type) where
  | head (k : L)
  | node (n : N)
  deriving DecidableEq

structure Heap (L N : Type) where
  links : Links (Cell L N)
  nWlist : N → Option L
  /-- whether the list has the callback -/
  get : L → Bool
  put : L → Bool
  /-- calls of the callbacks so far -/
  gets : N → ℕ
  puts : N → ℕ

variable {L N : Type}

/-- The list `k` holds exactly `xs` in this order, linked both ways, and each
of its nodes points back to it. -/
def Holds (h : Heap L N) (k : L) (xs : List N) : Prop :=
  IsRing h.links (.head k) (xs.map .node) ∧ ∀ n ∈ xs, h.nWlist n = some k

theorem holds_congr {h h' : Heap L N} {k : L} {xs : List N} (hl : h'.links = h.links)
    (hw : h'.nWlist = h.nWlist) : Holds h' k xs ↔ Holds h k xs := by
  rw [Holds, Holds, hl, hw]

theorem holds_nodup {h : Heap L N} {k : L} {xs : List N} (hh : Holds h k xs) : xs.Nodup :=
  (List.nodup_cons.mp hh.1.2).2.of_map _

variable [DecidableEq N]

/-- `if (put) put(n)` -/
def callPut (h : Heap L N) (put : Bool) (n : N) : Heap L N :=
  if put then { h with puts := Function.update h.puts n (h.puts n + 1) } else h

@[simp] theorem call_put_links (h : Heap L N) (b : Bool) (n : N) :
    (callPut h b n).links = h.links := by
  unfold callPut
  split <;> rfl

@[simp] theorem call_put_nWlist (h : Heap L N) (b : Bool) (n : N) :
    (callPut h b n).nWlist = h.nWlist := by
  unfold callPut
  split <;> rfl

variable [DecidableEq L]

def wlistInit (h : Heap L N) (k : L) (get put : Bool) : Heap L N :=
  { h with
    links := initListHead h.links (.head k)
    get := Function.update h.get k get
    put := Function.update h.put k put }

def wlistNodeInit (h : Heap L N) (k : L) (n : N) : Heap L N :=
  { h with
    links := initListHead h.links (.node n)
    nWlist := Function.update h.nWlist n (some k)
    gets := if h.get k then Function.update h.gets n (h.gets n + 1) else h.gets }

def addHead (h : Heap L N) (k : L) (n : N) : Option (Heap L N) := do
  let l ← listAdd h.links (.node n) (.head k)
  some { h with links := l }

def addTail (h : Heap L N) (k : L) (n : N) : Option (Heap L N) := do
  let l ← listAddTail h.links (.node n) (.head k)
  some { h with links := l }

def wlistAddHead (h : Heap L N) (n : N) (k : L) : Option (Heap L N) :=
  addHead (wlistNodeInit h k n) k n

def wlistAddTail (h : Heap L N) (n : N) (k : L) : Option (Heap L N) :=
  addTail (wlistNodeInit h k n) k n

def wlistAddAfter (h : Heap L N) (n pos : N) : Option (Heap L N) := do
  let k ← h.nWlist pos
  let h := wlistNodeInit h k n
  let l ← listAdd h.links (.node n) (.node pos)
  some { h with links := l }

def wlistAddBefore (h : Heap L N) (n pos : N) : Option (Heap L N) := do
  let k ← h.nWlist pos
  let h := wlistNodeInit h k n
  let l ← listAddTail h.links (.node n) (.node pos)
  some { h with links := l }

def wlistRelease (h : Heap L N) (n : N) : Option (Heap L N) := do
  let l ← listDel h.links (.node n)
  some { h with links := l, nWlist := Function.update h.nWlist n none }

def wlistDel (h : Heap L N) (n : N) : Option (Heap L N) := do
  let k ← h.nWlist n
  let h' ← wlistRelease h n
  some (callPut h' (h.put k) n)

/-- A `struct wlist_node *` other than null. Where it does not point to a node, it lies
beside the head of a list or beside the null pointer. -/
inductive NodePtr (L N : Type) where
  | node (n : N)
  | astray (k : Option L)
  deriving DecidableEq

/-- `to_wlist_node`, which subtracts an offset from whatever it is given -/
def toWlistNode : Option (Cell L N) → NodePtr L N
  | some (.node n) => .node n
  | some (.head k) => .astray (some k)
  | none => .astray none

def NodePtr.node? : NodePtr L N → Option N
  | .node n => some n
  | .astray _ => none

omit [DecidableEq N] [DecidableEq L] in
@[simp] theorem node_node (n : N) : (NodePtr.node n : NodePtr L N).node? = some n := rfl

structure Iter (L N : Type) where
  iWlist : L
  iCur : Option (NodePtr L N)

def wlistIterInitNode (k : L) (n : Option N) : Iter L N := ⟨k, n.map .node⟩

omit [DecidableEq N] [DecidableEq L] in
@[simp] theorem init_node_list (k : L) (n : Option N) :
    (wlistIterInitNode k n).iWlist = k := rfl

omit [DecidableEq N] [DecidableEq L] in
@[simp] theorem init_node_cur (k : L) (n : Option N) :
    (wlistIterInitNode k n).iCur = n.map .node := rfl

def wlistIterInit (k : L) : Iter L N := wlistIterInitNode k none

def wlistIterExit (h : Heap L N) (i : Iter L N) : Option (Heap L N × Iter L N) :=
  match i.iCur with
  | none => some (h, i)
  | some p => do
    let n ← p.node?
    let h ← wlistDel h n
    some (h, { i with iCur := none })

/-- The end of an iteration deletes the node the iterator is on. -/
theorem iter_exit_node {h h' : Heap L N} {i : Iter L N} {n : N} (hcur : i.iCur = some (.node n))
    (hdel : wlistDel h n = some h') : wlistIterExit h i = some (h', { i with iCur := none }) := by
  simp [wlistIterExit, hcur, hdel]

/-- The cell whose link the iterator follows next. There is none at the null pointer. -/
def Iter.cell (i : Iter L N) : Option (Cell L N) :=
  match i.iCur with
  | none => some (.head i.iWlist)
  | some (.node n) => some (.node n)
  | some (.astray k) => k.map .head

/-- `if (put && lnode) put(lnode)`. Away from the nodes the call counts for none. -/
def callPutLeft (h : Heap L N) (i : Iter L N) : Heap L N :=
  match i.iCur.bind NodePtr.node? with
  | none => h
  | some lnode => callPut h (h.put i.iWlist) lnode

/-- The pointer it returns is left in `iCur`. -/
def wlistNext (h : Heap L N) (i : Iter L N) : Option (Heap L N × Iter L N) := do
  let cell ← i.cell
  let next := h.links.next cell
  let cur := if next = some (.head i.iWlist) then none else some (toWlistNode next)
  some (callPutLeft h i, { i with iCur := cur })

omit [DecidableEq N] [DecidableEq L] in
theorem not_mem_of_detached {h : Heap L N} {k : L} {xs : List N} {n : N} (hh : Holds h k xs)
    (hn : h.nWlist n = none) : (.node n : Cell L N) ∉ Cell.head k::xs.map .node := by
  simp only [List.mem_cons, reduceCtorEq, List.mem_map, Cell.node.injEq, exists_eq_right, false_or]
  intro hmem
  simp [hh.2 n hmem] at hn

/-- A node is initialised, and then an operation on the links puts it into the list. -/
theorem placed_holds (op : Links (Cell L N) → Option (Links (Cell L N))) (xs' : List N)
    {h : Heap L N} {k : L} {xs : List N} {n : N} (hh : Holds h k xs) (hn : h.nWlist n = none)
    (hop : ∀ l, IsRing l (.head k) (xs.map .node) →
      (.node n : Cell L N) ∉ Cell.head k::xs.map .node → ∃ l', op l = some l' ∧
        IsRing l' (.head k) (xs'.map .node) ∧ SameOutside (.node n::.head k::xs.map .node) l l')
    (hmem : ∀ m ∈ xs', m = n ∨ m ∈ xs) :
    ∃ l, op (wlistNodeInit h k n).links = some l ∧
      Holds { wlistNodeInit h k n with links := l } k xs' ∧
      SameOutside (.node n::.head k::xs.map .node) h.links l := by
  have hfresh := not_mem_of_detached hh hn
  have hinit : SameOutside [.node n] h.links (wlistNodeInit h k n).links := by
    intro c hc
    simp only [List.mem_singleton] at hc
    simp [wlistNodeInit, initListHead, setNext, setPrev, hc]
  have hring : IsRing (wlistNodeInit h k n).links (.head k) (xs.map .node) := by
    apply ring_outside hh.1 hinit
    intro c hc hmem
    exact hfresh (List.mem_singleton.mp hmem ▸ hc)
  obtain ⟨l, hadd, hr, hout⟩ := hop _ hring hfresh
  refine ⟨l, hadd, ⟨hr, ?_⟩, ?_⟩
  · intro m hm
    by_cases he : m = n
    · simp [wlistNodeInit, he]
    · simpa [wlistNodeInit, he] using hh.2 m ((hmem m hm).resolve_left he)
  · apply same_outside_trans (same_outside_mono hinit _) hout
    simp

theorem wlist_add_head_holds {h : Heap L N} {k : L} {xs : List N} {n : N} (hh : Holds h k xs)
    (hn : h.nWlist n = none) :
    ∃ h', wlistAddHead h n k = some h' ∧ Holds h' k (n::xs) ∧
      h'.nWlist = Function.update h.nWlist n (some k) ∧
      SameOutside (.node n::.head k::xs.map .node) h.links h'.links := by
  obtain ⟨l, hadd, hholds, hout⟩ := placed_holds (listAdd · (.node n) (.head k)) (n::xs) hh hn
    (fun l hr hnew => list_add_ring hr hnew) (by simp)
  exact ⟨_, by simp only [wlistAddHead, addHead, hadd]; rfl, hholds, rfl, hout⟩

theorem wlist_add_tail_holds {h : Heap L N} {k : L} {xs : List N} {n : N} (hh : Holds h k xs)
    (hn : h.nWlist n = none) :
    ∃ h', wlistAddTail h n k = some h' ∧ Holds h' k (xs++[n]) ∧
      h'.nWlist = Function.update h.nWlist n (some k) ∧
      SameOutside (.node n::.head k::xs.map .node) h.links h'.links := by
  obtain ⟨l, hadd, hholds, hout⟩ := placed_holds (listAddTail · (.node n) (.head k)) (xs++[n])
    hh hn (fun l hr hnew => by simpa using list_add_tail_ring hr hnew) (by simp [or_comm])
  exact ⟨_, by simp only [wlistAddTail, addTail, hadd]; rfl, hholds, rfl, hout⟩

theorem wlist_add_after_holds {h : Heap L N} {k : L} {xs ys : List N} {n pos : N}
    (hh : Holds h k (xs++pos::ys)) (hn : h.nWlist n = none) :
    ∃ h', wlistAddAfter h n pos = some h' ∧ Holds h' k (xs++pos::n::ys) ∧
      h'.nWlist = Function.update h.nWlist n (some k) ∧
      SameOutside (.node n::.head k::(xs++pos::ys).map .node) h.links h'.links := by
  have hpos : h.nWlist pos = some k := hh.2 pos (by simp)
  obtain ⟨l, hadd, hholds, hout⟩ := placed_holds (listAdd · (.node n) (.node pos))
    (xs++pos::n::ys) hh hn (fun l hr hnew => by
      simp only [List.map_append, List.map_cons] at hr hnew ⊢
      exact list_add_after_ring hr hnew)
    (by simp only [List.mem_append, List.mem_cons]; tauto)
  exact ⟨_, by simp [wlistAddAfter, hpos, hadd], hholds, rfl, hout⟩

theorem wlist_add_before_holds {h : Heap L N} {k : L} {xs ys : List N} {n pos : N}
    (hh : Holds h k (xs++pos::ys)) (hn : h.nWlist n = none) :
    ∃ h', wlistAddBefore h n pos = some h' ∧ Holds h' k (xs++n::pos::ys) ∧
      h'.nWlist = Function.update h.nWlist n (some k) ∧
      SameOutside (.node n::.head k::(xs++pos::ys).map .node) h.links h'.links := by
  have hpos : h.nWlist pos = some k := hh.2 pos (by simp)
  obtain ⟨l, hadd, hholds, hout⟩ := placed_holds (listAddTail · (.node n) (.node pos))
    (xs++n::pos::ys) hh hn (fun l hr hnew => by
      simp only [List.map_append, List.map_cons] at hr hnew ⊢
      exact list_add_before_ring hr hnew)
    (by simp only [List.mem_append, List.mem_cons]; tauto)
  exact ⟨_, by simp [wlistAddBefore, hpos, hadd], hholds, rfl, hout⟩

/-- Deleting an attached node takes it out of its list and clears its back
pointer. -/
theorem wlist_del_holds {h : Heap L N} {k : L} {xs ys : List N} {n : N}
    (hh : Holds h k (xs++n::ys)) :
    ∃ h', wlistDel h n = some h' ∧ Holds h' k (xs++ys) ∧
      h'.nWlist = Function.update h.nWlist n none ∧
      SameOutside (.head k::(xs++n::ys).map .node) h.links h'.links := by
  have hn : h.nWlist n = some k := hh.2 n (by simp)
  have hr : IsRing h.links (.head k) (xs.map .node++.node n::ys.map .node) := by
    simpa using hh.1
  obtain ⟨l, hdel, hring, hout⟩ := list_del_ring hr
  have hd := holds_nodup hh
  refine ⟨_, by simp only [wlistDel, wlistRelease, hn, hdel]; rfl, ⟨by simpa using hring, ?_⟩,
    by simp, by simpa using hout⟩
  intro m hm
  have hne : m ≠ n := by
    rintro rfl
    simp only [List.nodup_append, List.nodup_cons, List.mem_append] at hd hm
    rcases hm with hm | hm
    · exact hd.2.2 m hm m (by simp) rfl
    · exact hd.2.1.1 hm
  simp only [call_put_nWlist]
  rw [Function.update_of_ne hne]
  exact hh.2 m (by simp only [List.mem_append, List.mem_cons] at hm ⊢; tauto)

omit [DecidableEq L] in
@[simp] theorem call_put_left_links (h : Heap L N) (i : Iter L N) :
    (callPutLeft h i).links = h.links := by
  unfold callPutLeft
  split <;> simp

omit [DecidableEq L] in
@[simp] theorem call_put_left_nWlist (h : Heap L N) (i : Iter L N) :
    (callPutLeft h i).nWlist = h.nWlist := by
  unfold callPutLeft
  split <;> simp

/-- An iterator on a node that was deleted follows a null link, and goes astray. -/
theorem wlist_next_deleted {h h' : Heap L N} {n : N} (hdel : wlistDel h n = some h')
    {i : Iter L N} (hcur : i.iCur = some (.node n)) :
    wlistNext h' i = some (callPutLeft h' i, { i with iCur := some (.astray none) }) := by
  obtain ⟨k, -, hdel⟩ := Option.bind_eq_some_iff.mp hdel
  obtain ⟨u, hrelease, hput⟩ := Option.bind_eq_some_iff.mp hdel
  obtain ⟨l, hlinks, hu⟩ := Option.bind_eq_some_iff.mp hrelease
  obtain rfl := Option.some.inj hput
  obtain rfl := Option.some.inj hu
  simp [wlistNext, Iter.cell, hcur, (list_del_poison hlinks).1, toWlistNode]

/-- There is nothing to follow at the null pointer. -/
theorem wlist_next_astray {h : Heap L N} {i : Iter L N} (hcur : i.iCur = some (.astray none)) :
    wlistNext h i = none := by
  simp [wlistNext, Iter.cell, hcur]

/-- One step of an iterator whose remaining part of the list is known. -/
theorem wlist_next_seg {h : Heap L N} {i : Iter L N} {c : Cell L N} {ys : List N}
    (hc : i.cell = some c) (hs : Seg h.links c (ys.map .node) (.head i.iWlist)) :
    ∃ h', wlistNext h i = some (h', wlistIterInitNode i.iWlist ys.head?) ∧
      h'.links = h.links ∧ h'.nWlist = h.nWlist := by
  have hn := seg_next hs
  refine ⟨callPutLeft h i, ?_, call_put_left_links h i, call_put_left_nWlist h i⟩
  cases ys with
  | nil =>
    simp [wlistNext, hc, show h.links.next c = some (.head i.iWlist) from hn, wlistIterInitNode]
  | cons y ys =>
    simp [wlistNext, hc, show h.links.next c = some (.node y) from hn, toWlistNode,
      wlistIterInitNode]

section Refinement

open RS485.Attached

/-- The heap stores the lists `w`; only the lists in `live` were initialised. -/
structure Refines (live : L → Prop) (h : Heap L N) (w : Lists L N) : Prop where
  holds : ∀ k, live k → Holds h k (w.items k)
  owner : h.nWlist = w.owner
  used : ∀ k n, w.owner n = some k → live k

omit [DecidableEq N] [DecidableEq L] in
/-- An edit confined to the list `k` and the node `n` leaves another list alone. -/
theorem holds_other {h h' : Heap L N} {w : Lists L N} {live : L → Prop} {k j : L} {n : N}
    (xs : List N) (hr : Refines live h w) (hj : live j) (hkj : j ≠ k)
    (hn : n ∉ w.items j) (hxs : ∀ m ∈ xs, m = n ∨ m ∈ w.items k)
    (hw : ∀ m, m ≠ n → h'.nWlist m = h.nWlist m)
    (hout : SameOutside (.node n::.head k::xs.map .node) h.links h'.links) :
    Holds h' j (w.items j) := by
  have hh := hr.holds j hj
  constructor
  · apply ring_outside hh.1 hout
    intro c hc
    rcases List.mem_cons.mp hc with rfl | hc
    · simp [hkj]
    · obtain ⟨m, hm, rfl⟩ := List.mem_map.mp hc
      have hmn : m ≠ n := fun he => hn (he ▸ hm)
      have hmx : m ∉ xs := fun hx => by
        rcases hxs m hx with he | hk
        · exact hmn he
        · exact hkj (mem_unique w hm hk)
      simp [hmn, hmx]
  · intro m hm
    rw [hw m fun he => hn (he ▸ hm)]
    exact hh.2 m hm

/-- A list that is empty in the abstract family may be initialised. -/
theorem refines_init {live : L → Prop} {h : Heap L N} {w : Lists L N} (hr : Refines live h w)
    {k : L} (hk : w.items k = []) (get put : Bool) :
    Refines (fun j => live j ∨ j = k) (wlistInit h k get put) w := by
  refine ⟨fun j hj => ?_, hr.owner, fun j n hn => Or.inl (hr.used j n hn)⟩
  by_cases he : j = k
  · subst he
    rw [hk]
    exact ⟨init_ring _ _, by simp⟩
  · have hh := hr.holds j (hj.resolve_right he)
    refine ⟨ring_congr hh.1 (fun c hc => ?_) (fun c hc => ?_), hh.2⟩ <;>
      rcases List.mem_cons.mp hc with rfl | hc
    · simp [wlistInit, initListHead, setNext, setPrev, he]
    · obtain ⟨m, -, rfl⟩ := List.mem_map.mp hc
      simp [wlistInit, initListHead, setNext, setPrev]
    · simp [wlistInit, initListHead, setNext, setPrev, he]
    · obtain ⟨m, -, rfl⟩ := List.mem_map.mp hc
      simp [wlistInit, initListHead, setNext, setPrev]

/-- A node is put into the list `k`, and the heap holds the list that results. -/
theorem refines_placed {live : L → Prop} {h h' : Heap L N} {w w' : Lists L N}
    (hr : Refines live h w) {k : L} (hk : live k) {n : N} (hn : w.owner n = none) {xs : List N}
    (hitems : w'.items = Function.update w.items k xs)
    (howner : w'.owner = Function.update w.owner n (some k)) (hh : Holds h' k xs)
    (hw : h'.nWlist = Function.update h.nWlist n (some k))
    (hout : SameOutside (.node n::.head k::(w.items k).map .node) h.links h'.links) :
    Refines live h' w' := by
  refine ⟨fun j hj => ?_, ?_, fun j m hm => ?_⟩
  · by_cases he : j = k
    · subst he
      rw [hitems, Function.update_self]
      exact hh
    · rw [hitems, Function.update_of_ne he]
      exact holds_other _ hr hj he (not_mem_of_free w hn j) (fun m hm => Or.inr hm)
        (fun m hm => by rw [hw, Function.update_of_ne hm]) hout
  · rw [hw, hr.owner, howner]
  · rw [howner] at hm
    by_cases he : m = n
    · rw [he, Function.update_self] at hm
      exact Option.some.inj hm ▸ hk
    · rw [Function.update_of_ne he] at hm
      exact hr.used j m hm

/-- `wlist_del` on the heap is erasing from the abstract list. -/
theorem refines_del {live : L → Prop} {h : Heap L N} {w w' : Lists L N}
    (hr : Refines live h w) {n : N} (hdel : Attached.del w n = some w') :
    ∃ h', wlistDel h n = some h' ∧ Refines live h' w' := by
  obtain ⟨⟨k, hk⟩, rfl⟩ := (Attached.del_eq_some w w' n).mp hdel
  obtain ⟨xs, ys, hsplit⟩ := List.append_of_mem ((w.mem_iff k n).mpr hk)
  have hlive := hr.used k n hk
  have hnx : n ∉ xs := by
    have hd := w.nodup k
    rw [hsplit] at hd
    exact fun hmem => (List.nodup_append.mp hd).2.2 n hmem n (by simp) rfl
  obtain ⟨h', hdel', hh, hw, hout⟩ := wlist_del_holds (hsplit ▸ hr.holds k hlive)
  refine ⟨h', hdel', fun j hj => ?_, ?_, fun j m hm => ?_⟩
  · by_cases he : j = k
    · subst he
      rw [detach_items, hsplit, List.erase_append_right _ hnx, List.erase_cons_head]
      exact hh
    · have hnj : n ∉ w.items j := fun hmem => he (mem_unique w hmem ((w.mem_iff k n).mpr hk))
      rw [detach_items, List.erase_of_not_mem hnj]
      refine holds_other (xs++n::ys) hr hj he hnj ?_ ?_ (same_outside_mono hout ?_)
      · exact fun m hm => Or.inr (hsplit ▸ hm)
      · exact fun m hm => by rw [hw, Function.update_of_ne hm]
      · exact fun c hc => List.mem_cons_of_mem _ hc
  · rw [hw, hr.owner]
    rfl
  · rw [detach_owner] at hm
    split_ifs at hm with he
    exact hr.used j m hm

end Refinement

end RS485.Wlist
