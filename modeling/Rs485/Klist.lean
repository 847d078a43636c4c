import Rs485.Ring

/-!
# The linked list primitives

`klist.h` over the links of a heap. The poison of a deleted entry is the null
pointer, so following it, or deleting the same entry again, has no result.
-/

set_option autoImplicit false

namespace RS485.Klist
open RS485.Ring

variable {A : Type*} [DecidableEq A]

def initListHead (l : Links A) (list : A) : Links A :=
  setPrev (setNext l list (some list)) list (some list)

/-- `__list_add` -/
def listInsert (l : Links A) (new prev next : A) : Links A :=
  setNext (setPrev (setNext (setPrev l next (some new)) new (some next)) new (some prev)) prev (some new)

def listAdd (l : Links A) (new head : A) : Option (Links A) := do
  let next ← l.next head
  some (listInsert l new head next)

def listAddTail (l : Links A) (new head : A) : Option (Links A) := do
  let prev ← l.prev head
  some (listInsert l new prev head)

/-- `__list_del` -/
def listUnlink (l : Links A) (prev next : A) : Links A :=
  setNext (setPrev l next (some prev)) prev (some next)

def listDel (l : Links A) (entry : A) : Option (Links A) := do
  let prev ← l.prev entry
  let next ← l.next entry
  some (setPrev (setNext (listUnlink l prev next) entry none) entry none)

/-- The positions that `list_for_each` visits from `pos` on. -/
def listForEach (l : Links A) (head : A) : ℕ → A → Option (List A)
  | 0, _ => none
  | fuel+1, pos =>
    if pos = head then some []
    else do
      let next ← l.next pos
      let rest ← listForEach l head fuel next
      some (pos::rest)

theorem init_ring (l : Links A) (head : A) : IsRing (initListHead l head) head [] := by
  simp [IsRing, Seg, initListHead, setNext, setPrev]

theorem list_add_ring {l : Links A} {head new : A} {xs : List A} (hr : IsRing l head xs)
    (hnew : new ∉ head::xs) :
    ∃ l', listAdd l new head = some l' ∧ IsRing l' head (new::xs) ∧
      SameOutside (new::head::xs) l l' := by
  have hn := seg_next hr.1
  have hq := seg_next_mem hr.1 hn
  refine ⟨_, by simp only [listAdd, hn]; rfl, ring_splice_head hr hnew, ?_⟩
  apply same_outside_mono (splice_outside l new head (xs.headD head))
  intro c hc
  simp only [List.mem_cons, List.mem_append, List.not_mem_nil, or_false] at hc hq ⊢
  rcases hc with rfl | rfl | rfl <;> tauto

theorem list_add_tail_ring {l : Links A} {head new : A} {xs : List A} (hr : IsRing l head xs)
    (hnew : new ∉ head::xs) :
    ∃ l', listAddTail l new head = some l' ∧ IsRing l' head (xs++[new]) ∧
      SameOutside (new::head::xs) l l' := by
  have hp := seg_prev hr.1
  have hmem := seg_prev_mem hr.1 hp
  refine ⟨_, by simp only [listAddTail, hp]; rfl, ring_splice_tail hr hnew, ?_⟩
  apply same_outside_mono (splice_outside l new (xs.getLastD head) head)
  intro c hc
  simp only [List.mem_cons, List.not_mem_nil, or_false] at hc hmem ⊢
  rcases hc with rfl | rfl | rfl <;> tauto

/-- Adding behind a cell other than the head: the ring is read from that cell. -/
theorem list_add_after_ring {l : Links A} {head new pos : A} {xs ys : List A}
    (hr : IsRing l head (xs++pos::ys)) (hnew : new ∉ head::(xs++pos::ys)) :
    ∃ l', listAdd l new pos = some l' ∧ IsRing l' head (xs++pos::new::ys) ∧
      SameOutside (new::head::(xs++pos::ys)) l l' := by
  have hpos : new ∉ pos::(ys++head::xs) := by
    simp only [List.mem_cons, List.mem_append] at hnew ⊢
    tauto
  obtain ⟨l', hadd, hring, hout⟩ := list_add_ring (ring_rotate hr) hpos
  rw [← List.cons_append] at hring
  refine ⟨l', hadd, ring_rotate hring, same_outside_mono hout fun c hc => ?_⟩
  simp only [List.mem_cons, List.mem_append] at hc ⊢
  tauto

theorem list_add_before_ring {l : Links A} {head new pos : A} {xs ys : List A}
    (hr : IsRing l head (xs++pos::ys)) (hnew : new ∉ head::(xs++pos::ys)) :
    ∃ l', listAddTail l new pos = some l' ∧ IsRing l' head (xs++new::pos::ys) ∧
      SameOutside (new::head::(xs++pos::ys)) l l' := by
  have hpos : new ∉ pos::(ys++head::xs) := by
    simp only [List.mem_cons, List.mem_append] at hnew ⊢
    tauto
  obtain ⟨l', hadd, hring, hout⟩ := list_add_tail_ring (ring_rotate hr) hpos
  rw [List.append_assoc, List.cons_append] at hring
  have hback := ring_rotate hring
  rw [List.append_assoc, List.singleton_append] at hback
  refine ⟨l', hadd, hback, same_outside_mono hout fun c hc => ?_⟩
  simp only [List.mem_cons, List.mem_append] at hc ⊢
  tauto

theorem list_del_ring {l : Links A} {head entry : A} {xs ys : List A}
    (hr : IsRing l head (xs++entry::ys)) :
    ∃ l', listDel l entry = some l' ∧ IsRing l' head (xs++ys) ∧
      SameOutside (head::(xs++entry::ys)) l l' := by
  have hy := ring_rotate hr
  obtain ⟨p, hp⟩ : ∃ p, l.prev entry = some p := ⟨_, seg_prev hy.1⟩
  obtain ⟨q, hq⟩ : ∃ q, l.next entry = some q := ⟨_, seg_next hy.1⟩
  have hpm := seg_prev_mem hy.1 hp
  have hqm := seg_next_mem hy.1 hq
  refine ⟨_, by simp only [listDel, hp, hq]; rfl, ?_, ?_⟩
  · apply ring_poison (ring_remove hr hp hq)
    intro hmem
    apply (List.nodup_cons.mp hy.2).1
    simp only [List.mem_cons, List.mem_append] at hmem ⊢
    tauto
  · apply same_outside_trans (same_outside_mono (bypass_outside l p q) _)
      (same_outside_mono (poison_outside _ entry) _) <;> intro c hc <;>
      simp only [List.mem_cons, List.mem_append, List.not_mem_nil, or_false] at hc hpm hqm ⊢
    · rcases hc with rfl | rfl <;> tauto
    · tauto

theorem list_del_poison {l l' : Links A} {entry : A} (h : listDel l entry = some l') :
    l'.next entry = none ∧ l'.prev entry = none := by
  obtain ⟨p, -, h⟩ := Option.bind_eq_some_iff.mp h
  obtain ⟨q, -, h⟩ := Option.bind_eq_some_iff.mp h
  obtain rfl := Option.some.inj h
  simp [setNext, setPrev]

theorem for_each_seg {l : Links A} {head a : A} {xs : List A} (hs : Seg l a xs head)
    (hd : head ∉ xs) (fuel : ℕ) (hf : xs.length < fuel) :
    (l.next a).bind (listForEach l head fuel) = some xs := by
  induction xs generalizing a fuel with
  | nil =>
    obtain ⟨fuel, rfl⟩ := Nat.exists_eq_add_of_lt hf
    simp [hs.1, listForEach]
  | cons x xs ih =>
    obtain ⟨fuel, rfl⟩ := Nat.exists_eq_add_of_lt hf
    have hx : x ≠ head := fun he => hd (by simp [he])
    have hrest := ih hs.2 (fun h => hd (by simp [h])) (xs.length + 1 + fuel) (by omega)
    have hlen : (x::xs).length + fuel + 1 = (xs.length + 1 + fuel) + 1 := by simp
    rw [hlen, hs.1.1, Option.bind_some, listForEach, if_neg hx]
    cases hn : l.next x with
    | none => simp [hn] at hrest
    | some q => simp_all

/-- `list_for_each` visits the cells of a ring in order. -/
theorem for_each_ring {l : Links A} {head : A} {xs : List A} (hr : IsRing l head xs)
    (fuel : ℕ) (hf : xs.length < fuel) :
    (l.next head).bind (listForEach l head fuel) = some xs :=
  for_each_seg hr.1 (List.nodup_cons.mp hr.2).1 fuel hf

end RS485.Klist
