import Mathlib

/-!
# Circular doubly linked lists

Cells carry a next and a previous link, either of which may be null. A ring is
a cell, its head, together with the other cells in the order of the next links;
the previous links run the other way round. A ring can be read from any of its
cells, so insertion and removal are proved once, at the head, and carried to
the other positions by rotation and to the other end by exchanging the links.
-/

set_option autoImplicit false

namespace RS485.Ring

variable {A : Type*}

structure Links (A : Type*) where
  next : A → Option A
  prev : A → Option A

/-- The links read backwards. -/
def flip (l : Links A) : Links A := ⟨l.prev, l.next⟩

def setNext [DecidableEq A] (l : Links A) (a : A) (v : Option A) : Links A :=
  { l with next := Function.update l.next a v }

def setPrev [DecidableEq A] (l : Links A) (a : A) (v : Option A) : Links A :=
  { l with prev := Function.update l.prev a v }

/-- `xs` are the cells strictly between `a` and `z`, linked both ways. -/
def Seg (l : Links A) : A → List A → A → Prop
  | a, [], z => l.next a = some z ∧ l.prev z = some a
  | a, x::xs, z => (l.next a = some x ∧ l.prev x = some a) ∧ Seg l x xs z

def IsRing (l : Links A) (h : A) (xs : List A) : Prop := Seg l h xs h ∧ (h::xs).Nodup

theorem seg_append (l : Links A) (a y z : A) (xs ys : List A) :
    Seg l a (xs++y::ys) z ↔ Seg l a xs y ∧ Seg l y ys z := by
  induction xs generalizing a with
  | nil => rfl
  | cons x xs ih => simp only [List.cons_append, Seg, ih, and_assoc]

/-- A segment depends on the next links of its sources and the previous links
of its targets only. -/
theorem seg_congr {l l' : Links A} {a z : A} {xs : List A} (h : Seg l a xs z)
    (hn : ∀ c ∈ a::xs, l'.next c = l.next c) (hp : ∀ c ∈ xs++[z], l'.prev c = l.prev c) :
    Seg l' a xs z := by
  induction xs generalizing a with
  | nil => exact ⟨(hn a (by simp)).trans h.1, (hp z (by simp)).trans h.2⟩
  | cons x xs ih =>
    refine ⟨⟨(hn a (by simp)).trans h.1.1, (hp x (by simp)).trans h.1.2⟩, ih h.2 ?_ ?_⟩
    · exact fun c hc => hn c (List.mem_cons_of_mem a hc)
    · exact fun c hc => hp c (List.mem_cons_of_mem x hc)

theorem seg_next {l : Links A} {a z : A} {xs : List A} (h : Seg l a xs z) :
    l.next a = some (xs.headD z) := by
  cases xs with
  | nil => exact h.1
  | cons x xs => exact h.1.1

theorem seg_flip (l : Links A) (a z : A) (xs : List A) :
    Seg (flip l) z xs.reverse a ↔ Seg l a xs z := by
  induction xs generalizing a with
  | nil => exact and_comm
  | cons x xs ih =>
    rw [List.reverse_cons, seg_append, ih]
    simp only [Seg, flip]
    tauto

theorem seg_prev {l : Links A} {a z : A} {xs : List A} (h : Seg l a xs z) :
    l.prev z = some (xs.getLastD a) := by
  have hf := seg_next ((seg_flip l a z xs).mpr h)
  simpa [flip, List.headD_eq_head?_getD, List.getLastD_eq_getLast?] using hf

theorem ring_congr {l l' : Links A} {h : A} {xs : List A} (hr : IsRing l h xs)
    (hn : ∀ c ∈ h::xs, l'.next c = l.next c) (hp : ∀ c ∈ h::xs, l'.prev c = l.prev c) :
    IsRing l' h xs :=
  ⟨seg_congr hr.1 hn fun c hc => hp c (by simpa [or_comm] using hc), hr.2⟩

/-- The links of the cells outside `cs` are the same. -/
def SameOutside (cs : List A) (l l' : Links A) : Prop :=
  ∀ c, c ∉ cs → l'.next c = l.next c ∧ l'.prev c = l.prev c

theorem same_outside_mono {cs ds : List A} {l l' : Links A} (h : SameOutside cs l l')
    (hsub : ∀ c ∈ cs, c ∈ ds) : SameOutside ds l l' :=
  fun c hc => h c fun hmem => hc (hsub c hmem)

theorem same_outside_trans {cs : List A} {l l' l'' : Links A} (h : SameOutside cs l l')
    (h' : SameOutside cs l' l'') : SameOutside cs l l'' :=
  fun c hc => ⟨(h' c hc).1.trans (h c hc).1, (h' c hc).2.trans (h c hc).2⟩

theorem ring_outside {l l' : Links A} {h : A} {xs cs : List A} (hr : IsRing l h xs)
    (ho : SameOutside cs l l') (hd : ∀ c ∈ h::xs, c ∉ cs) : IsRing l' h xs :=
  ring_congr hr (fun c hc => (ho c (hd c hc)).1) fun c hc => (ho c (hd c hc)).2

theorem seg_next_mem {l : Links A} {a z q : A} {xs : List A} (h : Seg l a xs z)
    (hq : l.next a = some q) : q ∈ xs++[z] := by
  cases xs with
  | nil => simp_all [Seg]
  | cons x xs => simp_all [Seg]

theorem seg_prev_mem {l : Links A} {a z p : A} {xs : List A} (h : Seg l a xs z)
    (hp : l.prev z = some p) : p ∈ a::xs := by
  rw [seg_prev h, Option.some.injEq] at hp
  subst hp
  rcases xs.eq_nil_or_concat with rfl | ⟨ys, y, rfl⟩ <;> simp

/-- The backward walk of a ring is the reverse of its forward walk. -/
theorem ring_flip (l : Links A) (h : A) (xs : List A) :
    IsRing (flip l) h xs.reverse ↔ IsRing l h xs := by
  simp only [IsRing, seg_flip, List.nodup_cons, List.mem_reverse, List.nodup_reverse]

/-- The same ring read from another of its cells. -/
theorem ring_rotate {l : Links A} {h p : A} {xs ys : List A} (hr : IsRing l h (xs++p::ys)) :
    IsRing l p (ys++h::xs) := by
  refine ⟨(seg_append ..).mpr ((seg_append ..).mp hr.1).symm, ?_⟩
  have hp : List.Perm (p::(ys++h::xs)) (h::(xs++p::ys)) := by
    have h1 : List.Perm ((p::ys)++(h::xs)) ((h::xs)++(p::ys)) := List.perm_append_comm
    simpa using h1
  exact hp.nodup_iff.mpr hr.2

section Edit

variable [DecidableEq A]

/-- The four writes that put `new` between the neighbours `p` and `q`. -/
def splice (l : Links A) (new p q : A) : Links A :=
  setNext (setPrev (setNext (setPrev l q (some new)) new (some q)) new (some p)) p (some new)

/-- The two writes that make `p` and `q` point to each other. -/
def bypass (l : Links A) (p q : A) : Links A := setNext (setPrev l q (some p)) p (some q)

/-- The two writes that poison a removed cell. -/
def poison (l : Links A) (y : A) : Links A := setPrev (setNext l y none) y none

theorem splice_outside (l : Links A) (new p q : A) : SameOutside [new, p, q] l (splice l new p q) := by
  intro c hc
  simp only [List.mem_cons, List.not_mem_nil, or_false, not_or] at hc
  simp [splice, setNext, setPrev, hc]

theorem bypass_outside (l : Links A) (p q : A) : SameOutside [p, q] l (bypass l p q) := by
  intro c hc
  simp only [List.mem_cons, List.not_mem_nil, or_false, not_or] at hc
  simp [bypass, setNext, setPrev, hc]

theorem poison_outside (l : Links A) (y : A) : SameOutside [y] l (poison l y) := by
  intro c hc
  simp only [List.mem_cons, List.not_mem_nil, or_false] at hc
  simp [poison, setNext, setPrev, hc]

theorem ring_splice_head {l : Links A} {h new : A} {xs : List A} (hr : IsRing l h xs)
    (hnew : new ∉ h::xs) : IsRing (splice l new h (xs.headD h)) h (new::xs) := by
  obtain ⟨hs, hd⟩ := hr
  have hne : new ≠ h := fun he => hnew (by simp [he])
  refine ⟨?_, by simp_all [List.nodup_cons, eq_comm]⟩
  cases xs with
  | nil => simp [Seg, splice, setNext, setPrev, hne, hne.symm]
  | cons q r =>
    have hq : new ≠ q := fun he => hnew (by simp [he])
    have hqr : q ∉ r := by simp_all
    have hqh : q ≠ h := fun he => by simp_all
    refine ⟨?_, ⟨?_, seg_congr hs.2 ?_ ?_⟩⟩
    · simp [splice, setNext, setPrev]
    · simp [splice, setNext, setPrev, hne, hq.symm]
    · intro c hc
      have h1 : c ≠ new := fun he => hnew (by subst he; simp [List.mem_cons.mp hc])
      have h2 : c ≠ h := fun he => by subst he; simp_all
      simp [splice, setNext, setPrev, h1, h2]
    · intro c hc
      have h1 : c ≠ new := fun he => hnew (by subst he; simp at hc; simp; tauto)
      have h2 : c ≠ q := fun he => by subst he; simp_all
      simp [splice, setNext, setPrev, h1, h2]

theorem flip_splice (l : Links A) (new p q : A) (hp : p ≠ new) (hq : q ≠ new) :
    flip (splice l new p q) = splice (flip l) new q p := by
  simp only [flip, splice, setNext, setPrev, Links.mk.injEq]
  exact ⟨Function.update_comm hq.symm _ _ _ |>.symm, Function.update_comm hp.symm _ _ _⟩

theorem ring_splice_tail {l : Links A} {h new : A} {xs : List A} (hr : IsRing l h xs)
    (hnew : new ∉ h::xs) : IsRing (splice l new (xs.getLastD h) h) h (xs++[new]) := by
  have hlast : xs.getLastD h ∈ h::xs := seg_prev_mem hr.1 (seg_prev hr.1)
  have h1 : xs.getLastD h ≠ new := fun he => hnew (he ▸ hlast)
  have h2 : h ≠ new := fun he => hnew (by simp [he])
  have hrev : new ∉ h::xs.reverse := by simpa using hnew
  have hf := ring_splice_head ((ring_flip l h xs).mpr hr) hrev
  rw [← ring_flip, flip_splice l new _ h h1 h2]
  simpa [List.headD_eq_head?_getD, List.getLastD_eq_getLast?] using hf

/-- Removal, with the ring read from the removed cell `y`: the cell after it
becomes the head. -/
theorem ring_bypass_head {l : Links A} {y q : A} {r : List A} (hr : IsRing l y (q::r)) :
    IsRing (bypass l (r.getLastD q) q) q r := by
  have hs : Seg l q r y := hr.1.2
  have hd : (y::q::r).Nodup := hr.2
  refine ⟨?_, (List.nodup_cons.mp hd).2⟩
  rcases r.eq_nil_or_concat with rfl | ⟨r', p, rfl⟩
  · simp [Seg, bypass, setNext, setPrev]
  · simp only [List.concat_eq_append, List.nodup_cons, List.nodup_append, List.mem_append,
      List.mem_cons, List.not_mem_nil, or_false, not_or] at hd
    simp only [List.concat_eq_append, seg_append] at hs
    simp only [List.concat_eq_append, List.getLastD_concat, seg_append]
    refine ⟨seg_congr hs.1 ?_ ?_, by simp [Seg, bypass, setNext, setPrev]⟩
    · intro c hc
      have h1 : c ≠ p := by
        rcases List.mem_cons.mp hc with rfl | hc
        · exact hd.2.1.2
        · exact hd.2.2.2.2 c hc p rfl
      simp [bypass, setNext, setPrev, h1]
    · intro c hc
      have h1 : c ≠ q := by
        rintro rfl
        rcases List.mem_append.mp hc with hc | hc
        · exact hd.2.1.1 hc
        · exact hd.2.1.2 (List.mem_singleton.mp hc)
      simp [bypass, setNext, setPrev, h1]

theorem ring_remove {l : Links A} {h y p q : A} {xs ys : List A} (hr : IsRing l h (xs++y::ys))
    (hp : l.prev y = some p) (hq : l.next y = some q) : IsRing (bypass l p q) h (xs++ys) := by
  have hy := ring_rotate hr
  have hp' := seg_prev hy.1
  have hq' := seg_next hy.1
  rw [hp, Option.some.injEq] at hp'
  rw [hq, Option.some.injEq] at hq'
  cases ys with
  | nil =>
    rw [List.nil_append, List.getLastD_cons] at hp'
    subst hp' hq'
    simpa using ring_bypass_head hy
  | cons c ys =>
    rw [List.cons_append, List.getLastD_cons] at hp'
    subst hp' hq'
    exact ring_rotate (ring_bypass_head hy)

theorem ring_poison {l : Links A} {h y : A} {xs : List A} (hr : IsRing l h xs) (hy : y ∉ h::xs) :
    IsRing (poison l y) h xs := by
  apply ring_outside hr (poison_outside l y)
  intro c hc hmem
  obtain rfl := List.mem_singleton.mp hmem
  exact hy hc

end Edit

end RS485.Ring
