import Mathlib

/-!
# Lists of attached nodes

A pool of nodes shared by several lists: no list repeats a node, and a node is
on the list it names as its owner and on no other. Walks call a function on the
nodes of a list in turn until it answers with something other than zero.
-/

set_option autoImplicit false

namespace RS485.Attached

variable {L N σ : Type}

structure Lists (L N : Type) where
  items : L → List N
  owner : N → Option L
  nodup : ∀ k, (items k).Nodup
  mem_iff : ∀ k n, n ∈ items k ↔ owner n = some k

def empty : Lists L N where
  items _ := []
  owner _ := none
  nodup _ := List.nodup_nil
  mem_iff := by simp

theorem lists_ext {w w' : Lists L N} (hi : w.items = w'.items) (ho : w.owner = w'.owner) :
    w = w' := by
  cases w
  cases w'
  simp_all

theorem not_mem_of_free (w : Lists L N) {n : N} (h : w.owner n = none) (k : L) :
    n ∉ w.items k := by
  simp [w.mem_iff, h]

theorem mem_unique (w : Lists L N) {n : N} {k k' : L} (h : n ∈ w.items k)
    (h' : n ∈ w.items k') : k = k' := by
  rw [w.mem_iff] at h h'
  exact Option.some.inj (h.symm.trans h')

section Edit

variable [DecidableEq N]

def detach (w : Lists L N) (n : N) : Lists L N where
  items k := (w.items k).erase n
  owner := Function.update w.owner n none
  nodup k := (w.nodup k).erase n
  mem_iff k m := by
    by_cases hm : m = n
    · subst hm
      simp [(w.nodup k).not_mem_erase]
    · simp [List.mem_erase_of_ne hm, w.mem_iff, hm]

@[simp] theorem detach_items (w : Lists L N) (n : N) (k : L) :
    (detach w n).items k = (w.items k).erase n := rfl

@[simp] theorem detach_owner (w : Lists L N) (n m : N) :
    (detach w n).owner m = if m = n then none else w.owner m := by
  simp [detach, Function.update_apply]

theorem mem_detach (w : Lists L N) (n m : N) (k : L) :
    m ∈ (detach w n).items k ↔ m ∈ w.items k ∧ m ≠ n := by
  rw [detach_items, (w.nodup k).mem_erase_iff, and_comm]

theorem detach_of_free (w : Lists L N) {n : N} (h : w.owner n = none) : detach w n = w := by
  apply lists_ext
  · ext1 k
    exact List.erase_of_not_mem (not_mem_of_free w h k)
  · ext1 m
    rw [detach_owner]
    split_ifs with hm
    · rw [hm, h]
    · rfl

/-- Deleting a node that is on no list has no result. -/
def del (w : Lists L N) (n : N) : Option (Lists L N) :=
  if w.owner n = none then none else some (detach w n)

theorem del_eq_some (w w' : Lists L N) (n : N) :
    del w n = some w' ↔ (∃ k, w.owner n = some k) ∧ w' = detach w n := by
  unfold del
  cases h : w.owner n <;> simp [eq_comm]

variable [DecidableEq L]

def attach (w : Lists L N) (n : N) (k : L) (h : w.owner n = none) : Lists L N where
  items := Function.update w.items k (w.items k++[n])
  owner := Function.update w.owner n (some k)
  nodup k' := by
    by_cases hk : k' = k
    · subst hk
      simpa [List.nodup_append, w.nodup k'] using
        fun a ha => show a ≠ n from fun he => not_mem_of_free w h k' (he ▸ ha)
    · simpa [hk] using w.nodup k'
  mem_iff k' m := by
    have hfree := not_mem_of_free w h k'
    by_cases hk : k' = k <;> by_cases hm : m = n <;> simp_all [w.mem_iff, eq_comm]

@[simp] theorem attach_items (w : Lists L N) (n : N) (k k' : L) (h : w.owner n = none) :
    (attach w n k h).items k' = if k' = k then w.items k++[n] else w.items k' := by
  simp [attach, Function.update_apply]

@[simp] theorem attach_owner (w : Lists L N) (n m : N) (k : L) (h : w.owner n = none) :
    (attach w n k h).owner m = if m = n then some k else w.owner m := by
  simp [attach, Function.update_apply]

theorem mem_attach (w : Lists L N) (n m : N) (k k' : L) (h : w.owner n = none) :
    m ∈ (attach w n k h).items k' ↔ m ∈ w.items k' ∨ m = n ∧ k' = k := by
  rw [attach_items]
  split_ifs with hk
  · subst hk
    simp
  · simp [hk]

/-- Appending a node that is on a list already would corrupt both lists. -/
def addTail (w : Lists L N) (n : N) (k : L) : Option (Lists L N) :=
  if h : w.owner n = none then some (attach w n k h) else none

theorem addTail_eq_some (w w' : Lists L N) (n : N) (k : L) :
    addTail w n k = some w' ↔ ∃ h : w.owner n = none, w' = attach w n k h := by
  unfold addTail
  split_ifs with h <;> simp [h, eq_comm]

end Edit

section Walk

/-- The nodes a walk visits: all of them, or those after the start node. -/
def after [DecidableEq N] (xs : List N) : Option N → List N
  | none => xs
  | some n => (xs.dropWhile (· ≠ n)).tail

/-- Visits nodes until the function answers with something other than zero.
Also returned is the node the walk has already stepped to when it stops. -/
def visit (fn : N → σ → Option (ℤ × σ)) : List N → σ → Option (ℤ × Option N × σ)
  | [], s => some (0, none, s)
  | n::ns, s => do
    let (e, s) ← fn n s
    if e = 0 then visit fn ns s else some (e, ns.head?, s)

/-- Looks for the first node on which the function answers with something other
than zero. The walk stops on that node. -/
def seek (fn : N → σ → Option (ℤ × σ)) : List N → σ → Option (Option N × σ)
  | [], s => some (none, s)
  | n::ns, s => do
    let (e, s) ← fn n s
    if e = 0 then seek fn ns s else some (some n, s)

variable [DecidableEq N]

/-- What the end of a walk does to the node it stopped on. -/
def leave (w : Lists L N) : Option N → Option (Lists L N)
  | none => some w
  | some n => del w n

def forEach (w : Lists L N) (k : L) (start : Option N) (fn : N → σ → Option (ℤ × σ)) (s : σ) :
    Option (ℤ × Lists L N × σ) := do
  let (e, cur, s) ← visit fn (after (w.items k) start) s
  let w ← leave w cur
  some (e, w, s)

theorem after_suffix (xs : List N) (start : Option N) : after xs start <:+ xs := by
  cases start with
  | none => exact List.suffix_refl _
  | some n => exact (List.tail_suffix _).trans (List.dropWhile_suffix _)

theorem after_split {xs : List N} {n : N} (h : n ∈ xs) (hd : xs.Nodup) :
    ∃ pre, xs = pre++n::after xs (some n) := by
  obtain ⟨pre, post, hsplit⟩ := List.append_of_mem h
  have hn : n ∉ pre := by
    rw [hsplit] at hd
    exact fun hmem => (List.nodup_append.mp hd).2.2 n hmem n (by simp) rfl
  refine ⟨pre, ?_⟩
  have hdrop : xs.dropWhile (· ≠ n) = n::post := by
    rw [hsplit, List.dropWhile_append_of_pos]
    · simp
    · intro a ha
      simpa using fun he : a = n => hn (he ▸ ha)
  rw [after, hdrop]
  exact hsplit

/-- The function answers zero on every node but possibly the last one. -/
def ZeroBeforeLast (fn : N → σ → ℤ × σ) : List N → σ → Prop
  | [], _ => True
  | [_], _ => True
  | n::m::ns, s => (fn n s).1 = 0 ∧ ZeroBeforeLast fn (m::ns) (fn n s).2

/-- The function answers zero on every node. -/
def ZeroThroughout (fn : N → σ → ℤ × σ) : List N → σ → Prop
  | [], _ => True
  | n::ns, s => (fn n s).1 = 0 ∧ ZeroThroughout fn ns (fn n s).2

omit [DecidableEq N] in
/-- A walk with a function that always returns stops on a node exactly when the
function answered early. -/
theorem visit_total (fn : N → σ → ℤ × σ) (ns : List N) (s : σ) :
    ∃ e cur t, visit (fun n s => some (fn n s)) ns s = some (e, cur, t) ∧
      (cur = none ↔ ZeroBeforeLast fn ns s) ∧ ∀ m, cur = some m → m ∈ ns := by
  induction ns generalizing s with
  | nil => exact ⟨0, none, s, rfl, by simp [ZeroBeforeLast], by simp⟩
  | cons n ns ih =>
    by_cases he : (fn n s).1 = 0
    · obtain ⟨e, cur, t, hv, hz, hm⟩ := ih (fn n s).2
      refine ⟨e, cur, t, by simp [visit, he, hv], ?_, fun m h => by simp [hm m h]⟩
      cases ns with
      | nil => simpa [ZeroBeforeLast] using hz
      | cons m ns => simpa [ZeroBeforeLast, he] using hz
    · refine ⟨(fn n s).1, ns.head?, (fn n s).2, by simp [visit, he], ?_, fun m h => ?_⟩
      · cases ns <;> simp [ZeroBeforeLast, he]
      · exact List.mem_cons_of_mem n (List.mem_of_mem_head? h)

omit [DecidableEq N] in
theorem seek_total (fn : N → σ → ℤ × σ) (ns : List N) (s : σ) :
    ∃ cur t, seek (fun n s => some (fn n s)) ns s = some (cur, t) ∧
      (cur = none ↔ ZeroThroughout fn ns s) ∧ ∀ m, cur = some m → m ∈ ns := by
  induction ns generalizing s with
  | nil => exact ⟨none, s, rfl, by simp [ZeroThroughout], by simp⟩
  | cons n ns ih =>
    by_cases he : (fn n s).1 = 0
    · obtain ⟨cur, t, hv, hz, hm⟩ := ih (fn n s).2
      exact ⟨cur, t, by simp [seek, he, hv], by simpa [ZeroThroughout, he] using hz,
        fun m h => by simp [hm m h]⟩
    · exact ⟨some n, (fn n s).2, by simp [seek, he], by simp [ZeroThroughout, he], by simp⟩

section Stop

omit [DecidableEq N]

/-- The node after the first one that stops a walk. -/
def AfterStop (stop : N → Prop) (ns : List N) (q : N) : Prop :=
  ∃ pre n post, ns = pre++n::q::post ∧ (∀ m ∈ pre, ¬stop m) ∧ stop n

variable {stop : N → Prop} {n q : N} {ns : List N}

theorem after_stop_here (h : stop n) : AfterStop stop (n::ns) q ↔ ns.head? = some q := by
  constructor
  · rintro ⟨pre, m, post, hsplit, hpre, -⟩
    cases pre with
    | nil =>
      obtain ⟨rfl, rfl⟩ := List.cons.inj hsplit
      rfl
    | cons x pre =>
      obtain ⟨rfl, -⟩ := List.cons.inj hsplit
      exact absurd h (hpre n List.mem_cons_self)
  · intro hq
    obtain ⟨post, rfl⟩ := List.head?_eq_some_iff.mp hq
    exact ⟨[], n, post, rfl, by simp, h⟩

theorem after_stop_later (h : ¬stop n) : AfterStop stop (n::ns) q ↔ AfterStop stop ns q := by
  constructor
  · rintro ⟨pre, m, post, hsplit, hpre, hm⟩
    cases pre with
    | nil =>
      obtain ⟨rfl, -⟩ := List.cons.inj hsplit
      exact absurd hm h
    | cons x pre =>
      obtain ⟨rfl, rfl⟩ := List.cons.inj hsplit
      exact ⟨pre, m, post, rfl, fun y hy => hpre y (List.mem_cons_of_mem n hy), hm⟩
  · rintro ⟨pre, m, post, rfl, hpre, hm⟩
    refine ⟨n::pre, m, post, rfl, fun y hy => ?_, hm⟩
    rcases List.mem_cons.mp hy with rfl | hy
    · exact h
    · exact hpre y hy

theorem visit_stop {fn : N → σ → Option (ℤ × σ)} {s t : σ} {e : ℤ} {cur : Option N}
    (hgo : ∀ n, ¬stop n → ∀ e u, fn n s = some (e, u) → e = 0 ∧ u = s)
    (hstop : ∀ n, stop n → ∀ e u, fn n s = some (e, u) → e ≠ 0)
    (h : visit fn ns s = some (e, cur, t)) : cur = some q ↔ AfterStop stop ns q := by
  induction ns with
  | nil =>
    simp only [visit, Option.some.injEq, Prod.mk.injEq] at h
    rw [← h.2.1]
    constructor
    · intro hq
      simp at hq
    · rintro ⟨pre, m, post, hsplit, -⟩
      simp at hsplit
  | cons n ns ih =>
    simp only [visit, Option.bind_eq_bind, Option.bind_eq_some_iff, Prod.exists] at h
    obtain ⟨e', u, hn, h⟩ := h
    by_cases hs : stop n
    · rw [if_neg (hstop n hs e' u hn), Option.some.injEq, Prod.mk.injEq, Prod.mk.injEq] at h
      rw [after_stop_here hs, h.2.1]
    · obtain ⟨rfl, rfl⟩ := hgo n hs e' u hn
      rw [if_pos rfl] at h
      rw [after_stop_later hs]
      exact ih h

end Stop

/-- What the end of a walk leaves of the lists: all but the node after the first
one that stopped it. -/
def Drops (stop : N → Prop) (w w' : Lists L N) (k : L) : Prop :=
  ∀ k' n, n ∈ w'.items k' ↔ n ∈ w.items k' ∧ ¬AfterStop stop (w.items k) n

theorem for_each_drops {stop : N → Prop} {fn : N → σ → Option (ℤ × σ)} {w w' : Lists L N} {k : L}
    {s t : σ} {e : ℤ} (hgo : ∀ n, ¬stop n → ∀ e u, fn n s = some (e, u) → e = 0 ∧ u = s)
    (hstop : ∀ n, stop n → ∀ e u, fn n s = some (e, u) → e ≠ 0)
    (h : forEach w k none fn s = some (e, w', t)) : Drops stop w w' k := by
  simp only [forEach, after, Option.bind_eq_bind, Option.bind_eq_some_iff, Prod.exists,
    Option.some.injEq, Prod.mk.injEq] at h
  obtain ⟨e', cur, u, hv, w'', hw, -, rfl, -⟩ := h
  intro k' n
  rw [← visit_stop hgo hstop hv]
  cases cur with
  | none =>
    obtain rfl := Option.some.inj hw
    simp
  | some q =>
    obtain ⟨-, rfl⟩ := (del_eq_some _ _ _).mp hw
    rw [mem_detach, Option.some.injEq, eq_comm (a := q)]

omit [DecidableEq N] in
/-- A walk comes back when the function does, on every node and in every state
that its earlier calls can lead to. -/
theorem visit_returns {inv : σ → Prop} {fn : N → σ → Option (ℤ × σ)} {ns : List N}
    (h : ∀ n ∈ ns, ∀ s, inv s → ∃ e t, fn n s = some (e, t) ∧ (e = 0 → inv t)) {s : σ}
    (hs : inv s) : ∃ e cur t, visit fn ns s = some (e, cur, t) ∧ ∀ m, cur = some m → m ∈ ns := by
  induction ns generalizing s with
  | nil => exact ⟨0, none, s, rfl, by simp⟩
  | cons n ns ih =>
    obtain ⟨e, u, hfn, hu⟩ := h n (by simp) s hs
    by_cases he : e = 0
    · obtain ⟨e', cur, t, hv, hcur⟩ := ih (fun m hm => h m (List.mem_cons_of_mem n hm)) (hu he)
      refine ⟨e', cur, t, by simp [visit, hfn, he, hv], fun m hm => ?_⟩
      exact List.mem_cons_of_mem n (hcur m hm)
    · refine ⟨e, ns.head?, u, by simp [visit, hfn, he], fun m hm => ?_⟩
      exact List.mem_cons_of_mem n (List.mem_of_mem_head? hm)

omit [DecidableEq N] in
/-- A walk leaves alone what the function leaves alone on every node. -/
theorem visit_keeps {V : Type} (view : σ → V) {fn : N → σ → Option (ℤ × σ)}
    (h : ∀ n s e t, fn n s = some (e, t) → view t = view s) {ns : List N} {s t : σ} {e : ℤ}
    {cur : Option N} (hv : visit fn ns s = some (e, cur, t)) : view t = view s := by
  induction ns generalizing s with
  | nil =>
    simp only [visit, Option.some.injEq, Prod.mk.injEq] at hv
    rw [hv.2.2]
  | cons n ns ih =>
    simp only [visit, Option.bind_eq_bind, Option.bind_eq_some_iff, Prod.exists] at hv
    obtain ⟨e', u, hfn, hv⟩ := hv
    split_ifs at hv
    · exact (ih hv).trans (h n s e' u hfn)
    · simp only [Option.some.injEq, Prod.mk.injEq] at hv
      rw [← hv.2.2, h n s e' u hfn]

omit [DecidableEq N] in
theorem visit_zero {fn : N → σ → Option (ℤ × σ)} (h : ∀ n s e t, fn n s = some (e, t) → e = 0)
    {ns : List N} {s t : σ} {e : ℤ} {cur : Option N} (hv : visit fn ns s = some (e, cur, t)) :
    e = 0 := by
  induction ns generalizing s with
  | nil =>
    simp only [visit, Option.some.injEq, Prod.mk.injEq] at hv
    exact hv.1.symm
  | cons n ns ih =>
    simp only [visit, Option.bind_eq_bind, Option.bind_eq_some_iff, Prod.exists] at hv
    obtain ⟨e', u, hfn, hv⟩ := hv
    rw [if_pos (h n s e' u hfn)] at hv
    exact ih hv

theorem for_each_keeps {V : Type} (view : σ → V) {fn : N → σ → Option (ℤ × σ)}
    (h : ∀ n s e t, fn n s = some (e, t) → view t = view s) {w w' : Lists L N} {k : L}
    {start : Option N} {s t : σ} {e : ℤ} (hw : forEach w k start fn s = some (e, w', t)) :
    view t = view s := by
  simp only [forEach, Option.bind_eq_bind, Option.bind_eq_some_iff, Prod.exists,
    Option.some.injEq, Prod.mk.injEq] at hw
  obtain ⟨e', cur, u, hv, w'', hleave, rfl, rfl, rfl⟩ := hw
  exact visit_keeps view h hv

theorem for_each_returns {inv : σ → Prop} {fn : N → σ → Option (ℤ × σ)} {w : Lists L N} {k : L}
    (h : ∀ n ∈ w.items k, ∀ s, inv s → ∃ e t, fn n s = some (e, t) ∧ (e = 0 → inv t)) {s : σ}
    (hs : inv s) : ∃ e w' t, forEach w k none fn s = some (e, w', t) := by
  obtain ⟨e, cur, t, hv, hcur⟩ := visit_returns h hs
  have hleave : ∃ w', leave w cur = some w' := by
    cases cur with
    | none => exact ⟨w, rfl⟩
    | some m =>
      have howner := (w.mem_iff k m).mp (hcur m rfl)
      exact ⟨detach w m, (del_eq_some _ _ _).mpr ⟨⟨k, howner⟩, rfl⟩⟩
  obtain ⟨w', hw'⟩ := hleave
  exact ⟨e, w', t, by simp [forEach, after, hv, hw']⟩

end Walk

end RS485.Attached
