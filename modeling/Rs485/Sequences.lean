import Rs485.Attached

/-!
# Edits of a family of sequences

Elements are put at either end of a sequence or next to an element, and taken
out. In a family that shares a pool every edit but a deletion puts one element
somewhere into one sequence. A place in a sequence is told by the part up to it;
an edit that does not take out the last element of this part keeps the place.
-/

set_option autoImplicit false

namespace RS485.Sequences
open RS485.Attached

variable {L N : Type} [DecidableEq N]

section One

def insertAfter (n pos : N) : List N → List N
  | [] => []
  | x::xs => if x = pos then x::n::xs else x::insertAfter n pos xs

def insertBefore (n pos : N) : List N → List N
  | [] => []
  | x::xs => if x = pos then n::x::xs else x::insertBefore n pos xs

variable {n pos : N} {xs ys : List N}

theorem insert_after_absent (h : pos ∉ xs) : insertAfter n pos xs = xs := by
  induction xs with
  | nil => rfl
  | cons x xs ih =>
    simp only [List.mem_cons, not_or] at h
    rw [insertAfter, if_neg (Ne.symm h.1), ih h.2]

theorem insert_before_absent (h : pos ∉ xs) : insertBefore n pos xs = xs := by
  induction xs with
  | nil => rfl
  | cons x xs ih =>
    simp only [List.mem_cons, not_or] at h
    rw [insertBefore, if_neg (Ne.symm h.1), ih h.2]

theorem insert_after_split (h : pos ∉ xs) :
    insertAfter n pos (xs++pos::ys) = xs++pos::n::ys := by
  induction xs with
  | nil => exact if_pos rfl
  | cons x xs ih =>
    simp only [List.mem_cons, not_or] at h
    rw [List.cons_append, insertAfter, if_neg (Ne.symm h.1), ih h.2]
    rfl

theorem insert_before_split (h : pos ∉ xs) :
    insertBefore n pos (xs++pos::ys) = xs++n::pos::ys := by
  induction xs with
  | nil => exact if_pos rfl
  | cons x xs ih =>
    simp only [List.mem_cons, not_or] at h
    rw [List.cons_append, insertBefore, if_neg (Ne.symm h.1), ih h.2]
    rfl

omit [DecidableEq N] in
theorem nodup_split {p : N} (hd : (xs++p::ys).Nodup) : p ∉ xs ∧ p ∉ ys := by
  simp only [List.nodup_append, List.nodup_cons, List.mem_cons] at hd
  exact ⟨fun h => hd.2.2 p h p (Or.inl rfl) rfl, hd.2.1.1⟩

end One

section Family

/-- An edit of a family: `addHead` and `addTail` name the sequence, the others an element. -/
inductive Edit (L N : Type) where
  | addHead (n : N) (k : L)
  | addTail (n : N) (k : L)
  | addAfter (n pos : N)
  | addBefore (n pos : N)
  | del (n : N)

variable [DecidableEq L]

def edited (items : L → List N) : Edit L N → L → List N
  | .addHead n k => Function.update items k (n::items k)
  | .addTail n k => Function.update items k (items k++[n])
  | .addAfter n pos => fun k => insertAfter n pos (items k)
  | .addBefore n pos => fun k => insertBefore n pos (items k)
  | .del n => fun k => (items k).erase n

/-- An element that is put in is in no sequence, one that is named is in one. -/
def Admissible (live : L → Prop) (owner : N → Option L) : Edit L N → Prop
  | .addHead n k | .addTail n k => live k ∧ owner n = none
  | .addAfter n pos | .addBefore n pos => owner n = none ∧ ∃ k, owner pos = some k
  | .del n => ∃ k, owner n = some k

/-- The element comes into the sequence `k` where it splits into two parts. -/
structure Inserts (w w' : Lists L N) (n : N) (k : L) (xs ys : List N) : Prop where
  free : w.owner n = none
  split : w.items k = xs++ys
  items : w'.items = Function.update w.items k (xs++n::ys)
  owner : w'.owner = Function.update w.owner n (some k)

variable {w : Lists L N} {n : N} {k : L} {xs ys : List N}

/-- The family with the element put in. -/
def put (w : Lists L N) (n : N) (k : L) (xs ys : List N) (hfree : w.owner n = none)
    (hsplit : w.items k = xs++ys) : Lists L N where
  items := Function.update w.items k (xs++n::ys)
  owner := Function.update w.owner n (some k)
  nodup j := by
    by_cases hj : j = k
    · subst hj
      have hnew : n ∉ xs++ys := hsplit ▸ not_mem_of_free w hfree j
      have hperm : (xs++n::ys).Perm (n::(xs++ys)) := List.perm_middle
      rw [Function.update_self, hperm.nodup_iff, List.nodup_cons, ← hsplit]
      exact ⟨hsplit ▸ hnew, w.nodup j⟩
    · rw [Function.update_of_ne hj]
      exact w.nodup j
  mem_iff j m := by
    have hold := w.mem_iff j m
    by_cases hj : j = k <;> by_cases hm : m = n
    · subst hj hm
      simp
    · subst hj
      rw [hsplit] at hold
      simp only [Function.update_self, Function.update_of_ne hm, List.mem_append, List.mem_cons,
        hm, false_or] at hold ⊢
      exact hold
    · subst hm
      rw [Function.update_of_ne hj, Function.update_self, hold, hfree]
      simp [Ne.symm hj]
    · rw [Function.update_of_ne hj, Function.update_of_ne hm, hold]

theorem put_inserts (xs ys : List N) (hfree : w.owner n = none) (hsplit : w.items k = xs++ys) :
    Inserts w (put w n k xs ys hfree hsplit) n k xs ys :=
  ⟨hfree, hsplit, rfl, rfl⟩

/-- What an edit does to a family: an element is put in, or taken out. -/
inductive Changes (w w' : Lists L N) : Edit L N → Prop
  | inserts {e : Edit L N} {n : N} {k : L} {xs ys : List N} (hnot : ∀ m, e ≠ .del m)
      (h : Inserts w w' n k xs ys) : Changes w w' e
  | deletes {n : N} {k : L} (h : w.owner n = some k) (hw : w' = detach w n) : Changes w w' (.del n)

variable {pos : N}

/-- Only the sequence that has the element is edited next to it. -/
theorem edited_after (hpos : w.items k = xs++pos::ys) :
    edited w.items (.addAfter n pos) = Function.update w.items k (xs++pos::n::ys) := by
  have hmem : pos ∈ w.items k := by simp [hpos]
  have hnot : pos ∉ xs := (nodup_split (hpos ▸ w.nodup k)).1
  ext1 j
  by_cases hj : j = k
  · subst hj
    rw [Function.update_self, ← insert_after_split hnot, ← hpos]
    rfl
  · rw [Function.update_of_ne hj, edited]
    exact insert_after_absent fun h => hj (mem_unique w h hmem)

theorem edited_before (hpos : w.items k = xs++pos::ys) :
    edited w.items (.addBefore n pos) = Function.update w.items k (xs++n::pos::ys) := by
  have hmem : pos ∈ w.items k := by simp [hpos]
  have hnot : pos ∉ xs := (nodup_split (hpos ▸ w.nodup k)).1
  ext1 j
  by_cases hj : j = k
  · subst hj
    rw [Function.update_self, ← insert_before_split hnot, ← hpos]
    rfl
  · rw [Function.update_of_ne hj, edited]
    exact insert_before_absent fun h => hj (mem_unique w h hmem)

end Family

section Place

variable {xs ys pre post : List N} {n : N}

omit [DecidableEq N] in
theorem filter_inserted {f : N → Bool} (hn : f n = false) :
    (xs++n::ys).filter f = (xs++ys).filter f := by
  simp [List.filter_append, hn]

theorem filter_erased {f : N → Bool} (hn : f n = false) : (xs.erase n).filter f = xs.filter f := by
  by_cases h : n ∈ xs
  · obtain ⟨as, bs, hnot, hsplit, herase⟩ := List.exists_erase_eq h
    rw [herase, hsplit, filter_inserted hn]
  · rw [List.erase_of_not_mem h]

omit [DecidableEq N] in
/-- An element that comes in before the place comes into the part up to it, and else
into the rest. -/
theorem place_inserted (h : xs++ys = pre++post) : ∃ pre' post', xs++n::ys = pre'++post' ∧
    pre'.getLast? = pre.getLast? ∧
    ∀ f : N → Bool, f n = false → pre'.filter f = pre.filter f := by
  rcases List.append_eq_append_iff.mp h with ⟨as, rfl, rfl⟩ | ⟨bs, rfl, rfl⟩
  · cases as with
    | nil => exact ⟨xs, n::post, by simp, by simp, by simp⟩
    | cons a as =>
      refine ⟨xs++n::a::as, post, by simp, ?_, fun f hn => filter_inserted hn⟩
      simp [List.getLast?_append, List.getLast?_cons_cons]
  · exact ⟨pre, bs++n::ys, by simp, rfl, fun f hn => rfl⟩

/-- The place stays unless the last element up to it is taken out. -/
theorem place_erased (hd : (pre++post).Nodup) (hlast : pre.getLast? ≠ some n) :
    ∃ pre' post', (pre++post).erase n = pre'++post' ∧ post'.length ≤ post.length ∧
      pre'.getLast? = pre.getLast? ∧
      ∀ f : N → Bool, f n = false → pre'.filter f = pre.filter f := by
  by_cases hmem : n ∈ pre
  · refine ⟨pre.erase n, post, List.erase_append_left _ hmem, le_refl _, ?_,
      fun f hn => filter_erased hn⟩
    rcases pre.eq_nil_or_concat with rfl | ⟨init, c, rfl⟩
    · rfl
    · rw [List.concat_eq_append] at hmem hlast ⊢
      have hinit : n ∈ init := by
        simp only [List.getLast?_concat, ne_eq, Option.some.injEq] at hlast
        simpa [Ne.symm hlast] using hmem
      rw [List.erase_append_left _ hinit, List.getLast?_concat, List.getLast?_concat]
  · refine ⟨pre, post.erase n, List.erase_append_right _ hmem, List.length_erase_le, rfl,
      fun f hn => rfl⟩

end Place

end RS485.Sequences
