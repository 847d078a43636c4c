import Rs485.Runs
import Rs485.Sequences
import Rs485.Wlist

/-!
# Lists of the sdk over runs

Any number of lists over one pool of nodes, edited by any sequence of the calls
of `wlist.c` that add and delete. Each list stays a ring, which holds what the
same edits make of an abstract sequence.
-/

set_option autoImplicit false

namespace RS485.Wlists
open RS485.Ring RS485.Klist RS485.Wlist RS485.Attached RS485.Sequences RS485.Runs

variable {L N : Type} [DecidableEq L] [DecidableEq N]

section Calls

/-- The call that makes an edit. -/
def edit (h : Heap L N) : Edit L N → Option (Heap L N)
  | .addHead n k => wlistAddHead h n k
  | .addTail n k => wlistAddTail h n k
  | .addAfter n pos => wlistAddAfter h n pos
  | .addBefore n pos => wlistAddBefore h n pos
  | .del n => wlistDel h n

/-- The memory before any list is initialised. No node names a list. -/
def unused (l : Links (Cell L N)) : Heap L N where
  links := l
  nWlist _ := none
  get _ := false
  put _ := false
  gets _ := 0
  puts _ := 0

/-- The lists are initialised one after the other. -/
def wlists (l : Links (Cell L N)) (get put : L → Bool) (ks : List L) : Heap L N :=
  ks.foldl (fun h k => wlistInit h k (get k) (put k)) (unused l)

/-- A node that is added is attached to no list, and is added to a list that was
initialised or next to an attached one. Only attached nodes are deleted. -/
def Legal (ks : List L) (h : Heap L N) (e : Edit L N) : Prop := Admissible (· ∈ ks) h.nWlist e

/-- The list `k` is a ring through its head, which reads as `xs` forwards and as
the reverse backwards, and `xs` are the nodes that name the list. -/
structure Represents (h : Heap L N) (k : L) (xs : List N) : Prop where
  ring : IsRing h.links (.head k) (xs.map .node)
  forward : ∀ fuel, xs.length < fuel →
    (h.links.next (.head k)).bind (listForEach h.links (.head k) fuel) = some (xs.map .node)
  backward : ∀ fuel, xs.length < fuel →
    (h.links.prev (.head k)).bind (listForEach (flip h.links) (.head k) fuel) =
      some (xs.map .node).reverse
  nodup : xs.Nodup
  members : ∀ n, n ∈ xs ↔ h.nWlist n = some k

end Calls

section Refinement

variable {live : L → Prop} {h : Heap L N} {w : Lists L N} {e : Edit L N}

/-- The call of an edit makes the edit of the abstract family. -/
theorem refines_edit (hr : Refines live h w) (he : Admissible live h.nWlist e) :
    ∃ h' w', edit h e = some h' ∧ Refines live h' w' ∧ w'.items = edited w.items e ∧
      Changes w w' e := by
  rw [hr.owner] at he
  cases e with
  | addHead n k =>
    obtain ⟨hk, hn⟩ := he
    have hi := put_inserts [] (w.items k) hn (List.nil_append _).symm
    obtain ⟨h', hadd, hh, hw, hout⟩ := wlist_add_head_holds (hr.holds k hk) (hr.owner ▸ hn)
    exact ⟨h', _, hadd, refines_placed hr hk hn hi.items hi.owner hh hw hout, hi.items,
      .inserts (by simp) hi⟩
  | addTail n k =>
    obtain ⟨hk, hn⟩ := he
    have hi := put_inserts (w.items k) [] hn (List.append_nil _).symm
    obtain ⟨h', hadd, hh, hw, hout⟩ := wlist_add_tail_holds (hr.holds k hk) (hr.owner ▸ hn)
    exact ⟨h', _, hadd, refines_placed hr hk hn hi.items hi.owner hh hw hout, hi.items,
      .inserts (by simp) hi⟩
  | addAfter n pos =>
    obtain ⟨hn, k, hpos⟩ := he
    have hk := hr.used k pos hpos
    obtain ⟨xs, ys, hsplit⟩ := List.append_of_mem ((w.mem_iff k pos).mpr hpos)
    have hi := put_inserts (xs++[pos]) ys hn (by simpa using hsplit)
    have hitems : xs++[pos]++n::ys = xs++pos::n::ys := by simp
    obtain ⟨h', hadd, hh, hw, hout⟩ :=
      wlist_add_after_holds (hsplit ▸ hr.holds k hk) (hr.owner ▸ hn)
    refine ⟨h', _, hadd, refines_placed hr hk hn hi.items hi.owner (hitems ▸ hh) hw
      (hsplit ▸ hout), ?_, .inserts (by simp) hi⟩
    rw [hi.items, hitems, edited_after hsplit]
  | addBefore n pos =>
    obtain ⟨hn, k, hpos⟩ := he
    have hk := hr.used k pos hpos
    obtain ⟨xs, ys, hsplit⟩ := List.append_of_mem ((w.mem_iff k pos).mpr hpos)
    have hi := put_inserts xs (pos::ys) hn hsplit
    obtain ⟨h', hadd, hh, hw, hout⟩ :=
      wlist_add_before_holds (hsplit ▸ hr.holds k hk) (hr.owner ▸ hn)
    refine ⟨h', _, hadd, refines_placed hr hk hn hi.items hi.owner hh hw (hsplit ▸ hout), ?_,
      .inserts (by simp) hi⟩
    rw [hi.items, edited_before hsplit]
  | del n =>
    obtain ⟨k, hk⟩ := he
    obtain ⟨h', hdel, hr'⟩ := refines_del hr ((del_eq_some w _ n).mpr ⟨⟨k, hk⟩, rfl⟩)
    exact ⟨h', detach w n, hdel, hr', rfl, .deletes hk rfl⟩

end Refinement

section Start

/-- The lists that are initialised are empty, like those that were so before. -/
theorem inits_refine (get put : L → Bool) {live : L → Prop} {h : Heap L N}
    (hr : Refines live h empty) (ks : List L) :
    Refines (fun k => live k ∨ k ∈ ks)
      (ks.foldl (fun h k => wlistInit h k (get k) (put k)) h) empty := by
  induction ks generalizing live h with
  | nil => simpa using hr
  | cons j ks ih =>
    have hinit : Refines (fun k => live k ∨ k = j) (wlistInit h j (get j) (put j)) empty :=
      refines_init hr rfl _ _
    simpa only [List.foldl_cons, List.mem_cons, or_assoc] using ih hinit

omit [DecidableEq L] [DecidableEq N] in
theorem unused_refines (l : Links (Cell L N)) : Refines (fun _ => False) (unused l) empty where
  holds _ h := h.elim
  owner := rfl
  used k n h := by simp [empty] at h

/-- The lists are empty at first. -/
theorem wlists_refine (l : Links (Cell L N)) (get put : L → Bool) (ks : List L) :
    Refines (· ∈ ks) (wlists l get put ks) empty := by
  simpa only [false_or, wlists] using inits_refine get put (unused_refines l) ks

end Start

section Runs

variable {live : L → Prop} {ks : List L} {h : Heap L N} {w : Lists L N}

theorem refines_represents (hr : Refines live h w) {k : L} (hk : live k) :
    Represents h k (w.items k) := by
  have hring := (hr.holds k hk).1
  have hback := (ring_flip ..).mpr hring
  refine ⟨hring, fun fuel hf => ?_, fun fuel hf => ?_, w.nodup k, fun n => ?_⟩
  · exact for_each_ring hring fuel (by simpa using hf)
  · exact for_each_ring hback fuel (by simpa using hf)
  · rw [w.mem_iff, hr.owner]

/-- The lists after any calls are those of the abstract edits. -/
theorem run_refines (hr : Refines (· ∈ ks) h w) {es : List (Edit L N)}
    (ha : Allowed edit (Legal ks) h es) : ∃ h' w', run edit h es = some h' ∧
      Refines (· ∈ ks) h' w' ∧ w'.items = es.foldl edited w.items := by
  have hstep : ∀ (h : Heap L N) items e,
      (∃ w, Refines (· ∈ ks) h w ∧ w.items = items) → Legal ks h e →
      ∃ h', edit h e = some h' ∧ ∃ w, Refines (· ∈ ks) h' w ∧ w.items = edited items e := by
    rintro h items e ⟨w, hr, rfl⟩ he
    obtain ⟨h', w', hedit, hr', hitems, -⟩ := refines_edit hr he
    exact ⟨h', hedit, w', hr', hitems⟩
  obtain ⟨h', hrun, w', hr', hitems⟩ := run_simulates hstep ⟨w, hr, rfl⟩ ha
  exact ⟨h', w', hrun, hr', hitems⟩

/-- Every allowed sequence of calls returns, and each list is then a ring that holds
what the same edits make of an empty sequence. -/
theorem wlists_represent (l : Links (Cell L N)) (get put : L → Bool) (ks : List L)
    (es : List (Edit L N)) (ha : Allowed edit (Legal ks) (wlists l get put ks) es) :
    ∃ h, run edit (wlists l get put ks) es = some h ∧
      ∀ k ∈ ks, Represents h k (es.foldl edited (fun _ => []) k) := by
  obtain ⟨h, w, hrun, hr, hitems⟩ := run_refines (wlists_refine l get put ks) ha
  refine ⟨h, hrun, fun k hk => ?_⟩
  have hrep := refines_represents hr hk
  rw [hitems] at hrep
  exact hrep

/-- Two nodes come onto a list, the second one next to the first, which is deleted. -/
def handover : List (Edit Unit Bool) := [.addTail false (), .addAfter true false, .del false]

def bare : Links (Cell Unit Bool) := ⟨fun _ => none, fun _ => none⟩

theorem handover_represented :
    handover.foldl edited (fun _ => []) () = [true] ∧
      ∃ h, run edit (wlists bare (fun _ => true) (fun _ => true) [()]) handover = some h ∧
        ∀ k ∈ [()], Represents h k (handover.foldl edited (fun _ => []) k) := by
  refine ⟨rfl, wlists_represent bare (fun _ => true) (fun _ => true) [()] handover ?_⟩
  refine ⟨⟨by simp, rfl⟩, fun h hh => ?_⟩
  obtain rfl := Option.some.inj hh
  refine ⟨⟨rfl, (), rfl⟩, fun h hh => ?_⟩
  obtain rfl := Option.some.inj hh
  exact ⟨⟨(), rfl⟩, fun _ _ => trivial⟩

end Runs

end RS485.Wlists
