import Rs485.Walk
import Rs485.Wlists

/-!
# An iteration while the list is edited

The calls of `wlist_next` of one iterator, with edits of any lists in between.
The iterator follows the link of the node it is on, which a deletion of this node
clears, and goes astray. As long as that node stays, the iteration ends when no node
is added any more, and returns each node that stays attached once.
-/

set_option autoImplicit false

namespace RS485.Iteration
open RS485.Ring RS485.Klist RS485.Wlist RS485.Attached RS485.Sequences RS485.Runs RS485.Wlists

variable {L N : Type} [DecidableEq L] [DecidableEq N]

section System

/-- An iterator on the lists, and what has happened since it was initialised. -/
structure State (L N : Type) where
  heap : Heap L N
  iter : Iter L N
  /-- `wlist_next` has returned the null pointer -/
  ended : Bool
  /-- the nodes it has returned -/
  returned : List N
  /-- the nodes that were attached to the list when it began, and have been since -/
  stayed : N → Bool

inductive Op (L N : Type) where
  | edit (e : Edit L N)
  | next

/-- `wlist_iter_init` -/
def start (h : Heap L N) (k : L) : State L N :=
  ⟨h, wlistIterInit k, false, [], fun n => h.nWlist n = some k⟩

def stayedAfter (stayed : N → Bool) : Edit L N → N → Bool
  | .del n => Function.update stayed n false
  | _ => stayed

def step (s : State L N) : Op L N → Option (State L N)
  | .edit e => do
    let h ← Wlists.edit s.heap e
    some { s with heap := h, stayed := stayedAfter s.stayed e }
  | .next => do
    let (h, i) ← wlistNext s.heap s.iter
    some { s with
      heap := h
      iter := i
      ended := i.iCur.isNone
      returned := s.returned++(i.iCur.bind NodePtr.node?).toList }

/-- The edits are legal, and the iteration is over when no node is returned. -/
def Legal (ks : List L) (s : State L N) : Op L N → Prop
  | .edit e => Wlists.Legal ks s.heap e
  | .next => s.ended = false

/-- The node the iterator is on is not deleted. -/
def Spares (s : State L N) (op : Op L N) : Prop :=
  ∀ n, op = .edit (.del n) → s.iter.iCur ≠ some (.node n)

end System

section Spec

/-- No node is added. -/
def Quiet : Op L N → Prop
  | .edit (.del _) | .next => True
  | .edit _ => False

/-- The calls of `wlist_next`. -/
def calls : List (Op L N) → ℕ
  | [] => 0
  | .next::ops => calls ops+1
  | .edit _::ops => calls ops

/-- Without further edits the iteration comes to its end. -/
def Finishes (s : State L N) : Prop :=
  ∃ n t, run step s (List.replicate n .next) = some t ∧ t.ended = true

/-- All calls return. Where a run goes on without additions, an iteration that is not
over has made no more calls there than its list had nodes. -/
def Terminates (s : State L N) (ops : List (Op L N)) : Prop :=
  ∀ pre post, ops = pre++post → (∀ op ∈ post, Quiet op) → ∃ t u xs, run step s pre = some t ∧
    Holds t.heap t.iter.iWlist xs ∧ run step t post = some u ∧
    (u.ended = false → calls post ≤ xs.length)

/-- What one step of an iteration does that tolerates the edits. -/
structure Tolerates (op : Op L N) (t : State L N) : Prop where
  /-- only attached nodes are returned -/
  attached : op = .next → ∀ p, t.iter.iCur = some p →
    ∃ n, p = .node n ∧ t.heap.nWlist n = some t.iter.iWlist
  finishes : Finishes t
  /-- the nodes that stayed have all been returned, each once and in order -/
  complete : t.ended = true → ∃ xs, Holds t.heap t.iter.iWlist xs ∧
    t.returned.filter t.stayed = xs.filter t.stayed

end Spec

section Place

/-- Where the iteration is in the list: what stayed of the part up to the iterator's node
has been returned, and `left` nodes are still to come. -/
def Position (s : State L N) (xs : List N) (left : ℕ) : Prop :=
  if s.ended then s.iter.iCur = none ∧ s.returned.filter s.stayed = xs.filter s.stayed
  else ∃ pre post, xs = pre++post ∧ pre.getLast?.map .node = s.iter.iCur ∧
    post.length = left ∧ s.returned.filter s.stayed = pre.filter s.stayed

/-- The lists are well formed, and the iteration has its place in its list. -/
structure Tracks (ks : List L) (s : State L N) (w : Lists L N) (left : ℕ) : Prop where
  refines : Refines (· ∈ ks) s.heap w
  live : s.iter.iWlist ∈ ks
  stayed : ∀ n, s.stayed n = true → w.owner n = some s.iter.iWlist
  position : Position s (w.items s.iter.iWlist) left

variable {ks : List L} {s : State L N} {w : Lists L N} {left : ℕ}

omit [DecidableEq N] in
theorem start_tracks {h : Heap L N} (hr : Refines (· ∈ ks) h w) {k : L} (hk : k ∈ ks) :
    Tracks ks (start h k) w (w.items k).length := by
  refine ⟨hr, hk, fun n hn => ?_, ?_⟩
  · rw [← hr.owner]
    exact of_decide_eq_true hn
  · exact ⟨[], w.items k, rfl, rfl, rfl, rfl⟩

omit [DecidableEq L] [DecidableEq N] in
/-- The links from the iterator's node on lead through the rest of the list. -/
theorem place_seg {h : Heap L N} {i : Iter L N} {pre post : List N}
    (hh : Holds h i.iWlist (pre++post)) (hcur : pre.getLast?.map .node = i.iCur) :
    ∃ c, i.cell = some c ∧ Seg h.links c (post.map .node) (.head i.iWlist) := by
  rcases pre.eq_nil_or_concat with rfl | ⟨init, n, rfl⟩
  · have hnone : i.iCur = none := hcur.symm
    exact ⟨.head i.iWlist, by rw [Iter.cell, hnone], hh.1.1⟩
  · rw [List.concat_eq_append, List.getLast?_concat, Option.map_some] at hcur
    have hring := hh.1.1
    simp only [List.concat_eq_append, List.append_assoc, List.map_append, List.map_cons,
      List.singleton_append] at hring
    exact ⟨.node n, by rw [Iter.cell, ← hcur], ((seg_append ..).mp hring).2⟩

omit [DecidableEq L] [DecidableEq N] in
theorem filter_refined {f g : N → Bool} (hsub : ∀ n, g n = true → f n = true) {xs ys : List N}
    (h : xs.filter f = ys.filter f) : xs.filter g = ys.filter g := by
  have hboth : ∀ zs : List N, (zs.filter f).filter g = zs.filter g := by
    intro zs
    rw [List.filter_filter]
    apply List.filter_congr
    intro n _
    cases hg : g n with
    | false => rfl
    | true => rw [hsub n hg, Bool.and_self]
  rw [← hboth xs, h, hboth ys]

omit [DecidableEq L] [DecidableEq N] in
/-- An edit that keeps every place up to the iterator's node keeps the position. -/
theorem position_edited {Q : Prop} {xs : List N} (hp : Position s xs left) (xs' : List N)
    {h : Heap L N} {stayed : N → Bool} (hsub : ∀ n, stayed n = true → s.stayed n = true)
    (hfilter : xs'.filter stayed = xs.filter stayed)
    (hplace : ∀ pre post, xs = pre++post → pre.getLast?.map .node = s.iter.iCur → ∃ pre' post',
      xs' = pre'++post' ∧ pre'.getLast? = pre.getLast? ∧
        pre'.filter stayed = pre.filter stayed ∧ (Q → post'.length ≤ post.length)) :
    ∃ left', Position { s with heap := h, stayed := stayed } xs' left' ∧ (Q → left' ≤ left) := by
  unfold Position at hp ⊢
  cases hended : s.ended with
  | true =>
    rw [hended, if_pos rfl] at hp
    refine ⟨left, ?_, fun _ => le_refl _⟩
    rw [if_pos rfl]
    exact ⟨hp.1, (filter_refined hsub hp.2).trans hfilter.symm⟩
  | false =>
    rw [hended, if_neg Bool.false_ne_true] at hp
    obtain ⟨pre, post, hsplit, hlast, hleft, hreturned⟩ := hp
    obtain ⟨pre', post', hsplit', hlast', hkept, hless⟩ := hplace pre post hsplit hlast
    refine ⟨post'.length, ?_, fun hq => hleft ▸ hless hq⟩
    rw [if_neg Bool.false_ne_true]
    exact ⟨pre', post', hsplit', by rw [hlast', hlast], rfl,
      (filter_refined hsub hreturned).trans hkept.symm⟩

end Place

section Steps

variable {ks : List L} {s : State L N} {w : Lists L N} {left : ℕ}

omit [DecidableEq L] in
theorem stayed_after_insert (stayed : N → Bool) {e : Edit L N} (hnot : ∀ n, e ≠ .del n) :
    stayedAfter stayed e = stayed := by
  cases e with
  | del n => exact absurd rfl (hnot n)
  | addHead | addTail | addAfter | addBefore => rfl

theorem insert_tracks (ht : Tracks ks s w left) {h : Heap L N} {w' : Lists L N}
    (hr : Refines (· ∈ ks) h w') {n : N} {k : L} {xs ys : List N}
    (hi : Inserts w w' n k xs ys) : ∃ left', Tracks ks { s with heap := h } w' left' := by
  have hnew : s.stayed n = false := by
    by_contra hstayed
    have howner := ht.stayed n (Bool.eq_true_of_not_eq_false hstayed)
    rw [hi.free] at howner
    cases howner
  have hstayed : ∀ m, s.stayed m = true → w'.owner m = some s.iter.iWlist := by
    intro m hm
    have hne : m ≠ n := by
      rintro rfl
      rw [hnew] at hm
      cases hm
    rw [hi.owner, Function.update_of_ne hne, ht.stayed m hm]
  by_cases hk : s.iter.iWlist = k
  · have hitems : w'.items s.iter.iWlist = xs++n::ys := by rw [hi.items, hk, Function.update_self]
    obtain ⟨left', hposition, -⟩ := position_edited (Q := False) (h := h) ht.position
      (xs++n::ys) (fun _ hm => hm) (by rw [hk, hi.split, filter_inserted hnew])
      (fun pre post hsplit _ => by
        rw [hk, hi.split] at hsplit
        obtain ⟨pre', post', hsplit', hlast, hkept⟩ := place_inserted hsplit
        exact ⟨pre', post', hsplit', hlast, hkept _ hnew, False.elim⟩)
    exact ⟨left', hr, ht.live, hstayed, hitems ▸ hposition⟩
  · have hitems : w'.items s.iter.iWlist = w.items s.iter.iWlist := by
      rw [hi.items, Function.update_of_ne hk]
    exact ⟨left, hr, ht.live, hstayed, hitems ▸ ht.position⟩

omit [DecidableEq L] in
theorem delete_tracks (ht : Tracks ks s w left) {h : Heap L N} {n : N}
    (hr : Refines (· ∈ ks) h (detach w n)) (hspares : s.iter.iCur ≠ some (.node n)) :
    ∃ left', Tracks ks { s with heap := h, stayed := Function.update s.stayed n false }
      (detach w n) left' ∧ left' ≤ left := by
  have hgone : Function.update s.stayed n false n = false := Function.update_self ..
  have hsub : ∀ m, Function.update s.stayed n false m = true → m ≠ n ∧ s.stayed m = true := by
    intro m hm
    by_cases he : m = n
    · rw [he, hgone] at hm
      cases hm
    · rw [Function.update_of_ne he] at hm
      exact ⟨he, hm⟩
  obtain ⟨left', hposition, hless⟩ := position_edited (Q := True) (h := h) ht.position
    ((w.items s.iter.iWlist).erase n) (fun m hm => (hsub m hm).2) (filter_erased hgone)
    (fun pre post hsplit hlast => by
      have hd := w.nodup s.iter.iWlist
      rw [hsplit] at hd ⊢
      obtain ⟨pre', post', hsplit', hless, hlast', hkept⟩ :=
        place_erased hd fun he => hspares (by rw [← hlast, he]; rfl)
      exact ⟨pre', post', hsplit', hlast', hkept _ hgone, fun _ => hless⟩)
  refine ⟨left', ⟨hr, ht.live, fun m hm => ?_, hposition⟩, hless trivial⟩
  rw [detach_owner, if_neg (hsub m hm).1]
  exact ht.stayed m (hsub m hm).2

theorem edit_tracks (ht : Tracks ks s w left) {e : Edit L N} (hlegal : Legal ks s (.edit e))
    (hspares : Spares s (.edit e)) : ∃ t w' left', step s (.edit e) = some t ∧
      Tracks ks t w' left' ∧ (Quiet (.edit e : Op L N) → left' ≤ left) ∧ t.ended = s.ended := by
  obtain ⟨h, w', hedit, hr, -, hchanges⟩ := refines_edit ht.refines hlegal
  have hstep : step s (.edit e) =
      some { s with heap := h, stayed := stayedAfter s.stayed e } := by
    simp [step, hedit]
  cases hchanges with
  | inserts hnot hi =>
    obtain ⟨left', htracks⟩ := insert_tracks ht hr hi
    rw [stayed_after_insert s.stayed hnot] at hstep
    refine ⟨_, w', left', hstep, htracks, fun hquiet => ?_, rfl⟩
    cases e with
    | del n => exact absurd rfl (hnot n)
    | addHead | addTail | addAfter | addBefore => exact hquiet.elim
  | deletes hn hw =>
    subst hw
    obtain ⟨left', htracks, hless⟩ := delete_tracks ht hr (hspares _ rfl)
    exact ⟨_, _, left', hstep, htracks, fun _ => hless, rfl⟩

theorem next_tracks (ht : Tracks ks s w left) (hlegal : s.ended = false) :
    ∃ t left', step s .next = some t ∧ Tracks ks t w left' ∧
      (t.ended = false → left'+1 = left) ∧
      ∀ p, t.iter.iCur = some p →
        ∃ n, p = .node n ∧ t.heap.nWlist n = some t.iter.iWlist := by
  have hp := ht.position
  rw [Position, hlegal, if_neg Bool.false_ne_true] at hp
  obtain ⟨pre, post, hsplit, hlast, hleft, hreturned⟩ := hp
  have hh := ht.refines.holds _ ht.live
  obtain ⟨c, hc, hseg⟩ := place_seg (hsplit ▸ hh) hlast
  obtain ⟨h, hnext, hlinks, howner⟩ := wlist_next_seg hc hseg
  have hr := Walk.refines_congr ht.refines hlinks howner
  have hstep : step s .next = some { s with
      heap := h
      iter := wlistIterInitNode s.iter.iWlist post.head?
      ended := post.head?.isNone
      returned := s.returned++post.head?.toList } := by
    cases post <;> simp [step, hnext]
  cases post with
  | nil =>
    refine ⟨_, left, hstep, ⟨hr, ht.live, ht.stayed, ?_⟩, by simp, by simp⟩
    refine ⟨rfl, ?_⟩
    simpa [hsplit] using hreturned
  | cons n post =>
    have hmem : n ∈ w.items s.iter.iWlist := by simp [hsplit]
    refine ⟨_, post.length, hstep, ⟨hr, ht.live, ht.stayed, ?_⟩, fun _ => hleft, ?_⟩
    · refine ⟨pre++[n], post, by simp [hsplit], by simp, rfl, ?_⟩
      simp [List.filter_append, hreturned]
    · rintro p hp
      obtain rfl := Option.some.inj hp
      exact ⟨n, rfl, by rw [hr.owner]; exact (w.mem_iff _ _).mp hmem⟩

end Steps

section Iterations

variable {ks : List L} {s t : State L N} {w : Lists L N} {left : ℕ}

/-- Each call moves the iterator on by a node. -/
theorem tracks_finishes (ht : Tracks ks s w left) : Finishes s := by
  induction left using Nat.strong_induction_on generalizing s with
  | h left ih =>
    cases hended : s.ended with
    | true => exact ⟨0, s, rfl, hended⟩
    | false =>
      obtain ⟨t, left', hstep, htracks, hless, -⟩ := next_tracks ht hended
      have hrun : ∀ n, run step s (List.replicate (n+1) .next) =
          run step t (List.replicate n .next) := by
        intro n
        rw [List.replicate_succ, run, hstep, Option.bind_some]
      cases hend : t.ended with
      | true => exact ⟨1, t, by rw [hrun]; rfl, hend⟩
      | false =>
        obtain ⟨n, u, hu, hover⟩ := ih left' (by have := hless hend; omega) htracks
        exact ⟨n+1, u, by rw [hrun, hu], hover⟩

omit [DecidableEq L] [DecidableEq N] in
theorem tracks_complete (ht : Tracks ks s w left) (hended : s.ended = true) :
    ∃ xs, Holds s.heap s.iter.iWlist xs ∧ s.returned.filter s.stayed = xs.filter s.stayed := by
  have hp := ht.position
  rw [Position, hended, if_pos rfl] at hp
  exact ⟨_, ht.refines.holds _ ht.live, hp.2⟩

/-- Once the node the iterator is on is deleted, the next call goes astray, and the one
after it crashes. -/
theorem next_lost {n : N} (hcur : s.iter.iCur = some (.node n))
    (hstep : step s (.edit (.del n)) = some t) :
    ∃ u, step t .next = some u ∧ u.ended = false ∧ step u .next = none := by
  obtain ⟨h, hdel, hend⟩ := Option.bind_eq_some_iff.mp hstep
  obtain rfl := Option.some.inj hend
  have hnext := wlist_next_deleted hdel hcur
  set stayed := stayedAfter s.stayed (.del n : Edit L N)
  have hastray : step ⟨h, s.iter, s.ended, s.returned, stayed⟩ .next = some
      ⟨callPutLeft h s.iter, ⟨s.iter.iWlist, some (.astray none)⟩, false, s.returned, stayed⟩ := by
    simp [step, hnext, NodePtr.node?]
  exact ⟨_, hastray, rfl, by simp [step, wlist_next_astray]⟩

theorem lost_unfinished (ht : Tracks ks s w left) {n : N} (hcur : s.iter.iCur = some (.node n))
    (hstep : step s (.edit (.del n)) = some t) : ¬Finishes t := by
  have hended : t.ended = false := by
    obtain ⟨h, -, hend⟩ := Option.bind_eq_some_iff.mp hstep
    obtain rfl := Option.some.inj hend
    by_contra hended
    have hp := ht.position
    rw [Position, Bool.eq_true_of_not_eq_false hended, if_pos rfl, hcur] at hp
    cases hp.1
  obtain ⟨u, hu, hastray, hcrash⟩ := next_lost hcur hstep
  rintro ⟨calls, v, hrun, hover⟩
  match calls with
  | 0 =>
    obtain rfl := Option.some.inj hrun
    rw [hended] at hover
    cases hover
  | 1 =>
    rw [List.replicate_one, run, hu] at hrun
    obtain rfl := Option.some.inj hrun
    rw [hastray] at hover
    cases hover
  | calls+2 =>
    rw [List.replicate_succ, run, hu, Option.bind_some, List.replicate_succ, run, hcrash] at hrun
    cases hrun

theorem step_returns (ht : Tracks ks s w left) {op : Op L N} (hlegal : Legal ks s op) :
    ∃ t, step s op = some t := by
  cases op with
  | edit e =>
    obtain ⟨h, w', hedit, -⟩ := refines_edit ht.refines hlegal
    exact ⟨{ s with heap := h, stayed := stayedAfter s.stayed e }, by simp [step, hedit]⟩
  | next =>
    obtain ⟨t, left', hstep, -⟩ := next_tracks ht hlegal
    exact ⟨t, hstep⟩

/-- In a step that spares the iterator's node the iteration keeps its place. If no node is
added, a call brings it nearer to the end. -/
theorem step_tracks (ht : Tracks ks s w left) {op : Op L N} (hlegal : Legal ks s op)
    (hspares : Spares s op) : ∃ t w' left', step s op = some t ∧ Tracks ks t w' left' ∧
      (Quiet op → t.ended = false → s.ended = false ∧ left'+calls [op] ≤ left) ∧
      (op = .next → ∀ p, t.iter.iCur = some p →
        ∃ n, p = .node n ∧ t.heap.nWlist n = some t.iter.iWlist) := by
  cases op with
  | edit e =>
    obtain ⟨t, w', left', hstep, htracks, hless, hended⟩ := edit_tracks ht hlegal hspares
    exact ⟨t, w', left', hstep, htracks, fun hquiet h => ⟨hended ▸ h, hless hquiet⟩,
      fun h => by cases h⟩
  | next =>
    obtain ⟨t, left', hstep, htracks, hless, hattached⟩ := next_tracks ht hlegal
    exact ⟨t, w, left', hstep, htracks, fun _ h => ⟨hlegal, (hless h).le⟩, fun _ => hattached⟩

omit [DecidableEq L] [DecidableEq N] in
theorem calls_cons (op : Op L N) (ops : List (Op L N)) :
    calls (op::ops) = calls [op]+calls ops := by
  cases op with
  | edit e => exact (Nat.zero_add _).symm
  | next => exact Nat.add_comm _ _

/-- So does every run whose steps spare the iterator's node. -/
theorem run_tracks {ops rest : List (Op L N)} (ht : Tracks ks s w left)
    (hops : Allowed step (Legal ks) s (ops++rest))
    (hspares : EveryStep step (fun s op _ => Spares s op) s (ops++rest)) :
    ∃ t w' left', run step s ops = some t ∧ Tracks ks t w' left' ∧
      ((∀ op ∈ ops, Quiet op) → t.ended = false → s.ended = false ∧ left'+calls ops ≤ left) ∧
      Allowed step (Legal ks) t rest ∧ EveryStep step (fun s op _ => Spares s op) t rest := by
  induction ops generalizing s w left with
  | nil => exact ⟨s, w, left, rfl, ht, fun _ h => ⟨h, le_refl _⟩, hops, hspares⟩
  | cons op ops ih =>
    obtain ⟨t, hstep⟩ := step_returns ht hops.1
    obtain ⟨hop, hall⟩ := hspares t hstep
    obtain ⟨t', w', left', hstep', htracks, hless, -⟩ := step_tracks ht hops.1 hop
    obtain rfl := Option.some.inj (hstep'.symm.trans hstep)
    obtain ⟨u, w'', left'', hrun, hend, hlessRest, hrest⟩ := ih htracks (hops.2 _ hstep) hall
    refine ⟨u, w'', left'', by rw [run, hstep, Option.bind_some, hrun], hend, ?_, hrest⟩
    intro hquiet hover
    obtain ⟨hmid, hcalls⟩ :=
      hlessRest (fun o ho => hquiet o (List.mem_cons_of_mem op ho)) hover
    obtain ⟨hstart, hcall⟩ := hless (hquiet op List.mem_cons_self) hmid
    exact ⟨hstart, by rw [calls_cons]; omega⟩

theorem tracks_terminates {ops : List (Op L N)} (ht : Tracks ks s w left)
    (hops : Allowed step (Legal ks) s ops)
    (hspares : EveryStep step (fun s op _ => Spares s op) s ops) : Terminates s ops := by
  rintro pre post rfl hquiet
  obtain ⟨t, w', left', hrun, htracks, -, hops', hspares'⟩ := run_tracks ht hops hspares
  rw [← List.append_nil post] at hops' hspares'
  obtain ⟨u, w'', left'', hrest, -, hless, -⟩ := run_tracks htracks hops' hspares'
  refine ⟨t, u, w'.items t.iter.iWlist, hrun, htracks.refines.holds _ htracks.live, hrest, ?_⟩
  intro hover
  obtain ⟨hmid, hcalls⟩ := hless hquiet hover
  have hp := htracks.position
  rw [Position, hmid, if_neg Bool.false_ne_true] at hp
  obtain ⟨front, back, hsplit, -, hback, -⟩ := hp
  rw [hsplit, List.length_append]
  omega

theorem tolerates_iff_spares (ht : Tracks ks s w left) {op : Op L N} (hlegal : Legal ks s op)
    (hstep : step s op = some t) : Tolerates op t ↔ Spares s op := by
  constructor
  · rintro hok n rfl hcur
    exact lost_unfinished ht hcur hstep hok.finishes
  · intro hspares
    obtain ⟨u, w', left', hu, htracks, -, hattached⟩ := step_tracks ht hlegal hspares
    obtain rfl := Option.some.inj (hu.symm.trans hstep)
    exact ⟨hattached, tracks_finishes htracks, tracks_complete htracks⟩

/-- All along an iteration over any list, with any edits of any lists in between, the
edits are tolerated exactly if none of them deletes the node the iterator is on. Such a
run terminates once no node is added any more. -/
theorem iteration_tolerates_iff (l : Links (Cell L N)) (get put : L → Bool) (ks : List L)
    (es : List (Edit L N)) (hes : Allowed edit (Wlists.Legal ks) (wlists l get put ks) es)
    (h : Heap L N) (hh : run edit (wlists l get put ks) es = some h) (k : L) (hk : k ∈ ks)
    (ops : List (Op L N)) (hops : Allowed step (Legal ks) (start h k) ops) :
    (EveryStep step (fun _ op t => Tolerates op t) (start h k) ops ↔
      EveryStep step (fun s op _ => Spares s op) (start h k) ops) ∧
    (EveryStep step (fun s op _ => Spares s op) (start h k) ops → Terminates (start h k) ops) := by
  obtain ⟨h', w, hrun, hr, -⟩ := run_refines (wlists_refine l get put ks) hes
  obtain rfl := Option.some.inj (hrun.symm.trans hh)
  have hstart := start_tracks hr hk
  refine ⟨?_, tracks_terminates hstart hops⟩
  have hexact : ∀ (s : State L N) op t, (∃ w left, Tracks ks s w left) → Legal ks s op →
      step s op = some t → (Tolerates op t ↔ Spares s op) := by
    rintro s op t ⟨w, left, ht⟩ hlegal hstep
    exact tolerates_iff_spares ht hlegal hstep
  apply exact_allowed (fun _ op t => Tolerates op t) ?_ hexact ⟨w, _, hstart⟩ hops
  rintro s op t ⟨w, left, ht⟩ hlegal hstep hok
  obtain ⟨u, w', left', hu, htracks, -⟩ :=
    step_tracks ht hlegal ((tolerates_iff_spares ht hlegal hstep).mp hok)
  obtain rfl := Option.some.inj (hu.symm.trans hstep)
  exact ⟨w', left', htracks⟩

/-- A list of two nodes. -/
def two : Heap Unit Bool :=
  ((run edit (wlists bare (fun _ => true) (fun _ => true) [()])
    [.addTail false (), .addTail true ()]).getD (unused bare))

theorem two_allowed : Allowed edit (Wlists.Legal [()])
    (wlists bare (fun _ => true) (fun _ => true) [()])
    [.addTail false (), .addTail true ()] := by
  refine ⟨⟨by simp, rfl⟩, fun h hh => ?_⟩
  obtain rfl := Option.some.inj hh
  exact ⟨⟨by simp, rfl⟩, fun _ _ => trivial⟩

/-- The second node is deleted while the iterator is on the first. -/
theorem second_deleted_tolerated :
    EveryStep step (fun _ op t => Tolerates op t) (start two ())
      [.next, .edit (.del true), .next] ∧
      Terminates (start two ()) [.next, .edit (.del true), .next] := by
  have hops : Allowed step (Legal [()]) (start two ()) [.next, .edit (.del true), .next] := by
    refine ⟨rfl, fun s hs => ?_⟩
    obtain rfl := Option.some.inj hs
    refine ⟨⟨(), rfl⟩, fun s hs => ?_⟩
    obtain rfl := Option.some.inj hs
    exact ⟨rfl, fun _ _ => trivial⟩
  have hspares : EveryStep step (fun s op _ => Spares s op) (start two ())
      [.next, .edit (.del true), .next] := by
    rintro s hs
    obtain rfl := Option.some.inj hs
    refine ⟨fun n h => (by cases h), fun s hs => ?_⟩
    obtain rfl := Option.some.inj hs
    refine ⟨fun n h => ?_, fun s hs => ⟨fun n h => (by cases h), trivial⟩⟩
    cases h
    exact fun h => by cases h
  obtain ⟨hiff, hterminates⟩ := iteration_tolerates_iff bare (fun _ => true) (fun _ => true) [()] _
    two_allowed two rfl () (by simp) _ hops
  exact ⟨hiff.mpr hspares, hterminates hspares⟩

/-- The first node is deleted while the iterator is on it. The second one stays and is
not returned: the next call returns an address beside the null pointer, and the one after
it crashes. -/
theorem current_deleted_lost :
    (run step (start two ()) [.next, .edit (.del false), .next]).map
        (fun t => (t.iter.iCur, t.returned, t.stayed true, t.heap.nWlist true)) =
      some (some (.astray none), [false], true, some ()) ∧
      run step (start two ()) [.next, .edit (.del false), .next, .next] = none ∧
      ¬EveryStep step (fun _ op t => Tolerates op t) (start two ())
        [.next, .edit (.del false), .next] := by
  refine ⟨rfl, rfl, fun hall => ?_⟩
  obtain ⟨-, hall⟩ := hall _ rfl
  obtain ⟨-, hall⟩ := hall _ rfl
  obtain ⟨hok, -⟩ := hall _ rfl
  obtain ⟨n, hn, -⟩ := hok.attached rfl _ rfl
  cases hn

end Iterations

end RS485.Iteration
