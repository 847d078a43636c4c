import Rs485.Wlists

/-!
# The callbacks of a list

A list with callbacks takes a reference to each node that is attached to it and
gives it back when the node is deleted. An iterator gives back a reference of each
node that it leaves, but takes none of the nodes that it comes to.
-/

set_option autoImplicit false

namespace RS485.Balance
open RS485.Ring RS485.Klist RS485.Wlist RS485.Attached RS485.Sequences RS485.Runs RS485.Wlists

variable {L N J : Type} [DecidableEq L] [DecidableEq N] [DecidableEq J]

section System

/-- The lists, and any number of iterators on them. -/
structure State (L N J : Type) where
  heap : Heap L N
  iters : J → Option (Iter L N)

inductive Op (L N J : Type) where
  | edit (e : Edit L N)
  | init (j : J) (k : L) (n : Option N)
  | next (j : J)
  | exit (j : J)

def step (s : State L N J) : Op L N J → Option (State L N J)
  | .edit e => do
    let h ← Wlists.edit s.heap e
    some { s with heap := h }
  | .init j k n => some { s with iters := Function.update s.iters j (some (wlistIterInitNode k n)) }
  | .next j => do
    let i ← s.iters j
    let (h, i) ← wlistNext s.heap i
    some ⟨h, Function.update s.iters j (some i)⟩
  | .exit j => do
    let i ← s.iters j
    let (h, i) ← wlistIterExit s.heap i
    some ⟨h, Function.update s.iters j (some i)⟩

/-- The edits are legal, and an iterator starts at the head of a list or at a node of it. -/
def Legal (ks : List L) (s : State L N J) : Op L N J → Prop
  | .edit e => Wlists.Legal ks s.heap e
  | .init _ k n => k ∈ ks ∧ ∀ m, n = some m → s.heap.nWlist m = some k
  | .next _ | .exit _ => True

/-- Some lists have both callbacks, the others none. -/
def start (l : Links (Cell L N)) (callbacks : L → Bool) (ks : List L) : State L N J :=
  ⟨wlists l callbacks callbacks ks, fun _ => none⟩

end System

section Spec

/-- The references a node should have. -/
def due (callbacks : L → Bool) : Option L → ℤ
  | some k => if callbacks k then 1 else 0
  | none => 0

/-- The calls of `get` outnumber those of `put` by one for an attached node. -/
def Balanced (callbacks : L → Bool) (h : Heap L N) : Prop :=
  ∀ n, (h.gets n : ℤ)-h.puts n = due callbacks (h.nWlist n)

/-- An iterator on a list with callbacks is not moved on from a node. -/
def Keeps (callbacks : L → Bool) (s : State L N J) (op : Op L N J) : Prop :=
  ∀ j i n, op = .next j → s.iters j = some i → i.iCur = some (.node n) →
    callbacks i.iWlist = false

/-- The callbacks are those the lists were initialised with. -/
structure Flagged (callbacks : L → Bool) (ks : List L) (h : Heap L N) : Prop where
  get : ∀ k ∈ ks, h.get k = callbacks k
  put : ∀ k ∈ ks, h.put k = callbacks k
  owner : ∀ n k, h.nWlist n = some k → k ∈ ks

/-- The invariant of every state. -/
structure Wired (callbacks : L → Bool) (ks : List L) (s : State L N J) : Prop where
  heap : Flagged callbacks ks s.heap
  iter : ∀ j i, s.iters j = some i → i.iWlist ∈ ks

end Spec

section Heap

variable {callbacks : L → Bool} {ks : List L} {h h' : Heap L N} {n : N} {k : L}

/-- The heap when the node has been initialised and put into the list. -/
def attached (h : Heap L N) (n : N) (k : L) (l : Links (Cell L N)) : Heap L N :=
  { wlistNodeInit h k n with links := l }

/-- The heap when the node has been taken out of its list and the callback called. -/
def detached (h : Heap L N) (n : N) (k : L) (l : Links (Cell L N)) : Heap L N :=
  callPut { h with links := l, nWlist := Function.update h.nWlist n none } (h.put k) n

/-- What a call does apart from the links: nothing, or a node comes onto a list, or leaves
its list. -/
inductive Effect (ks : List L) (h h' : Heap L N) : Prop
  | same (heq : h' = h)
  | attaches {n : N} {k : L} (l : Links (Cell L N)) (hn : h.nWlist n = none) (hk : k ∈ ks)
      (heq : h' = attached h n k l)
  | detaches {n : N} {k : L} (l : Links (Cell L N)) (hn : h.nWlist n = some k)
      (heq : h' = detached h n k l)

theorem del_effect (hdel : wlistDel h n = some h') : Effect ks h h' := by
  obtain ⟨k, hk, hdel⟩ := Option.bind_eq_some_iff.mp hdel
  obtain ⟨u, hrelease, hput⟩ := Option.bind_eq_some_iff.mp hdel
  obtain ⟨l, -, hu⟩ := Option.bind_eq_some_iff.mp hrelease
  obtain rfl := Option.some.inj hu
  exact .detaches l hk (Option.some.inj hput).symm

theorem edit_effect {e : Edit L N} (hlegal : Wlists.Legal ks h e)
    (howner : ∀ n k, h.nWlist n = some k → k ∈ ks) (hedit : edit h e = some h') :
    Effect ks h h' := by
  cases e with
  | addHead n k | addTail n k =>
    obtain ⟨l, -, hadd⟩ := Option.bind_eq_some_iff.mp hedit
    exact .attaches l hlegal.2 hlegal.1 (Option.some.inj hadd).symm
  | addAfter n pos | addBefore n pos =>
    obtain ⟨k, hk, hedit⟩ := Option.bind_eq_some_iff.mp hedit
    obtain ⟨l, -, hadd⟩ := Option.bind_eq_some_iff.mp hedit
    exact .attaches l hlegal.1 (howner pos k hk) (Option.some.inj hadd).symm
  | del n => exact del_effect hedit

theorem exit_effect {i i' : Iter L N} (hexit : wlistIterExit h i = some (h', i')) :
    Effect ks h h' ∧ i'.iWlist = i.iWlist := by
  unfold wlistIterExit at hexit
  cases hcur : i.iCur with
  | none =>
    rw [hcur] at hexit
    obtain ⟨rfl, rfl⟩ := Prod.mk.inj (Option.some.inj hexit)
    exact ⟨.same rfl, rfl⟩
  | some p =>
    rw [hcur] at hexit
    obtain ⟨n, -, hcall⟩ := Option.bind_eq_some_iff.mp hexit
    obtain ⟨u, hdel, hend⟩ := Option.bind_eq_some_iff.mp hcall
    obtain ⟨rfl, rfl⟩ := Prod.mk.inj (Option.some.inj hend)
    exact ⟨del_effect hdel, rfl⟩

/-- A call of `wlist_next` that returns gives back the reference of the node it leaves,
whatever it comes to. -/
theorem next_put {i i' : Iter L N} (hnext : wlistNext h i = some (h', i')) :
    h' = callPutLeft h i ∧ i'.iWlist = i.iWlist := by
  obtain ⟨cell, -, hcell⟩ := Option.bind_eq_some_iff.mp hnext
  obtain ⟨rfl, rfl⟩ := Prod.mk.inj (Option.some.inj hcell)
  exact ⟨rfl, rfl⟩

omit [DecidableEq L] in
/-- A call of `put` that is made upsets the balance. -/
theorem put_balanced_iff (hb : Balanced callbacks h) (b : Bool) (n : N) :
    Balanced callbacks (callPut h b n) ↔ b = false := by
  cases b with
  | false => exact iff_of_true hb rfl
  | true =>
    refine iff_of_false (fun hput => ?_) (by decide)
    have hbefore := hb n
    have hafter := hput n
    simp only [callPut, if_true, Function.update_self] at hafter
    omega

omit [DecidableEq L] in
/-- An iterator that leaves a node upsets the balance if the callback is called. -/
theorem put_left_balanced_iff (hb : Balanced callbacks h) (i : Iter L N) :
    Balanced callbacks (callPutLeft h i) ↔
      ∀ n, i.iCur = some (.node n) → h.put i.iWlist = false := by
  unfold callPutLeft
  cases hcur : i.iCur with
  | none => exact iff_of_true hb fun n h => by cases h
  | some p =>
    cases p with
    | astray k => exact iff_of_true hb fun n h => by cases h
    | node n =>
      refine (put_balanced_iff hb _ n).trans ⟨fun h _ _ => h, fun h => h n rfl⟩

theorem attached_balanced (hb : Balanced callbacks h) (hn : h.nWlist n = none)
    (hget : h.get k = callbacks k) (l : Links (Cell L N)) :
    Balanced callbacks (attached h n k l) := by
  intro m
  have hold := hb m
  by_cases hm : m = n
  · subst hm
    rw [hn, due] at hold
    simp only [attached, wlistNodeInit, Function.update_self, hget, due]
    cases callbacks k <;> simp <;> omega
  · simp only [attached, wlistNodeInit, Function.update_of_ne hm]
    cases h.get k <;> simpa [Function.update_of_ne hm] using hold

omit [DecidableEq L] in
theorem detached_balanced (hb : Balanced callbacks h) (hn : h.nWlist n = some k)
    (hput : h.put k = callbacks k) (l : Links (Cell L N)) :
    Balanced callbacks (detached h n k l) := by
  intro m
  have hold := hb m
  by_cases hm : m = n
  · subst hm
    rw [hn, due] at hold
    simp only [detached, callPut, hput]
    cases hc : callbacks k <;> simp [hc, due] at hold ⊢ <;> omega
  · simp only [detached, callPut]
    cases h.put k <;> simpa [Function.update_of_ne hm] using hold

omit [DecidableEq L] in
theorem put_flagged (hf : Flagged callbacks ks h) (b : Bool) (n : N) :
    Flagged callbacks ks (callPut h b n) := by
  cases b with
  | false => exact hf
  | true => exact ⟨hf.get, hf.put, hf.owner⟩

omit [DecidableEq L] in
theorem put_left_flagged (hf : Flagged callbacks ks h) (i : Iter L N) :
    Flagged callbacks ks (callPutLeft h i) := by
  unfold callPutLeft
  split
  · exact hf
  · exact put_flagged hf _ _

theorem effect_flagged (hf : Flagged callbacks ks h) (he : Effect ks h h') :
    Flagged callbacks ks h' := by
  cases he with
  | same heq => exact heq ▸ hf
  | @attaches n k l hn hk heq =>
    subst heq
    refine ⟨hf.get, hf.put, fun m j hm => ?_⟩
    by_cases he : m = n
    · simp only [attached, wlistNodeInit, he, Function.update_self] at hm
      exact Option.some.inj hm ▸ hk
    · simp only [attached, wlistNodeInit, Function.update_of_ne he] at hm
      exact hf.owner m j hm
  | @detaches n k l hn heq =>
    subst heq
    apply put_flagged
    refine ⟨hf.get, hf.put, fun m j hm => ?_⟩
    by_cases he : m = n
    · simp [he] at hm
    · simp only [Function.update_of_ne he] at hm
      exact hf.owner m j hm

theorem effect_balanced (hf : Flagged callbacks ks h) (hb : Balanced callbacks h)
    (he : Effect ks h h') : Balanced callbacks h' := by
  cases he with
  | same heq => exact heq ▸ hb
  | attaches l hn hk heq => exact heq ▸ attached_balanced hb hn (hf.get _ hk) l
  | detaches l hn heq =>
    exact heq ▸ detached_balanced hb hn (hf.put _ (hf.owner _ _ hn)) l

end Heap

section Runs

variable {callbacks : L → Bool} {ks : List L} {s t : State L N J} {op : Op L N J}

omit [DecidableEq L] [DecidableEq N] in
/-- An iterator on one of the lists is put in place of another one. -/
theorem iters_update {iters : J → Option (Iter L N)}
    (hall : ∀ j i, iters j = some i → i.iWlist ∈ ks) (j : J) {i : Iter L N} (hi : i.iWlist ∈ ks)
    (j' : J) (i' : Iter L N) (hi' : Function.update iters j (some i) j' = some i') :
    i'.iWlist ∈ ks := by
  by_cases hj : j' = j
  · rw [hj, Function.update_self] at hi'
    exact Option.some.inj hi' ▸ hi
  · rw [Function.update_of_ne hj] at hi'
    exact hall j' i' hi'

/-- A step other than a call of `wlist_next`. -/
theorem step_effect (hw : Wired callbacks ks s) (hlegal : Legal ks s op)
    (hnext : ∀ j, op ≠ .next j) (hstep : step s op = some t) :
    Effect ks s.heap t.heap ∧ ∀ j i, t.iters j = some i → i.iWlist ∈ ks := by
  cases op with
  | edit e =>
    obtain ⟨h, hedit, hend⟩ := Option.bind_eq_some_iff.mp hstep
    obtain rfl := Option.some.inj hend
    exact ⟨edit_effect hlegal hw.heap.owner hedit, hw.iter⟩
  | init j k n =>
    obtain rfl := Option.some.inj hstep
    exact ⟨.same rfl, iters_update hw.iter j hlegal.1⟩
  | next j => exact absurd rfl (hnext j)
  | exit j =>
    obtain ⟨i, hi, hcall⟩ := Option.bind_eq_some_iff.mp hstep
    obtain ⟨⟨h, i'⟩, hexit, hend⟩ := Option.bind_eq_some_iff.mp hcall
    obtain ⟨heffect, hlist⟩ := exit_effect hexit
    obtain rfl := Option.some.inj hend
    exact ⟨heffect, iters_update hw.iter j (hlist ▸ hw.iter j i hi)⟩

/-- A call of `wlist_next` of an iterator. -/
theorem step_next {j : J} (hw : Wired callbacks ks s) (hstep : step s (.next j) = some t) :
    ∃ i, s.iters j = some i ∧ s.heap.put i.iWlist = callbacks i.iWlist ∧
      t.heap = callPutLeft s.heap i ∧ ∀ j i, t.iters j = some i → i.iWlist ∈ ks := by
  obtain ⟨i, hi, hcall⟩ := Option.bind_eq_some_iff.mp hstep
  obtain ⟨⟨h, i'⟩, hnext, hend⟩ := Option.bind_eq_some_iff.mp hcall
  obtain ⟨hput, hlist⟩ := next_put hnext
  obtain rfl := Option.some.inj hend
  exact ⟨i, hi, hw.heap.put _ (hw.iter j i hi), hput,
    iters_update hw.iter j (hlist ▸ hw.iter j i hi)⟩

theorem step_wired (hw : Wired callbacks ks s) (hlegal : Legal ks s op)
    (hstep : step s op = some t) : Wired callbacks ks t := by
  by_cases hnext : ∃ j, op = .next j
  · obtain ⟨j, rfl⟩ := hnext
    obtain ⟨i, -, -, hheap, hiters⟩ := step_next hw hstep
    refine ⟨?_, hiters⟩
    rw [hheap]
    exact put_left_flagged hw.heap i
  · obtain ⟨heffect, hiters⟩ := step_effect hw hlegal (fun j h => hnext ⟨j, h⟩) hstep
    exact ⟨effect_flagged hw.heap heffect, hiters⟩

/-- From a balanced state a step keeps the balance exactly if no iterator leaves a node. -/
theorem step_balanced_iff (hw : Wired callbacks ks s) (hb : Balanced callbacks s.heap)
    (hlegal : Legal ks s op) (hstep : step s op = some t) :
    Balanced callbacks t.heap ↔ Keeps callbacks s op := by
  by_cases hnext : ∃ j, op = .next j
  · obtain ⟨j, rfl⟩ := hnext
    obtain ⟨i, hi, hput, hheap, -⟩ := step_next hw hstep
    have hkeeps : Keeps callbacks s (.next j) ↔
        ∀ n, i.iCur = some (.node n) → callbacks i.iWlist = false := by
      constructor
      · exact fun h n hn => h j i n rfl hi hn
      · rintro h j' i' n hop hi' hn
        obtain rfl := Op.next.inj hop
        obtain rfl := Option.some.inj (hi.symm.trans hi')
        exact h n hn
    rw [hkeeps, hheap, ← hput]
    exact put_left_balanced_iff hb i
  · have hnot : ∀ j, op ≠ .next j := fun j h => hnext ⟨j, h⟩
    obtain ⟨heffect, -⟩ := step_effect hw hlegal hnot hstep
    exact iff_of_true (effect_balanced hw.heap hb heffect) fun j _ _ h => absurd h (hnot j)

end Runs

section Start

variable (callbacks : L → Bool) (l : Links (Cell L N))

theorem inits_callbacks {ks : List L} {h : Heap L N} {k : L}
    (hk : k ∈ ks ∨ h.get k = callbacks k ∧ h.put k = callbacks k) :
    (ks.foldl (fun h k => wlistInit h k (callbacks k) (callbacks k)) h).get k = callbacks k ∧
      (ks.foldl (fun h k => wlistInit h k (callbacks k) (callbacks k)) h).put k = callbacks k := by
  induction ks generalizing h with
  | nil => simpa using hk
  | cons j ks ih =>
    apply ih
    by_cases hj : k = j <;> simp_all [wlistInit]

/-- Initialising the lists calls no callback. -/
theorem inits_calls (ks : List L) (h : Heap L N) :
    (ks.foldl (fun h k => wlistInit h k (callbacks k) (callbacks k)) h).gets = h.gets ∧
      (ks.foldl (fun h k => wlistInit h k (callbacks k) (callbacks k)) h).puts = h.puts := by
  induction ks generalizing h with
  | nil => exact ⟨rfl, rfl⟩
  | cons j ks ih => exact ih _

omit [DecidableEq J] in
theorem start_owner (ks : List L) (n : N) :
    (start l callbacks ks : State L N J).heap.nWlist n = none :=
  congrFun (wlists_refine l callbacks callbacks ks).owner n

omit [DecidableEq J] in
theorem start_wired (ks : List L) :
    Wired callbacks ks (start l callbacks ks : State L N J) := by
  refine ⟨⟨fun k hk => (inits_callbacks callbacks (Or.inl hk)).1,
    fun k hk => (inits_callbacks callbacks (Or.inl hk)).2, fun n k hn => ?_⟩,
    fun j i hi => by cases hi⟩
  rw [start_owner] at hn
  cases hn

omit [DecidableEq J] in
theorem start_balanced (ks : List L) :
    Balanced callbacks (start l callbacks ks : State L N J).heap := by
  intro n
  obtain ⟨hgets, hputs⟩ := inits_calls callbacks ks (unused l : Heap L N)
  rw [start_owner, start, wlists, hgets, hputs]
  rfl

/-- The calls of the callbacks are balanced all along a run exactly if no iterator of a
list with callbacks is moved on from a node. -/
theorem callbacks_balanced_iff (l : Links (Cell L N)) (callbacks : L → Bool) (ks : List L)
    (ops : List (Op L N J)) (hops : Allowed step (Legal ks) (start l callbacks ks) ops) :
    EveryState step (fun s => Balanced callbacks s.heap) (start l callbacks ks) ops ↔
      EveryStep step (fun s op _ => Keeps callbacks s op) (start l callbacks ks) ops := by
  have hstart := start_balanced (J := J) callbacks l ks
  have hexact : ∀ (s : State L N J) op t, Wired callbacks ks s ∧ Balanced callbacks s.heap →
      Legal ks s op → step s op = some t → (Balanced callbacks t.heap ↔ Keeps callbacks s op) :=
    fun s op t hs hlegal hstep => step_balanced_iff hs.1 hs.2 hlegal hstep
  have hsteps := exact_allowed (fun _ _ t => Balanced callbacks t.heap)
    (fun s op t hs hlegal hstep hok => ⟨step_wired hs.1 hlegal hstep, hok⟩) hexact
    ⟨start_wired callbacks l ks, hstart⟩ hops
  rw [← hsteps]
  exact and_iff_right hstart

/-- A node is attached, an iterator comes to it, and the iteration is ended there. -/
def early : List (Op Unit Bool Unit) :=
  [.edit (.addTail false ()), .init () () none, .next (), .exit ()]

theorem early_balanced :
    EveryState step (fun s => Balanced (fun _ => true) s.heap)
      (start bare (fun _ => true) [()]) early := by
  refine (callbacks_balanced_iff bare (fun _ => true) [()] early ?_).mpr ?_
  · refine ⟨⟨by simp, rfl⟩, fun s hs => ?_⟩
    obtain rfl := Option.some.inj hs
    refine ⟨⟨by simp, by simp⟩, fun s hs => ⟨trivial, fun s hs => ⟨trivial, fun _ _ => trivial⟩⟩⟩
  · rintro s hs
    obtain rfl := Option.some.inj hs
    refine ⟨fun j i n hop => (by cases hop), fun s hs => ?_⟩
    obtain rfl := Option.some.inj hs
    refine ⟨fun j i n hop => (by cases hop), fun s hs => ⟨fun j i n hop hi hn => ?_,
      fun s hs => ⟨fun j i n hop => (by cases hop), trivial⟩⟩⟩
    obtain rfl := Option.some.inj hi
    cases hn

/-- A node is attached, and an iterator passes it. -/
def passing : List (Op Unit Bool Unit) :=
  [.edit (.addTail false ()), .init () () none, .next (), .next (), .exit ()]

/-- A node is attached, and deleted while an iterator is on it, which then goes on. -/
def leaving : List (Op Unit Bool Unit) :=
  [.edit (.addTail false ()), .init () () none, .next (), .edit (.del false), .next ()]

/-- The passed node stays attached without a reference, and one more reference of the
deleted node is given back than it had. -/
theorem passed_unbalanced :
    Allowed step (Legal [()]) (start bare (fun _ => true) [()]) passing ∧
      (run step (start bare (fun _ => true) [()]) passing).map
        (fun s => (s.heap.nWlist false, s.heap.gets false, s.heap.puts false)) =
      some (some (), 1, 1) ∧
      (run step (start bare (fun _ => true) [()]) leaving).map
        (fun s => (s.heap.nWlist false, s.heap.gets false, s.heap.puts false)) =
      some (none, 1, 2) ∧
      ¬EveryState step (fun s => Balanced (fun _ => true) s.heap)
        (start bare (fun _ => true) [()]) passing := by
  refine ⟨⟨⟨by simp, rfl⟩, fun s hs => ?_⟩, rfl, rfl, fun hall => ?_⟩
  · obtain rfl := Option.some.inj hs
    refine ⟨⟨by simp, by simp⟩, fun s hs => ⟨trivial, fun s hs => ⟨trivial, fun s hs => ?_⟩⟩⟩
    exact ⟨trivial, fun _ _ => trivial⟩
  · obtain ⟨-, hsteps⟩ := hall
    obtain ⟨-, hsteps⟩ := hsteps _ rfl
    obtain ⟨-, hsteps⟩ := hsteps _ rfl
    obtain ⟨-, hsteps⟩ := hsteps _ rfl
    obtain ⟨hbalanced, -⟩ := hsteps _ rfl
    exact absurd (hbalanced false) (by decide)

end Start

end RS485.Balance
