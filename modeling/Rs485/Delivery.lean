import Rs485.Queue

/-!
# What the queue delivers

As long as no semaphore call fails, every accepted message is given to
`do_bus_message` once and in the order of insertion, and a handler that waits
for the semaphore leaves no message behind. When semaphore calls do fail, the
handler stays on entries of the queue exactly as long as it never picks from an
empty one and no writer takes back an entry that the handler has had.
-/

set_option autoImplicit false

namespace RS485.Delivery
open RS485.Records RS485.Ring RS485.Klist RS485.Runs RS485.Queue

section InOrder

/-- The steps of runs in which every semaphore call succeeds. -/
def quietStep (s : Stack) : Op → Option Stack
  | .post _ false => none
  | .wait false => none
  | op => step s op

/-- The steps of the handler, and those of a writer after its insertion. -/
def Serving : Op → Prop
  | .write _ _ _ => False
  | _ => True

/-- The count the handler has taken for an entry that is still in the list. -/
def held : Handler → ℕ
  | .waiting => 0
  | .picking => 1
  | .handling _ => 1

/-- The entries nobody has passed on yet, oldest first. -/
def pending (s : Stack) : List Entry :=
  match s.handler with
  | .handling _ => s.list.dropLast.reverse
  | _ => s.list.reverse

structure InStep (s : Stack) : Prop where
  count : s.list.length = s.sem + s.posting.length + held s.handler
  order : s.inserted = s.passed++pending s
  once : (s.inserted.map Entry.addr).Nodup
  fresh : ∀ e ∈ s.inserted, e.addr < s.next
  distinct : s.list.Nodup
  listed : ∀ e ∈ s.list, e ∈ s.inserted
  noFailure : s.withdrawing = []
  oldest : ∀ node, s.handler = .handling node → node ≠ none ∧ s.list.getLast? = node

/-- Messages are passed on once and in the order of insertion, those of a drained queue
are all passed on, and the handler and the writers at work can always get there. -/
structure Delivers (s : Stack) : Prop where
  inOrder : s.inserted = s.passed++pending s
  once : (s.inserted.map Entry.addr).Nodup
  drained : s.sem = 0 → s.posting = [] → s.handler = .waiting →
    s.list = [] ∧ s.passed = s.inserted
  served : ∃ ops t, (∀ op ∈ ops, Serving op) ∧ run quietStep s ops = some t ∧
    t.passed = s.inserted ∧ t.inserted = s.inserted

/-- What a step does with the messages: a write inserts its message if it returns 0,
which is up to its arguments and to `calloc`, and a pick takes the oldest that is left. -/
def Moves (s : Stack) (op : Op) (t : Stack) : Prop :=
  match op with
  | .write buffer len calloc =>
    ((customBusWrite s buffer len calloc).1 = 0 ↔
      buffer ≠ none ∧ len = writeDeviceSize ∧ calloc = true) ∧
    t.passed = s.passed ∧
    t.inserted = s.inserted++
      if (customBusWrite s buffer len calloc).1 = 0 then (buffer.map (Entry.mk s.next)).toList else []
  | .pick =>
    ∃ node rest, pending s = node::rest ∧ t.handler = .handling (some node) ∧
      t.passed = s.passed++[node] ∧ t.inserted = s.inserted
  | _ => t.passed = s.passed ∧ t.inserted = s.inserted

theorem in_step_start : InStep start where
  count := rfl
  order := rfl
  once := List.nodup_nil
  fresh := by simp [start]
  distinct := List.nodup_nil
  listed := by simp [start]
  noFailure := rfl
  oldest _ h := by simp [start] at h

variable {s t : Stack}

theorem handling_ne_nil (h : InStep s) {node : Option Entry} (hn : s.handler = .handling node) :
    s.list ≠ [] := by
  intro hnil
  obtain ⟨hsome, hlast⟩ := h.oldest node hn
  rw [hnil] at hlast
  exact hsome hlast.symm

theorem in_step_entry (h : InStep s) (data : WriteDevice) : InStep (withEntry s data) := by
  refine { h with count := ?_, order := ?_, once := ?_, fresh := ?_, distinct := ?_, listed := ?_,
                  oldest := ?_ }
  · have hcount := h.count
    simp only [withEntry, List.length_cons]
    omega
  · have horder := h.order
    cases hn : s.handler with
    | waiting => simp_all [pending, withEntry]
    | picking => simp_all [pending, withEntry]
    | handling node =>
      have hne := handling_ne_nil h hn
      simp_all [pending, withEntry, List.dropLast_cons_of_ne_nil]
  · have hnew : s.next ∉ s.inserted.map Entry.addr := by
      simpa using fun e he hx => absurd (h.fresh e he) (by omega)
    simpa [withEntry, List.nodup_append] using
      ⟨h.once, fun e he hx => hnew (by simpa using ⟨e, he, hx⟩)⟩
  · intro e he
    rcases List.mem_append.mp he with he | he
    · exact Nat.lt_succ_of_lt (h.fresh e he)
    · obtain rfl := List.mem_singleton.mp he
      exact Nat.lt_succ_self _
  · apply List.nodup_cons.mpr
    refine ⟨fun hmem => ?_, h.distinct⟩
    exact absurd (h.fresh _ (h.listed _ hmem)) (lt_irrefl _)
  · intro e he
    rcases List.mem_cons.mp he with rfl | he
    · exact List.mem_append_right _ (List.mem_singleton_self _)
    · exact List.mem_append_left _ (h.listed e he)
  · intro node hn
    obtain ⟨hsome, hlast⟩ := h.oldest node hn
    obtain ⟨e, rfl⟩ := Option.ne_none_iff_exists'.mp hsome
    exact ⟨hsome, by simp [withEntry, List.getLast?_cons, hlast]⟩

theorem in_step_write (h : InStep s) (buffer : Option WriteDevice) (len : ℤ) (calloc : Bool) :
    InStep (customBusWrite s buffer len calloc).2 := by
  rcases write_cases s buffer len calloc with ⟨-, -, heq⟩ | ⟨data, -, -, -, -, heq⟩
  · rw [heq]
    exact h
  · rw [heq]
    exact in_step_entry h data

theorem in_step_post (h : InStep s) {node : Entry} (ht : semPost s node true = some t) :
    InStep t := by
  obtain ⟨hmem, ⟨-, rfl⟩ | ⟨hfalse, -⟩⟩ := post_cases ht
  · refine { h with count := ?_ }
    have hcount := h.count
    have hlen := List.length_erase_of_mem hmem
    have hpos := List.length_pos_of_mem hmem
    show s.list.length = s.sem+1 + (s.posting.erase node).length + held s.handler
    omega
  · exact absurd hfalse (by decide)

theorem in_step_wait (h : InStep s) (ht : semWait s true = some t) : InStep t := by
  obtain ⟨hn, ⟨-, sem, hsem, rfl⟩ | ⟨hfalse, -⟩⟩ := wait_cases ht
  · have hcount := h.count
    have horder := h.order
    rw [hn, hsem] at hcount
    refine { h with count := ?_, order := ?_, oldest := fun node hh => by simp at hh }
    · show s.list.length = sem + s.posting.length + 1
      simp only [held] at hcount
      omega
    · simpa [pending, hn] using horder
  · exact absurd hfalse (by decide)

theorem picking_entry (h : InStep s) (hn : s.handler = .picking) :
    ∃ front node, s.list = front++[node] := by
  have hcount := h.count
  rw [hn] at hcount
  refine (List.eq_nil_or_concat' s.list).resolve_left fun hnil => ?_
  simp [hnil, held] at hcount

theorem in_step_pick (h : InStep s) (ht : pick s = some t) : InStep t := by
  obtain ⟨hn, rfl⟩ := pick_cases ht
  obtain ⟨front, node, hlist⟩ := picking_entry h hn
  have hcount := h.count
  have horder := h.order
  rw [hn] at hcount
  refine { h with count := hcount, order := ?_, oldest := fun o ho => ?_ }
  -- the oldest entry moves from the pending ones to those passed on
  · simp_all [pending]
  · obtain rfl : s.list.getLast? = o := by simpa using ho
    exact ⟨by simp [hlist], rfl⟩

theorem erase_last {l : List Entry} {node : Entry} (hd : l.Nodup) (hlast : l.getLast? = some node) :
    l.erase node = l.dropLast := by
  obtain ⟨front, rfl⟩ := List.getLast?_eq_some_iff.mp hlast
  have hnot : node ∉ front := by
    intro hmem
    exact (List.nodup_append.mp hd).2.2 node hmem node (List.mem_singleton_self _) rfl
  simp [List.erase_append_right _ hnot]

theorem in_step_remove (h : InStep s) (ht : remove s = some t) : InStep t := by
  obtain ⟨node, hn, rfl⟩ := remove_cases ht
  obtain ⟨-, hlast⟩ := h.oldest _ hn
  have hcount := h.count
  have horder := h.order
  have herase := erase_last h.distinct hlast
  refine { h with count := ?_, order := ?_, distinct := h.distinct.erase node, listed := ?_,
                  oldest := fun o ho => by simp at ho }
  · show (s.list.erase node).length = s.sem + s.posting.length + 0
    rw [hn] at hcount
    simp only [held] at hcount
    rw [herase, List.length_dropLast]
    omega
  · rw [pending, hn] at horder
    simpa [pending, herase] using horder
  · exact fun e he => h.listed e (List.mem_of_mem_erase he)

theorem in_step_step (h : InStep s) (op : Op) (ht : quietStep s op = some t) : InStep t := by
  cases op with
  | write buffer len calloc =>
    obtain rfl := Option.some.inj ht
    exact in_step_write h buffer len calloc
  | post node ok =>
    cases ok with
    | false => simp [quietStep] at ht
    | true => exact in_step_post h ht
  | withdraw node =>
    have hempty := h.noFailure
    simp [quietStep, step, withdraw, hempty] at ht
  | wait ok =>
    cases ok with
    | false => simp [quietStep] at ht
    | true => exact in_step_wait h ht
  | pick => exact in_step_pick h ht
  | remove => exact in_step_remove h ht

theorem empty_of_drained (h : InStep s) (hsem : s.sem = 0) (hpost : s.posting = [])
    (hwait : s.handler = .waiting) : s.list = [] := by
  have hcount := h.count
  rw [hsem, hpost, hwait] at hcount
  exact List.eq_nil_of_length_eq_zero hcount

theorem passed_of_empty (h : InStep s) (hlist : s.list = []) : s.passed = s.inserted := by
  have horder := h.order
  unfold pending at horder
  split at horder <;> simpa [hlist] using horder.symm

/-- The steps that the entries of the queue still take, at most. -/
def left (s : Stack) : ℕ :=
  s.posting.length + 3*s.list.length +
    match s.handler with
    | .waiting => 2
    | .picking => 1
    | .handling _ => 0

theorem serving_step (h : InStep s) (hne : s.list ≠ []) :
    ∃ op t, Serving op ∧ quietStep s op = some t ∧ t.inserted = s.inserted ∧ left t < left s := by
  rcases hn : s.handler with _ | _ | node
  · rcases hpost : s.posting with _ | ⟨node, posting⟩
    · have hcount := h.count
      have hpos := List.length_pos_iff.mpr hne
      simp only [hn, hpost, held, List.length_nil] at hcount
      obtain ⟨sem, hsem⟩ : ∃ sem, s.sem = sem+1 := Nat.exists_eq_succ_of_ne_zero (by omega)
      refine ⟨.wait true, { s with sem := sem, handler := .picking }, trivial, ?_, rfl, ?_⟩
      · simp [quietStep, step, semWait, hn, hsem]
      · simp [left, hn]
    · refine ⟨.post node true, { s with posting := posting, sem := s.sem+1 }, trivial, ?_, rfl, ?_⟩
      · simp [quietStep, step, semPost, hpost]
      · simp [left, hn, hpost]
  · refine ⟨.pick, { s with
      handler := .handling s.list.getLast?
      passed := s.passed++s.list.getLast?.toList }, trivial, ?_, rfl, ?_⟩
    · simp [quietStep, step, pick, hn]
    · simp [left, hn]
  · obtain ⟨hsome, hlast⟩ := h.oldest node hn
    obtain ⟨e, rfl⟩ := Option.ne_none_iff_exists'.mp hsome
    refine ⟨.remove, { s with
      handler := .waiting
      list := s.list.erase e
      freed := e::s.freed }, trivial, ?_, rfl, ?_⟩
    · simp [quietStep, step, remove, hn]
    · have hlen := List.length_erase_of_mem (List.mem_of_getLast? hlast)
      have hpos := List.length_pos_iff.mpr hne
      simp only [left, hn, hlen]
      omega

theorem in_step_served (h : InStep s) :
    ∃ ops t, (∀ op ∈ ops, Serving op) ∧ run quietStep s ops = some t ∧
      t.passed = s.inserted ∧ t.inserted = s.inserted := by
  induction hm : left s using Nat.strong_induction_on generalizing s with
  | _ m ih =>
    by_cases hnil : s.list = []
    · exact ⟨[], s, by simp, rfl, passed_of_empty h hnil, rfl⟩
    · obtain ⟨op, u, hserving, hu, hsame, hless⟩ := serving_step h hnil
      obtain ⟨ops, t, hops, ht, hpassed, hinserted⟩ :=
        ih (left u) (hm ▸ hless) (in_step_step h op hu) rfl
      refine ⟨op::ops, t, ?_, by simp [run, hu, ht], by rw [hpassed, hsame],
        by rw [hinserted, hsame]⟩
      simpa using ⟨hserving, hops⟩

theorem in_step_delivers (h : InStep s) : Delivers s where
  inOrder := h.order
  once := h.once
  drained hsem hpost hwait :=
    have hlist := empty_of_drained h hsem hpost hwait
    ⟨hlist, passed_of_empty h hlist⟩
  served := in_step_served h

theorem write_moves (s : Stack) (buffer : Option WriteDevice) (len : ℤ) (calloc : Bool) :
    Moves s (.write buffer len calloc) (customBusWrite s buffer len calloc).2 := by
  rcases write_cases s buffer len calloc with ⟨hnot, hret, heq⟩ | ⟨data, rfl, rfl, rfl, hret, heq⟩
  · simp [Moves, hnot, hret, heq]
  · simp [Moves, hret, heq, withEntry]

theorem in_step_moves (h : InStep s) (op : Op) (ht : quietStep s op = some t) : Moves s op t := by
  cases op with
  | write buffer len calloc =>
    obtain rfl := Option.some.inj ht
    exact write_moves s buffer len calloc
  | post node ok =>
    cases ok with
    | false => simp [quietStep] at ht
    | true => obtain ⟨-, ⟨-, rfl⟩ | ⟨-, rfl⟩⟩ := post_cases ht <;> exact ⟨rfl, rfl⟩
  | withdraw node =>
    obtain ⟨-, rfl⟩ := withdraw_cases ht
    exact ⟨rfl, rfl⟩
  | wait ok =>
    cases ok with
    | false => simp [quietStep] at ht
    | true => obtain ⟨-, ⟨-, sem, -, rfl⟩ | ⟨-, rfl⟩⟩ := wait_cases ht <;> exact ⟨rfl, rfl⟩
  | pick =>
    obtain ⟨hn, rfl⟩ := pick_cases ht
    obtain ⟨front, node, hlist⟩ := picking_entry h hn
    exact ⟨node, front.reverse, by simp [pending, hn, hlist], by simp [hlist], by simp [hlist], rfl⟩
  | remove =>
    obtain ⟨node, -, rfl⟩ := remove_cases ht
    exact ⟨rfl, rfl⟩

end InOrder

section Failures

/-- The entry that is passed on, and the one that is removed, is in the queue. -/
def HandlerSafe (s : Stack) (op : Op) (t : Stack) : Prop :=
  match op with
  | .pick => ∃ e ∈ s.list, t.handler = .handling (some e)
  | .remove => ∃ e ∈ s.list, s.handler = .handling (some e) ∧ e ∉ s.freed
  | _ => True

/-- The message of a write that failed is never handled, and freed once. -/
def FailedUntouched (s : Stack) : Prop := ∀ e ∈ s.failed, e ∉ s.passed ∧ s.freed.count e = 1

def Safely (s : Stack) (op : Op) (t : Stack) : Prop := HandlerSafe s op t ∧ FailedUntouched t

/-- The handler picks from a queue that is not empty, and a writer whose post
failed finds that the handler has not had its entry. -/
def Calm (s : Stack) : Op → Prop
  | .pick => s.list ≠ []
  | .withdraw node => node ∉ s.passed
  | _ => True

structure Orderly (s : Stack) : Prop where
  distinct : s.list.Nodup
  listFresh : ∀ e ∈ s.list, e.addr < s.next
  postOnce : s.posting.Nodup
  withdrawOnce : s.withdrawing.Nodup
  apart : ∀ e ∈ s.posting, e ∉ s.withdrawing
  known : ∀ e, e ∈ s.posting ∨ e ∈ s.withdrawing → e.addr < s.next ∧ (e ∈ s.list ∨ e ∈ s.passed)
  passedFresh : ∀ e ∈ s.passed, e.addr < s.next
  handling : ∀ o, s.handler = .handling o → ∃ e, o = some e ∧ e ∈ s.list ∧ e ∈ s.passed
  freedOnce : s.freed.Nodup
  freedGone : ∀ e ∈ s.freed, e.addr < s.next ∧ e ∉ s.list
  failedGone : ∀ e ∈ s.failed, e ∈ s.freed ∧ e ∉ s.passed ∧ e ∉ s.posting ∧ e ∉ s.withdrawing

variable {s t : Stack}

theorem orderly_start : Orderly start := by
  refine ⟨?_, ?_, ?_, ?_, ?_, ?_, ?_, ?_, ?_, ?_, ?_⟩ <;> simp [start]

theorem orderly_untouched (h : Orderly s) : FailedUntouched s := by
  intro e he
  obtain ⟨hfreed, hpassed, -⟩ := h.failedGone e he
  exact ⟨hpassed, List.count_eq_one_of_mem h.freedOnce hfreed⟩

theorem orderly_entry (h : Orderly s) (data : WriteDevice) : Orderly (withEntry s data) := by
  have hold : ∀ e : Entry, e.addr < s.next → e ≠ ⟨s.next, data⟩ := by
    rintro e he rfl
    exact lt_irrefl _ he
  refine { h with
    distinct := ?_, listFresh := ?_, postOnce := ?_, apart := ?_, known := ?_, passedFresh := ?_,
    handling := ?_, freedGone := ?_, failedGone := ?_ }
  · exact List.nodup_cons.mpr ⟨fun hm => hold _ (h.listFresh _ hm) rfl, h.distinct⟩
  · intro e he
    rcases List.mem_cons.mp he with rfl | he
    · exact Nat.lt_succ_self _
    · exact Nat.lt_succ_of_lt (h.listFresh e he)
  · exact List.nodup_cons.mpr ⟨fun hm => hold _ (h.known _ (Or.inl hm)).1 rfl, h.postOnce⟩
  · intro e he hw
    rcases List.mem_cons.mp he with rfl | he
    · exact hold _ (h.known _ (Or.inr hw)).1 rfl
    · exact h.apart e he hw
  · intro e he
    by_cases hnew : e = ⟨s.next, data⟩
    · subst hnew
      exact ⟨Nat.lt_succ_self _, Or.inl List.mem_cons_self⟩
    · have he' : e ∈ s.posting ∨ e ∈ s.withdrawing := by simpa [withEntry, hnew] using he
      obtain ⟨hlt, hwhere⟩ := h.known e he'
      exact ⟨Nat.lt_succ_of_lt hlt, hwhere.imp_left (List.mem_cons_of_mem _)⟩
  · exact fun e he => Nat.lt_succ_of_lt (h.passedFresh e he)
  · intro o ho
    obtain ⟨e, rfl, hlist, hpassed⟩ := h.handling o ho
    exact ⟨e, rfl, List.mem_cons_of_mem _ hlist, hpassed⟩
  · intro e he
    obtain ⟨hlt, hgone⟩ := h.freedGone e he
    exact ⟨Nat.lt_succ_of_lt hlt, fun hm => (List.mem_cons.mp hm).elim (hold e hlt) hgone⟩
  · intro e he
    obtain ⟨hfreed, hpassed, hpost, hwith⟩ := h.failedGone e he
    have hlt := (h.freedGone e hfreed).1
    exact ⟨hfreed, hpassed, fun hm => (List.mem_cons.mp hm).elim (hold e hlt) hpost, hwith⟩

theorem orderly_write (h : Orderly s) (buffer : Option WriteDevice) (len : ℤ) (calloc : Bool) :
    Orderly (customBusWrite s buffer len calloc).2 := by
  rcases write_cases s buffer len calloc with ⟨-, -, heq⟩ | ⟨data, -, -, -, -, heq⟩
  · rw [heq]
    exact h
  · rw [heq]
    exact orderly_entry h data

theorem orderly_post (h : Orderly s) {node : Entry} {ok : Bool}
    (ht : semPost s node ok = some t) : Orderly t := by
  obtain ⟨hmem, hcases⟩ := post_cases ht
  have hsub : ∀ e ∈ s.posting.erase node, e ∈ s.posting := fun e he => List.mem_of_mem_erase he
  rcases hcases with ⟨-, rfl⟩ | ⟨-, rfl⟩
  · refine { h with postOnce := h.postOnce.erase node, apart := ?_, known := ?_, failedGone := ?_ }
    · exact fun e he => h.apart e (hsub e he)
    · exact fun e he => h.known e (he.imp_left (hsub e))
    · intro e he
      obtain ⟨hfreed, hpassed, hpost, hwith⟩ := h.failedGone e he
      exact ⟨hfreed, hpassed, fun hm => hpost (hsub e hm), hwith⟩
  · refine { h with
      postOnce := h.postOnce.erase node, withdrawOnce := ?_, apart := ?_, known := ?_,
      failedGone := ?_ }
    · exact List.nodup_cons.mpr ⟨h.apart node hmem, h.withdrawOnce⟩
    · intro e he hw
      rcases List.mem_cons.mp hw with rfl | hw
      · exact h.postOnce.not_mem_erase he
      · exact h.apart e (hsub e he) hw
    · intro e he
      rcases he with he | he
      · exact h.known e (Or.inl (hsub e he))
      · rcases List.mem_cons.mp he with rfl | he
        · exact h.known e (Or.inl hmem)
        · exact h.known e (Or.inr he)
    · intro e he
      obtain ⟨hfreed, hpassed, hpost, hwith⟩ := h.failedGone e he
      refine ⟨hfreed, hpassed, fun hm => hpost (hsub e hm), fun hm => ?_⟩
      rcases List.mem_cons.mp hm with rfl | hm
      · exact hpost hmem
      · exact hwith hm

theorem orderly_withdraw (h : Orderly s) {node : Entry} (hcalm : node ∉ s.passed)
    (ht : withdraw s node = some t) : Orderly t := by
  obtain ⟨hmem, rfl⟩ := withdraw_cases ht
  obtain ⟨hlt, hwhere⟩ := h.known node (Or.inr hmem)
  have hlist : node ∈ s.list := hwhere.resolve_right hcalm
  have hkeep : ∀ e ∈ s.list, e ≠ node → e ∈ s.list.erase node :=
    fun e he hne => (List.mem_erase_of_ne hne).mpr he
  have hsub : ∀ e ∈ s.withdrawing.erase node, e ∈ s.withdrawing ∧ e ≠ node := by
    intro e he
    refine ⟨List.mem_of_mem_erase he, ?_⟩
    rintro rfl
    exact h.withdrawOnce.not_mem_erase he
  refine { h with
    distinct := h.distinct.erase node, listFresh := ?_, withdrawOnce := h.withdrawOnce.erase node,
    apart := ?_, known := ?_, handling := ?_, freedOnce := ?_, freedGone := ?_, failedGone := ?_ }
  · exact fun e he => h.listFresh e (List.mem_of_mem_erase he)
  · exact fun e he hw => h.apart e he (hsub e hw).1
  · intro e he
    have hne : e ≠ node := by
      rintro rfl
      exact he.elim (fun hp => h.apart e hp hmem) fun hw => (hsub e hw).2 rfl
    obtain ⟨hlt, hwhere⟩ := h.known e (he.imp_right fun hw => (hsub e hw).1)
    exact ⟨hlt, hwhere.imp_left fun hl => hkeep e hl hne⟩
  · intro o ho
    obtain ⟨e, rfl, hl, hp⟩ := h.handling o ho
    exact ⟨e, rfl, hkeep e hl (fun he => hcalm (he ▸ hp)), hp⟩
  · exact List.nodup_cons.mpr ⟨fun hf => (h.freedGone node hf).2 hlist, h.freedOnce⟩
  · intro e he
    rcases List.mem_cons.mp he with rfl | he
    · exact ⟨hlt, h.distinct.not_mem_erase⟩
    · exact ⟨(h.freedGone e he).1, fun hl => (h.freedGone e he).2 (List.mem_of_mem_erase hl)⟩
  · intro e he
    rcases List.mem_cons.mp he with rfl | he
    · exact ⟨List.mem_cons_self, hcalm, fun hp => h.apart e hp hmem, fun hw => (hsub e hw).2 rfl⟩
    · obtain ⟨hfreed, hpassed, hpost, hwith⟩ := h.failedGone e he
      exact ⟨List.mem_cons_of_mem _ hfreed, hpassed, hpost, fun hw => hwith (hsub e hw).1⟩

theorem orderly_wait (h : Orderly s) {ok : Bool} (ht : semWait s ok = some t) : Orderly t := by
  obtain ⟨-, ⟨-, sem, -, rfl⟩ | ⟨-, rfl⟩⟩ := wait_cases ht
  · exact { h with handling := fun o ho => by simp at ho }
  · exact { h with handling := fun o ho => by simp at ho }

theorem pick_takes_last (hne : s.list ≠ []) (ht : pick s = some t) :
    ∃ node ∈ s.list,
      t = { s with handler := .handling (some node), passed := s.passed++[node] } := by
  obtain ⟨-, rfl⟩ := pick_cases ht
  rw [List.getLast?_eq_some_getLast hne]
  exact ⟨_, List.getLast_mem hne, rfl⟩

theorem orderly_pick (h : Orderly s) (hcalm : s.list ≠ []) (ht : pick s = some t) :
    Orderly t := by
  obtain ⟨node, hmem, rfl⟩ := pick_takes_last hcalm ht
  have hkeep : ∀ e ∈ s.passed, e ∈ s.passed++[node] := fun e he => List.mem_append_left _ he
  refine { h with known := ?_, passedFresh := ?_, handling := ?_, failedGone := ?_ }
  · intro e he
    obtain ⟨hlt, hwhere⟩ := h.known e he
    exact ⟨hlt, hwhere.imp_right (hkeep e)⟩
  · intro e he
    rcases List.mem_append.mp he with he | he
    · exact h.passedFresh e he
    · obtain rfl := List.mem_singleton.mp he
      exact h.listFresh _ hmem
  · intro o ho
    obtain rfl := Handler.handling.inj ho
    exact ⟨_, rfl, hmem, List.mem_append_right _ (List.mem_singleton_self _)⟩
  · intro e he
    obtain ⟨hfreed, hpassed, hrest⟩ := h.failedGone e he
    refine ⟨hfreed, fun hm => ?_, hrest⟩
    rcases List.mem_append.mp hm with hm | hm
    · exact hpassed hm
    -- a failed entry has been freed, so it is not in the queue any more
    · obtain rfl := List.mem_singleton.mp hm
      exact (h.freedGone _ hfreed).2 hmem

theorem orderly_remove (h : Orderly s) (ht : remove s = some t) : Orderly t := by
  obtain ⟨node, hn, rfl⟩ := remove_cases ht
  obtain ⟨_, ⟨⟩, hlist, hpassed⟩ := h.handling _ hn
  refine { h with
    distinct := h.distinct.erase node, listFresh := ?_, known := ?_, handling := ?_,
    freedOnce := ?_, freedGone := ?_, failedGone := ?_ }
  · exact fun e he => h.listFresh e (List.mem_of_mem_erase he)
  · intro e he
    obtain ⟨hlt, hwhere⟩ := h.known e he
    by_cases hne : e = node
    · exact ⟨hlt, Or.inr (hne ▸ hpassed)⟩
    · exact ⟨hlt, hwhere.imp_left (List.mem_erase_of_ne hne).mpr⟩
  · exact fun o ho => by simp at ho
  · exact List.nodup_cons.mpr ⟨fun hf => (h.freedGone node hf).2 hlist, h.freedOnce⟩
  · intro e he
    rcases List.mem_cons.mp he with rfl | he
    · exact ⟨h.listFresh _ hlist, h.distinct.not_mem_erase⟩
    · exact ⟨(h.freedGone e he).1, fun hl => (h.freedGone e he).2 (List.mem_of_mem_erase hl)⟩
  · intro e he
    obtain ⟨hfreed, hrest⟩ := h.failedGone e he
    exact ⟨List.mem_cons_of_mem _ hfreed, hrest⟩

theorem orderly_step (h : Orderly s) (op : Op) (hcalm : Calm s op) (ht : step s op = some t) :
    Orderly t := by
  cases op with
  | write buffer len calloc =>
    obtain rfl := Option.some.inj ht
    exact orderly_write h buffer len calloc
  | post node ok => exact orderly_post h ht
  | withdraw node => exact orderly_withdraw h hcalm ht
  | wait ok => exact orderly_wait h ht
  | pick => exact orderly_pick h hcalm ht
  | remove => exact orderly_remove h ht

theorem handler_safe_of_calm (h : Orderly s) (op : Op) (hcalm : Calm s op)
    (ht : step s op = some t) : HandlerSafe s op t := by
  cases op with
  | write buffer len calloc => trivial
  | post node ok => trivial
  | withdraw node => trivial
  | wait ok => trivial
  | pick =>
    obtain ⟨node, hmem, rfl⟩ := pick_takes_last hcalm ht
    exact ⟨node, hmem, rfl⟩
  | remove =>
    obtain ⟨node, hn, -⟩ := remove_cases ht
    obtain ⟨_, ⟨⟩, hlist, -⟩ := h.handling _ hn
    exact ⟨node, hlist, hn, fun hf => (h.freedGone node hf).2 hlist⟩

theorem calm_of_safely (op : Op) (ht : step s op = some t) (hsafe : Safely s op t) : Calm s op := by
  cases op with
  | write buffer len calloc => trivial
  | post node ok => trivial
  | wait ok => trivial
  | remove => trivial
  | pick =>
    obtain ⟨e, hmem, -⟩ := hsafe.1
    exact List.ne_nil_of_mem hmem
  | withdraw node =>
    obtain ⟨-, rfl⟩ := withdraw_cases ht
    exact (hsafe.2 node List.mem_cons_self).1

theorem safely_iff_calm (h : Orderly s) (op : Op) (ht : step s op = some t) :
    Safely s op t ↔ Calm s op := by
  constructor
  · exact calm_of_safely op ht
  · intro hcalm
    exact ⟨handler_safe_of_calm h op hcalm ht, orderly_untouched (orderly_step h op hcalm ht)⟩

/-- The handler and the failed writes keep out of each other's way all along a
run exactly when every step of it is calm. -/
theorem safely_run_iff (ops : List Op) :
    EveryStep step Safely start ops ↔ EveryStep step (fun s op _ => Calm s op) start ops :=
  exact_run Safely (fun _ _ _ _ _ => trivial)
    (fun _ op _ _ h ht hok => orderly_step h op ((safely_iff_calm h op ht).mp hok) ht)
    (fun _ op _ _ h ht => safely_iff_calm h op ht) start trivial orderly_start ops

end Failures

section Linked

/-- The links stand for the list, and the handler's walk has found the entry that it picks. -/
def Follows (p : Stack × Links Cell) (op : Op) (q : Stack × Links Cell) : Prop :=
  Stands q.2 q.1.list ∧ (op = .pick → ∃ node, q.1.handler = .handling node ∧
    ∀ fuel, p.1.list.length < fuel → oldest p.2 fuel = some (node.map fun e => .node e.addr))

/-- The linked queue runs along with the list and never follows a dead link. -/
def LinksFollow (step : Stack → Op → Option Stack) (ops : List Op) : Prop :=
  (∀ t, run step start ops = some t → ∃ l, run (linkedStep step) linkedStart ops = some (t, l)) ∧
    EveryStep (linkedStep step) Follows linkedStart ops

variable {s t : Stack}

theorem links_step (h : Orderly s) {l : Links Cell} (hl : Stands l s.list) (op : Op)
    (hcalm : Calm s op) (ht : step s op = some t) :
    ∃ l', linksStep l s op = some l' ∧ Stands l' t.list := by
  cases op with
  | write buffer len calloc =>
    obtain rfl := Option.some.inj ht
    rcases write_cases s buffer len calloc with ⟨-, hret, heq⟩ | ⟨data, -, -, -, hret, heq⟩
    · rw [heq]
      exact ⟨l, by simp [linksStep, hret], hl⟩
    · have hnew : ∀ e ∈ s.list, e.addr ≠ s.next := fun e he => (h.listFresh e he).ne
      obtain ⟨l', hadd, hstands⟩ := insert_stands hl ⟨s.next, data⟩ hnew
      rw [heq]
      exact ⟨l', by simp [linksStep, hret, hadd], hstands⟩
  | post node ok =>
    obtain ⟨-, ⟨-, rfl⟩ | ⟨-, rfl⟩⟩ := post_cases ht <;> exact ⟨l, rfl, hl⟩
  | withdraw node =>
    obtain ⟨hmem, rfl⟩ := withdraw_cases ht
    obtain ⟨-, hwhere⟩ := h.known node (Or.inr hmem)
    exact remove_stands hl (hwhere.resolve_right hcalm)
  | wait ok =>
    obtain ⟨-, ⟨-, sem, -, rfl⟩ | ⟨-, rfl⟩⟩ := wait_cases ht <;> exact ⟨l, rfl, hl⟩
  | pick =>
    obtain ⟨-, rfl⟩ := pick_cases ht
    exact ⟨l, rfl, hl⟩
  | remove =>
    obtain ⟨node, hn, rfl⟩ := remove_cases ht
    obtain ⟨_, ⟨⟩, hlist, -⟩ := h.handling _ hn
    obtain ⟨l', hdel, hstands⟩ := remove_stands hl hlist
    exact ⟨l', by simp [linksStep, hn, hdel], hstands⟩

theorem links_pick {l : Links Cell} (hl : Stands l s.list) {op : Op} (ht : step s op = some t)
    (hpick : op = .pick) : ∃ node, t.handler = .handling node ∧
      ∀ fuel, s.list.length < fuel → oldest l fuel = some (node.map fun e => .node e.addr) := by
  subst hpick
  obtain ⟨-, rfl⟩ := pick_cases ht
  exact ⟨_, rfl, oldest_stands hl⟩

theorem linked_cases {sub : Stack → Op → Option Stack} {p q : Stack × Links Cell} {op : Op}
    (h : linkedStep sub p op = some q) :
    sub p.1 op = some q.1 ∧ linksStep p.2 p.1 op = some q.2 := by
  obtain ⟨t, ht, h⟩ := Option.bind_eq_some_iff.mp h
  obtain ⟨l, hl, h⟩ := Option.bind_eq_some_iff.mp h
  obtain rfl := Option.some.inj h
  exact ⟨ht, hl⟩

variable {sub : Stack → Op → Option Stack}

theorem linked_runs (hsub : ∀ s op t, sub s op = some t → step s op = some t) (h : Orderly s)
    {l : Links Cell} (hl : Stands l s.list) {ops : List Op}
    (hcalm : EveryStep sub (fun s op _ => Calm s op) s ops) :
    (∀ t, run sub s ops = some t → ∃ l', run (linkedStep sub) (s, l) ops = some (t, l')) ∧
      EveryStep (linkedStep sub) Follows (s, l) ops := by
  induction ops generalizing s l with
  | nil => exact ⟨fun t ht => ⟨l, by simpa [run] using ht⟩, trivial⟩
  | cons op ops ih =>
    constructor
    · intro t ht
      obtain ⟨u, hu, hrest⟩ := Option.bind_eq_some_iff.mp ht
      obtain ⟨hc, hcs⟩ := hcalm u hu
      obtain ⟨m, hm, hstands⟩ := links_step h hl op hc (hsub s op u hu)
      obtain ⟨l', hl'⟩ := (ih (orderly_step h op hc (hsub s op u hu)) hstands hcs).1 t hrest
      exact ⟨l', by simp [run, linkedStep, hu, hm, hl']⟩
    · rintro ⟨u, m⟩ hu
      obtain ⟨hu, hm⟩ := linked_cases hu
      obtain ⟨hc, hcs⟩ := hcalm u hu
      obtain ⟨_, hm', hstands⟩ := links_step h hl op hc (hsub s op u hu)
      obtain rfl := Option.some.inj (hm.symm.trans hm')
      exact ⟨⟨hstands, links_pick hl (hsub s op u hu)⟩,
        (ih (orderly_step h op hc (hsub s op u hu)) hstands hcs).2⟩

theorem links_follow (hsub : ∀ s op t, sub s op = some t → step s op = some t) {ops : List Op}
    (hcalm : EveryStep sub (fun s op _ => Calm s op) start ops) : LinksFollow sub ops :=
  linked_runs hsub orderly_start (init_ring _ _) hcalm

theorem quiet_is_step (s : Stack) (op : Op) (t : Stack) (h : quietStep s op = some t) :
    step s op = some t := by
  cases op with
  | post node ok =>
    cases ok with
    | false => simp [quietStep] at h
    | true => exact h
  | wait ok =>
    cases ok with
    | false => simp [quietStep] at h
    | true => exact h
  | _ => exact h

theorem quiet_is_calm (h : InStep s) (op : Op) (ht : quietStep s op = some t) : Calm s op := by
  cases op with
  | pick =>
    obtain ⟨hn, -⟩ := pick_cases ht
    obtain ⟨front, node, hlist⟩ := picking_entry h hn
    simp [Calm, hlist]
  | withdraw node =>
    obtain ⟨hmem, -⟩ := withdraw_cases ht
    simp [h.noFailure] at hmem
  | _ => trivial

/-- Every interleaving delivers, as long as every semaphore call succeeds, and the links
of the queue go along. -/
theorem quiet_runs_deliver (ops : List Op) :
    EveryState quietStep Delivers start ops ∧ EveryStep quietStep Moves start ops ∧
      LinksFollow quietStep ops := by
  have hall := every_state_of_step (fun s op t h ht => in_step_step h op ht) start in_step_start ops
  refine ⟨⟨in_step_delivers hall.1, every_step_mono (fun _ _ _ _ => in_step_delivers) _ _ hall.2⟩,
    every_step_of_states (fun s op t h => in_step_moves h op) start ops hall, ?_⟩
  apply links_follow quiet_is_step
  exact every_step_of_states (fun s op t h => quiet_is_calm h op) start ops hall

/-- A run is safe throughout exactly when every step of it is calm, and the links of the
queue go along with a calm run. -/
theorem failures_safe_exact (ops : List Op) :
    (EveryStep step Safely start ops ↔ EveryStep step (fun s op _ => Calm s op) start ops) ∧
      (EveryStep step (fun s op _ => Calm s op) start ops → LinksFollow step ops) :=
  ⟨safely_run_iff ops, links_follow fun _ _ _ h => h⟩

/-- A signal that ends `sem_wait` on the empty queue hands `do_bus_message` a wild pointer. -/
theorem interrupted_wait_picks_nothing : ¬EveryStep step Safely start [.wait false, .pick] := by
  intro h
  obtain ⟨-, hrest⟩ := h _ rfl
  obtain ⟨⟨⟨e, hmem, -⟩, -⟩, -⟩ := hrest _ rfl
  exact List.not_mem_nil hmem

end Linked

end RS485.Delivery
