import Rs485.Platform
import Rs485.Wlist

/-!
# Walks over the driver and device lists

The five walkers of `bus.c` and `device_driver.c` on the heap. They differ in
the list they are given and in what they do with the answers of the callback;
all end in `wlist_iter_exit`, which deletes the node the iterator is left on.
-/

set_option autoImplicit false

namespace RS485.Walk
open RS485.Platform RS485.Ring RS485.Klist RS485.Wlist

variable {L N D σ : Type} [DecidableEq L] [DecidableEq N]

/-- `while ((x = next(&i)) && !error) error = fn(x, data);` -/
def eachLoop (fn : N → σ → Option (ℤ × σ)) :
    ℕ → Heap L N → Iter L N → ℤ → σ → Option (ℤ × Heap L N × Iter L N × σ)
  | 0, _, _, _, _ => none
  | fuel+1, h, i, error, s => do
    let (h, i) ← wlistNext h i
    match i.iCur with
    | none => some (error, h, i, s)
    | some p =>
      if error ≠ 0 then some (error, h, i, s)
      else do
        let n ← p.node?
        let (error, s) ← fn n s
        eachLoop fn fuel h i error s

/-- `while ((dev = next_device(&i))) if (match(dev, data)) break;` -/
def findLoop (match_ : N → σ → Option (ℤ × σ)) :
    ℕ → Heap L N → Iter L N → σ → Option (Option N × Heap L N × Iter L N × σ)
  | 0, _, _, _ => none
  | fuel+1, h, i, s => do
    let (h, i) ← wlistNext h i
    match i.iCur with
    | none => some (none, h, i, s)
    | some p => do
      let n ← p.node?
      let (r, s) ← match_ n s
      if r ≠ 0 then some (some n, h, i, s) else findLoop match_ fuel h i s

def forEach (fuel : ℕ) (h : Heap L N) (k : L) (start : Option N) (fn : N → σ → Option (ℤ × σ))
    (s : σ) : Option (ℤ × Heap L N × σ) := do
  let (error, h, i, s) ← eachLoop fn fuel h (wlistIterInitNode k start) 0 s
  let (h, _) ← wlistIterExit h i
  some (error, h, s)

def find (fuel : ℕ) (h : Heap L N) (k : L) (start : Option N) (match_ : N → σ → Option (ℤ × σ))
    (s : σ) : Option (Option N × Heap L N × σ) := do
  let (dev, h, i, s) ← findLoop match_ fuel h (wlistIterInitNode k start) s
  let (h, _) ← wlistIterExit h i
  some (dev, h, s)

/-- The nodes are the `wnode_bus` of driver privates, the list is `wlist_drivers`. -/
def busForEachDrv (driver : N → D) (fuel : ℕ) (h : Heap L N) (bus : Option L)
    (start : Option N) (fn : D → σ → Option (ℤ × σ)) (s : σ) : Option (ℤ × Heap L N × σ) :=
  match bus with
  | none => some (-EINVAL, h, s)
  | some k => forEach fuel h k start (fun p => fn (driver p)) s

/-- The nodes are the `wnode_bus` of devices, the list is the bus's `wlist_devices`. -/
def busForEachDev (fuel : ℕ) (h : Heap L N) (bus : Option L) (start : Option N)
    (fn : N → σ → Option (ℤ × σ)) (s : σ) : Option (ℤ × Heap L N × σ) :=
  match bus with
  | none => some (-EINVAL, h, s)
  | some k => forEach fuel h k start fn s

def busFindDevice (fuel : ℕ) (h : Heap L N) (bus : Option L) (start : Option N)
    (match_ : N → σ → Option (ℤ × σ)) (s : σ) : Option (Option N × Heap L N × σ) :=
  match bus with
  | none => some (none, h, s)
  | some k => find fuel h k start match_ s

/-- The nodes are the `wnode_driver` of devices, the list is the driver's `wlist_devices`. -/
def driverForEachDevice (fuel : ℕ) (h : Heap L N) (drv : Option L) (start : Option N)
    (fn : N → σ → Option (ℤ × σ)) (s : σ) : Option (ℤ × Heap L N × σ) :=
  match drv with
  | none => some (-EINVAL, h, s)
  | some k => forEach fuel h k start fn s

def driverFindDevice (fuel : ℕ) (h : Heap L N) (drv : Option L) (start : Option N)
    (match_ : N → σ → Option (ℤ × σ)) (s : σ) : Option (Option N × Heap L N × σ) :=
  match drv with
  | none => some (none, h, s)
  | some k => find fuel h k start match_ s

theorem each_loop_stop {h : Heap L N} {k : L} {cur : Option N} {c : Cell L N} {ys : List N}
    (hc : (wlistIterInitNode k cur).cell = some c) (hs : Seg h.links c (ys.map .node) (.head k))
    (fn : N → σ → Option (ℤ × σ)) (s : σ) (fuel : ℕ) (hf : 0 < fuel) (error : ℤ)
    (he : error ≠ 0) :
    ∃ h', h'.links = h.links ∧ h'.nWlist = h.nWlist ∧
      eachLoop fn fuel h (wlistIterInitNode k cur) error s =
        some (error, h', wlistIterInitNode k ys.head?, s) := by
  obtain ⟨h', hnext, hl, hw⟩ := wlist_next_seg hc hs
  refine ⟨h', hl, hw, ?_⟩
  cases fuel with
  | zero => exact absurd hf (by decide)
  | succ fuel => cases ys <;> simp [eachLoop, hnext, he]

/-- The loop visits what is left of the list, and leaves the links alone. -/
theorem each_loop_visit {h : Heap L N} {k : L} {cur : Option N} {c : Cell L N} {ys : List N}
    (hc : (wlistIterInitNode k cur).cell = some c) (hs : Seg h.links c (ys.map .node) (.head k))
    (fn : N → σ → Option (ℤ × σ)) (s : σ) (fuel : ℕ) (hf : ys.length < fuel) :
    ∃ h', h'.links = h.links ∧ h'.nWlist = h.nWlist ∧
      eachLoop fn fuel h (wlistIterInitNode k cur) 0 s =
        (Attached.visit fn ys s).map fun r => (r.1, h', wlistIterInitNode k r.2.1, r.2.2) := by
  induction ys generalizing h cur c s fuel with
  | nil =>
    obtain ⟨h', hnext, hl, hw⟩ := wlist_next_seg hc hs
    refine ⟨h', hl, hw, ?_⟩
    cases fuel with
    | zero => exact absurd hf (by simp)
    | succ fuel => simp [eachLoop, hnext, Attached.visit]
  | cons y ys ih =>
    obtain ⟨h₁, hnext, hl, hw⟩ := wlist_next_seg hc hs
    have hs₁ : Seg h₁.links (.node y) (ys.map .node) (.head k) := by
      rw [hl]
      exact hs.2
    have hc₁ : (wlistIterInitNode k (some y)).cell = some (.node y) := rfl
    cases fuel with
    | zero => exact absurd hf (by simp)
    | succ fuel =>
      have hfuel : ys.length < fuel := by simpa using hf
      cases hfn : fn y s with
      | none => exact ⟨h₁, hl, hw, by simp [eachLoop, hnext, Attached.visit, hfn]⟩
      | some r =>
        obtain ⟨error, t⟩ := r
        by_cases he : error = 0
        · subst he
          obtain ⟨h', hl', hw', hrest⟩ := ih hc₁ hs₁ t fuel hfuel
          exact ⟨h', hl'.trans hl, hw'.trans hw,
            by simp [eachLoop, hnext, Attached.visit, hfn, hrest]⟩
        · obtain ⟨h', hl', hw', hstop⟩ := each_loop_stop hc₁ hs₁ fn t fuel (by omega) error he
          exact ⟨h', hl'.trans hl, hw'.trans hw,
            by simp [eachLoop, hnext, Attached.visit, hfn, he, hstop]⟩

theorem find_loop_seek {h : Heap L N} {k : L} {cur : Option N} {c : Cell L N} {ys : List N}
    (hc : (wlistIterInitNode k cur).cell = some c) (hs : Seg h.links c (ys.map .node) (.head k))
    (match_ : N → σ → Option (ℤ × σ)) (s : σ) (fuel : ℕ) (hf : ys.length < fuel) :
    ∃ h', h'.links = h.links ∧ h'.nWlist = h.nWlist ∧
      findLoop match_ fuel h (wlistIterInitNode k cur) s =
        (Attached.seek match_ ys s).map fun r => (r.1, h', wlistIterInitNode k r.1, r.2) := by
  induction ys generalizing h cur c s fuel with
  | nil =>
    obtain ⟨h', hnext, hl, hw⟩ := wlist_next_seg hc hs
    refine ⟨h', hl, hw, ?_⟩
    cases fuel with
    | zero => exact absurd hf (by simp)
    | succ fuel => simp [findLoop, hnext, Attached.seek]
  | cons y ys ih =>
    obtain ⟨h₁, hnext, hl, hw⟩ := wlist_next_seg hc hs
    have hs₁ : Seg h₁.links (.node y) (ys.map .node) (.head k) := by
      rw [hl]
      exact hs.2
    have hc₁ : (wlistIterInitNode k (some y)).cell = some (.node y) := rfl
    cases fuel with
    | zero => exact absurd hf (by simp)
    | succ fuel =>
      have hfuel : ys.length < fuel := by simpa using hf
      cases hfn : match_ y s with
      | none => exact ⟨h₁, hl, hw, by simp [findLoop, hnext, Attached.seek, hfn]⟩
      | some r =>
        obtain ⟨answer, t⟩ := r
        by_cases he : answer = 0
        · subst he
          obtain ⟨h', hl', hw', hrest⟩ := ih hc₁ hs₁ t fuel hfuel
          exact ⟨h', hl'.trans hl, hw'.trans hw,
            by simp [findLoop, hnext, Attached.seek, hfn, hrest]⟩
        · exact ⟨h₁, hl, hw, by simp [findLoop, hnext, Attached.seek, hfn, he]⟩

omit [DecidableEq L] in
/-- The cursor of a fresh iterator: what follows it is what the walk visits. -/
theorem start_seg {h : Heap L N} {k : L} {xs : List N} (hh : Holds h k xs) {start : Option N}
    (hs : ∀ n, start = some n → n ∈ xs) :
    ∃ c, (wlistIterInitNode k start).cell = some c ∧
      Seg h.links c ((Attached.after xs start).map .node) (.head k) := by
  cases start with
  | none => exact ⟨.head k, rfl, hh.1.1⟩
  | some n =>
    obtain ⟨pre, hsplit⟩ := Attached.after_split (hs n rfl) (holds_nodup hh)
    have hr := hh.1.1
    rw [hsplit] at hr
    simp only [List.map_append, List.map_cons] at hr
    exact ⟨.node n, rfl, ((seg_append ..).mp hr).2⟩

theorem iter_exit_holds {h : Heap L N} {k : L} {xs : List N} (hh : Holds h k xs)
    {cur : Option N} (hc : ∀ n, cur = some n → n ∈ xs) :
    ∃ h' i', wlistIterExit h (wlistIterInitNode k cur) = some (h', i') ∧
      (Holds h' k xs ↔ cur = none) := by
  cases cur with
  | none => exact ⟨h, _, rfl, by simpa using hh⟩
  | some n =>
    obtain ⟨pre, post, hsplit⟩ := List.append_of_mem (hc n rfl)
    rw [hsplit] at hh
    obtain ⟨h', hdel, -, hw, -⟩ := wlist_del_holds hh
    refine ⟨h', _, iter_exit_node rfl hdel, ?_⟩
    have hn : h'.nWlist n = none := by simp [hw]
    refine iff_of_false (fun hheld => ?_) (by simp)
    simp [hheld.2 n (hc n rfl)] at hn

section Total

variable {h : Heap L N} {k : L} {xs : List N} (hh : Holds h k xs) {start : Option N}
  (hs : ∀ n, start = some n → n ∈ xs) (fn : N → σ → ℤ × σ) (s : σ) {fuel : ℕ}
  (hf : xs.length < fuel)

include hh hs hf

theorem for_each_keeps : ∃ e h' t,
    forEach fuel h k start (fun n s => some (fn n s)) s = some (e, h', t) ∧
      (Holds h' k xs ↔ Attached.ZeroBeforeLast fn (Attached.after xs start) s) := by
  have hlen := (Attached.after_suffix xs start).length_le
  obtain ⟨e, cur, t, hv, hz, hm⟩ := Attached.visit_total fn (Attached.after xs start) s
  obtain ⟨c, hc, hseg⟩ := start_seg hh hs
  obtain ⟨h₁, hl, hw, hloop⟩ := each_loop_visit hc hseg (fun n s => some (fn n s)) s fuel
    (by omega)
  obtain ⟨h', i', hexit, hiff⟩ := iter_exit_holds ((holds_congr hl hw).mpr hh)
    (fun n hn => (Attached.after_suffix xs start).mem (hm n hn))
  refine ⟨e, h', t, ?_, hiff.trans hz⟩
  simp [forEach, hloop, hv, hexit]

theorem find_keeps : ∃ n h' t,
    find fuel h k start (fun n s => some (fn n s)) s = some (n, h', t) ∧
      (Holds h' k xs ↔ Attached.ZeroThroughout fn (Attached.after xs start) s) := by
  have hlen := (Attached.after_suffix xs start).length_le
  obtain ⟨cur, t, hv, hz, hm⟩ := Attached.seek_total fn (Attached.after xs start) s
  obtain ⟨c, hc, hseg⟩ := start_seg hh hs
  obtain ⟨h₁, hl, hw, hloop⟩ := find_loop_seek hc hseg (fun n s => some (fn n s)) s fuel
    (by omega)
  obtain ⟨h', i', hexit, hiff⟩ := iter_exit_holds ((holds_congr hl hw).mpr hh)
    (fun n hn => (Attached.after_suffix xs start).mem (hm n hn))
  refine ⟨cur, h', t, ?_, hiff.trans hz⟩
  simp [find, hloop, hv, hexit]

end Total

/-- A walk leaves the list it walks unchanged exactly when the callback does not
stop it early: before the last node in the three visiting walks, at any node in
the two searching ones. Otherwise the node the iterator is left on is deleted. -/
theorem walks_keep_list (driver : N → D) {h : Heap L N} {k : L} {xs : List N}
    (hh : Holds h k xs) {start : Option N} (hs : ∀ n, start = some n → n ∈ xs)
    (onDrv : D → σ → ℤ × σ) (onDev : N → σ → ℤ × σ) (s : σ) {fuel : ℕ} (hf : xs.length < fuel) :
    (∃ e h' t, busForEachDrv driver fuel h (some k) start (fun d s => some (onDrv d s)) s =
        some (e, h', t) ∧ (Holds h' k xs ↔
          Attached.ZeroBeforeLast (fun p => onDrv (driver p)) (Attached.after xs start) s)) ∧
    (∃ e h' t, busForEachDev fuel h (some k) start (fun d s => some (onDev d s)) s =
        some (e, h', t) ∧ (Holds h' k xs ↔
          Attached.ZeroBeforeLast onDev (Attached.after xs start) s)) ∧
    (∃ d h' t, busFindDevice fuel h (some k) start (fun d s => some (onDev d s)) s =
        some (d, h', t) ∧ (Holds h' k xs ↔
          Attached.ZeroThroughout onDev (Attached.after xs start) s)) ∧
    (∃ e h' t, driverForEachDevice fuel h (some k) start (fun d s => some (onDev d s)) s =
        some (e, h', t) ∧ (Holds h' k xs ↔
          Attached.ZeroBeforeLast onDev (Attached.after xs start) s)) ∧
    (∃ d h' t, driverFindDevice fuel h (some k) start (fun d s => some (onDev d s)) s =
        some (d, h', t) ∧ (Holds h' k xs ↔
          Attached.ZeroThroughout onDev (Attached.after xs start) s)) :=
  ⟨for_each_keeps hh hs (fun p => onDrv (driver p)) s hf, for_each_keeps hh hs onDev s hf,
    find_keeps hh hs onDev s hf, for_each_keeps hh hs onDev s hf, find_keeps hh hs onDev s hf⟩

/-- One list with two nodes. -/
def pair : Heap Unit Bool where
  links :=
    { next := fun c => match c with
        | .head _ => some (.node false)
        | .node false => some (.node true)
        | .node true => some (.head ())
      prev := fun c => match c with
        | .head _ => some (.node true)
        | .node false => some (.head ())
        | .node true => some (.node false) }
  nWlist _ := some ()
  get _ := false
  put _ := false
  gets _ := 0
  puts _ := 0

theorem pair_holds : Holds pair () [false, true] := by
  simp [Holds, IsRing, Seg, pair]

theorem quiet_walks_keep_pair :
    Holds pair () [false, true] ∧
      ∃ e h' t, busForEachDev 3 pair (some ()) none (fun _ s => some (0, s)) () = some (e, h', t) ∧
        Holds h' () [false, true] := by
  have hs : ∀ n, (none : Option Bool) = some n → n ∈ [false, true] := by simp
  have hf : [false, true].length < 3 := by decide
  obtain ⟨-, ⟨e, h', t, hwalk, hiff⟩, -⟩ :=
    walks_keep_list id pair_holds hs (fun _ s => (0, s)) (fun _ s => (0, s)) () hf
  exact ⟨pair_holds, e, h', t, hwalk, hiff.mpr (by simp [Attached.after, Attached.ZeroBeforeLast])⟩

/-- A driver search that stops at the first of two entries deletes the second. -/
theorem early_stop_deletes_next :
    Holds pair () [false, true] ∧
      ∃ h', busForEachDrv id 3 pair (some ()) none (fun _ s => some (1, s)) () =
          some (1, h', ()) ∧ ¬Holds h' () [false, true] := by
  refine ⟨pair_holds, _, rfl, fun hh => ?_⟩
  exact absurd (hh.2 true (by simp)) (by decide)

section Refinement

variable {live : L → Prop} {h : Heap L N} {w : Attached.Lists L N}

omit [DecidableEq N] [DecidableEq L] in
theorem refines_congr {h' : Heap L N} (hr : Refines live h w) (hl : h'.links = h.links)
    (hw : h'.nWlist = h.nWlist) : Refines live h' w :=
  ⟨fun k hk => (holds_congr hl hw).mpr (hr.holds k hk), hw.trans hr.owner, hr.used⟩

theorem iter_exit_refines (hr : Refines live h w) (k : L) (cur : Option N)
    {w' : Attached.Lists L N} (hleave : Attached.leave w cur = some w') :
    ∃ h' i', wlistIterExit h (wlistIterInitNode k cur) = some (h', i') ∧ Refines live h' w' := by
  cases cur with
  | none =>
    obtain rfl := Option.some.inj hleave
    exact ⟨h, _, rfl, hr⟩
  | some n =>
    obtain ⟨h', hdel, hr'⟩ := refines_del hr hleave
    exact ⟨h', _, iter_exit_node rfl hdel, hr'⟩

/-- The walk with a callback on the heap is the walk on the abstract list. -/
theorem for_each_refines (hr : Refines live h w) {k : L} (hk : live k) {start : Option N}
    (hs : ∀ n, start = some n → n ∈ w.items k) (fn : N → σ → Option (ℤ × σ)) (s : σ) {fuel : ℕ}
    (hf : (w.items k).length < fuel) {e : ℤ} {w' : Attached.Lists L N} {t : σ}
    (hwalk : Attached.forEach w k start fn s = some (e, w', t)) :
    ∃ h', forEach fuel h k start fn s = some (e, h', t) ∧ Refines live h' w' := by
  have hlen := (Attached.after_suffix (w.items k) start).length_le
  obtain ⟨⟨e', cur, t'⟩, hv, hrest⟩ := Option.bind_eq_some_iff.mp hwalk
  obtain ⟨w₁, hleave, hret⟩ := Option.bind_eq_some_iff.mp hrest
  obtain ⟨c, hc, hseg⟩ := start_seg (hr.holds k hk) hs
  obtain ⟨h₁, hl, hw, hloop⟩ := each_loop_visit hc hseg fn s fuel (by omega)
  obtain ⟨h', i', hexit, hr'⟩ := iter_exit_refines (refines_congr hr hl hw) k cur hleave
  simp only [Option.some.injEq, Prod.mk.injEq] at hret
  obtain ⟨rfl, rfl, rfl⟩ := hret
  exact ⟨h', by simp [forEach, hloop, hv, hexit], hr'⟩

end Refinement

end RS485.Walk
