import Rs485.UnusedIds

/-!
# Ids outside the table

What the functions of `it_table.c` touch, and what they do with an id that is
negative or not below the limit. None of them compares the id with the limit,
and the bitmap has bits beyond it.
-/

set_option autoImplicit false

namespace RS485.IdRange
open RS485.Platform RS485.Records RS485.Blocks RS485.Runs RS485.IdTable RS485.UnusedIds

section Spec

/-- A bit of the bitmap, or some of the value bytes. -/
inductive Access where
  | bit (index : ℕ)
  | bytes (start n : ℕ)
  deriving DecidableEq

variable (m : DataModel)

/-- `check_bitmap`, and the rest of the call when the bit is `passes`. -/
def tested (t : Table) (id : BitVec 32) (passes : Bool) (rest : List Access) : List Access :=
  .bit id.toNat::(if checkBitmap t.map id = some passes then rest else [])

/-- The element that `memcpy` and `memset` work on. -/
def element (t : Table) (id : BitVec 32) : Access := .bytes (offset m t id) t.elementSize

def accesses (t : Table) : Op → List Access
  | .install id none => tested t id false [.bit id.toNat]
  | .install id (some _) => tested t id false [element m t id, .bit id.toNat]
  | .uninstall id => tested t id true [element m t id, .bit id.toNat]
  | .set _ none => []
  | .set id (some _) => tested t id true [element m t id]
  | .get _ false => []
  | .get id true => tested t id true [element m t id]

def Access.Allocated (t : Table) : Access → Prop
  | .bit i => i / 8 < t.map.length
  | .bytes start n => start + n ≤ t.table.length

def Access.Inside (t : Table) : Access → Prop
  | .bit i => i < t.limit
  | .bytes start n => start + n ≤ t.limit * t.elementSize

def OutOfRange (limit : ℕ) (id : BitVec 32) : Prop := id.toInt < 0 ∨ (limit : ℤ) ≤ id.toInt

instance (limit : ℕ) (id : BitVec 32) : Decidable (OutOfRange limit id) :=
  inferInstanceAs (Decidable (_ ∨ _))

/-- An error is returned, or, where none can be, nothing is done. -/
def Declines (t : Table) (r : Answer × Table) : Op → Prop
  | .uninstall _ => r.2 = t
  | _ => r.1.ret < 0

def Rejected (t : Table) (op : Op) : Prop :=
  ∃ r, call m t op = some r ∧ Declines t r op ∧ ∀ a ∈ accesses m t op, a.Inside t

/-- The pointer that is checked before the table is looked at is null. -/
def NullBuffer : Op → Bool
  | .set _ none => true
  | .get _ false => true
  | _ => false

/-- The bit on which the call goes no further. -/
def refusing : Op → Bool
  | .install _ _ => true
  | _ => false

/-- Before the id matters, or by chance: the id is negative, the index it becomes
is below the limit and has a bit, and the bit is the refusing one. -/
def Refused (t : Table) (op : Op) : Prop :=
  NullBuffer op = true ∨
    (op.id.toInt < 0 ∧ op.id.toNat < t.limit ∧ op.id.toNat / 8 ≤ t.limit % 2 ^ 32 / 8 ∧
      bitAt t.map op.id.toNat = refusing op)

/-- What is not touched stays as it is. -/
def Frame (t t' : Table) (touched : List Access) : Prop :=
  (∀ i, .bit i ∉ touched → bitAt t'.map i = bitAt t.map i) ∧
    ∀ k, (∀ start n, .bytes start n ∈ touched → k < start ∨ start + n ≤ k) →
      t'.table[k]? = t.table[k]?

end Spec

section Calls

variable {m : DataModel} {t : Table} {op : Op}

theorem check_length {bitmap : List Byte} {id : BitVec 32} {b : Bool}
    (h : checkBitmap bitmap id = some b) : id.toNat / 8 < bitmap.length := by
  by_contra hlen
  rw [check_bitmap_none (not_lt.mp hlen)] at h
  cases h

theorem null_call (hnull : NullBuffer op = true) :
    call m t op = some (⟨-EINVAL, none⟩, t) ∧ Declines t (⟨-EINVAL, none⟩, t) op ∧
      accesses m t op = [] := by
  cases op with
  | install id data => cases hnull
  | uninstall id => cases hnull
  | set id data =>
    cases data with
    | none => exact ⟨rfl, einval_neg, rfl⟩
    | some data => cases hnull
  | get id out =>
    cases out with
    | false => exact ⟨rfl, einval_neg, rfl⟩
    | true => cases hnull

/-- The test of the bit is outside the bitmap. -/
theorem untested_call (hnull : NullBuffer op = false) (h : checkBitmap t.map op.id = none) :
    call m t op = none ∧ accesses m t op = [.bit op.id.toNat] := by
  cases op with
  | install id data =>
    change checkBitmap t.map id = none at h
    cases data <;> simp [call, idTableInstall, accesses, tested, h, Op.id]
  | uninstall id =>
    change checkBitmap t.map id = none at h
    simp [call, idTableUninstall, accesses, tested, h, Op.id]
  | set id data =>
    change checkBitmap t.map id = none at h
    cases data with
    | none => cases hnull
    | some data => simp [call, idTableSet, accesses, tested, h, Op.id]
  | get id out =>
    change checkBitmap t.map id = none at h
    cases out with
    | false => cases hnull
    | true => simp [call, idTableGet, accesses, tested, h, Op.id]

theorem refused_call (hnull : NullBuffer op = false)
    (h : checkBitmap t.map op.id = some (refusing op)) :
    ∃ answer, call m t op = some (answer, t) ∧ Declines t (answer, t) op ∧
      accesses m t op = [.bit op.id.toNat] := by
  cases op with
  | install id data =>
    change checkBitmap t.map id = some true at h
    refine ⟨⟨-EPERM, none⟩, by simp [call, idTableInstall, h], eperm_neg, ?_⟩
    cases data <;> simp [accesses, tested, h, Op.id]
  | uninstall id =>
    change checkBitmap t.map id = some false at h
    refine ⟨⟨0, none⟩, by simp [call, idTableUninstall, h], rfl, ?_⟩
    simp [accesses, tested, h, Op.id]
  | set id data =>
    change checkBitmap t.map id = some false at h
    cases data with
    | none => cases hnull
    | some data =>
      refine ⟨⟨-EPERM, none⟩, by simp [call, idTableSet, h], eperm_neg, ?_⟩
      simp [accesses, tested, h, Op.id]
  | get id out =>
    change checkBitmap t.map id = some false at h
    cases out with
    | false => cases hnull
    | true =>
      refine ⟨⟨-EPERM, none⟩, by simp [call, idTableGet, h], eperm_neg, ?_⟩
      simp [accesses, tested, h, Op.id]

theorem passed_not_refused {used : Option Bool} {b : Bool} (h : used = some (!b))
    (hrefuse : used = some b) : False := by
  have hsame : (!b) = b := Option.some.inj (h.symm.trans hrefuse)
  exact Bool.not_ne_self b hsame

/-- A call that goes on returns no error, and an id it uninstalls had its bit. -/
theorem passed_call (h : checkBitmap t.map op.id = some (!refusing op)) {r : Answer × Table}
    (hnull : NullBuffer op = false) (hcall : call m t op = some r) : ¬Declines t r op := by
  cases op with
  | install id data =>
    rcases install_cases hcall with ⟨hrefuse, -⟩ | ⟨-, u, map, -, -, rfl⟩
    · exact (passed_not_refused h hrefuse).elim
    · exact lt_irrefl 0
  | uninstall id =>
    rcases uninstall_cases hcall with ⟨hrefuse, -⟩ | ⟨hset, table, map, -, hunset, rfl⟩
    · exact (passed_not_refused h hrefuse).elim
    · intro hsame
      have hmap : map = t.map := congrArg Table.map hsame
      have hlen := check_length hset
      obtain ⟨map', hunset', -, hbit⟩ := unset_bitmap_eq hlen
      obtain rfl := Option.some.inj (hunset.symm.trans hunset')
      have hclear : bitAt map id.toNat = false := by simp [hbit]
      rw [check_bitmap_eq hlen, ← hmap, hclear] at hset
      exact absurd hset (by decide)
  | set id data =>
    cases data with
    | none => cases hnull
    | some data =>
      rcases set_cases hcall with ⟨hrefuse, -⟩ | ⟨-, u, -, rfl⟩
      · exact (passed_not_refused h hrefuse).elim
      · exact lt_irrefl 0
  | get id out =>
    cases out with
    | false => cases hnull
    | true =>
      rcases get_cases hcall with ⟨hrefuse, -⟩ | ⟨-, value, -, rfl⟩
      · exact (passed_not_refused h hrefuse).elim
      · exact lt_irrefl 0

/-- Where the bit is tested, the call is rejected when the bit refuses and is one of
the table's. -/
theorem rejected_tested_iff (hnull : NullBuffer op = false) :
    Rejected m t op ↔
      op.id.toNat < t.limit ∧ checkBitmap t.map op.id = some (refusing op) := by
  constructor
  · rintro ⟨r, hcall, hdecl, hin⟩
    cases hb : checkBitmap t.map op.id with
    | none =>
      rw [(untested_call hnull hb).1] at hcall
      cases hcall
    | some b =>
      by_cases hrefuse : b = refusing op
      · obtain ⟨answer, -, -, hacc⟩ :=
          refused_call (m := m) hnull (hb.trans (congrArg some hrefuse))
        rw [hacc] at hin
        exact ⟨hin _ (List.mem_singleton_self _), congrArg some hrefuse⟩
      · have hgo : b = !refusing op := Bool.eq_not_of_ne hrefuse
        exact absurd hdecl (passed_call (hb.trans (congrArg some hgo)) hnull hcall)
  · rintro ⟨hlt, hrefuse⟩
    obtain ⟨answer, hcall, hdecl, hacc⟩ := refused_call hnull hrefuse
    refine ⟨(answer, t), hcall, hdecl, fun a ha => ?_⟩
    rw [hacc] at ha
    obtain rfl := List.mem_singleton.mp ha
    exact hlt

theorem rejected_null (hnull : NullBuffer op = true) : Rejected m t op := by
  obtain ⟨hcall, hdecl, hacc⟩ := null_call (m := m) (t := t) hnull
  refine ⟨_, hcall, hdecl, fun a ha => ?_⟩
  rw [hacc] at ha
  cases ha

end Calls

section Footprint

variable {m : DataModel} {t t' : Table} {op : Op}

theorem store_some_iff (mem : List Byte) (start : ℕ) (data : List Byte) :
    (∃ mem', store mem start data = some mem') ↔ start + data.length ≤ mem.length := by
  unfold store
  split_ifs with hfit <;> simp [hfit]

theorem copy_in_some_iff (id : BitVec 32) {data : List Byte} (hdata : data.length = t.elementSize) :
    (∃ u, copyIn m t id data = some u) ↔ (element m t id).Allocated t := by
  have hload : load data 0 t.elementSize = some data := by simp [load, ← hdata]
  have hfit := store_some_iff t.table (offset m t id) data
  rw [hdata] at hfit
  rw [element, Access.Allocated, ← hfit]
  cases hstore : store t.table (offset m t id) data <;> simp [copyIn, hload, hstore]

/-- Where the call goes past the test, only its element can be outside. -/
theorem passed_returns_iff (h : checkBitmap t.map op.id = some (!refusing op))
    (hnull : NullBuffer op = false)
    (hdata : ∀ data, op.data = some data → data.length = t.elementSize) :
    (∃ r, call m t op = some r) ↔ ∀ a ∈ accesses m t op, a.Allocated t := by
  have hlen := check_length h
  cases op with
  | install id data =>
    change checkBitmap t.map id = some false at h
    change id.toNat / 8 < t.map.length at hlen
    obtain ⟨map, hset, -⟩ := set_bitmap_eq hlen
    cases data with
    | none =>
      simp [call, idTableInstall, copyData, accesses, tested, h, hset, Access.Allocated, hlen]
    | some data =>
      have hcopy := copy_in_some_iff (m := m) id (hdata data rfl)
      simp only [accesses, tested, h, if_true, List.forall_mem_cons, ← hcopy]
      cases hc : copyIn m t id data with
      | none => simp [call, idTableInstall, copyData, h, hc]
      | some u =>
        have hmap := (copy_shape hc).1
        simp [call, idTableInstall, copyData, h, hc, hmap, hset, Access.Allocated, hlen]
  | uninstall id =>
    change checkBitmap t.map id = some true at h
    change id.toNat / 8 < t.map.length at hlen
    obtain ⟨map, hunset, -⟩ := unset_bitmap_eq hlen
    have hstore := store_some_iff t.table (offset m t id) (List.replicate t.elementSize 0#8)
    rw [List.length_replicate] at hstore
    simp only [accesses, tested, h, if_true, List.forall_mem_cons, element, Access.Allocated,
      ← hstore]
    cases hs : store t.table (offset m t id) (List.replicate t.elementSize 0#8) with
    | none => simp [call, idTableUninstall, h, hs]
    | some table => simp [call, idTableUninstall, h, hs, hunset, hlen]
  | set id data =>
    change checkBitmap t.map id = some true at h
    change id.toNat / 8 < t.map.length at hlen
    cases data with
    | none => cases hnull
    | some data =>
      have hcopy := copy_in_some_iff (m := m) id (hdata data rfl)
      simp only [accesses, tested, h, if_true, List.forall_mem_cons, ← hcopy]
      cases hc : copyIn m t id data with
      | none => simp [call, idTableSet, h, hc]
      | some u => simp [call, idTableSet, h, hc, Access.Allocated, hlen]
  | get id out =>
    change checkBitmap t.map id = some true at h
    change id.toNat / 8 < t.map.length at hlen
    cases out with
    | false => cases hnull
    | true =>
      by_cases hfit : offset m t id + t.elementSize ≤ t.table.length <;>
        simp [call, idTableGet, load, accesses, tested, element, h, hfit, Access.Allocated, hlen]

/-- A call has a result if and only if it stays inside the allocations. -/
theorem call_returns_iff (hdata : ∀ data, op.data = some data → data.length = t.elementSize) :
    (∃ r, call m t op = some r) ↔ ∀ a ∈ accesses m t op, a.Allocated t := by
  cases hnull : NullBuffer op with
  | true =>
    obtain ⟨hcall, -, hacc⟩ := null_call (m := m) (t := t) hnull
    simp [hcall, hacc]
  | false =>
    cases hb : checkBitmap t.map op.id with
    | none =>
      obtain ⟨hcall, hacc⟩ := untested_call (m := m) hnull hb
      have hlen : ¬op.id.toNat / 8 < t.map.length := by
        intro hlt
        rw [check_bitmap_eq hlt] at hb
        cases hb
      simp [hcall, hacc, Access.Allocated, hlen]
    | some b =>
      have hlen := check_length hb
      by_cases hrefuse : b = refusing op
      · obtain ⟨answer, hcall, -, hacc⟩ :=
          refused_call (m := m) hnull (hb.trans (congrArg some hrefuse))
        simp [hcall, hacc, Access.Allocated, hlen]
      · obtain rfl : b = !refusing op := Bool.eq_not_of_ne hrefuse
        exact passed_returns_iff hb hnull hdata

theorem frame_refl (touched : List Access) : Frame t t touched :=
  ⟨fun _ _ => rfl, fun _ _ => rfl⟩

theorem set_frame {map : List Byte} {id : BitVec 32} (h : setBitmap t.map id = some map) {i : ℕ}
    (hi : i ≠ id.toNat) (hlen : id.toNat / 8 < t.map.length) : bitAt map i = bitAt t.map i := by
  obtain ⟨map', hset, -, hbit⟩ := set_bitmap_eq hlen
  obtain rfl := Option.some.inj (h.symm.trans hset)
  simp [hbit, hi]

theorem unset_frame {map : List Byte} {id : BitVec 32} (h : unsetBitmap t.map id = some map) {i : ℕ}
    (hi : i ≠ id.toNat) (hlen : id.toNat / 8 < t.map.length) : bitAt map i = bitAt t.map i := by
  obtain ⟨map', hunset, -, hbit⟩ := unset_bitmap_eq hlen
  obtain rfl := Option.some.inj (h.symm.trans hunset)
  simp [hbit, hi]

theorem copy_frame {u : Table} {id : BitVec 32} {data : List Byte}
    (h : copyIn m t id data = some u) {k : ℕ}
    (hk : k < offset m t id ∨ offset m t id + t.elementSize ≤ k) : u.table[k]? = t.table[k]? := by
  simp only [copyIn, load, Option.bind_eq_bind, Option.bind_eq_some_iff, Option.some.injEq] at h
  obtain ⟨value, hload, table, hstore, rfl⟩ := h
  split_ifs at hload with hfit
  obtain rfl := Option.some.inj hload
  apply store_outside hstore
  rw [List.length_take, List.length_drop]
  omega

theorem copy_data_frame {u : Table} {id : BitVec 32} {data : Option (List Byte)}
    (h : copyData m t id data = some u) {k : ℕ}
    (hk : ∀ value, data = some value → k < offset m t id ∨ offset m t id + t.elementSize ≤ k) :
    u.table[k]? = t.table[k]? := by
  cases data with
  | none =>
    obtain rfl := Option.some.inj h
    rfl
  | some data => exact copy_frame h (hk data rfl)

theorem install_frame {id : BitVec 32} {data : Option (List Byte)} {r : Answer × Table}
    (hcall : idTableInstall m t id data = some r) :
    Frame t r.2 (accesses m t (.install id data)) := by
  rcases install_cases hcall with ⟨-, rfl⟩ | ⟨hclear, u, map, hcopy, hset, rfl⟩
  · exact frame_refl _
  · rw [(copy_data_shape hcopy).1] at hset
    constructor
    · intro i hi
      apply set_frame hset _ (check_length hclear)
      rintro rfl
      cases data <;> exact hi List.mem_cons_self
    · intro k hk
      apply copy_data_frame hcopy
      rintro value rfl
      apply hk
      simp [accesses, tested, hclear, element]

theorem uninstall_frame {id : BitVec 32} {r : Answer × Table}
    (hcall : idTableUninstall m t id = some r) : Frame t r.2 (accesses m t (.uninstall id)) := by
  rcases uninstall_cases hcall with ⟨-, rfl⟩ | ⟨hset, table, map, hstore, hunset, rfl⟩
  · exact frame_refl _
  · constructor
    · intro i hi
      apply unset_frame hunset _ (check_length hset)
      rintro rfl
      exact hi List.mem_cons_self
    · intro k hk
      apply store_outside hstore
      rw [List.length_replicate]
      apply hk
      simp [accesses, tested, hset, element]

theorem call_frame {r : Answer × Table} (hcall : call m t op = some r) :
    Frame t r.2 (accesses m t op) := by
  cases op with
  | install id data => exact install_frame hcall
  | uninstall id => exact uninstall_frame hcall
  | set id data =>
    cases data with
    | none =>
      obtain rfl := Option.some.inj hcall
      exact frame_refl _
    | some data =>
      rcases set_cases hcall with ⟨-, rfl⟩ | ⟨hset, u, hcopy, rfl⟩
      · exact frame_refl _
      · constructor
        · intro i _
          rw [(copy_shape hcopy).1]
        · intro k hk
          apply copy_frame hcopy
          apply hk
          simp [accesses, tested, hset, element]
  | get id out =>
    cases out with
    | false =>
      obtain rfl := Option.some.inj hcall
      exact frame_refl _
    | true => rcases get_cases hcall with ⟨-, rfl⟩ | ⟨-, value, -, rfl⟩ <;> exact frame_refl _

end Footprint

section Range

variable {m : DataModel} {t : Table} {op : Op}

/-- An id out of range that has an index below the limit is negative. -/
theorem index_inside_negative {id : BitVec 32} (hout : OutOfRange t.limit id)
    (hlt : id.toNat < t.limit) : id.toInt < 0 := by
  rcases hout with hneg | hge
  · exact hneg
  · have hcond := BitVec.toInt_eq_toNat_cond id
    split_ifs at hcond <;> omega

theorem rejected_iff_refused (ht : Reachable m t) (hout : OutOfRange t.limit op.id) :
    Rejected m t op ↔ Refused t op := by
  have hlen := reachable_shape ht
  cases hnull : NullBuffer op with
  | true => exact iff_of_true (rejected_null hnull) (Or.inl hnull)
  | false =>
    rw [rejected_tested_iff hnull, Refused, hnull]
    have hbit : checkBitmap t.map op.id = some (refusing op) ↔
        op.id.toNat / 8 ≤ t.limit % 2 ^ 32 / 8 ∧ bitAt t.map op.id.toNat = refusing op := by
      by_cases hfit : op.id.toNat / 8 < t.map.length
      · rw [check_bitmap_eq hfit, Option.some.injEq]
        exact ⟨fun h => ⟨by omega, h⟩, And.right⟩
      · rw [check_bitmap_none (not_lt.mp hfit)]
        refine iff_of_false (by simp) (fun h => hfit ?_)
        omega
    rw [hbit]
    constructor
    · rintro ⟨hlt, hrest⟩
      exact Or.inr ⟨index_inside_negative hout hlt, hlt, hrest⟩
    · rintro (h | ⟨-, hrest⟩)
      · cases h
      · exact hrest

/-- In a table of at most 2 ^ 31 ids only a null buffer saves the call. -/
theorem refused_small (hlimit : t.limit ≤ 2 ^ 31) : Refused t op ↔ NullBuffer op = true := by
  constructor
  · rintro (hnull | ⟨hneg, hlt, -⟩)
    · exact hnull
    · have hcond := BitVec.toInt_eq_toNat_cond op.id
      split_ifs at hcond <;> omega
  · exact Or.inl

/-- In a table that was initialised, and after any calls that returned, an id out of
range is rejected if and only if the buffer is null or the bit of a negative id
happens to refuse it. The accesses of a call are those that decide whether it returns,
and nothing else changes. -/
theorem out_of_range_iff (ht : Reachable m t) (hout : OutOfRange t.limit op.id) :
    (Rejected m t op ↔ Refused t op) ∧
      (t.limit ≤ 2 ^ 31 → (Refused t op ↔ NullBuffer op = true)) ∧
      ((∀ data, op.data = some data → data.length = t.elementSize) →
        ((∃ r, call m t op = some r) ↔ ∀ a ∈ accesses m t op, a.Allocated t)) ∧
      ∀ r, call m t op = some r → Frame t r.2 (accesses m t op) :=
  ⟨rejected_iff_refused ht hout, refused_small, call_returns_iff, fun _ => call_frame⟩

theorem ninth_id_exact :
    (Rejected .ilp32 nineIds (.install 9#32 (some [7#8])) ↔
        Refused nineIds (.install 9#32 (some [7#8]))) ∧
      ((∃ r, call .ilp32 nineIds (.install 9#32 (some [7#8])) = some r) ↔
        ∀ a ∈ accesses .ilp32 nineIds (.install 9#32 (some [7#8])), a.Allocated nineIds) := by
  have hout : OutOfRange nineIds.limit (Op.id (.install 9#32 (some [7#8]))) := by decide
  obtain ⟨hrejected, -, hreturns, -⟩ := out_of_range_iff nine_ids_reachable hout
  refine ⟨hrejected, hreturns fun data hdata => ?_⟩
  obtain rfl := Option.some.inj hdata
  rfl

/-- Nine ids have sixteen bits. The id 9 is installed, and then its element is not
among the value bytes. The id -1 has no bit. -/
theorem spare_bit_installed :
    Reachable .ilp32 nineIds ∧ OutOfRange nineIds.limit 9#32 ∧
      ¬Rejected .ilp32 nineIds (.install 9#32 none) ∧
      (call .ilp32 nineIds (.install 9#32 none)).map (fun r => r.1.ret) = some 0 ∧
      (call .ilp32 nineIds (.install 9#32 none)).bind (fun r =>
        call .ilp32 r.2 (.set 9#32 (some [7#8]))) = none ∧
      OutOfRange nineIds.limit (BitVec.ofInt 32 (-1)) ∧
      call .ilp32 nineIds (.uninstall (BitVec.ofInt 32 (-1))) = none := by
  refine ⟨nine_ids_reachable, by decide, ?_, rfl, rfl, by decide, rfl⟩
  rw [rejected_tested_iff rfl]
  decide

end Range

end RS485.IdRange
