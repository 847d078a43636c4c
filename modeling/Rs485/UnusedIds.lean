import Rs485.IdTable

/-!
# Looking for an unused id

`find_next_zero_bit` and `get_unused_id`. The search stops at a bit that is set
and goes past one that is not, so it hands out the lowest id in use, and reports
a full table when no id is in use.
-/

set_option autoImplicit false

namespace RS485.UnusedIds
open RS485.Platform RS485.Records RS485.Blocks RS485.Runs RS485.IdTable

section Code

/-- The loop at index `i`, with `left` rounds to go. The index is returned as an `int`. -/
def findFrom (bitmap : List Byte) : ℕ → ℕ → Option ℤ
  | 0, _ => some (-EPERM)
  | left+1, i => do
    if ← checkBitmap bitmap (BitVec.ofNat 32 i) then some (BitVec.ofNat 32 i).toInt
    else findFrom bitmap left (i+1)

/-- The bitmap is not null. -/
def findNextZeroBit (bitmap : List Byte) (allSize : BitVec 32) : Option ℤ :=
  findFrom bitmap (allSize.toNat-1) 1

/-- The limit is passed as an `unsigned int`. -/
def getUnusedId (t : Table) : Option ℤ := findNextZeroBit t.map (BitVec.ofNat 32 t.limit)

end Code

section Spec

/-- The lowest index whose bit is not set, or an error when there is none. -/
def FindsZero (bitmap : List Byte) (allSize : BitVec 32) : Prop :=
  ∃ ret, findNextZeroBit bitmap allSize = some ret ∧
    ((∃ i : ℕ, ret = i ∧ 1 ≤ i ∧ i < allSize.toNat ∧ bitAt bitmap i = false ∧
        ∀ j, 1 ≤ j → j < i → bitAt bitmap j = true) ∨
      ret < 0 ∧ ∀ j, 1 ≤ j → j < allSize.toNat → bitAt bitmap j = true)

variable (m : DataModel)

def FreeId (t : Table) (id : ℕ) : Prop := 1 ≤ id ∧ id < t.limit ∧ bitAt t.map id = false

/-- The id that is handed out can be installed, and none is only when none is free. -/
def Serves (t : Table) : Prop :=
  ∃ ret, getUnusedId t = some ret ∧ ((¬∃ id, FreeId t id) → ret < 0) ∧
    ((∃ id, FreeId t id) → 0 ≤ ret ∧
      ∀ data : Option (List Byte), (∀ value, data = some value → value.length = t.elementSize) →
        ∃ answer t', idTableInstall m t (BitVec.ofInt 32 ret) data = some (answer, t') ∧
          answer.ret = 0)

/-- The ids that are installed one after the other, until the table is full. -/
inductive Filled : Table → List ℤ → Prop
  | full {t : Table} (ret : ℤ) (h : getUnusedId t = some ret) (hneg : ret < 0) : Filled t []
  | next {t t' : Table} {ids : List ℤ} (ret : ℤ) (answer : Answer) (h : getUnusedId t = some ret)
      (hge : 0 ≤ ret) (hinstall : idTableInstall m t (BitVec.ofInt 32 ret) none = some (answer, t'))
      (hret : answer.ret = 0) (rest : Filled t' ids) : Filled t (ret::ids)

/-- Filling the table installs every free id once. Without an id in use these are
all ids but zero. -/
def Fills (t : Table) : Prop :=
  ∃ ids, Filled m t ids ∧ ids.Nodup ∧ ∀ id : ℤ, id ∈ ids ↔ 0 ≤ id ∧ FreeId t id.toNat

def Allocates (t : Table) : Prop := Serves m t ∧ Fills m t

/-- A table that was initialised, after any calls that returned. -/
def Reachable (t : Table) : Prop :=
  ∃ (roomTable roomData roomMap : Bool) (dataSize deep : BitVec m.sizeBits) (t₀ : Table)
    (ops : List Op) (answers : List Answer),
    idTableInit m roomTable roomData roomMap dataSize deep = .ok t₀ ∧
      run (step m) (t₀, []) ops = some (t, answers)

end Spec

section Search

variable {bitmap : List Byte}

theorem check_bit {i : ℕ} (hi : i < 2 ^ 32) {b : Bool}
    (h : checkBitmap bitmap (BitVec.ofNat 32 i) = some b) : b = bitAt bitmap i := by
  have hnat : (BitVec.ofNat 32 i).toNat = i := by
    rw [BitVec.toNat_ofNat, Nat.mod_eq_of_lt hi]
  by_cases hlen : (BitVec.ofNat 32 i).toNat / 8 < bitmap.length
  · rw [check_bitmap_eq hlen, hnat] at h
    exact (Option.some.inj h).symm
  · rw [check_bitmap_none (not_lt.mp hlen)] at h
    exact absurd h (by simp)

/-- The search finds the lowest bit that is set, or finds none. -/
theorem find_from_spec {left i : ℕ} (hi : i + left ≤ 2 ^ 32) {ret : ℤ}
    (h : findFrom bitmap left i = some ret) :
    (∃ j, i ≤ j ∧ j < i+left ∧ ret = (BitVec.ofNat 32 j).toInt ∧ bitAt bitmap j = true ∧
        ∀ k, i ≤ k → k < j → bitAt bitmap k = false) ∨
      (ret = -EPERM ∧ ∀ k, i ≤ k → k < i+left → bitAt bitmap k = false) := by
  induction left generalizing i with
  | zero =>
    obtain rfl := Option.some.inj h
    exact Or.inr ⟨rfl, fun k h1 h2 => by omega⟩
  | succ left ih =>
    simp only [findFrom, Option.bind_eq_bind, Option.bind_eq_some_iff] at h
    obtain ⟨b, hb, h⟩ := h
    have hbit := check_bit (by omega) hb
    cases b with
    | true =>
      obtain rfl := Option.some.inj h
      exact Or.inl ⟨i, le_refl i, by omega, rfl, hbit.symm, fun k h1 h2 => by omega⟩
    | false =>
      have hpast : ∀ k, i ≤ k → ¬i+1 ≤ k → bitAt bitmap k = false := by
        intro k h1 h2
        obtain rfl : k = i := by omega
        exact hbit.symm
      rcases ih (by omega) h with ⟨j, h1, h2, hret, hj, hmin⟩ | ⟨hret, hall⟩
      · refine Or.inl ⟨j, by omega, by omega, hret, hj, fun k hk hlt => ?_⟩
        by_cases hle : i+1 ≤ k
        · exact hmin k hle hlt
        · exact hpast k hk hle
      · refine Or.inr ⟨hret, fun k hk hlt => ?_⟩
        by_cases hle : i+1 ≤ k
        · exact hall k hle (by omega)
        · exact hpast k hk hle

theorem find_next_spec {allSize : BitVec 32} {ret : ℤ}
    (h : findNextZeroBit bitmap allSize = some ret) :
    (∃ j, 1 ≤ j ∧ j < allSize.toNat ∧ ret = (BitVec.ofNat 32 j).toInt ∧ bitAt bitmap j = true ∧
        ∀ k, 1 ≤ k → k < j → bitAt bitmap k = false) ∨
      (ret = -EPERM ∧ ∀ k, 1 ≤ k → k < allSize.toNat → bitAt bitmap k = false) := by
  have hlt := allSize.isLt
  rcases find_from_spec (by omega) h with ⟨j, h1, h2, hrest⟩ | ⟨hret, hall⟩
  · exact Or.inl ⟨j, h1, by omega, hrest⟩
  · exact Or.inr ⟨hret, fun k h1 h2 => hall k h1 (by omega)⟩

theorem find_small {allSize : BitVec 32} (h : allSize.toNat ≤ 1) :
    findNextZeroBit bitmap allSize = some (-EPERM) := by
  have hleft : allSize.toNat-1 = 0 := by omega
  rw [findNextZeroBit, hleft]
  rfl

/-- An index that is not negative as an `int` is the index found. -/
theorem found_index {j : ℕ} (hj : j < 2 ^ 32) (hge : 0 ≤ (BitVec.ofNat 32 j).toInt) :
    (BitVec.ofNat 32 j).toInt = j := by
  have hcond := BitVec.toInt_eq_toNat_cond (BitVec.ofNat 32 j)
  rw [BitVec.toNat_ofNat, Nat.mod_eq_of_lt hj] at hcond
  split_ifs at hcond <;> omega

/-- Where all bits are set the search stops at the first. -/
theorem find_all_set {allSize : BitVec 32} {ret : ℤ} (hsize : 1 < allSize.toNat)
    (hall : ∀ k, 1 ≤ k → k < allSize.toNat → bitAt bitmap k = true)
    (h : findNextZeroBit bitmap allSize = some ret) : ret = 1 := by
  rcases find_next_spec h with ⟨j, h1, -, hret, -, hmin⟩ | ⟨-, hnone⟩
  · by_cases hj : j = 1
    · rw [hret, hj]
      rfl
    · have hfirst := hmin 1 (le_refl 1) (by omega)
      exact absurd (hfirst.symm.trans (hall 1 (le_refl 1) hsize)) (by decide)
  · exact absurd ((hnone 1 (le_refl 1) hsize).symm.trans (hall 1 (le_refl 1) hsize)) (by decide)

/-- The search is right only where there is nothing to search. -/
theorem finds_zero_iff (bitmap : List Byte) (allSize : BitVec 32) :
    FindsZero bitmap allSize ↔ allSize.toNat ≤ 1 := by
  constructor
  · rintro ⟨ret, hfind, ⟨i, rfl, h1, h2, hzero, -⟩ | ⟨hneg, hall⟩⟩
    · rcases find_next_spec hfind with ⟨j, -, hj, hret, hset, -⟩ | ⟨hret, -⟩
      · have hlt := allSize.isLt
        rw [found_index (by omega) (by omega)] at hret
        obtain rfl : i = j := by omega
        exact absurd (hzero.symm.trans hset) (by decide)
      · unfold EPERM at hret
        omega
    · by_contra hsize
      have hone := find_all_set (by omega) hall hfind
      omega
  · intro hsize
    refine ⟨-EPERM, find_small hsize, Or.inr ⟨by decide, fun j h1 h2 => by omega⟩⟩

end Search

section Shape

variable {m : DataModel} {t t' : Table}

theorem set_length {bitmap map : List Byte} {index : BitVec 32}
    (h : setBitmap bitmap index = some map) : map.length = bitmap.length := by
  simp only [setBitmap, Option.bind_eq_bind, Option.bind_eq_some_iff, Option.some.injEq] at h
  obtain ⟨byte, -, rfl⟩ := h
  exact List.length_set

theorem unset_length {bitmap map : List Byte} {index : BitVec 32}
    (h : unsetBitmap bitmap index = some map) : map.length = bitmap.length := by
  simp only [unsetBitmap, Option.bind_eq_bind, Option.bind_eq_some_iff, Option.some.injEq] at h
  obtain ⟨byte, -, rfl⟩ := h
  exact List.length_set

theorem copy_shape {id : BitVec 32} {data : List Byte} (h : copyIn m t id data = some t') :
    t'.map = t.map ∧ t'.limit = t.limit := by
  simp only [copyIn, Option.bind_eq_bind, Option.bind_eq_some_iff, Option.some.injEq] at h
  obtain ⟨value, -, table, -, rfl⟩ := h
  exact ⟨rfl, rfl⟩

theorem copy_data_shape {id : BitVec 32} {data : Option (List Byte)}
    (h : copyData m t id data = some t') : t'.map = t.map ∧ t'.limit = t.limit := by
  cases data with
  | none =>
    obtain rfl := Option.some.inj h
    exact ⟨rfl, rfl⟩
  | some data => exact copy_shape h

theorem call_shape {op : Op} {r : Answer × Table} (h : call m t op = some r) :
    r.2.map.length = t.map.length ∧ r.2.limit = t.limit := by
  cases op with
  | install id data =>
    rcases install_cases h with ⟨-, rfl⟩ | ⟨-, u, map, hcopy, hset, rfl⟩
    · exact ⟨rfl, rfl⟩
    · obtain ⟨hmap, hlimit⟩ := copy_data_shape hcopy
      exact ⟨(set_length hset).trans (congrArg List.length hmap), hlimit⟩
  | uninstall id =>
    rcases uninstall_cases h with ⟨-, rfl⟩ | ⟨-, table, map, -, hunset, rfl⟩
    · exact ⟨rfl, rfl⟩
    · exact ⟨unset_length hunset, rfl⟩
  | set id data =>
    cases data with
    | none =>
      obtain rfl := Option.some.inj h
      exact ⟨rfl, rfl⟩
    | some data =>
      rcases set_cases h with ⟨-, rfl⟩ | ⟨-, u, hcopy, rfl⟩
      · exact ⟨rfl, rfl⟩
      · obtain ⟨hmap, hlimit⟩ := copy_shape hcopy
        exact ⟨congrArg List.length hmap, hlimit⟩
  | get id out =>
    cases out with
    | false =>
      obtain rfl := Option.some.inj h
      exact ⟨rfl, rfl⟩
    | true => rcases get_cases h with ⟨-, rfl⟩ | ⟨-, value, -, rfl⟩ <;> exact ⟨rfl, rfl⟩

theorem run_shape {ops : List Op} {answers answers' : List Answer}
    (h : run (step m) (t, answers) ops = some (t', answers')) :
    t'.map.length = t.map.length ∧ t'.limit = t.limit := by
  induction ops generalizing t answers with
  | nil =>
    obtain ⟨rfl, -⟩ := Prod.mk.inj (Option.some.inj h)
    exact ⟨rfl, rfl⟩
  | cons op ops ih =>
    obtain ⟨⟨u, as⟩, hstep, hrest⟩ := Option.bind_eq_some_iff.mp h
    simp only [step, Option.bind_eq_bind, Option.bind_eq_some_iff, Prod.exists, Option.some.injEq,
      Prod.mk.injEq] at hstep
    obtain ⟨answer, v, hcall, rfl, -⟩ := hstep
    obtain ⟨hlen, hlimit⟩ := ih hrest
    obtain ⟨hlen', hlimit'⟩ := call_shape hcall
    exact ⟨hlen.trans hlen', hlimit.trans hlimit'⟩

/-- The bitmap stays as long as it was allocated. -/
theorem reachable_shape (h : Reachable m t) : t.map.length = t.limit % 2 ^ 32 / 8 + 1 := by
  obtain ⟨roomTable, roomData, roomMap, dataSize, deep, t₀, ops, answers, hinit, hrun⟩ := h
  obtain ⟨-, rfl⟩ := init_cases hinit
  obtain ⟨hlen, hlimit⟩ := run_shape hrun
  rw [hlen, hlimit, List.length_replicate]

end Shape

section Allocation

variable {m : DataModel} {t : Table}

theorem install_used {id : ℤ} {j : ℕ} (hj : j < 2 ^ 32) (hid : id = (BitVec.ofNat 32 j).toInt)
    (hset : bitAt t.map j = true) {answer : Answer} {t' : Table}
    (h : idTableInstall m t (BitVec.ofInt 32 id) none = some (answer, t')) : answer.ret ≠ 0 := by
  rw [hid, BitVec.ofInt_toInt] at h
  rcases install_cases h with ⟨-, hr⟩ | ⟨hclear, -⟩
  · rw [(Prod.mk.inj hr).1]
    decide
  · exact absurd ((check_bit hj hclear).trans hset) (by decide)

/-- A search that does not see an index from eight on has a bitmap of one byte. -/
theorem unseen_free (hlen : t.map.length = t.limit % 2 ^ 32 / 8 + 1) (hlimit : 1 < t.limit)
    (hseen : t.limit % 2 ^ 32 ≤ 1) : FreeId t 8 := by
  refine ⟨by decide, ?_, ?_⟩
  · by_contra hle
    rw [Nat.mod_eq_of_lt (by omega)] at hseen
    omega
  · have hone : t.map.length ≤ 8 / 8 := by
      rw [hlen]
      omega
    simp [bitAt, List.getD, List.getElem?_eq_none hone]

theorem serves_small (hlen : t.map.length = t.limit % 2 ^ 32 / 8 + 1) (h : Serves m t) :
    t.limit ≤ 1 := by
  by_contra hlimit
  have hsize : (BitVec.ofNat 32 t.limit).toNat = t.limit % 2 ^ 32 := BitVec.toNat_ofNat _ _
  obtain ⟨ret, hfind, hfull, hfree⟩ := h
  rcases find_next_spec hfind with ⟨j, h1, h2, hret, hset, hmin⟩ | ⟨hret, hnone⟩
  · have hj : j < 2 ^ 32 := lt_trans h2 (BitVec.isLt _)
    by_cases hex : ∃ id, FreeId t id
    · obtain ⟨-, hinstall⟩ := hfree hex
      obtain ⟨answer, t', hcall, hzero⟩ := hinstall none (by simp)
      exact install_used hj hret hset hcall hzero
    · have hneg := hfull hex
      have hone : ret = 1 := by
        refine find_all_set (by omega) (fun k hk hlt => ?_) hfind
        by_contra hbit
        refine hex ⟨k, hk, ?_, Bool.eq_false_of_not_eq_true hbit⟩
        rw [hsize] at hlt
        exact lt_of_lt_of_le hlt (Nat.mod_le _ _)
      omega
  · have hex : ∃ id, FreeId t id := by
      by_cases hseen : t.limit % 2 ^ 32 ≤ 1
      · exact ⟨8, unseen_free hlen (by omega) hseen⟩
      · exact ⟨1, le_refl 1, by omega, hnone 1 (le_refl 1) (by omega)⟩
    have hge := (hfree hex).1
    rw [hret] at hge
    exact absurd hge (by decide)

theorem allocates_small (h : t.limit ≤ 1) : Allocates m t := by
  have hsmall : getUnusedId t = some (-EPERM) := by
    apply find_small
    rw [BitVec.toNat_ofNat]
    omega
  have hnone : ∀ id, ¬FreeId t id := by
    rintro id ⟨h1, h2, -⟩
    omega
  constructor
  · exact ⟨-EPERM, hsmall, fun _ => by decide, fun ⟨id, hid⟩ => absurd hid (hnone id)⟩
  · refine ⟨[], .full (-EPERM) hsmall (by decide), List.nodup_nil, fun id => ?_⟩
    simp [hnone]

/-- The search is right for every bitmap, and a table hands out its ids, if and
only if there is no index but zero. -/
theorem unused_ids_iff (ht : Reachable m t) :
    (∀ bitmap allSize, FindsZero bitmap allSize ↔ allSize.toNat ≤ 1) ∧
      (Allocates m t ↔ t.limit ≤ 1) :=
  ⟨finds_zero_iff, fun h => serves_small (reachable_shape ht) h.1, allocates_small⟩

/-- A table of nine ids, as it is initialised. -/
def nineIds : Table := ⟨[0#8, 0#8], List.replicate 9 0#8, 9, 1⟩

theorem nine_ids_reachable : Reachable .ilp32 nineIds :=
  ⟨true, true, true, 1#32, 9#32, nineIds, [], [], rfl, rfl⟩

theorem nine_ids_not_allocated :
    (∀ bitmap allSize, FindsZero bitmap allSize ↔ allSize.toNat ≤ 1) ∧
      (Allocates .ilp32 nineIds ↔ nineIds.limit ≤ 1) :=
  unused_ids_iff nine_ids_reachable

/-- The table without an id in use is reported full. With the id 1 in use that id
is handed out, and cannot be installed. -/
theorem unused_id_in_use :
    Reachable .ilp32 nineIds ∧ getUnusedId nineIds = some (-EPERM) ∧
      (idTableInstall .ilp32 nineIds 1#32 none).bind (fun r => getUnusedId r.2) = some 1 ∧
      (idTableInstall .ilp32 nineIds 1#32 none).bind (fun r =>
        (idTableInstall .ilp32 r.2 1#32 none).map fun r => r.1.ret) = some (-EPERM) ∧
      ¬FindsZero nineIds.map 9#32 ∧ ¬Serves .ilp32 nineIds := by
  have hempty : getUnusedId nineIds = some (-EPERM) := rfl
  refine ⟨nine_ids_reachable, hempty, rfl, rfl, ?_, ?_⟩
  · rw [finds_zero_iff]
    decide
  · rintro ⟨ret, hret, -, hfree⟩
    obtain rfl := Option.some.inj (hempty.symm.trans hret)
    exact absurd (hfree ⟨1, by decide, by decide, rfl⟩).1 (by decide)

end Allocation

end RS485.UnusedIds
