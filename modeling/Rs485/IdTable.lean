import Rs485.Blocks
import Rs485.Records
import Rs485.Runs

/-!
# The id table

`it_table.c` over the bitmap of `bitmap.c`. Access outside an allocation has no
result. The bitmap is allocated with a size of type `unsigned int`, which a
table depth of type `size_t` need not fit, and then some ids have no bit.
-/

set_option autoImplicit false

namespace RS485.IdTable
open RS485.Platform RS485.Records RS485.Blocks RS485.Runs

/-- The toolchain of the repository is `ilp32`. `int` has 32 bits in both. -/
inductive DataModel where
  | ilp32
  | lp64
  deriving DecidableEq, Repr

/-- The width of `size_t`. -/
def DataModel.sizeBits : DataModel → ℕ
  | .ilp32 => 32
  | .lp64 => 64

/-- `struct table` -/
structure Table where
  map : List Byte
  table : List Byte
  limit : ℕ
  elementSize : ℕ
  deriving DecidableEq

def checkBitmap (bitmap : List Byte) (index : BitVec 32) : Option Bool := do
  let byte ← bitmap[index.toNat / 8]?
  some (((1#8 <<< (index.toNat % 8)) &&& byte) != 0#8)

def setBitmap (bitmap : List Byte) (index : BitVec 32) : Option (List Byte) := do
  let byte ← bitmap[index.toNat / 8]?
  some (bitmap.set (index.toNat / 8) (byte ||| (1#8 <<< (index.toNat % 8))))

def unsetBitmap (bitmap : List Byte) (index : BitVec 32) : Option (List Byte) := do
  let byte ← bitmap[index.toNat / 8]?
  some (bitmap.set (index.toNat / 8) (byte &&& ~~~(1#8 <<< (index.toNat % 8))))

inductive Op where
  | install (id : BitVec 32) (data : Option (List Byte))
  | uninstall (id : BitVec 32)
  | set (id : BitVec 32) (data : Option (List Byte))
  | get (id : BitVec 32) (out : Bool)
  deriving DecidableEq

/-- What a call returns, and what it writes to `out`. -/
structure Answer where
  ret : ℤ
  out : Option (List Byte)
  deriving DecidableEq

section Code

variable (m : DataModel)

def calloc (room : Bool) (n size : ℕ) : Option (List Byte) :=
  if room = true ∧ n * size < 2 ^ m.sizeBits then some (List.replicate (n * size) 0#8) else none

def allocBitmap (room : Bool) (size : BitVec 32) : Option (List Byte) :=
  calloc m room (size.toNat / 8 + 1) 1

/-- The three flags say for which allocations there is memory. The error is
left in `errno`. -/
def idTableInit (roomTable roomData roomMap : Bool) (dataSize deep : BitVec m.sizeBits) :
    Except ℤ Table :=
  if dataSize.toNat = 0 ∧ deep.toNat = 0 then .error EINVAL
  else if roomTable = false then .error ENOMEM
  else match calloc m roomData deep.toNat dataSize.toNat with
    | none => .error ENOMEM
    | some data =>
      match allocBitmap m roomMap (deep.setWidth 32) with
      | none => .error ENOMEM
      | some map => .ok ⟨map, data, deep.toNat, dataSize.toNat⟩

/-- `id * table->element_size` -/
def offset (t : Table) (id : BitVec 32) : ℕ :=
  (id.signExtend m.sizeBits * BitVec.ofNat m.sizeBits t.elementSize).toNat

/-- `memcpy` from the caller's buffer into the element. -/
def copyIn (t : Table) (id : BitVec 32) (data : List Byte) : Option Table := do
  let value ← load data 0 t.elementSize
  let table ← store t.table (offset m t id) value
  some { t with table := table }

def idTableSet (t : Table) (id : BitVec 32) (data : Option (List Byte)) :
    Option (Answer × Table) :=
  match data with
  | none => some (⟨-EINVAL, none⟩, t)
  | some data => do
    if !(← checkBitmap t.map id) then some (⟨-EPERM, none⟩, t)
    else
      let t ← copyIn m t id data
      some (⟨0, none⟩, t)

def idTableGet (t : Table) (out : Bool) (id : BitVec 32) : Option (Answer × Table) :=
  if out = false then some (⟨-EINVAL, none⟩, t)
  else do
    if !(← checkBitmap t.map id) then some (⟨-EPERM, none⟩, t)
    else
      let value ← load t.table (offset m t id) t.elementSize
      some (⟨0, some value⟩, t)

def idTableUninstall (t : Table) (id : BitVec 32) : Option (Answer × Table) := do
  if !(← checkBitmap t.map id) then some (⟨0, none⟩, t)
  else
    let table ← store t.table (offset m t id) (List.replicate t.elementSize 0#8)
    let map ← unsetBitmap t.map id
    some (⟨0, none⟩, { t with table := table, map := map })

/-- `if(data) memcpy` -/
def copyData (t : Table) (id : BitVec 32) : Option (List Byte) → Option Table
  | none => some t
  | some data => copyIn m t id data

def idTableInstall (t : Table) (id : BitVec 32) (data : Option (List Byte)) :
    Option (Answer × Table) := do
  if ← checkBitmap t.map id then some (⟨-EPERM, none⟩, t)
  else
    let t ← copyData m t id data
    let map ← setBitmap t.map id
    some (⟨0, none⟩, { t with map := map })

def call (t : Table) : Op → Option (Answer × Table)
  | .install id data => idTableInstall m t id data
  | .uninstall id => idTableUninstall m t id
  | .set id data => idTableSet m t id data
  | .get id out => idTableGet m t out id

/-- One call, with the answers given so far. -/
def step (s : Table × List Answer) (op : Op) : Option (Table × List Answer) := do
  let (answer, t) ← call m s.1 op
  some (t, s.2++[answer])

end Code

section Map

/-- A partial map from ids to values. -/
abbrev Contents := ℕ → Option (List Byte)

def mapCall (size : ℕ) (f : Contents) : Op → Answer × Contents
  | .install id data =>
    if (f id.toNat).isSome then (⟨-EPERM, none⟩, f)
    else (⟨0, none⟩, Function.update f id.toNat (some (data.getD (List.replicate size 0#8))))
  | .uninstall id => (⟨0, none⟩, Function.update f id.toNat none)
  | .set _ none => (⟨-EINVAL, none⟩, f)
  | .set id (some data) =>
    if (f id.toNat).isSome then (⟨0, none⟩, Function.update f id.toNat (some data))
    else (⟨-EPERM, none⟩, f)
  | .get _ false => (⟨-EINVAL, none⟩, f)
  | .get id true =>
    match f id.toNat with
    | some value => (⟨0, some value⟩, f)
    | none => (⟨-EPERM, none⟩, f)

def mapStep (size : ℕ) (s : Contents × List Answer) (op : Op) : Contents × List Answer :=
  let (answer, f) := mapCall size s.1 op
  (f, s.2++[answer])

/-- The ids of type `int` that are below the limit. -/
def IsId (limit id : ℕ) : Prop := id < limit ∧ id < 2 ^ 31

instance (limit id : ℕ) : Decidable (IsId limit id) := by
  unfold IsId
  infer_instance

/-- The partial map a table stores. -/
def contents (t : Table) : Contents := fun id =>
  if IsId t.limit id ∧ bitAt t.map id = true then some (slot t.elementSize t.table id) else none

def Op.id : Op → BitVec 32
  | .install id _ => id
  | .uninstall id => id
  | .set id _ => id
  | .get id _ => id

/-- The bytes the caller passes, if any. -/
def Op.data : Op → Option (List Byte)
  | .install _ data => data
  | .set _ data => data
  | _ => none

/-- The id is in the table, and the caller passes values of the element size. -/
def Op.Fits (limit size : ℕ) (op : Op) : Prop :=
  IsId limit op.id.toNat ∧ ∀ data, op.data = some data → data.length = size

/-- Every sequence of calls returns, with the answers of a partial map that is
empty at first, and leaves the table storing that map. -/
def BehavesAsMap (m : DataModel) (t : Table) : Prop :=
  ∀ ops : List Op, (∀ op ∈ ops, op.Fits t.limit t.elementSize) →
    ∃ t', run (step m) (t, []) ops =
        some (t', (ops.foldl (mapStep t.elementSize) (fun _ => none, [])).2) ∧
      contents t' = (ops.foldl (mapStep t.elementSize) (fun _ => none, [])).1

/-- Every id has a bit in the bitmap. -/
def Covered (deep : ℕ) : Prop := deep < 2 ^ 32 ∨ 2 ^ 31 - 8 ≤ deep % 2 ^ 32

end Map

/-- What holds of a table all of whose ids have a bit. The bytes of absent ids
are zero, so that an installation without data need not clear them. -/
structure Sound (m : DataModel) (t : Table) : Prop where
  covered : ∀ id, IsId t.limit id → id / 8 < t.map.length
  size : t.table.length = t.limit * t.elementSize
  bound : t.limit * t.elementSize < 2 ^ m.sizeBits
  stale : ∀ id, IsId t.limit id → bitAt t.map id = false →
    slot t.elementSize t.table id = List.replicate t.elementSize 0#8

section Bitmap

theorem check_bitmap_eq {bitmap : List Byte} {index : BitVec 32}
    (h : index.toNat / 8 < bitmap.length) :
    checkBitmap bitmap index = some (bitAt bitmap index.toNat) := by
  have hmod : index.toNat % 8 < 8 := Nat.mod_lt _ (by decide)
  simp [checkBitmap, bitAt, List.getD, h, mask_test _ _ hmod]

theorem check_bitmap_none {bitmap : List Byte} {index : BitVec 32}
    (h : bitmap.length ≤ index.toNat / 8) : checkBitmap bitmap index = none := by
  simp [checkBitmap, List.getElem?_eq_none h]

theorem set_bitmap_eq {bitmap : List Byte} {index : BitVec 32}
    (h : index.toNat / 8 < bitmap.length) :
    ∃ map, setBitmap bitmap index = some map ∧ map.length = bitmap.length ∧
      ∀ i, bitAt map i = (decide (i = index.toNat) || bitAt bitmap i) := by
  refine ⟨_, by simp only [setBitmap, List.getElem?_eq_getElem h]; rfl, by simp, fun i => ?_⟩
  exact bit_or_mask bitmap index.toNat h i

theorem unset_bitmap_eq {bitmap : List Byte} {index : BitVec 32}
    (h : index.toNat / 8 < bitmap.length) :
    ∃ map, unsetBitmap bitmap index = some map ∧ map.length = bitmap.length ∧
      ∀ i, bitAt map i = (!decide (i = index.toNat) && bitAt bitmap i) := by
  refine ⟨_, by simp only [unsetBitmap, List.getElem?_eq_getElem h]; rfl, by simp, fun i => ?_⟩
  exact bit_and_mask bitmap index.toNat h i

end Bitmap

section Cases

variable {m : DataModel} {t : Table} {id : BitVec 32} {r : Answer × Table}

/-- An installation finds the bit set and does nothing, or it copies the data, if
any, and sets the bit. -/
theorem install_cases {data : Option (List Byte)} (h : idTableInstall m t id data = some r) :
    (checkBitmap t.map id = some true ∧ r = (⟨-EPERM, none⟩, t)) ∨
      (checkBitmap t.map id = some false ∧ ∃ u map, copyData m t id data = some u ∧
        setBitmap u.map id = some map ∧ r = (⟨0, none⟩, { u with map := map })) := by
  simp only [idTableInstall, Option.bind_eq_bind, Option.bind_eq_some_iff] at h
  obtain ⟨used, hused, h⟩ := h
  cases used with
  | true =>
    simp only [if_true, Option.some.injEq] at h
    exact Or.inl ⟨hused, h.symm⟩
  | false =>
    simp only [Bool.false_eq_true, if_false, Option.bind_eq_some_iff, Option.some.injEq] at h
    obtain ⟨u, hcopy, map, hset, hr⟩ := h
    exact Or.inr ⟨hused, u, map, hcopy, hset, hr.symm⟩

theorem uninstall_cases (h : idTableUninstall m t id = some r) :
    (checkBitmap t.map id = some false ∧ r = (⟨0, none⟩, t)) ∨
      (checkBitmap t.map id = some true ∧ ∃ table map,
        store t.table (offset m t id) (List.replicate t.elementSize 0#8) = some table ∧
        unsetBitmap t.map id = some map ∧
        r = (⟨0, none⟩, { t with table := table, map := map })) := by
  simp only [idTableUninstall, Option.bind_eq_bind, Option.bind_eq_some_iff] at h
  obtain ⟨used, hused, h⟩ := h
  cases used with
  | false =>
    simp only [Bool.not_false, if_true, Option.some.injEq] at h
    exact Or.inl ⟨hused, h.symm⟩
  | true =>
    simp only [Bool.not_true, Bool.false_eq_true, if_false, Option.bind_eq_some_iff,
      Option.some.injEq] at h
    obtain ⟨table, hstore, map, hunset, hr⟩ := h
    exact Or.inr ⟨hused, table, map, hstore, hunset, hr.symm⟩

theorem set_cases {data : List Byte} (h : idTableSet m t id (some data) = some r) :
    (checkBitmap t.map id = some false ∧ r = (⟨-EPERM, none⟩, t)) ∨
      (checkBitmap t.map id = some true ∧ ∃ u, copyIn m t id data = some u ∧
        r = (⟨0, none⟩, u)) := by
  simp only [idTableSet, Option.bind_eq_bind, Option.bind_eq_some_iff] at h
  obtain ⟨used, hused, h⟩ := h
  cases used with
  | false =>
    simp only [Bool.not_false, if_true, Option.some.injEq] at h
    exact Or.inl ⟨hused, h.symm⟩
  | true =>
    simp only [Bool.not_true, Bool.false_eq_true, if_false, Option.bind_eq_some_iff,
      Option.some.injEq] at h
    obtain ⟨u, hcopy, hr⟩ := h
    exact Or.inr ⟨hused, u, hcopy, hr.symm⟩

theorem get_cases (h : idTableGet m t true id = some r) :
    (checkBitmap t.map id = some false ∧ r = (⟨-EPERM, none⟩, t)) ∨
      (checkBitmap t.map id = some true ∧ ∃ value,
        load t.table (offset m t id) t.elementSize = some value ∧ r = (⟨0, some value⟩, t)) := by
  simp only [idTableGet, Bool.true_eq_false, if_false, Option.bind_eq_bind,
    Option.bind_eq_some_iff] at h
  obtain ⟨used, hused, h⟩ := h
  cases used with
  | false =>
    simp only [Bool.not_false, if_true, Option.some.injEq] at h
    exact Or.inl ⟨hused, h.symm⟩
  | true =>
    simp only [Bool.not_true, Bool.false_eq_true, if_false, Option.bind_eq_some_iff,
      Option.some.injEq] at h
    obtain ⟨value, hload, hr⟩ := h
    exact Or.inr ⟨hused, value, hload, hr.symm⟩

end Cases

section Calls

variable {m : DataModel} {t : Table}

theorem offset_eq (hs : Sound m t) {id : BitVec 32} (hid : IsId t.limit id.toNat) :
    offset m t id = id.toNat * t.elementSize := by
  have hmsb : id.msb = false := by
    rw [BitVec.msb_eq_false_iff_two_mul_lt]
    have := hid.2
    omega
  have hle : id.toNat * t.elementSize ≤ t.limit * t.elementSize :=
    Nat.mul_le_mul_right _ hid.1.le
  have hone : t.elementSize ≤ t.limit * t.elementSize :=
    Nat.le_mul_of_pos_left _ (Nat.zero_lt_of_lt hid.1)
  have hb := hs.bound
  have hw : id.toNat < 2 ^ m.sizeBits := by
    have := hid.2
    cases m <;> simp only [DataModel.sizeBits] <;> omega
  rw [offset, BitVec.toNat_mul, BitVec.signExtend_eq_setWidth_of_msb_false hmsb,
    BitVec.toNat_setWidth, BitVec.toNat_ofNat, Nat.mod_eq_of_lt hw,
    Nat.mod_eq_of_lt (hone.trans_lt hb), Nat.mod_eq_of_lt (hle.trans_lt hb)]

theorem check_eq (hs : Sound m t) {id : BitVec 32} (hid : IsId t.limit id.toNat) :
    checkBitmap t.map id = some (contents t id.toNat).isSome := by
  rw [check_bitmap_eq (hs.covered _ hid)]
  unfold contents
  by_cases hb : bitAt t.map id.toNat = true <;> simp [hid, hb]

/-- A whole element is stored. -/
theorem store_element (hs : Sound m t) {id : BitVec 32} (hid : IsId t.limit id.toNat)
    {value : List Byte} (hv : value.length = t.elementSize) :
    ∃ table, store t.table (offset m t id) value = some table ∧
      table.length = t.table.length ∧ ∀ j < t.limit, slot t.elementSize table j =
        if j = id.toNat then value else slot t.elementSize t.table j := by
  rw [offset_eq hs hid]
  exact store_slot hs.size hid.1 hv

theorem copy_in_eq (hs : Sound m t) {id : BitVec 32} (hid : IsId t.limit id.toNat)
    {data : List Byte} (hv : data.length = t.elementSize) :
    ∃ table, copyIn m t id data = some { t with table := table } ∧
      table.length = t.table.length ∧ ∀ j < t.limit, slot t.elementSize table j =
        if j = id.toNat then data else slot t.elementSize t.table j := by
  obtain ⟨table, hstore, hlen, hslot⟩ := store_element hs hid hv
  refine ⟨table, ?_, hlen, hslot⟩
  have hload : load data 0 t.elementSize = some data := by
    simp [load, ← hv]
  simp [copyIn, hload, hstore]

theorem contents_some (id : ℕ) (hid : IsId t.limit id) (hb : bitAt t.map id = true) :
    contents t id = some (slot t.elementSize t.table id) := if_pos ⟨hid, hb⟩

theorem contents_none (id : ℕ) (hb : bitAt t.map id = false) : contents t id = none :=
  if_neg (by simp [hb])

theorem bit_of_contents {id : ℕ} (hid : IsId t.limit id) :
    bitAt t.map id = (contents t id).isSome := by
  cases hb : bitAt t.map id with
  | true => rw [contents_some id hid hb, Option.isSome_some]
  | false => rw [contents_none id hb, Option.isSome_none]

/-- An element gets a value and its bit, and nothing else changes. -/
theorem contents_bind {t' : Table} {id : ℕ} {value : List Byte} (hid : IsId t.limit id)
    (hlimit : t'.limit = t.limit) (hsize : t'.elementSize = t.elementSize)
    (hbit : ∀ i, bitAt t'.map i = (decide (i = id) || bitAt t.map i))
    (hslot : ∀ j < t.limit, slot t.elementSize t'.table j =
      if j = id then value else slot t.elementSize t.table j) :
    contents t' = Function.update (contents t) id (some value) := by
  funext j
  by_cases hj : j = id
  · subst hj
    simp [contents, hlimit, hsize, hid, hbit, hslot j hid.1]
  · rw [Function.update_of_ne hj]
    unfold contents
    rw [hlimit, hsize, hbit]
    by_cases hlt : IsId t.limit j
    · simp [hj, hslot j hlt.1]
    · simp [hlt]

theorem contents_unbind {t' : Table} {id : ℕ} {value : List Byte}
    (hlimit : t'.limit = t.limit) (hsize : t'.elementSize = t.elementSize)
    (hbit : ∀ i, bitAt t'.map i = (!decide (i = id) && bitAt t.map i))
    (hslot : ∀ j < t.limit, slot t.elementSize t'.table j =
      if j = id then value else slot t.elementSize t.table j) :
    contents t' = Function.update (contents t) id none := by
  funext j
  by_cases hj : j = id
  · subst hj
    simp [contents, hbit]
  · rw [Function.update_of_ne hj]
    unfold contents
    rw [hlimit, hsize, hbit]
    by_cases hlt : IsId t.limit j
    · simp [hj, hslot j hlt.1]
    · simp [hlt]

/-- The call returns the answer of the map, and the table stores the new map. -/
structure Follows (m : DataModel) (t t' : Table) (op : Op) (answer : Answer) : Prop where
  answers : answer = (mapCall t.elementSize (contents t) op).1
  stores : contents t' = (mapCall t.elementSize (contents t) op).2
  sound : Sound m t'
  limit : t'.limit = t.limit
  size : t'.elementSize = t.elementSize

/-- What `install` leaves in the element: the value passed, or the zero bytes
that are in it already. -/
theorem copy_data_eq (hs : Sound m t) {id : BitVec 32} (hid : IsId t.limit id.toNat)
    (hbit : bitAt t.map id.toNat = false) (data : Option (List Byte))
    (hdata : ∀ value, data = some value → value.length = t.elementSize) :
    ∃ table, copyData m t id data = some { t with table := table } ∧
      table.length = t.table.length ∧ ∀ j < t.limit, slot t.elementSize table j =
        if j = id.toNat then data.getD (List.replicate t.elementSize 0#8)
        else slot t.elementSize t.table j := by
  cases data with
  | none =>
    refine ⟨t.table, rfl, rfl, fun j hj => ?_⟩
    split_ifs with he
    · rw [he, hs.stale _ hid hbit]
      rfl
    · rfl
  | some data => exact copy_in_eq hs hid (hdata data rfl)

theorem install_follows (hs : Sound m t) {id : BitVec 32} {data : Option (List Byte)}
    (hf : (Op.install id data).Fits t.limit t.elementSize) :
    ∃ answer t', idTableInstall m t id data = some (answer, t') ∧
      Follows m t t' (.install id data) answer := by
  obtain ⟨hid, hdata⟩ := hf
  change IsId t.limit id.toNat at hid
  have hbit := bit_of_contents hid
  cases hc : (contents t id.toNat).isSome with
  | true =>
    refine ⟨⟨-EPERM, none⟩, t, by simp [idTableInstall, check_eq hs hid, hc], ?_⟩
    exact ⟨by simp [mapCall, hc], by simp [mapCall, hc], hs, rfl, rfl⟩
  | false =>
    rw [hc] at hbit
    obtain ⟨map, hset, hlen, hmap⟩ := set_bitmap_eq (hs.covered _ hid)
    obtain ⟨table, hcopy, htable, hslot⟩ := copy_data_eq hs hid hbit data hdata
    refine ⟨⟨0, none⟩, { t with table := table, map := map }, ?_, ?_⟩
    · simp [idTableInstall, check_eq hs hid, hc, hcopy, hset]
    · have hbound : contents { t with table := table, map := map } =
          Function.update (contents t) id.toNat (some _) := contents_bind hid rfl rfl hmap hslot
      refine ⟨by simp [mapCall, hc], ?_, ⟨?_, ?_, hs.bound, ?_⟩, rfl, rfl⟩
      · rw [hbound]
        simp [mapCall, hc]
      · exact fun i hi => hlen ▸ hs.covered i hi
      · exact htable.trans hs.size
      · intro i hi hb
        simp only [hmap, Bool.or_eq_false_iff, decide_eq_false_iff_not] at hb
        simp only [hslot i hi.1, if_neg hb.1]
        exact hs.stale i hi hb.2

theorem uninstall_follows (hs : Sound m t) {id : BitVec 32}
    (hf : (Op.uninstall id).Fits t.limit t.elementSize) :
    ∃ answer t', idTableUninstall m t id = some (answer, t') ∧
      Follows m t t' (.uninstall id) answer := by
  obtain ⟨hid, -⟩ := hf
  change IsId t.limit id.toNat at hid
  cases hc : (contents t id.toNat).isSome with
  | false =>
    refine ⟨⟨0, none⟩, t, by simp [idTableUninstall, check_eq hs hid, hc], rfl, ?_, hs, rfl, rfl⟩
    have hnone : contents t id.toNat = none := by simpa using hc
    simp only [mapCall]
    rw [← hnone, Function.update_eq_self]
  | true =>
    obtain ⟨map, hunset, hlen, hmap⟩ := unset_bitmap_eq (hs.covered _ hid)
    obtain ⟨table, hstore, htable, hslot⟩ := store_element hs hid
      (List.length_replicate (n := t.elementSize) (a := 0#8))
    refine ⟨⟨0, none⟩, { t with table := table, map := map }, ?_, ?_⟩
    · simp [idTableUninstall, check_eq hs hid, hc, hstore, hunset]
    · refine ⟨rfl, contents_unbind (t := t) rfl rfl hmap hslot, ⟨?_, ?_, hs.bound, ?_⟩, rfl, rfl⟩
      · exact fun i hi => hlen ▸ hs.covered i hi
      · exact htable.trans hs.size
      · intro i hi hb
        simp only [hslot i hi.1]
        split_ifs with he
        · rfl
        · apply hs.stale i hi
          simpa [hmap, he] using hb

theorem set_follows (hs : Sound m t) {id : BitVec 32} {data : Option (List Byte)}
    (hf : (Op.set id data).Fits t.limit t.elementSize) :
    ∃ answer t', idTableSet m t id data = some (answer, t') ∧
      Follows m t t' (.set id data) answer := by
  obtain ⟨hid, hdata⟩ := hf
  change IsId t.limit id.toNat at hid
  cases data with
  | none => exact ⟨⟨-EINVAL, none⟩, t, rfl, rfl, rfl, hs, rfl, rfl⟩
  | some data =>
    cases hc : (contents t id.toNat).isSome with
    | false =>
      refine ⟨⟨-EPERM, none⟩, t, by simp [idTableSet, check_eq hs hid, hc], ?_⟩
      exact ⟨by simp [mapCall, hc], by simp [mapCall, hc], hs, rfl, rfl⟩
    | true =>
      have hbit := (bit_of_contents hid).trans hc
      obtain ⟨table, hcopy, htable, hslot⟩ := copy_in_eq hs hid (hdata data rfl)
      refine ⟨⟨0, none⟩, { t with table := table }, ?_, ?_⟩
      · simp [idTableSet, check_eq hs hid, hc, hcopy]
      · refine ⟨by simp [mapCall, hc], ?_, ⟨hs.covered, htable.trans hs.size, hs.bound, ?_⟩,
          rfl, rfl⟩
        · rw [contents_bind (t := t) hid (by rfl) (by rfl) (fun i => ?_) hslot]
          · simp [mapCall, hc]
          · by_cases he : i = id.toNat
            · simp [he, hbit]
            · simp [he]
        · intro i hi hb
          have hne : i ≠ id.toNat := fun he => by simp [he, hbit] at hb
          simp only [hslot i hi.1, if_neg hne]
          exact hs.stale i hi hb

theorem get_follows (hs : Sound m t) {id : BitVec 32} {out : Bool}
    (hf : (Op.get id out).Fits t.limit t.elementSize) :
    ∃ answer t', idTableGet m t out id = some (answer, t') ∧
      Follows m t t' (.get id out) answer := by
  obtain ⟨hid, -⟩ := hf
  change IsId t.limit id.toNat at hid
  cases out with
  | false => exact ⟨⟨-EINVAL, none⟩, t, rfl, rfl, rfl, hs, rfl, rfl⟩
  | true =>
    cases hb : bitAt t.map id.toNat with
    | false =>
      have hc := contents_none id.toNat hb
      refine ⟨⟨-EPERM, none⟩, t, by simp [idTableGet, check_eq hs hid, hc], ?_⟩
      exact ⟨by simp [mapCall, hc], by simp [mapCall, hc], hs, rfl, rfl⟩
    | true =>
      have hc := contents_some id.toNat hid hb
      refine ⟨⟨0, some (slot t.elementSize t.table id.toNat)⟩, t, ?_, ?_⟩
      · simp [idTableGet, check_eq hs hid, hc, offset_eq hs hid, load_slot hs.size hid.1]
      · exact ⟨by simp [mapCall, hc], by simp [mapCall, hc], hs, rfl, rfl⟩

/-- An id without a bit is looked up outside the bitmap. -/
theorem get_without_bit {id : BitVec 32} (h : t.map.length ≤ id.toNat / 8)
    (answers : List Answer) : step m (t, answers) (.get id true) = none := by
  simp [step, call, idTableGet, check_bitmap_none h]

theorem call_follows (hs : Sound m t) {op : Op} (hf : op.Fits t.limit t.elementSize) :
    ∃ answer t', call m t op = some (answer, t') ∧ Follows m t t' op answer := by
  cases op with
  | install id data => exact install_follows hs hf
  | uninstall id => exact uninstall_follows hs hf
  | set id data => exact set_follows hs hf
  | get id out => exact get_follows hs hf

theorem run_follows (hs : Sound m t) (ops : List Op)
    (hf : ∀ op ∈ ops, op.Fits t.limit t.elementSize) (answers : List Answer) :
    ∃ t', run (step m) (t, answers) ops =
        some (t', (ops.foldl (mapStep t.elementSize) (contents t, answers)).2) ∧
      contents t' = (ops.foldl (mapStep t.elementSize) (contents t, answers)).1 := by
  induction ops generalizing t answers with
  | nil => exact ⟨t, rfl, rfl⟩
  | cons op ops ih =>
    obtain ⟨answer, t₁, hcall, hfol⟩ := call_follows hs (hf op (by simp))
    have hrest := ih hfol.sound (by
      rw [hfol.limit, hfol.size]
      exact fun o ho => hf o (by simp [ho])) (answers++[answer])
    obtain ⟨t', hrun, hcontents⟩ := hrest
    rw [hfol.size, hfol.stores, hfol.answers] at hrun hcontents
    refine ⟨t', ?_, hcontents⟩
    simp only [run, step, hcall, hfol.answers]
    exact hrun

end Calls

section Init

variable {m : DataModel}

theorem calloc_some {room : Bool} {n size : ℕ} {mem : List Byte}
    (h : calloc m room n size = some mem) :
    mem = List.replicate (n * size) 0#8 ∧ n * size < 2 ^ m.sizeBits := by
  unfold calloc at h
  split_ifs at h with hroom
  exact ⟨(Option.some.inj h).symm, hroom.2⟩

theorem init_cases {roomTable roomData roomMap : Bool} {dataSize deep : BitVec m.sizeBits}
    {t : Table} (h : idTableInit m roomTable roomData roomMap dataSize deep = .ok t) :
    deep.toNat * dataSize.toNat < 2 ^ m.sizeBits ∧
      t = ⟨List.replicate (deep.toNat % 2 ^ 32 / 8 + 1) 0#8,
        List.replicate (deep.toNat * dataSize.toNat) 0#8, deep.toNat, dataSize.toNat⟩ := by
  unfold idTableInit at h
  split_ifs at h with hzero hroom
  cases hdata : calloc m roomData deep.toNat dataSize.toNat with
  | none => simp [hdata] at h
  | some data =>
    cases hmap : allocBitmap m roomMap (deep.setWidth 32) with
    | none => simp [hdata, hmap] at h
    | some map =>
      obtain ⟨rfl, hb⟩ := calloc_some hdata
      obtain ⟨rfl, -⟩ := calloc_some hmap
      simp only [hdata, hmap, Except.ok.injEq] at h
      exact ⟨hb, by rw [← h]; simp⟩

theorem covered_iff (deep : ℕ) :
    Covered deep ↔ ∀ id, IsId deep id → id / 8 < deep % 2 ^ 32 / 8 + 1 := by
  unfold Covered IsId
  constructor
  · rintro h id ⟨hlt, hint⟩
    omega
  · intro h
    by_cases hsmall : deep < 2 ^ 32
    · exact Or.inl hsmall
    · right
      have hlast := h (2 ^ 31 - 1) (by omega)
      omega

/-- The table that `id_table_init` returns. -/
def fresh (dataSize deep : BitVec m.sizeBits) : Table :=
  ⟨List.replicate (deep.toNat % 2 ^ 32 / 8 + 1) 0#8,
    List.replicate (deep.toNat * dataSize.toNat) 0#8, deep.toNat, dataSize.toNat⟩

theorem fresh_contents (dataSize deep : BitVec m.sizeBits) :
    contents (fresh dataSize deep) = fun _ => none := by
  funext id
  exact contents_none id (bit_zeros _ id)

theorem fresh_sound {dataSize deep : BitVec m.sizeBits} (hc : Covered deep.toNat)
    (hbound : deep.toNat * dataSize.toNat < 2 ^ m.sizeBits) : Sound m (fresh dataSize deep) := by
  refine ⟨fun id hid => ?_, by simp [fresh], hbound, fun id hid _ => ?_⟩
  · simpa [fresh] using (covered_iff _).mp hc id hid
  · have hlen : (List.replicate (deep.toNat * dataSize.toNat) 0#8).length =
        deep.toNat * dataSize.toNat := List.length_replicate
    have hfit := slot_fits hlen hid.1
    rw [hlen] at hfit
    simp only [fresh, slot, List.drop_replicate, List.take_replicate]
    congr 1
    omega

theorem fresh_is_map {dataSize deep : BitVec m.sizeBits} (hc : Covered deep.toNat)
    (hbound : deep.toNat * dataSize.toNat < 2 ^ m.sizeBits) :
    BehavesAsMap m (fresh dataSize deep) := by
  intro ops hf
  rw [← fresh_contents dataSize deep]
  exact run_follows (fresh_sound hc hbound) ops hf []

/-- The first call on an id without a bit has no result. -/
theorem map_needs_bits {dataSize deep : BitVec m.sizeBits}
    (hmap : BehavesAsMap m (fresh dataSize deep)) : Covered deep.toNat := by
  rw [covered_iff]
  intro id hid
  by_contra hbit
  have hid32 : (BitVec.ofNat 32 id).toNat = id := by
    have := hid.2
    simp
    omega
  obtain ⟨t', hrun, -⟩ := hmap [.get (BitVec.ofNat 32 id) true] (by
    intro op hop
    obtain rfl := List.mem_singleton.mp hop
    refine ⟨by rw [Op.id, hid32]; exact hid, ?_⟩
    intro data hd
    cases hd)
  rw [run, get_without_bit (by rw [hid32, fresh, List.length_replicate]; omega)] at hrun
  cases hrun

/-- A freshly initialised table behaves as a partial map exactly when every id
has a bit. -/
theorem fresh_table_is_map_iff (roomTable roomData roomMap : Bool)
    (dataSize deep : BitVec m.sizeBits) (t : Table)
    (h : idTableInit m roomTable roomData roomMap dataSize deep = .ok t) :
    BehavesAsMap m t ↔ Covered deep.toNat := by
  obtain ⟨hbound, rfl⟩ := init_cases h
  exact ⟨map_needs_bits, fun hc => fresh_is_map hc hbound⟩

/-- With the 32 bits that `size_t` has for the supported tool chain, every id of every
table has a bit. -/
theorem table_is_map_ilp32 (roomTable roomData roomMap : Bool)
    (dataSize deep : BitVec (DataModel.sizeBits .ilp32)) (t : Table)
    (h : idTableInit .ilp32 roomTable roomData roomMap dataSize deep = .ok t) :
    BehavesAsMap .ilp32 t :=
  (fresh_table_is_map_iff roomTable roomData roomMap dataSize deep t h).mpr (Or.inl deep.isLt)

theorem small_table_is_map :
    idTableInit .ilp32 true true true 2#32 9#32 = .ok ⟨[0#8, 0#8], List.replicate 18 0#8, 9, 2⟩ ∧
      BehavesAsMap .ilp32 ⟨[0#8, 0#8], List.replicate 18 0#8, 9, 2⟩ :=
  ⟨rfl, table_is_map_ilp32 true true true 2#32 9#32 _ rfl⟩

end Init

end RS485.IdTable
