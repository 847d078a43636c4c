import Rs485.Records

/-!
# The objects of the BACnet device

`device-client.c` keeps no list of its objects. A table has for each type of object the
functions that count, number and name the objects of the type, and ends with an entry of
the type `MAX_BACNET_OBJECT_TYPE`. The list that clients read is put together from the
table: the objects of the first entry, then those of the next. A walk that finds no such
end has no result.
-/

set_option autoImplicit false

namespace RS485.ObjectList
open RS485.Records

section Code

/-- `struct object_functions`, what is read of it; `N` is a character string. -/
structure ObjectFunctions (N : Type) where
  objectType : ℕ
  /-- what `Object_Count` returns -/
  count : Option (BitVec 32)
  indexToInstance : Option (BitVec 32 → BitVec 32)
  validInstance : Option (BitVec 32 → Bool)
  objectName : Option (BitVec 32 → Option N)
  iterator : Option (BitVec 32 → BitVec 32)

variable {N : Type} (maxType : ℕ)

def deviceObjectsFindFunctions (objectType : ℕ) :
    List (ObjectFunctions N) → Option (Option (ObjectFunctions N))
  | [] => none
  | o::rest =>
    if o.objectType < maxType then
      if o.objectType = objectType then some (some o) else deviceObjectsFindFunctions objectType rest
    else some none

def countLoop : List (ObjectFunctions N) → BitVec 32 → Option (BitVec 32)
  | [], _ => none
  | o::rest, count =>
    if o.objectType < maxType then
      match o.count with
      | some n => countLoop rest (count+n)
      | none => countLoop rest count
    else some count

def deviceObjectListCount (table : List (ObjectFunctions N)) : Option (BitVec 32) :=
  countLoop maxType table 0

/-- The place of an object among those of its type, for `Object_Index_To_Instance`. -/
def ObjectFunctions.place (o : ObjectFunctions N) (objectIndex : BitVec 32) : BitVec 32 :=
  match o.iterator with
  | some next => Nat.iterate next objectIndex.toNat (next (~~~0))
  | none => objectIndex

def identifierLoop :
    List (ObjectFunctions N) → BitVec 32 → BitVec 32 → Option (Option (ℕ × BitVec 32))
  | [], _, _ => none
  | o::rest, objectIndex, count =>
    if o.objectType < maxType then
      match o.count with
      | none => identifierLoop rest objectIndex count
      | some n =>
        let objectIndex := objectIndex-count
        if objectIndex < n then
          match o.indexToInstance with
          | some instanceOf => some (some (o.objectType, instanceOf (o.place objectIndex)))
          -- the index is left as the iterator has it
          | none => identifierLoop rest (o.place objectIndex) n
        else identifierLoop rest objectIndex n
    else some none

def deviceObjectListIdentifier (table : List (ObjectFunctions N)) (arrayIndex : BitVec 32) :
    Option (Option (ℕ × BitVec 32)) :=
  if arrayIndex = 0 then some none else identifierLoop maxType table (arrayIndex-1) 0

def deviceValidObjectId (table : List (ObjectFunctions N)) (objectType : ℕ)
    (objectInstance : BitVec 32) : Option Bool := do
  match ← deviceObjectsFindFunctions maxType objectType table with
  | some o =>
    match o.validInstance with
    | some valid => some (valid objectInstance)
    | none => some false
  | none => some false

def deviceObjectNameCopy (table : List (ObjectFunctions N)) (objectType : ℕ)
    (objectInstance : BitVec 32) : Option (Option N) := do
  match ← deviceObjectsFindFunctions maxType objectType table with
  | some o =>
    match o.objectName with
    | some name => some (name objectInstance)
    | none => some none
  | none => some none

/-- The loop over the list; `same` is `characterstring_same`. -/
def nameLoop (same : N → N → Bool) (table : List (ObjectFunctions N)) (objectName : N)
    (maxObjects : BitVec 32) : ℕ → BitVec 32 → Option (Option (ℕ × BitVec 32))
  | 0, _ => none
  | fuel+1, i =>
    if i ≤ maxObjects then do
      match ← deviceObjectListIdentifier maxType table i with
      | some (type, inst) =>
        match ← deviceObjectNameCopy maxType table type inst with
        | some name =>
          if same objectName name then some (some (type, inst))
          else nameLoop same table objectName maxObjects fuel (i+1)
        | none => nameLoop same table objectName maxObjects fuel (i+1)
      | none => nameLoop same table objectName maxObjects fuel (i+1)
    else some none

def deviceValidObjectName (same : N → N → Bool) (table : List (ObjectFunctions N))
    (objectName : N) : Option (Option (ℕ × BitVec 32)) := do
  let maxObjects ← deviceObjectListCount maxType table
  nameLoop maxType same table objectName maxObjects (maxObjects.toNat + 1) 1

inductive ErrorCode where
  | abortSegmentationNotSupported
  | servicesOther
  | invalidArrayIndex
  | unknownProperty
  | propertyIsNotAnArray
  deriving DecidableEq

inductive Response where
  | encoded (apdu : List Byte)
  | error (code : ErrorCode)
  | abort (code : ErrorCode)
  deriving DecidableEq

inductive Property (P : Type) where
  | objectList
  | other (property : P)
  deriving DecidableEq

/-- What the BACnet library gives: `MAX_APDU` and the encoders. -/
structure Library (P : Type) where
  maxApdu : ℕ
  encodeUnsigned : BitVec 32 → List Byte
  encodeObjectId : ℕ → BitVec 32 → List Byte
  /-- the value of another property, if the device has it -/
  encodeOther : P → Option (List Byte)

def bacnetArrayAll : BitVec 32 := ~~~0

variable {P : Type} (lib : Library P)

def listLoop (table : List (ObjectFunctions N)) (count : BitVec 32) :
    ℕ → BitVec 32 → List Byte → Option Response
  | 0, _, _ => none
  | fuel+1, i, apdu =>
    if i ≤ count then do
      match ← deviceObjectListIdentifier maxType table i with
      | some (type, inst) =>
        let encoded := lib.encodeObjectId type inst
        let apdu := apdu++encoded
        if i ≠ count ∧ apdu.length + encoded.length ≥ lib.maxApdu then
          some (.abort .abortSegmentationNotSupported)
        else listLoop table count fuel (i+1) apdu
      | none => some (.error .servicesOther)
    else some (.encoded apdu)

/-- `case PROP_OBJECT_LIST` -/
def readObjectList (table : List (ObjectFunctions N)) (arrayIndex : BitVec 32) :
    Option Response := do
  let count ← deviceObjectListCount maxType table
  if arrayIndex = 0 then some (.encoded (lib.encodeUnsigned count))
  else if arrayIndex = bacnetArrayAll then
    listLoop maxType lib table count (count.toNat + 1) 1 []
  else
    match ← deviceObjectListIdentifier maxType table arrayIndex with
    | some (type, inst) => some (.encoded (lib.encodeObjectId type inst))
    | none => some (.error .invalidArrayIndex)

def deviceReadPropertyLocal (table : List (ObjectFunctions N)) (applicationDataLen : ℕ)
    (property : Property P) (arrayIndex : BitVec 32) : Option Response :=
  if applicationDataLen = 0 then some (.encoded [])
  else
    match property with
    | .objectList => readObjectList maxType lib table arrayIndex
    | .other property =>
      match lib.encodeOther property with
      | none => some (.error .unknownProperty)
      | some apdu =>
        if arrayIndex ≠ bacnetArrayAll then some (.error .propertyIsNotAnArray)
        else some (.encoded apdu)

end Code

section Listing

variable {N : Type} (maxType : ℕ)

/-- The objects of an entry, as they come in the list. -/
def ObjectFunctions.objects (o : ObjectFunctions N) : List (ℕ × BitVec 32) :=
  match o.count, o.indexToInstance with
  | some n, some instanceOf => (List.range n.toNat).map fun i =>
      (o.objectType, instanceOf (o.place (BitVec.ofNat 32 i)))
  | _, _ => []

/-- The entries in front of the end of the table. -/
def entries (table : List (ObjectFunctions N)) : List (ObjectFunctions N) :=
  table.takeWhile (·.objectType < maxType)

def objects (table : List (ObjectFunctions N)) : List (ℕ × BitVec 32) :=
  (entries maxType table).flatMap ObjectFunctions.objects

/-- The table has an end, and the objects that an entry counts can be numbered. -/
structure Sound (table : List (ObjectFunctions N)) : Prop where
  ends : ∃ o ∈ table, maxType ≤ o.objectType
  numbered : ∀ o ∈ entries maxType table, ∀ n, o.count = some n → n ≠ 0 →
    ∃ instanceOf, o.indexToInstance = some instanceOf

variable {maxType} {table : List (ObjectFunctions N)}

theorem sound_tail {o : ObjectFunctions N} (h : Sound maxType (o::table))
    (ho : o.objectType < maxType) : Sound maxType table where
  ends := by
    obtain ⟨e, he, htype⟩ := h.ends
    rcases List.mem_cons.mp he with rfl | he
    · exact absurd ho (not_lt.mpr htype)
    · exact ⟨e, he, htype⟩
  numbered e he := h.numbered e (by
    rw [entries, List.takeWhile_cons_of_pos (by simpa using ho)]
    exact List.mem_cons_of_mem o he)

theorem sound_head {o : ObjectFunctions N} (h : Sound maxType (o::table))
    (ho : o.objectType < maxType) {n : BitVec 32} (hn : o.count = some n) (hpos : n ≠ 0) :
    ∃ instanceOf, o.indexToInstance = some instanceOf :=
  h.numbered o (by
    rw [entries, List.takeWhile_cons_of_pos (by simpa using ho)]
    exact List.mem_cons_self) n hn hpos

theorem objects_cons {o : ObjectFunctions N} (ho : o.objectType < maxType) :
    objects maxType (o::table) = o.objects++objects maxType table := by
  rw [objects, entries, List.takeWhile_cons_of_pos (by simpa using ho), List.flatMap_cons]
  rfl

theorem objects_end {o : ObjectFunctions N} (ho : ¬o.objectType < maxType) :
    objects maxType (o::table) = [] := by
  rw [objects, entries, List.takeWhile_cons_of_neg (by simpa using ho), List.flatMap_nil]

theorem not_sound_nil : ¬Sound maxType ([] : List (ObjectFunctions N)) := by
  intro h
  obtain ⟨o, ho, -⟩ := h.ends
  exact absurd ho List.not_mem_nil

theorem objects_uncounted {o : ObjectFunctions N} (hcount : o.count = none) : o.objects = [] := by
  rw [ObjectFunctions.objects, hcount]

theorem objects_length {o : ObjectFunctions N} (h : Sound maxType (o::table))
    (ho : o.objectType < maxType) {n : BitVec 32} (hcount : o.count = some n) :
    o.objects.length = n.toNat := by
  by_cases hpos : n = 0
  · rw [ObjectFunctions.objects, hcount, hpos]
    cases o.indexToInstance <;> rfl
  · obtain ⟨instanceOf, hinstance⟩ := sound_head h ho hcount hpos
    simp [ObjectFunctions.objects, hcount, hinstance]

theorem objects_get {o : ObjectFunctions N} {n : BitVec 32} (hcount : o.count = some n)
    {instanceOf : BitVec 32 → BitVec 32} (hinstance : o.indexToInstance = some instanceOf)
    {i : BitVec 32} (hi : i.toNat < n.toNat) :
    o.objects[i.toNat]? = some (o.objectType, instanceOf (o.place i)) := by
  rw [ObjectFunctions.objects, hcount, hinstance]
  simp only [List.getElem?_map, List.getElem?_range hi, Option.map_some, BitVec.ofNat_toNat,
    BitVec.setWidth_eq]

theorem count_loop (h : Sound maxType table) (count : BitVec 32) :
    countLoop maxType table count =
      some (count+BitVec.ofNat 32 (objects maxType table).length) := by
  induction table generalizing count with
  | nil => exact absurd h not_sound_nil
  | cons o table ih =>
    rw [countLoop]
    by_cases ho : o.objectType < maxType
    · rw [if_pos ho, objects_cons ho]
      cases hcount : o.count with
      | none => simp only [ih (sound_tail h ho), objects_uncounted hcount, List.nil_append]
      | some n =>
        simp only [ih (sound_tail h ho), List.length_append, BitVec.ofNat_add,
          objects_length h ho hcount, BitVec.ofNat_toNat, BitVec.setWidth_eq, BitVec.add_assoc]
    · rw [if_neg ho, objects_end ho]
      simp

/-- The walk that comes to an entry with `count` objects left to leave out. -/
theorem identifier_loop (h : Sound maxType table) {objectIndex count : BitVec 32}
    (hle : count ≤ objectIndex) : identifierLoop maxType table objectIndex count =
      some (objects maxType table)[(objectIndex-count).toNat]? := by
  induction table generalizing objectIndex count with
  | nil => exact absurd h not_sound_nil
  | cons o table ih =>
    rw [identifierLoop]
    by_cases ho : o.objectType < maxType
    · rw [if_pos ho, objects_cons ho]
      cases hcount : o.count with
      | none => simp only [ih (sound_tail h ho) hle, objects_uncounted hcount, List.nil_append]
      | some n =>
        have hlength := objects_length h ho hcount
        simp only
        by_cases hlt : objectIndex-count < n
        · have hpos : n ≠ 0 := by
            rintro rfl
            exact absurd hlt (by simp)
          obtain ⟨instanceOf, hinstance⟩ := sound_head h ho hcount hpos
          have hin : (objectIndex-count).toNat < n.toNat := hlt
          rw [if_pos hlt, hinstance, List.getElem?_append_left (by rwa [hlength]),
            objects_get hcount hinstance hin]
        · have hge : n ≤ objectIndex-count := by simpa using hlt
          have hnat : (objectIndex-count-n).toNat = (objectIndex-count).toNat-n.toNat :=
            BitVec.toNat_sub_of_le hge
          rw [if_neg hlt, ih (sound_tail h ho) hge, hnat, ← hlength,
            List.getElem?_append_right (by rw [hlength]; exact hge)]
    · rw [if_neg ho, objects_end ho]
      rfl

/-- The list has the objects of the table one after the other, from 1. -/
theorem identifier_eq (h : Sound maxType table) (arrayIndex : BitVec 32) :
    deviceObjectListIdentifier maxType table arrayIndex =
      some (if arrayIndex = 0 then none else (objects maxType table)[arrayIndex.toNat-1]?) := by
  rw [deviceObjectListIdentifier]
  split_ifs with hzero
  · rfl
  · have hpos : 1 ≤ arrayIndex := by
      rw [BitVec.le_def]
      have hne : arrayIndex.toNat ≠ 0 := fun heq => hzero (BitVec.eq_of_toNat_eq heq)
      exact Nat.one_le_iff_ne_zero.mpr hne
    have hnone : (0 : BitVec 32) ≤ arrayIndex-1 := Nat.zero_le _
    rw [identifier_loop h hnone, sub_zero, BitVec.toNat_sub_of_le hpos]
    rfl

theorem count_eq (h : Sound maxType table) : deviceObjectListCount maxType table =
    some (BitVec.ofNat 32 (objects maxType table).length) := by
  rw [deviceObjectListCount, count_loop h, zero_add]

variable (hfew : (objects maxType table).length < 2 ^ 32-1)
include hfew

/-- The loops over the list are at an object, or behind the last one. -/
theorem index_le {k : ℕ} (hk : k ≤ (objects maxType table).length) :
    BitVec.ofNat 32 (k+1) ≤ BitVec.ofNat 32 (objects maxType table).length ↔
      k < (objects maxType table).length := by
  rw [BitVec.le_def, BitVec.toNat_ofNat, BitVec.toNat_ofNat, Nat.mod_eq_of_lt (by omega),
    Nat.mod_eq_of_lt (by omega)]
  omega

theorem object_at (h : Sound maxType table) {k : ℕ} (hk : k < (objects maxType table).length) :
    deviceObjectListIdentifier maxType table (BitVec.ofNat 32 (k+1)) =
      some (some (objects maxType table)[k]) := by
  have hnat : (BitVec.ofNat 32 (k+1)).toNat = k+1 := by
    rw [BitVec.toNat_ofNat, Nat.mod_eq_of_lt (by omega)]
  have hne : BitVec.ofNat 32 (k+1) ≠ 0 := by
    intro heq
    rw [heq] at hnat
    exact absurd hnat (by simp)
  rw [identifier_eq h, if_neg hne, hnat, Nat.add_sub_cancel, List.getElem?_eq_getElem hk]

section Reading

variable {P : Type} (lib : Library P)

def encodedObject (o : ℕ × BitVec 32) : List Byte := lib.encodeObjectId o.1 o.2

/-- What the loop over the list makes of the objects from the `k`th on. -/
theorem list_loop (h : Sound maxType table) {size : ℕ}
    (hsize : ∀ type inst, (lib.encodeObjectId type inst).length = size) {d k : ℕ}
    (hd : k+d = (objects maxType table).length) {apdu : List Byte} (hapdu : apdu.length = k*size) :
    listLoop maxType lib table (BitVec.ofNat 32 (objects maxType table).length) (d+1)
        (BitVec.ofNat 32 (k+1)) apdu =
      some (if d ≤ 1 ∨ (objects maxType table).length * size < lib.maxApdu then
        .encoded (apdu++((objects maxType table).drop k).flatMap (encodedObject lib))
      else .abort .abortSegmentationNotSupported) := by
  induction d generalizing k apdu with
  | zero =>
    have hend : ¬k < (objects maxType table).length := by omega
    rw [listLoop, if_neg fun hle => hend ((index_le hfew hd.le).mp hle), if_pos (Or.inl (by omega)),
      List.drop_of_length_le (not_lt.mp hend), List.flatMap_nil, List.append_nil]
  | succ d ih =>
    have hk : k < (objects maxType table).length := by omega
    have hnext : BitVec.ofNat 32 (k+1)+1 = BitVec.ofNat 32 (k+1+1) := (BitVec.ofNat_add ..).symm
    have hlast : BitVec.ofNat 32 (k+1) = BitVec.ofNat 32 (objects maxType table).length ↔ d = 0 := by
      rw [BitVec.toNat_inj.symm, BitVec.toNat_ofNat, BitVec.toNat_ofNat,
        Nat.mod_eq_of_lt (by omega), Nat.mod_eq_of_lt (by omega)]
      omega
    have hlength : (apdu++lib.encodeObjectId (objects maxType table)[k].1
        (objects maxType table)[k].2).length = (k+1)*size := by
      rw [List.length_append, hapdu, hsize, Nat.succ_mul]
    have hall : apdu++((objects maxType table).drop k).flatMap (encodedObject lib) =
        (apdu++lib.encodeObjectId (objects maxType table)[k].1 (objects maxType table)[k].2)++
          ((objects maxType table).drop (k+1)).flatMap (encodedObject lib) := by
      rw [List.drop_eq_getElem_cons hk, List.flatMap_cons, List.append_assoc]
      rfl
    rw [listLoop, if_pos ((index_le hfew hk.le).mpr hk), object_at hfew h hk]
    simp only [Option.bind_eq_bind, Option.bind_some, ne_eq, hlast, hlength, hsize, ge_iff_le]
    rw [hall]
    by_cases hfull : ¬d = 0 ∧ lib.maxApdu ≤ (k+1)*size+size
    · -- one more object would not fit, so all of them do not either
      have hmore : (k+1+1)*size ≤ (objects maxType table).length * size :=
        Nat.mul_le_mul_right size (by omega)
      rw [Nat.succ_mul] at hmore
      rw [if_pos hfull, if_neg (by omega)]
    · rw [if_neg hfull, hnext, ih (by omega) hlength]
      have hsame : (d ≤ 1 ∨ (objects maxType table).length * size < lib.maxApdu) ↔
          (d+1 ≤ 1 ∨ (objects maxType table).length * size < lib.maxApdu) := by
        by_cases hone : d = 1
        · have htotal : (objects maxType table).length = k+1+1 := by omega
          rw [htotal, Nat.succ_mul (k+1)]
          omega
        · omega
      rw [if_congr hsame rfl rfl]

/-- What a client gets that reads the list: the number of objects, one object, all of them,
or the answer that they are too many for one message. -/
theorem object_list_read (h : Sound maxType table) {size : ℕ}
    (hsize : ∀ type inst, (lib.encodeObjectId type inst).length = size) (applicationDataLen : ℕ)
    (arrayIndex : BitVec 32) :
    deviceReadPropertyLocal maxType lib table applicationDataLen .objectList arrayIndex =
      some (if applicationDataLen = 0 then .encoded []
      else if arrayIndex = 0 then
        .encoded (lib.encodeUnsigned (BitVec.ofNat 32 (objects maxType table).length))
      else if arrayIndex = bacnetArrayAll then
        if (objects maxType table).length ≤ 1 ∨
            (objects maxType table).length * size < lib.maxApdu then
          .encoded ((objects maxType table).flatMap (encodedObject lib))
        else .abort .abortSegmentationNotSupported
      else match (objects maxType table)[arrayIndex.toNat-1]? with
        | some o => .encoded (encodedObject lib o)
        | none => .error .invalidArrayIndex) := by
  have hnat : (BitVec.ofNat 32 (objects maxType table).length).toNat =
      (objects maxType table).length := by
    rw [BitVec.toNat_ofNat, Nat.mod_eq_of_lt (by omega)]
  have hloop := @list_loop N maxType table hfew P lib h size hsize (objects maxType table).length 0
    (Nat.zero_add _) [] (Nat.zero_mul size).symm
  rw [List.drop_zero, List.nil_append] at hloop
  rw [deviceReadPropertyLocal]
  by_cases hlen : applicationDataLen = 0
  · rw [if_pos hlen, if_pos hlen]
  · rw [if_neg hlen, if_neg hlen]
    simp only [readObjectList, count_eq h, Option.bind_eq_bind, Option.bind_some, hnat]
    by_cases hzero : arrayIndex = 0
    · rw [if_pos hzero, if_pos hzero]
    · rw [if_neg hzero, if_neg hzero]
      by_cases hall : arrayIndex = bacnetArrayAll
      · rw [if_pos hall, if_pos hall]
        exact hloop
      · rw [if_neg hall, if_neg hall, identifier_eq h, if_neg hzero]
        cases (objects maxType table)[arrayIndex.toNat-1]? <;> rfl

end Reading

section Names

/-- The objects of an entry, with the names that its own function gives them. -/
def ObjectFunctions.named (e : ObjectFunctions N) : List ((ℕ × BitVec 32) × Option N) :=
  e.objects.map fun o => (o, e.objectName.bind fun name => name o.2)

def named (maxType : ℕ) (table : List (ObjectFunctions N)) : List ((ℕ × BitVec 32) × Option N) :=
  (entries maxType table).flatMap ObjectFunctions.named

/-- No type has two entries. -/
def Distinct (maxType : ℕ) (table : List (ObjectFunctions N)) : Prop :=
  ((entries maxType table).map (·.objectType)).Nodup

/-- The name of an object, as `Device_Object_Name_Copy` finds it. -/
def nameOf (maxType : ℕ) (table : List (ObjectFunctions N)) (o : ℕ × BitVec 32) : Option N :=
  (deviceObjectNameCopy maxType table o.1 o.2).join

omit hfew in
theorem find_returns (h : Sound maxType table) (objectType : ℕ) :
    ∃ found, deviceObjectsFindFunctions maxType objectType table = some found := by
  induction table with
  | nil => exact absurd h not_sound_nil
  | cons o table ih =>
    rw [deviceObjectsFindFunctions]
    split_ifs with ho htype
    · exact ⟨_, rfl⟩
    · exact ih (sound_tail h ho)
    · exact ⟨_, rfl⟩

omit hfew in
theorem name_copy (h : Sound maxType table) (o : ℕ × BitVec 32) :
    deviceObjectNameCopy maxType table o.1 o.2 = some (nameOf maxType table o) := by
  have hsome : ∃ name, deviceObjectNameCopy maxType table o.1 o.2 = some name := by
    obtain ⟨found, hfound⟩ := find_returns h o.1
    rw [deviceObjectNameCopy, hfound]
    cases found with
    | none => exact ⟨_, rfl⟩
    | some e => cases hname : e.objectName <;> exact ⟨_, by simp [hname]; rfl⟩
  obtain ⟨name, hname⟩ := hsome
  rw [nameOf, hname, Option.join_some]

variable (same : N → N → Bool) (objectName : N)

theorem name_loop (h : Sound maxType table) {d k : ℕ}
    (hd : k+d = (objects maxType table).length) :
    nameLoop maxType same table objectName (BitVec.ofNat 32 (objects maxType table).length) (d+1)
        (BitVec.ofNat 32 (k+1)) =
      some (((objects maxType table).drop k).find? fun o =>
        (nameOf maxType table o).any (same objectName)) := by
  induction d generalizing k with
  | zero =>
    have hend : ¬k < (objects maxType table).length := by omega
    rw [nameLoop, if_neg fun hle => hend ((index_le hfew hd.le).mp hle),
      List.drop_of_length_le (not_lt.mp hend), List.find?_nil]
  | succ d ih =>
    have hk : k < (objects maxType table).length := by omega
    have hnext : BitVec.ofNat 32 (k+1)+1 = BitVec.ofNat 32 (k+1+1) := (BitVec.ofNat_add ..).symm
    rw [nameLoop, if_pos ((index_le hfew hk.le).mpr hk), object_at hfew h hk,
      List.drop_eq_getElem_cons hk]
    simp only [Option.bind_eq_bind, Option.bind_some, name_copy h, hnext,
      ih (show k+1+d = _ by omega)]
    cases hname : nameOf maxType table (objects maxType table)[k] with
    | none => simp only [List.find?_cons, hname, Option.any_none]
    | some name =>
      cases hsame : same objectName name with
      | false => simp only [List.find?_cons, hname, Option.any_some, hsame, Bool.false_eq_true,
          if_false]
      | true => simp only [List.find?_cons, hname, Option.any_some, hsame, if_true]

theorem search_list (h : Sound maxType table) :
    deviceValidObjectName maxType same table objectName =
      some ((objects maxType table).find? fun o =>
        (nameOf maxType table o).any (same objectName)) := by
  have hnat : (BitVec.ofNat 32 (objects maxType table).length).toNat =
      (objects maxType table).length := by
    rw [BitVec.toNat_ofNat, Nat.mod_eq_of_lt (by omega)]
  have hloop := @name_loop N maxType table hfew same objectName h _ 0 (Nat.zero_add _)
  rw [List.drop_zero] at hloop
  rw [deviceValidObjectName, count_eq h]
  simp only [Option.bind_eq_bind, Option.bind_some, hnat]
  exact hloop

omit hfew in
/-- Where the types are distinct the first entry of a type is the only one. -/
theorem find_own (htypes : Distinct maxType table) {e : ObjectFunctions N}
    (he : e ∈ entries maxType table) :
    deviceObjectsFindFunctions maxType e.objectType table = some (some e) := by
  induction table with
  | nil => exact absurd he List.not_mem_nil
  | cons o table ih =>
    rw [deviceObjectsFindFunctions]
    by_cases ho : o.objectType < maxType
    · have hcons : entries maxType (o::table) = o::entries maxType table :=
        List.takeWhile_cons_of_pos (by simpa using ho)
      rw [Distinct, hcons, List.map_cons, List.nodup_cons] at htypes
      rw [hcons] at he
      rw [if_pos ho]
      rcases List.mem_cons.mp he with rfl | he
      · rw [if_pos rfl]
      · have hne : o.objectType ≠ e.objectType := fun heq =>
          htypes.1 (heq ▸ List.mem_map_of_mem he)
        rw [if_neg hne, ih htypes.2 he]
    · rw [entries, List.takeWhile_cons_of_neg (by simpa using ho)] at he
      exact absurd he List.not_mem_nil

omit hfew in
theorem object_type {e : ObjectFunctions N} {o : ℕ × BitVec 32} (ho : o ∈ e.objects) :
    o.1 = e.objectType := by
  unfold ObjectFunctions.objects at ho
  split at ho
  · obtain ⟨i, -, rfl⟩ := List.mem_map.mp ho
    rfl
  · exact absurd ho List.not_mem_nil

omit hfew in
theorem named_eq (htypes : Distinct maxType table) : named maxType table =
    (objects maxType table).map fun o => (o, nameOf maxType table o) := by
  rw [named, objects, List.map_flatMap]
  refine List.flatMap_congr fun e he => List.map_congr_left fun o ho => ?_
  rw [nameOf, deviceObjectNameCopy, object_type ho, find_own htypes he]
  cases hname : e.objectName <;> simp [hname]

/-- The search for a name finds the first object of the list whose own function gives it.
The device takes the object for valid, if the functions of each type take those that they
number for valid. -/
theorem valid_object_name (h : Sound maxType table) (htypes : Distinct maxType table) :
    deviceValidObjectName maxType same table objectName =
        some (((named maxType table).find? fun p => p.2.any (same objectName)).map Prod.fst) ∧
      ((∀ e ∈ entries maxType table, ∀ o ∈ e.objects,
          e.validInstance.any (fun valid => valid o.2) = true) →
        ∀ o, deviceValidObjectName maxType same table objectName = some (some o) →
          deviceValidObjectId maxType table o.1 o.2 = some true) := by
  have hsearch := search_list hfew same objectName h
  refine ⟨?_, fun hvalid o ho => ?_⟩
  · rw [hsearch, named_eq htypes, List.find?_map, Option.map_map]
    exact congrArg some Option.map_id'.symm
  · rw [hsearch, Option.some.injEq] at ho
    obtain ⟨e, he, hmem⟩ := List.mem_flatMap.mp (List.mem_of_find?_eq_some ho)
    have hown := hvalid e he o hmem
    rw [deviceValidObjectId, object_type hmem, find_own htypes he]
    cases hcheck : e.validInstance <;> simp_all

end Names

end Listing

section Device

variable {N : Type}

/-- The static variables that clients can see change. -/
structure Statics (N : Type) where
  objectInstanceNumber : BitVec 32
  myObjectName : N
  databaseRevision : BitVec 32

/-- What the BACnet library says of numbers and of character strings; `copy` has the
destination before the source. -/
structure Names (N : Type) where
  maxType : ℕ
  objectDevice : ℕ
  device_lt : objectDevice < maxType
  maxInstance : BitVec 32
  same : N → N → Bool
  copy : N → N → Bool × N

variable (names : Names N)

/-- `Device_Count`, `Device_Index_To_Instance`, `Device_Valid_Object_Instance_Number` and
`Device_Object_Name` -/
def deviceEntry (s : Statics N) (buffer : N) : ObjectFunctions N where
  objectType := names.objectDevice
  count := some 1
  indexToInstance := some fun _ => s.objectInstanceNumber
  validInstance := some fun objectId => s.objectInstanceNumber = objectId
  objectName := some fun objectInstance =>
    if objectInstance = s.objectInstanceNumber then
      let (status, objectName) := names.copy buffer s.myObjectName
      if status then some objectName else none
    else none
  iterator := none

/-- `Object_Table`; a name is copied to `buffer`. -/
def objectTable (s : Statics N) (buffer : N) : List (ObjectFunctions N) :=
  [deviceEntry names s buffer, ⟨names.maxType, none, none, none, none, none⟩]

def deviceIncDatabaseRevision (s : Statics N) : Statics N :=
  { s with databaseRevision := s.databaseRevision+1 }

def deviceSetObjectInstanceNumber (objectId : BitVec 32) (s : Statics N) : Bool × Statics N :=
  if objectId ≤ names.maxInstance then
    (true, deviceIncDatabaseRevision { s with objectInstanceNumber := objectId })
  else (false, s)

def deviceSetObjectName (objectName : N) (s : Statics N) : Bool × Statics N :=
  if names.same s.myObjectName objectName = false then
    let (status, name) := names.copy s.myObjectName objectName
    (status, deviceIncDatabaseRevision { s with myObjectName := name })
  else (false, s)

inductive Setting (N : Type) where
  | instanceNumber (objectId : BitVec 32)
  | name (objectName : N)

def set (s : Statics N) : Setting N → Statics N
  | .instanceNumber objectId => (deviceSetObjectInstanceNumber names objectId s).2
  | .name objectName => (deviceSetObjectName names objectName s).2

theorem table_sound (s : Statics N) (buffer : N) :
    Sound names.maxType (objectTable names s buffer) where
  ends := ⟨_, List.mem_cons_of_mem _ List.mem_cons_self, le_refl _⟩
  numbered o ho n _ _ := by
    have hentries : entries names.maxType (objectTable names s buffer) =
        [deviceEntry names s buffer] := by
      simp [entries, objectTable, deviceEntry, names.device_lt]
    rw [hentries, List.mem_singleton] at ho
    exact ⟨fun _ => s.objectInstanceNumber, ho ▸ rfl⟩

end Device

section Plant

/-- A device with three inputs, which are numbered from the one before. -/
def plant : List (ObjectFunctions ℕ) := [
  ⟨8, some 1, some fun _ => 77, some fun i => i = 77, some fun _ => some 5, none⟩,
  ⟨0, some 3, some fun i => 100+i, some fun i => 100 ≤ i ∧ i < 103, some fun i => some i.toNat,
    some fun i => i+1⟩,
  ⟨1024, none, none, none, none, none⟩]

theorem plant_sound : Sound 1024 plant where
  ends := ⟨_, List.mem_cons_of_mem _ (List.mem_cons_of_mem _ List.mem_cons_self), le_refl _⟩
  numbered o ho n _ _ := by
    have hinstance : ∀ o ∈ entries 1024 plant, o.indexToInstance.isSome = true := by decide
    exact Option.isSome_iff_exists.mp (hinstance o ho)

/-- Numbers for names. -/
def numbers : Names ℕ where
  maxType := 1024
  objectDevice := 8
  device_lt := by decide
  maxInstance := 0x3fffff
  same m n := m = n
  copy _ n := (true, n)

/-- The table of the device itself, after a client has given it a number and a name. -/
def renamed : List (ObjectFunctions ℕ) :=
  objectTable numbers ([.instanceNumber 12, .name 7].foldl (set numbers) ⟨0, 0, 0⟩) 0

/-- The objects by one byte each. -/
def bytewise : Library Unit := ⟨5, fun n => [n.setWidth 8], fun _ i => [i.setWidth 8], fun _ => none⟩

theorem plant_read :
    deviceReadPropertyLocal 1024 bytewise plant 480 .objectList bacnetArrayAll =
        some (.encoded [77, 100, 101, 102]) ∧
      deviceReadPropertyLocal 1024 bytewise renamed 480 .objectList 1 = some (.encoded [12]) :=
  ⟨object_list_read (by decide) bytewise plant_sound (fun _ _ => rfl) 480 bacnetArrayAll,
    object_list_read (by decide) bytewise (table_sound numbers _ 0) (fun _ _ => rfl) 480 1⟩

theorem plant_searched :
    (deviceValidObjectName 1024 (fun m n => m = n) plant 101 = some (some (0, 101)) ∧
      deviceValidObjectId 1024 plant 0 101 = some true) ∧
    deviceValidObjectName 1024 (fun m n => m = n) renamed 7 = some (some (8, 12)) := by
  obtain ⟨hfound, hvalid⟩ := valid_object_name (by decide) (fun m n => decide (m = n)) 101
    plant_sound (by unfold Distinct; decide)
  exact ⟨⟨hfound, hvalid (by decide) (0, 101) hfound⟩,
    (valid_object_name (by decide) (fun m n => decide (m = n)) 7 (table_sound numbers _ 0)
      (by unfold Distinct; decide)).1⟩

end Plant

end RS485.ObjectList
