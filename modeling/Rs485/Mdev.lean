import Rs485.Records
import Rs485.Runs

/-!
# The table of device ids

`mdev.c` on the words of memory around its table, so that an index outside the
table reads and writes a neighbouring word. The purpose of the table is a finite
partial map from the ids 1 to 1023 to devices; the search may fail, its error
value is an index as well, and the range check has no lower end.
-/

set_option autoImplicit false

namespace RS485.Mdev
open RS485.Platform RS485.Records RS485.Runs

def rs485DeviceMaxNumbers : ℤ := 1024

structure Memory where
  /-- `rs485_device_table[i]`, for any `i` -/
  cell : ℤ → Option DevPtr
  /-- the indices written so far, latest first -/
  written : List ℤ

def store (m : Memory) (i : ℤ) (v : Option DevPtr) : Memory :=
  ⟨Function.update m.cell i v, i::m.written⟩

def checkId (id : ℤ) : Bool := if id ≥ rs485DeviceMaxNumbers then false else true

/-- The search loop at index `i`, with `left` rounds to go. -/
def findFrom (m : Memory) : ℕ → ℤ → ℤ
  | 0, _ => -EPERM
  | left+1, i => if m.cell i = none then i else findFrom m left (i+1)

def findNextDeviceId (m : Memory) : ℤ := findFrom m 1023 1

def getDeviceId (m : Memory) (device : Option DevPtr) : ℤ × Memory :=
  let id := findNextDeviceId m
  match device with
  | none => (-EPERM, m)
  | some d => (id, store m id (some d))

def freeDeviceId (m : Memory) (id : ℤ) : Memory :=
  if checkId id then store m id none else m

def getDeviceById (m : Memory) (id : ℤ) : Option DevPtr :=
  if checkId id then m.cell id else none

/-- An id a device can hold. -/
def IsId (i : ℤ) : Prop := 1 ≤ i ∧ i ≤ 1023

instance (i : ℤ) : Decidable (IsId i) := inferInstanceAs (Decidable (_ ∧ _))

theorem check_id_of_id {i : ℤ} (hi : IsId i) : checkId i = true := by
  have hlt : ¬i ≥ rs485DeviceMaxNumbers := by
    have := hi.2
    unfold rs485DeviceMaxNumbers
    omega
  simp [checkId, hlt]

theorem find_from_spec (m : Memory) (left : ℕ) (i : ℤ) :
    (i ≤ findFrom m left i ∧ findFrom m left i < i+left ∧ m.cell (findFrom m left i) = none ∧
        ∀ j, i ≤ j → j < findFrom m left i → m.cell j ≠ none) ∨
      (findFrom m left i = -EPERM ∧ ∀ j, i ≤ j → j < i+left → m.cell j ≠ none) := by
  induction left generalizing i with
  | zero => exact Or.inr ⟨rfl, fun j h1 h2 => by omega⟩
  | succ left ih =>
    unfold findFrom
    by_cases hi : m.cell i = none
    · simp only [hi, if_true]
      exact Or.inl ⟨le_refl i, by omega, trivial, fun j h1 h2 => by omega⟩
    · simp only [hi, if_false]
      have hstep : ∀ j, i ≤ j → ¬i+1 ≤ j → m.cell j ≠ none := by
        intro j h1 h2
        obtain rfl : j = i := by omega
        exact hi
      rcases ih (i+1) with ⟨h1, h2, h3, h4⟩ | ⟨h1, h2⟩
      · refine Or.inl ⟨by omega, by push_cast; omega, h3, fun j hj hlt => ?_⟩
        by_cases hle : i+1 ≤ j
        · exact h4 j hle hlt
        · exact hstep j hj hle
      · refine Or.inr ⟨h1, fun j hj hlt => ?_⟩
        by_cases hle : i+1 ≤ j
        · exact h2 j hle (by push_cast at hlt; omega)
        · exact hstep j hj hle

/-- The search returns the lowest free id, or its error when there is none. -/
theorem find_next_spec (m : Memory) :
    (IsId (findNextDeviceId m) ∧ m.cell (findNextDeviceId m) = none ∧
        ∀ j, IsId j → j < findNextDeviceId m → m.cell j ≠ none) ∨
      (findNextDeviceId m = -EPERM ∧ ∀ j, IsId j → m.cell j ≠ none) := by
  rcases find_from_spec m 1023 1 with ⟨h1, h2, h3, h4⟩ | ⟨h1, h2⟩
  · exact Or.inl ⟨⟨h1, by unfold findNextDeviceId; omega⟩, h3, fun j hj hlt => h4 j hj.1 hlt⟩
  · exact Or.inr ⟨h1, fun j hj => h2 j hj.1 (by have := hj.2; omega)⟩

/-- A partial map from ids to devices. -/
def IdMap := { f : ℤ → Option DevPtr // ∀ i, ¬IsId i → f i = none }

def IdMap.bind (f : IdMap) (i : ℤ) (hi : IsId i) (v : Option DevPtr) : IdMap :=
  ⟨Function.update f.1 i v, fun j hj => by
    have hne : j ≠ i := by
      rintro rfl
      exact hj hi
    rw [Function.update_of_ne hne]
    exact f.2 j hj⟩

/-- The map the table stands for. -/
def Memory.map (m : Memory) : IdMap :=
  ⟨fun i => if IsId i then m.cell i else none, fun _ hi => if_neg hi⟩

inductive Call where
  | getDeviceId (device : Option DevPtr)
  | freeDeviceId (id : ℤ)
  | getDeviceById (id : ℤ)

def call (m : Memory) : Call → Memory
  | .getDeviceId d => (getDeviceId m d).2
  | .freeDeviceId id => freeDeviceId m id
  | .getDeviceById _ => m

/-- What each call is for, on the partial map: the map before and after. -/
def Serves (m : Memory) (f f' : IdMap) : Call → Prop
  | .getDeviceId none => (getDeviceId m none).1 < 0 ∧ f' = f
  | .getDeviceId (some d) =>
    (∃ i, ∃ hi : IsId i, f.1 i = none ∧ (getDeviceId m (some d)).1 = i ∧
        f' = f.bind i hi (some d)) ∨
      (∀ i, IsId i → f.1 i ≠ none) ∧ (getDeviceId m (some d)).1 < 0 ∧ f' = f
  | .freeDeviceId id => (∀ hi : IsId id, f' = f.bind id hi none) ∧ (¬IsId id → f' = f)
  | .getDeviceById id => getDeviceById m id = f.1 id ∧ f' = f

/-- The words the call writes: only words of the table, and none when the table
is full or the id lies outside. -/
def Writes (m m' : Memory) (c : Call) : Prop :=
  ∃ ws, m'.written = ws++m.written ∧ (∀ i ∈ ws, 0 ≤ i ∧ i < rs485DeviceMaxNumbers) ∧
    match c with
    | .getDeviceId _ => (∀ i, IsId i → m.map.1 i ≠ none) → ws = []
    | .freeDeviceId id => ¬(0 ≤ id ∧ id < rs485DeviceMaxNumbers) → ws = []
    | .getDeviceById _ => ws = []

/-- The call behaves as an operation of the partial map. -/
def Conforms (m : Memory) (c : Call) (m' : Memory) : Prop :=
  Serves m m.map m'.map c ∧ Writes m m' c

/-- A new device finds a free id, and no id is below zero; a negative id may be
looked up where the word it hits is null. -/
def Admissible (m : Memory) : Call → Prop
  | .getDeviceId none => True
  | .getDeviceId (some _) => ∃ i, IsId i ∧ m.cell i = none
  | .freeDeviceId id => 0 ≤ id
  | .getDeviceById id => 0 ≤ id ∨ m.cell id = none

theorem map_apply (m : Memory) {i : ℤ} (hi : IsId i) : m.map.1 i = m.cell i := if_pos hi

theorem map_store (m : Memory) {i : ℤ} (hi : IsId i) (v : Option DevPtr) :
    (store m i v).map = m.map.bind i hi v := by
  apply Subtype.ext
  ext1 j
  by_cases hj : j = i
  · subst hj
    simp [Memory.map, IdMap.bind, store, hi]
  · simp [Memory.map, IdMap.bind, store, hj]

theorem map_store_outside (m : Memory) {i : ℤ} (hi : ¬IsId i) (v : Option DevPtr) :
    (store m i v).map = m.map := by
  apply Subtype.ext
  ext1 j
  by_cases hj : j = i
  · subst hj
    simp [Memory.map, hi]
  · simp [Memory.map, store, hj]

theorem get_conforms_iff (m : Memory) (d : DevPtr) :
    Conforms m (.getDeviceId (some d)) (call m (.getDeviceId (some d))) ↔
      Admissible m (.getDeviceId (some d)) := by
  rcases find_next_spec m with ⟨hid, hfree, -⟩ | ⟨herr, hfull⟩
  · have hmem : Admissible m (.getDeviceId (some d)) := ⟨_, hid, hfree⟩
    refine iff_of_true ⟨Or.inl ⟨_, hid, ?_, rfl, map_store m hid _⟩, [findNextDeviceId m], rfl, ?_, ?_⟩ hmem
    · rw [map_apply m hid, hfree]
    · intro i hi
      obtain rfl := List.mem_singleton.mp hi
      have := hid.1
      have := hid.2
      unfold rs485DeviceMaxNumbers
      omega
    · exact fun hall => absurd (map_apply m hid ▸ hfree) (hall _ hid)
  · refine iff_of_false ?_ fun ⟨i, hi, hnone⟩ => hfull i hi hnone
    rintro ⟨-, ws, hws, -, hfullws⟩
    have hnil : ws = [] := hfullws fun i hi => by rw [map_apply m hi]; exact hfull i hi
    subst hnil
    simp [call, getDeviceId, store] at hws

theorem free_conforms_iff (m : Memory) (id : ℤ) :
    Conforms m (.freeDeviceId id) (call m (.freeDeviceId id)) ↔
      Admissible m (.freeDeviceId id) := by
  by_cases hmax : id ≥ rs485DeviceMaxNumbers
  · have hnot : ¬IsId id := fun h => by have := h.2; unfold rs485DeviceMaxNumbers at hmax; omega
    have hcall : call m (.freeDeviceId id) = m := by simp [call, freeDeviceId, checkId, hmax]
    rw [hcall]
    refine iff_of_true ⟨⟨fun h => absurd h hnot, fun _ => rfl⟩, [], rfl, by simp, fun _ => rfl⟩ ?_
    unfold rs485DeviceMaxNumbers at hmax
    exact show 0 ≤ id by omega
  · have hcall : call m (.freeDeviceId id) = store m id none := by
      simp [call, freeDeviceId, checkId, hmax]
    rw [hcall]
    constructor
    · rintro ⟨-, ws, hws, hin, -⟩
      have hsingle : ws = [id] := List.append_cancel_right hws.symm
      exact (hin id (by simp [hsingle])).1
    · intro hge
      refine ⟨⟨fun h => map_store m h none, fun h => map_store_outside m h none⟩, [id], rfl, ?_, ?_⟩
      · intro i hi
        obtain rfl := List.mem_singleton.mp hi
        exact ⟨hge, by omega⟩
      · exact fun h => absurd ⟨hge, by omega⟩ h

theorem by_id_conforms_iff (m : Memory) (h0 : m.cell 0 = none) (id : ℤ) :
    Conforms m (.getDeviceById id) (call m (.getDeviceById id)) ↔
      Admissible m (.getDeviceById id) := by
  have hreads : getDeviceById m id = m.map.1 id ↔ 0 ≤ id ∨ m.cell id = none := by
    by_cases hid : IsId id
    · have := hid.1
      exact iff_of_true (by simp [getDeviceById, check_id_of_id hid, map_apply m hid]) (by omega)
    · have hmap : m.map.1 id = none := m.map.2 id hid
      rw [hmap]
      by_cases hmax : id ≥ rs485DeviceMaxNumbers
      · have : 0 ≤ id := by unfold rs485DeviceMaxNumbers at hmax; omega
        exact iff_of_true (by simp [getDeviceById, checkId, hmax]) (Or.inl this)
      · simp only [getDeviceById, checkId, hmax, if_false, if_true]
        constructor
        · exact Or.inr
        · rintro (hge | hnone)
          · obtain rfl : id = 0 := by
              unfold IsId at hid
              unfold rs485DeviceMaxNumbers at hmax
              omega
            exact h0
          · exact hnone
  constructor
  · exact fun h => hreads.mp h.1.1
  · exact fun h => ⟨⟨hreads.mpr h, rfl⟩, [], rfl, by simp, rfl⟩

/-- Slot zero stays empty: the search starts at one. -/
theorem call_slot_zero (m : Memory) (h0 : m.cell 0 = none) (c : Call) :
    (call m c).cell 0 = none := by
  cases c with
  | getDeviceId d =>
    cases d with
    | none => exact h0
    | some d =>
      have hne : (0 : ℤ) ≠ findNextDeviceId m := by
        rcases find_next_spec m with ⟨hid, -⟩ | ⟨herr, -⟩
        · have := hid.1
          omega
        · rw [herr]
          decide
      simp [call, getDeviceId, store, Function.update_of_ne hne, h0]
  | freeDeviceId id =>
    simp only [call, freeDeviceId]
    split_ifs
    · by_cases hid : (0 : ℤ) = id
      · simp [store, ← hid]
      · simp [store, Function.update_of_ne hid, h0]
    · exact h0
  | getDeviceById id => exact h0

theorem conforms_iff (m : Memory) (h0 : m.cell 0 = none) (c : Call) :
    Conforms m c (call m c) ↔ Admissible m c := by
  cases c with
  | getDeviceId d =>
    cases d with
    | none => exact iff_of_true ⟨⟨eperm_neg, rfl⟩, [], rfl, by simp, fun _ => rfl⟩ trivial
    | some d => exact get_conforms_iff m d
  | freeDeviceId id => exact free_conforms_iff m id
  | getDeviceById id => exact by_id_conforms_iff m h0 id

def step (m : Memory) (c : Call) : Option Memory := some (call m c)

/-- Every call of a run serves the partial map exactly when every call of the
run is admissible where it is made. -/
theorem id_registry_exact (m : Memory) (h0 : m.cell 0 = none) (calls : List Call) :
    EveryStep step Conforms m calls ↔ EveryStep step (fun m c _ => Admissible m c) m calls := by
  have hinv : ∀ s c t, s.cell 0 = none → step s c = some t → t.cell 0 = none := by
    intro s c t hs ht
    obtain rfl := Option.some.inj ht
    exact call_slot_zero s hs c
  have hexact : ∀ s c t, s.cell 0 = none → True → step s c = some t →
      (Conforms s c t ↔ Admissible s c) := by
    intro s c t hs _ ht
    obtain rfl := Option.some.inj ht
    exact conforms_iff s hs c
  exact exact_run Conforms hinv (fun _ _ _ _ _ _ _ => trivial) hexact m h0 trivial calls

def emptyTable : Memory := ⟨fun _ => none, []⟩

theorem one_device_comes_and_goes :
    EveryStep step Conforms emptyTable
      [.getDeviceId (some 7), .getDeviceById 1, .freeDeviceId 1, .getDeviceById (-3)] := by
  apply (id_registry_exact emptyTable rfl _).mpr
  intro t ht
  refine ⟨⟨1, by decide, rfl⟩, ?_⟩
  obtain rfl := Option.some.inj ht
  intro t ht
  refine ⟨Or.inl (by decide), ?_⟩
  obtain rfl := Option.some.inj ht
  intro t ht
  refine ⟨show (0 : ℤ) ≤ 1 by decide, ?_⟩
  obtain rfl := Option.some.inj ht
  intro t ht
  exact ⟨Or.inr (by decide), trivial⟩

/-- `rs485_device_table[-1]` is written by the check that has no lower end. -/
theorem negative_id_is_freed : ¬EveryStep step Conforms emptyTable [.freeDeviceId (-1)] := by
  intro h
  have hconf := (h _ rfl).1
  have hge : (0 : ℤ) ≤ -1 := (free_conforms_iff emptyTable (-1)).mp hconf
  omega

end RS485.Mdev
