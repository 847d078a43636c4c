import Rs485.Records
import Rs485.Runs

/-!
# What a BACnet read asks for

`memcpy_read_args` and `bacnet_read_property` of `read_property.c`. The list of
objects is linked through static arrays, and is written by the first call only.
The size of the arrays is a parameter, and a call answers as the table of
addresses does.
-/

set_option autoImplicit false

namespace RS485.ReadAccess
open RS485.Platform RS485.Records RS485.Runs

section Links

/-- The indices on a chain, at most `fuel` of them. -/
def links (next : ℕ → Option ℕ) : ℕ → Option ℕ → List ℕ
  | 0, _ => []
  | _+1, none => []
  | fuel+1, some i => i::links next fuel (next i)

theorem links_none (next : ℕ → Option ℕ) (fuel : ℕ) : links next fuel none = [] := by
  cases fuel <;> rfl

/-- Cells that each point to the next one are all on the chain, in order. -/
theorem links_range {next : ℕ → Option ℕ} {n : ℕ}
    (h : ∀ i < n, next i = if i+1 < n then some (i+1) else none) {fuel i : ℕ} (hi : i < n)
    (hfuel : n-i ≤ fuel) : links next fuel (some i) = List.range' i (n-i) := by
  induction fuel generalizing i with
  | zero => omega
  | succ fuel ih =>
    have hlen : n-i = n-(i+1)+1 := by omega
    rw [links, h i hi, hlen, List.range'_succ]
    split_ifs with hnext
    · rw [ih hnext (by omega)]
    · rw [links_none, show n-(i+1) = 0 by omega]
      rfl

end Links

section Model

/-- `bacnet_read_args_t` -/
structure ReadArgs where
  deviceId : BitVec 32
  objectNumbers : ℤ
  objectType : ℕ → ℤ
  objectInstance : ℕ → ℤ
  objectProperty : ℕ → ℤ

/-- `BACNET_READ_ACCESS_DATA`, with indices for pointers. -/
structure AccessData where
  objectType : ℤ
  objectInstance : ℤ
  listOfProperties : Option ℕ
  next : Option ℕ

/-- `BACNET_PROPERTY_REFERENCE` -/
structure PropertyReference where
  propertyIdentifier : ℤ
  propertyArrayIndex : BitVec 32
  next : Option ℕ

/-- The static variables, and the one of `memcpy_read_args`. -/
structure Statics where
  readAccessData : ℕ → AccessData
  readAccessDataProperty : ℕ → PropertyReference
  init : Bool

def initialStatics : Statics := ⟨fun _ => ⟨0, 0, none, none⟩, fun _ => ⟨0, 0, none⟩, false⟩

def bacnetArrayAll : BitVec 32 := 0xFFFFFFFF

/-- One pass of the loop. -/
def fillEntry (args : ReadArgs) (s : Statics) (i : ℕ) : Statics :=
  { s with
    readAccessData := Function.update s.readAccessData i
      ⟨args.objectType i, args.objectInstance i, some i,
        if (i : ℤ) < args.objectNumbers-1 then some (i+1) else none⟩
    readAccessDataProperty := Function.update s.readAccessDataProperty i
      ⟨args.objectProperty i, bacnetArrayAll, none⟩ }

def fill (args : ReadArgs) (s : Statics) : Statics :=
  { (List.range args.objectNumbers.toNat).foldl (fillEntry args) s with init := true }

/-- The arrays have `max` entries, and a loop past them has no result. -/
def memcpyReadArgs (max : ℕ) (args : ReadArgs) (s : Statics) : Option (ℤ × Statics) :=
  if args.objectNumbers ≤ 0 ∧ max ≤ args.objectNumbers then some (-1, s)
  else if s.init then some (0, s)
  else if max < args.objectNumbers then none
  else some (0, fill args s)

/-- An object of a request, with the properties it is asked for. -/
structure Element where
  objectType : ℤ
  objectInstance : ℤ
  properties : List (ℤ × BitVec 32)
  deriving DecidableEq

/-- What the stack finds from the first entry on. -/
def accessList (max : ℕ) (s : Statics) : List Element :=
  (links (fun i => (s.readAccessData i).next) max (some 0)).map fun i =>
    ⟨(s.readAccessData i).objectType, (s.readAccessData i).objectInstance,
      (links (fun j => (s.readAccessDataProperty j).next) max
          (s.readAccessData i).listOfProperties).map fun j =>
        ((s.readAccessDataProperty j).propertyIdentifier,
          (s.readAccessDataProperty j).propertyArrayIndex)⟩

structure Request where
  deviceId : BitVec 32
  objects : List Element
  deriving DecidableEq

/-- A call, and whether the address of its device is found. -/
structure Call where
  args : ReadArgs
  found : Bool

def bacnetReadProperty (max : ℕ) (c : Call) (s : Statics) :
    Option (ℤ × Option Request × Statics) := do
  let (_, s) ← memcpyReadArgs max c.args s
  if c.found then some (0, some ⟨c.args.deviceId, accessList max s⟩, s)
  else some (-1, none, s)

def step (max : ℕ) (s : Statics) (c : Call) : Option Statics :=
  (bacnetReadProperty max c s).map fun r => r.2.2

end Model

section Spec

/-- The objects the arguments of a call name. -/
def named (args : ReadArgs) : List Element :=
  (List.range args.objectNumbers.toNat).map fun i =>
    ⟨args.objectType i, args.objectInstance i, [(args.objectProperty i, bacnetArrayAll)]⟩

def InRange (max : ℕ) (args : ReadArgs) : Prop :=
  1 ≤ args.objectNumbers ∧ args.objectNumbers ≤ max

/-- After other calls, a call in range for a device that is found asks for its own
objects, and one out of range sends nothing and fails. -/
def Exact (max : ℕ) (history : List Call) (c : Call) : Prop :=
  ∃ s, run (step max) initialStatics history = some s ∧
    (InRange max c.args → c.found = true → ∃ ret t,
      bacnetReadProperty max c s = some (ret, some ⟨c.args.deviceId, named c.args⟩, t)) ∧
    (¬InRange max c.args → ∃ ret t, bacnetReadProperty max c s = some (ret, none, t) ∧ ret < 0)

/-- The very first call did not pass the arrays and named the same objects, and a
call out of range is for a device that is not found. -/
structure Repeats (max : ℕ) (history : List Call) (c : Call) : Prop where
  first : ∀ c₀, history.head? = some c₀ → c₀.args.objectNumbers ≤ max
  inside : InRange max c.args → c.found = true →
    ∀ c₀, history.head? = some c₀ → named c₀.args = named c.args
  outside : ¬InRange max c.args → c.found = false ∧ (c.args.objectNumbers ≤ 0 ∨ history ≠ [])

end Spec

section Filled

variable {max : ℕ} (args : ReadArgs)

theorem filled_entry (s : Statics) (n i : ℕ) :
    ((List.range n).foldl (fillEntry args) s).readAccessData i =
        (if i < n then ⟨args.objectType i, args.objectInstance i, some i,
          if (i : ℤ) < args.objectNumbers-1 then some (i+1) else none⟩ else s.readAccessData i) ∧
      ((List.range n).foldl (fillEntry args) s).readAccessDataProperty i =
        if i < n then ⟨args.objectProperty i, bacnetArrayAll, none⟩
        else s.readAccessDataProperty i := by
  induction n with
  | zero => exact ⟨rfl, rfl⟩
  | succ n ih =>
    rw [List.range_succ, List.foldl_append, List.foldl_cons, List.foldl_nil]
    by_cases hi : i = n
    · subst hi
      simp [fillEntry]
    · simp only [fillEntry, Function.update_of_ne hi, ih, Nat.lt_succ_iff_lt_or_eq, hi, or_false]
      exact ⟨trivial, trivial⟩

/-- The list a call in range fills is the one its arguments name. -/
theorem filled_list (s : Statics) (h : InRange max args) :
    accessList max (fill args s) = named args := by
  obtain ⟨hlow, hhigh⟩ := h
  obtain ⟨n, hn⟩ : ∃ n : ℕ, args.objectNumbers = n := ⟨_, (Int.toNat_of_nonneg (by omega)).symm⟩
  have hcount : args.objectNumbers.toNat = n := by omega
  have hentry : ∀ i < n, (fill args s).readAccessData i =
        ⟨args.objectType i, args.objectInstance i, some i,
          if (i : ℤ) < args.objectNumbers-1 then some (i+1) else none⟩ ∧
      (fill args s).readAccessDataProperty i =
        ⟨args.objectProperty i, bacnetArrayAll, none⟩ := by
    intro i hi
    have hfilled := filled_entry args s n i
    rw [if_pos hi, if_pos hi] at hfilled
    rw [fill, hcount]
    exact hfilled
  have hnext : ∀ i < n, ((fill args s).readAccessData i).next =
      if i+1 < n then some (i+1) else none := by
    intro i hi
    rw [(hentry i hi).1]
    simp only
    split_ifs <;> first | rfl | omega
  have hchain : links (fun i => ((fill args s).readAccessData i).next) max (some 0) =
      List.range' 0 (n-0) := links_range hnext (by omega) (by omega)
  rw [accessList, hchain, named, hcount, List.range_eq_range']
  apply List.map_congr_left
  intro i hi
  have hin : i < n := by
    have := List.mem_range'_1.mp hi
    omega
  obtain ⟨hdata, hproperty⟩ := hentry i hin
  obtain ⟨fuel, rfl⟩ : ∃ fuel, max = fuel+1 := ⟨max-1, by omega⟩
  rw [hdata]
  simp only [links, hproperty, links_none, List.map_cons, List.map_nil]

/-- A call without objects leaves an entry of zeros. -/
theorem unfilled_list (hmax : 0 < max) (h : args.objectNumbers ≤ 0) :
    accessList max (fill args initialStatics) = [⟨0, 0, []⟩] := by
  obtain ⟨fuel, rfl⟩ : ∃ fuel, max = fuel+1 := ⟨max-1, by omega⟩
  have hcount : args.objectNumbers.toNat = 0 := by omega
  rw [fill, hcount]
  simp only [accessList, List.range_zero, List.foldl_nil, links, initialStatics, links_none]
  rfl

/-- What the first call has filled is what another one names if they name the same. -/
theorem first_list_iff {other : ReadArgs} (hmax : 0 < max) (h : args.objectNumbers ≤ max)
    (hother : InRange max other) :
    accessList max (fill args initialStatics) = named other ↔ named args = named other := by
  by_cases hlow : 1 ≤ args.objectNumbers
  · rw [filled_list args initialStatics ⟨hlow, h⟩]
  · obtain ⟨n, hn⟩ : ∃ n : ℕ, other.objectNumbers.toNat = n+1 :=
      ⟨other.objectNumbers.toNat-1, by have := hother.1; omega⟩
    have hnone : args.objectNumbers.toNat = 0 := by omega
    have hsome : named other =
        ⟨other.objectType 0, other.objectInstance 0, [(other.objectProperty 0, bacnetArrayAll)]⟩::
          (List.range n).map fun i => ⟨other.objectType (i+1), other.objectInstance (i+1),
            [(other.objectProperty (i+1), bacnetArrayAll)]⟩ := by
      rw [named, hn, List.range_succ_eq_map, List.map_cons, List.map_map]
      rfl
    rw [unfilled_list args hmax (by omega), hsome, named, hnone]
    simp

end Filled

section Calls

variable {max : ℕ} (hmax : 0 < max)

include hmax in
/-- No number is at most 0 and at least the size, and none is turned away. -/
theorem memcpy_eq (args : ReadArgs) (s : Statics) : memcpyReadArgs max args s =
    if s.init then some (0, s) else if max < args.objectNumbers then none
    else some (0, fill args s) := by
  unfold memcpyReadArgs
  rw [if_neg (by omega)]

/-- A call that does not pass the arrays sends the list it leaves, if the device is found. -/
theorem read_eq {c : Call} {s t : Statics}
    (hcopy : memcpyReadArgs max c.args s = some (0, t)) : bacnetReadProperty max c s =
      if c.found then some (0, some ⟨c.args.deviceId, accessList max t⟩, t)
      else some (-1, none, t) := by
  rw [bacnetReadProperty, hcopy]
  rfl

theorem step_eq {c : Call} {s t : Statics}
    (hcopy : memcpyReadArgs max c.args s = some (0, t)) : step max s c = some t := by
  rw [step, read_eq hcopy]
  split_ifs <;> rfl

include hmax in
/-- Once the list is there no call changes it. -/
theorem run_filled {s : Statics} (h : s.init = true) (history : List Call) :
    run (step max) s history = some s := by
  induction history with
  | nil => rfl
  | cons c history ih =>
    have hcopy : memcpyReadArgs max c.args s = some (0, s) := by
      rw [memcpy_eq hmax, if_pos h]
    rw [run, step_eq hcopy]
    exact ih

include hmax in
theorem run_first {c₀ : Call} (h : c₀.args.objectNumbers ≤ max) (history : List Call) :
    run (step max) initialStatics (c₀::history) = some (fill c₀.args initialStatics) := by
  have hcopy : memcpyReadArgs max c₀.args initialStatics =
      some (0, fill c₀.args initialStatics) := by
    rw [memcpy_eq hmax, if_neg (by decide), if_neg (by omega)]
  rw [run, step_eq hcopy]
  exact run_filled hmax rfl history

include hmax in
theorem run_past {c₀ : Call} (h : max < c₀.args.objectNumbers) (history : List Call) :
    run (step max) initialStatics (c₀::history) = none := by
  have hcopy : memcpyReadArgs max c₀.args initialStatics = none := by
    rw [memcpy_eq hmax, if_neg (by decide), if_pos h]
  rw [run, step, bacnetReadProperty, hcopy]
  rfl

end Calls

section Exactness

variable {max : ℕ} {c : Call}

/-- A call after which the list is `t` is judged by that list. -/
theorem exact_of_copy {history : List Call} {s t : Statics}
    (hrun : run (step max) initialStatics history = some s)
    (hcopy : memcpyReadArgs max c.args s = some (0, t)) :
    Exact max history c ↔
      (InRange max c.args → c.found = true → accessList max t = named c.args) ∧
        (¬InRange max c.args → c.found = false) := by
  have hread := read_eq hcopy
  constructor
  · rintro ⟨s', hrun', hinside, houtside⟩
    obtain rfl := Option.some.inj (hrun.symm.trans hrun')
    constructor
    · intro hrange hfound
      obtain ⟨ret, t', hsent⟩ := hinside hrange hfound
      rw [hread, if_pos hfound] at hsent
      simp only [Option.some.injEq, Prod.mk.injEq, Request.mk.injEq, true_and] at hsent
      exact hsent.2.1
    · intro hrange
      obtain ⟨ret, t', hsent, -⟩ := houtside hrange
      by_contra hfound
      rw [hread, if_pos (Bool.eq_true_of_not_eq_false hfound)] at hsent
      simp at hsent
  · rintro ⟨hinside, houtside⟩
    refine ⟨s, hrun, ?_, ?_⟩
    · intro hrange hfound
      rw [hread, if_pos hfound, hinside hrange hfound]
      exact ⟨_, _, rfl⟩
    · intro hrange
      rw [hread, if_neg (by simp [houtside hrange])]
      exact ⟨_, _, rfl, by decide⟩

theorem exact_first (hmax : 0 < max) : Exact max [] c ↔
    (¬InRange max c.args → c.found = false ∧ c.args.objectNumbers ≤ 0) := by
  by_cases hpast : max < c.args.objectNumbers
  · have hcopy : memcpyReadArgs max c.args initialStatics = none := by
      rw [memcpy_eq hmax, if_neg (by decide), if_pos hpast]
    have hrange : ¬InRange max c.args := fun h => absurd h.2 (not_le.mpr hpast)
    constructor
    · rintro ⟨s, hrun, -, houtside⟩
      obtain rfl := Option.some.inj (show some initialStatics = some s from hrun)
      obtain ⟨ret, t, hsent, -⟩ := houtside hrange
      rw [bacnetReadProperty, hcopy] at hsent
      cases hsent
    · intro h
      have := (h hrange).2
      omega
  · have hcopy : memcpyReadArgs max c.args initialStatics =
        some (0, fill c.args initialStatics) := by
      rw [memcpy_eq hmax, if_neg (by decide), if_neg hpast]
    rw [exact_of_copy rfl hcopy]
    constructor
    · intro h hrange
      refine ⟨h.2 hrange, ?_⟩
      by_contra hlow
      exact hrange ⟨by omega, by omega⟩
    · exact fun h => ⟨fun hrange _ => filled_list c.args initialStatics hrange,
        fun hrange => (h hrange).1⟩

theorem exact_later (hmax : 0 < max) (c₀ : Call) (history : List Call) :
    Exact max (c₀::history) c ↔ c₀.args.objectNumbers ≤ max ∧
      (InRange max c.args → c.found = true → named c₀.args = named c.args) ∧
      (¬InRange max c.args → c.found = false) := by
  by_cases hpast : max < c₀.args.objectNumbers
  · constructor
    · rintro ⟨s, hrun, -⟩
      rw [run_past hmax hpast] at hrun
      cases hrun
    · exact fun h => absurd h.1 (not_le.mpr hpast)
  · have hfirst := not_lt.mp hpast
    have hcopy : memcpyReadArgs max c.args (fill c₀.args initialStatics) =
        some (0, fill c₀.args initialStatics) := by
      rw [memcpy_eq hmax]
      exact if_pos rfl
    rw [exact_of_copy (run_first hmax hfirst history) hcopy, and_iff_right hfirst]
    apply and_congr_left
    intro _
    apply forall_congr'
    intro hrange
    rw [first_list_iff c₀.args hmax hfirst hrange]

/-- A read asks for its own objects, and is refused out of range, exactly if the very
first read named the same objects, and no device is found for a number out of range. -/
theorem reads_own_objects_iff (max : ℕ+) (history : List Call) (c : Call) :
    Exact max history c ↔ Repeats max history c := by
  cases history with
  | nil =>
    rw [exact_first max.pos]
    constructor
    · intro h
      exact ⟨by simp, by simp, fun hrange => ⟨(h hrange).1, Or.inl (h hrange).2⟩⟩
    · intro h hrange
      exact ⟨(h.outside hrange).1, (h.outside hrange).2.resolve_right (by simp)⟩
  | cons c₀ history =>
    rw [exact_later max.pos]
    constructor
    · rintro ⟨hfirst, hinside, houtside⟩
      constructor
      · rintro _ ⟨⟩
        exact hfirst
      · rintro hrange hfound _ ⟨⟩
        exact hinside hrange hfound
      · exact fun hrange => ⟨houtside hrange, Or.inr (by simp)⟩
    · intro h
      exact ⟨h.first c₀ rfl, fun hrange hfound => h.inside hrange hfound c₀ rfl,
        fun hrange => (h.outside hrange).1⟩

/-- A call for the present value of one object of a device. -/
def oneObject (objectInstance : ℤ) : Call :=
  ⟨⟨10001, 1, fun _ => 2, fun _ => objectInstance, fun _ => 85⟩, true⟩

/-- After a read of the object 0 a read of the object 1 asks for the object 0, and a
read of no objects is sent. -/
theorem second_read_stale :
    (run (step 4) initialStatics [oneObject 0]).bind
        (fun s => (bacnetReadProperty 4 (oneObject 1) s).bind fun r => r.2.1) =
      some ⟨10001, [⟨2, 0, [(85, bacnetArrayAll)]⟩]⟩ ∧
      ¬Exact 4 [oneObject 0] (oneObject 1) ∧
      ¬Exact 4 [] ⟨{ (oneObject 0).args with objectNumbers := 0 }, true⟩ := by
  refine ⟨by decide, ?_, ?_⟩
  · rw [exact_later (by decide)]
    intro h
    exact absurd (h.2.1 ⟨by decide, by decide⟩ rfl) (by decide)
  · rw [exact_first (by decide)]
    intro h
    exact absurd (h (fun hrange => absurd hrange.1 (by decide))).1 (by decide)

end Exactness

end RS485.ReadAccess
