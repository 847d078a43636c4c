import Rs485.York

/-!
# The requests to the York boxes

What a message with one of the setters makes the stack send, against the row of
the table that is meant for its method. The value of a request is never filled
in, so that a request that is sent carries none.
-/

set_option autoImplicit false

namespace RS485.Requests
open RS485.Platform RS485.Records RS485.York

/-- The writes made before, each with the answers of the stack. -/
def statics (history : List (Stack × WriteArgs)) : Statics :=
  history.foldl (fun s call => (bacnetWriteProperty call.1 call.2 s).2.2) initialStatics

/-- The row of the table for a method, by the comments of the table. -/
def rowOf (method : ℤ) : Option Row :=
  if 18 ≤ method ∧ method ≤ 30 then some (row (method - 18))
  else if 41 ≤ method ∧ method ≤ 44 then some (row (method - 41 + 16))
  else if 51 ≤ method ∧ method ≤ 54 then some (row (method - 51 + 20))
  else if 61 ≤ method ∧ method ≤ 65 then some (row (method - 61 + 24))
  else if 71 ≤ method ∧ method ≤ 72 then some (row (method - 71 + 29))
  else none

def assignedInstance (mac : Byte) : Option ℕ :=
  if 0x11 ≤ mac.toNat ∧ mac.toNat ≤ 0x1f then some (10001+(mac.toNat-0x11)) else none

def Content.number : Content → Option ℚ
  | .null => none
  | .unsignedInt value => some value
  | .real value => some value
  | .enumerated value => some value

/-- The request is one to the device for the row, and its value decodes to that
of the row. -/
structure Carries (r : WriteRequest) (deviceInstance : ℕ) (row : Row) : Prop where
  device : r.deviceId.toNat = deviceInstance
  objectType : r.objectType = row.objectType
  objectInstance : r.objectInstance = row.objectInstance
  property : r.objectProperty = row.property
  priority : r.priority = row.priority
  index : r.arrayIndex = BitVec.ofInt 32 row.index
  value : Content.number r.value.content = some (row.value : ℚ)

section Delivery

variable (setter : Setter) (stack : Stack) (s : Statics) (handle : PortHandle)

def requests : List WriteRequest := (bacnetWork setter stack handle s).2.1

/-- The message fails and nothing is sent, or it is sent as asked for. -/
def Arrives : Prop :=
  ((bacnetWork setter stack handle s).1 < 0 ∧ requests setter stack s handle = []) ∨
    ∃ deviceInstance row, assignedInstance handle.mac = some deviceInstance ∧
      rowOf handle.method = some row ∧ requests setter stack s handle ≠ [] ∧
      ∀ r ∈ requests setter stack s handle, Carries r deviceInstance row

/-- A method with another row leads to other requests. -/
def Apart : Prop :=
  ∀ method row row', rowOf handle.method = some row → rowOf method = some row' → row ≠ row' →
    ∀ r ∈ requests setter stack s handle,
      r ∉ requests setter stack s { handle with method := method }

def Delivered : Prop := Arrives setter stack s handle ∧ Apart setter stack s handle

end Delivery

/-- The number under which the stack looks for the device. -/
def deviceId (mac : Byte) : BitVec 32 := BitVec.ofInt 32 (getAirYorkInstance mac)

section Statics

/-- Between two calls no request is open, and the value is the null it was at first. -/
def Unfilled (s : Statics) : Prop := s.requestInvokeId = 0 ∧ s.target.content = .null

theorem write_unfilled (stack : Stack) (args : WriteArgs) {s : Statics} (hs : Unfilled s) :
    Unfilled (bacnetWriteProperty stack args s).2.2 := by
  unfold bacnetWriteProperty
  simp only
  split_ifs
  all_goals first | exact ⟨hs.1, hs.2⟩ | exact ⟨rfl, hs.2⟩

theorem statics_unfilled (history : List (Stack × WriteArgs)) : Unfilled (statics history) := by
  suffices h : ∀ s, Unfilled s →
      Unfilled (history.foldl (fun s call => (bacnetWriteProperty call.1 call.2 s).2.2) s) from
    h initialStatics ⟨rfl, rfl⟩
  induction history with
  | nil => exact fun s hs => hs
  | cons call history ih =>
    intro s hs
    exact ih _ (write_unfilled call.1 call.2 hs)

theorem rounds_requests (stack : Stack) (request : WriteRequest) (left : ℕ) (r : Rounds)
    (h : ∀ x ∈ r.requests, x = request) :
    ∀ x ∈ (writeRounds stack request left r).requests, x = request := by
  induction left generalizing r with
  | zero => exact h
  | succ left ih =>
    unfold writeRounds
    split_ifs
    · apply ih
      intro x hx
      rcases List.mem_append.mp hx with hx | hx
      · exact h x hx
      · exact List.mem_singleton.mp hx
    · exact h
    · exact h
    · exact ih r h

theorem rounds_keep (stack : Stack) (request : WriteRequest) (left : ℕ) (r : Rounds)
    (h : r.requests ≠ []) : (writeRounds stack request left r).requests ≠ [] := by
  induction left generalizing r with
  | zero => exact h
  | succ left ih =>
    unfold writeRounds
    split_ifs
    · exact ih _ (by simp)
    · exact h
    · exact h
    · exact ih r h

end Statics

section Setters

theorem setter_eq (setter : Setter) (handle : PortHandle) :
    setter.sendHandle handle = yorkKelongSet handle := by
  cases setter <;> rfl

theorem unsupported {method : ℤ} (h : rowOf method = none) (args : WriteArgs) (id : BitVec 32) :
    getAirYorkWriteArgs args id method = (-EPERM, args) := by
  unfold rowOf at h
  unfold getAirYorkWriteArgs
  split_ifs at h ⊢
  rfl

/-- The device id is written in every group. -/
theorem supported {method : ℤ} (h : rowOf method ≠ none) (args : WriteArgs) (id : BitVec 32) :
    (getAirYorkWriteArgs args id method).1 = 0 ∧
      (getAirYorkWriteArgs args id method).2.deviceId = id := by
  unfold rowOf at h
  unfold getAirYorkWriteArgs
  split_ifs at h ⊢ <;> first | exact ⟨rfl, rfl⟩ | exact absurd rfl h

variable (setter : Setter) (stack : Stack) {s : Statics} {handle : PortHandle}

theorem work_unsupported (h : rowOf handle.method = none) :
    bacnetWork setter stack handle s = (-EPERM, [], s) := by
  unfold bacnetWork
  rw [setter_eq]
  simp only [yorkKelongSet, unsupported h]
  rfl

theorem work_unbound (h : stack.addressBindRequest (deviceId handle.mac) = false) :
    (bacnetWork setter stack handle s).1 < 0 ∧ requests setter stack s handle = [] := by
  by_cases hrow : rowOf handle.method = none
  · unfold requests
    rw [work_unsupported setter stack hrow]
    exact ⟨eperm_neg, rfl⟩
  · have hset (args : WriteArgs) := supported hrow args (deviceId handle.mac)
    unfold requests bacnetWork
    rw [setter_eq]
    simp only [yorkKelongSet, deviceId] at hset h ⊢
    simp only [(hset _).1, lt_irrefl, if_false, bacnetWriteProperty, (hset _).2, h, if_true]
    exact ⟨by decide, trivial⟩

/-- A message for a device that is found is sent with a null value. -/
theorem work_bound (hs : Unfilled s) (hrow : rowOf handle.method ≠ none)
    (h : stack.addressBindRequest (deviceId handle.mac) = true) :
    requests setter stack s handle ≠ [] ∧
      ∀ r ∈ requests setter stack s handle, r.value.content = .null := by
  have hset (args : WriteArgs) := supported hrow args (deviceId handle.mac)
  unfold requests bacnetWork
  rw [setter_eq]
  simp only [yorkKelongSet, deviceId] at hset h ⊢
  simp only [(hset _).1, lt_irrefl, if_false, bacnetWriteProperty, (hset _).2, h,
    Bool.true_eq_false]
  constructor
  · rw [writeRounds, if_pos hs.1]
    exact rounds_keep stack _ 1 _ (by simp)
  · intro r hr
    rw [rounds_requests stack _ 2 _ (by simp) r hr]
    unfold York.requestOf
    simp only
    split_ifs <;> exact hs.2

/-- Whatever was written before, a message is delivered if and only if nothing
is sent for it: its method is not supported or the device is not found. -/
theorem york_delivered_iff (history : List (Stack × WriteArgs)) (setter : Setter) (stack : Stack)
    (handle : PortHandle) : Delivered setter stack (statics history) handle ↔
      rowOf handle.method = none ∨ stack.addressBindRequest (deviceId handle.mac) = false := by
  constructor
  · rintro ⟨harrives, -⟩
    by_contra hsent
    push Not at hsent
    obtain ⟨hrow, hbound⟩ := hsent
    obtain ⟨hsome, hnull⟩ := work_bound setter stack (statics_unfilled history) hrow
      (Bool.eq_true_of_not_eq_false hbound)
    rcases harrives with ⟨-, hnone⟩ | ⟨deviceInstance, row, -, -, -, hcarries⟩
    · exact hsome hnone
    · obtain ⟨r, hr⟩ := List.exists_mem_of_ne_nil _ hsome
      have hvalue := (hcarries r hr).value
      rw [hnull r hr] at hvalue
      exact absurd hvalue (by simp [Content.number])
  · intro h
    have hnone : (bacnetWork setter stack handle (statics history)).1 < 0 ∧
        requests setter stack (statics history) handle = [] := by
      rcases h with hrow | hunbound
      · unfold requests
        rw [work_unsupported setter stack hrow]
        exact ⟨eperm_neg, rfl⟩
      · exact work_unbound setter stack hunbound
    refine ⟨Or.inl hnone, ?_⟩
    intro method row row' _ _ _ r hr
    rw [hnone.2] at hr
    exact absurd hr List.not_mem_nil

/-- A stack that knows every device and completes every request. -/
def completing : Stack := ⟨fun _ => true, fun _ => 1, fun _ => true, fun _ => false⟩

def setTemp18 : PortHandle where
  code := .doNothing
  mac := 0x11
  method := 18
  writeArg := ⟨0, 0, 0, 0, 0, 0, 0, []⟩

/-- Setting 18 degrees and setting 19 degrees is one and the same request. -/
theorem temperatures_same_request :
    requests .temperature completing (statics []) setTemp18 =
        [⟨10001, 2, 0, 85, ⟨false, 0, .null⟩, 16, 0xFFFFFFFF⟩] ∧
      requests .temperature completing (statics []) { setTemp18 with method := 19 } =
        [⟨10001, 2, 0, 85, ⟨false, 0, .null⟩, 16, 0xFFFFFFFF⟩] ∧
      ¬Delivered .temperature completing (statics []) setTemp18 := by
  refine ⟨by decide, by decide, fun h => ?_⟩
  have hapart := h.2 19 (row 0) (row 1) rfl rfl (by decide)
  exact hapart ⟨10001, 2, 0, 85, ⟨false, 0, .null⟩, 16, 0xFFFFFFFF⟩ (by decide) (by decide)

end Setters

end RS485.Requests
