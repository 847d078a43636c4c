import Rs485.Requests

/-!
# What a BACnet write reports

A write returns an error exactly if a poll of it, or of a write before it, found
that the request has failed. That no answer came, or that the request was not sent
at all, is no error, and an error is never taken back.
-/

set_option autoImplicit false

namespace RS485.WriteOutcome
open RS485.Platform RS485.Records RS485.York RS485.Requests

/-- A write, the answers of the stack, and whether the request it issued was
acknowledged before it returned. What the stack promises holds of them. -/
structure Call where
  stack : Stack
  args : WriteArgs
  acknowledged : Bool
  sent : acknowledged = true → stack.addressBindRequest args.deviceId = true ∧
    (stack.sendWritePropertyRequest 0 ≠ 0 ∨ stack.sendWritePropertyRequest 1 ≠ 0)
  free : stack.addressBindRequest args.deviceId = true → stack.sendWritePropertyRequest 0 ≠ 0 →
    stack.tsmInvokeIdFree (stack.sendWritePropertyRequest 0) = true → acknowledged = true
  failed : stack.addressBindRequest args.deviceId = true → stack.sendWritePropertyRequest 0 ≠ 0 →
    stack.tsmInvokeIdFree (stack.sendWritePropertyRequest 0) = false →
    stack.tsmInvokeIdFailed (stack.sendWritePropertyRequest 0) = true → acknowledged = false

def Call.found (c : Call) : Bool := c.stack.addressBindRequest c.args.deviceId

/-- The request is sent in the first round, and the second one finds that it failed. -/
structure Call.Fails (c : Call) : Prop where
  found : c.found = true
  sent : c.stack.sendWritePropertyRequest 0 ≠ 0
  busy : c.stack.tsmInvokeIdFree (c.stack.sendWritePropertyRequest 0) = false
  failed : c.stack.tsmInvokeIdFailed (c.stack.sendWritePropertyRequest 0) = true

def staticsAfter (history : List Call) : Statics :=
  statics (history.map fun c => (c.stack, c.args))

def ret (history : List Call) (c : Call) : ℤ :=
  (bacnetWriteProperty c.stack c.args (staticsAfter history)).1

/-- The device is not found, or the poll finds the request failed, or it is
acknowledged after writes none of which failed, or not acknowledged after one that did. -/
def Told (history : List Call) (c : Call) : Prop :=
  c.found = false ∨ c.Fails ∨ c.acknowledged = true ∧ (∀ e ∈ history, ¬e.Fails) ∨
    c.acknowledged = false ∧ ∃ e ∈ history, e.Fails

section Rounds

/-- The loop ends with an error that was there before, or that the poll has found. -/
theorem rounds_error (stack : Stack) (request : WriteRequest) (error : Bool) :
    (writeRounds stack request 2 ⟨0, error, []⟩).error = true ↔ error = true ∨
      stack.sendWritePropertyRequest 0 ≠ 0 ∧
        stack.tsmInvokeIdFree (stack.sendWritePropertyRequest 0) = false ∧
        stack.tsmInvokeIdFailed (stack.sendWritePropertyRequest 0) = true := by
  have hfirst : writeRounds stack request 2 ⟨0, error, []⟩ =
      writeRounds stack request 1 ⟨stack.sendWritePropertyRequest 0, error, [request]⟩ := by
    rw [writeRounds, if_pos rfl]
    rfl
  rw [hfirst, writeRounds]
  by_cases hsent : stack.sendWritePropertyRequest 0 = 0
  · rw [if_pos hsent]
    exact (or_iff_left fun h => h.1 hsent).symm
  · rw [if_neg hsent, and_iff_right hsent]
    cases stack.tsmInvokeIdFree (stack.sendWritePropertyRequest 0) with
    | true => simp
    | false =>
      cases stack.tsmInvokeIdFailed (stack.sendWritePropertyRequest 0) <;> simp [writeRounds]

variable {s : Statics} (c : Call)

theorem write_unfound (h : c.found = false) :
    (bacnetWriteProperty c.stack c.args s).1 = -1 ∧
      (bacnetWriteProperty c.stack c.args s).2.2.errorDetected = s.errorDetected := by
  unfold Call.found at h
  unfold bacnetWriteProperty
  simp only [h, if_true]
  exact ⟨trivial, trivial⟩

theorem write_error_iff (hs : Unfilled s) :
    (bacnetWriteProperty c.stack c.args s).2.2.errorDetected = true ↔
      s.errorDetected = true ∨ c.Fails := by
  by_cases hfound : c.found = true
  · have hfails : c.Fails ↔ c.stack.sendWritePropertyRequest 0 ≠ 0 ∧
        c.stack.tsmInvokeIdFree (c.stack.sendWritePropertyRequest 0) = false ∧
        c.stack.tsmInvokeIdFailed (c.stack.sendWritePropertyRequest 0) = true :=
      ⟨fun h => ⟨h.sent, h.busy, h.failed⟩, fun h => ⟨hfound, h.1, h.2.1, h.2.2⟩⟩
    unfold Call.found at hfound
    unfold bacnetWriteProperty
    simp only [hfound, Bool.true_eq_false, if_false, hs.1]
    rw [rounds_error, hfails]
  · have hnot : c.found = false := Bool.eq_false_of_not_eq_true hfound
    rw [(write_unfound c hnot).2]
    exact (or_iff_left fun h => hfound h.found).symm

/-- A write to a device that is found returns the flag it leaves. -/
theorem write_ret_iff (h : c.found = true) :
    (bacnetWriteProperty c.stack c.args s).1 = 0 ↔
      (bacnetWriteProperty c.stack c.args s).2.2.errorDetected = false := by
  unfold Call.found at h
  unfold bacnetWriteProperty
  simp only [h, Bool.true_eq_false, if_false]
  cases (writeRounds c.stack _ 2 _).error <;> simp

end Rounds

section History

theorem history_unfilled (history : List Call) : Unfilled (staticsAfter history) :=
  statics_unfilled _

theorem statics_append (history : List Call) (c : Call) : staticsAfter (history++[c]) =
    (bacnetWriteProperty c.stack c.args (staticsAfter history)).2.2 := by
  rw [staticsAfter, List.map_append, statics, List.foldl_append]
  rfl

/-- The flag is set by the first write that fails, and stays. -/
theorem history_error_iff (history : List Call) :
    (staticsAfter history).errorDetected = true ↔ ∃ e ∈ history, e.Fails := by
  induction history using List.reverseRecOn with
  | nil => simp [staticsAfter, statics, initialStatics]
  | append_singleton history c ih =>
    rw [statics_append, write_error_iff c (history_unfilled history), ih]
    constructor
    · rintro (⟨e, he, hfails⟩ | hfails)
      · exact ⟨e, List.mem_append_left _ he, hfails⟩
      · exact ⟨c, by simp, hfails⟩
    · rintro ⟨e, he, hfails⟩
      rcases List.mem_append.mp he with he | he
      · exact Or.inl ⟨e, he, hfails⟩
      · obtain rfl := List.mem_singleton.mp he
        exact Or.inr hfails

theorem ret_zero_iff (history : List Call) {c : Call} (h : c.found = true) :
    ret history c = 0 ↔ ¬c.Fails ∧ ∀ e ∈ history, ¬e.Fails := by
  rw [ret, write_ret_iff c h, ← Bool.not_eq_true, write_error_iff c (history_unfilled history),
    history_error_iff]
  push Not
  exact and_comm

theorem ret_unfound (history : List Call) {c : Call} (h : c.found = false) :
    ret history c = -1 :=
  (write_unfound c h).1

theorem fails_unacknowledged {c : Call} (h : c.Fails) : c.acknowledged = false :=
  c.failed h.found h.sent h.busy h.failed

end History

/-- A write tells its own outcome exactly if the poll does, or the flag of the
writes before it happens to say the same. -/
theorem write_outcome_iff (history : List Call) (c : Call) :
    (ret history c = 0 ↔ c.acknowledged = true) ↔ Told history c := by
  cases hfound : c.found with
  | false =>
    have hnot : ¬c.acknowledged = true := by
      intro h
      have hbound : c.found = true := (c.sent h).1
      rw [hfound] at hbound
      cases hbound
    rw [ret_unfound history hfound]
    exact iff_of_true (iff_of_false (by decide) hnot) (Or.inl hfound)
  | true =>
    have htold : Told history c ↔ c.Fails ∨
        c.acknowledged = true ∧ (∀ e ∈ history, ¬e.Fails) ∨
          c.acknowledged = false ∧ ∃ e ∈ history, e.Fails := by
      rw [Told, hfound]
      exact or_iff_right (by decide)
    rw [ret_zero_iff history hfound, htold]
    by_cases hfails : c.Fails
    · have hnot := fails_unacknowledged hfails
      exact iff_of_true (iff_of_false (fun h => h.1 hfails) (by simp [hnot])) (Or.inl hfails)
    · have hsome : (∃ e ∈ history, e.Fails) ↔ ¬∀ e ∈ history, ¬e.Fails := by
        push Not
        exact Iff.rfl
      rw [hsome]
      cases c.acknowledged <;> simp [hfails]

/-- The stack refuses to send the request. -/
def refused : Call where
  stack := ⟨fun _ => true, fun _ => 0, fun _ => false, fun _ => false⟩
  args := ⟨10001, 2, 0, 85, 16, 0, 4, []⟩
  acknowledged := false
  sent h := by cases h
  free _ h := absurd rfl h
  failed _ _ _ _ := rfl

/-- The request fails. -/
def failing : Call where
  stack := ⟨fun _ => true, fun _ => 1, fun _ => false, fun _ => true⟩
  args := ⟨10001, 2, 0, 85, 16, 0, 4, []⟩
  acknowledged := false
  sent h := by cases h
  free _ _ h := h
  failed _ _ _ _ := rfl

/-- The request is acknowledged. -/
def completed : Call where
  stack := completing
  args := ⟨10001, 2, 0, 85, 16, 0, 4, []⟩
  acknowledged := true
  sent _ := ⟨rfl, Or.inl (by decide)⟩
  free _ _ _ := rfl
  failed _ _ h _ := h

/-- A write that is not sent reports success, and one that is acknowledged after
another has failed reports an error. -/
theorem outcomes_misreported :
    (ret [] refused = 0 ∧ ¬(ret [] refused = 0 ↔ refused.acknowledged = true)) ∧
      ret [failing] completed = -1 ∧
      ¬(ret [failing] completed = 0 ↔ completed.acknowledged = true) := by
  refine ⟨⟨by decide, fun h => ?_⟩, by decide, fun h => ?_⟩
  · exact absurd (h.mp (by decide)) (by decide)
  · exact absurd (h.mpr rfl) (by decide)

end RS485.WriteOutcome
