import Rs485.Modbus

/-!
# The replies modbus drivers get

When `message_process` calls the receive handler and with what length, against
the return values of the library calls.
-/

set_option autoImplicit false

namespace RS485.Handover
open RS485.Platform RS485.Records RS485.Countdown RS485.Modbus

variable {γ : Type}

/-- The same handlers, with every message that reaches the receive handler noted. -/
def observed (handlers : Handlers γ) : Modbus.Handlers (γ × List Message) where
  sendHandle := handlers.sendHandle.map fun send m g =>
    let (n, m, g') := send m g.1
    (n, m, g', g.2)
  recvHandle := handlers.recvHandle.map fun recv m g =>
    let (m', g') := recv m g.1
    (m', g', g.2++[m])

section Spec

variable (handlers : Handlers γ) (lib : ℕ → Reply) (retransmission : BitVec 32) (m : Message)
  (g : γ)

/-- The messages given to the receive handler, as it finds them. -/
def handedOver : List Message :=
  (messageProcess (observed handlers) lib retransmission m (g, [])).globals.2

/-- The return value of the last call. -/
def lastReturn (q : Request) (m : Message) : ℤ :=
  (lib ((retry lib q retransmission m).passes-1)).ret

/-- The message is a read of one device, and its last attempt returned the count
that was asked for. -/
def ReadSucceeds (q : Request) (m : Message) : Prop :=
  q.reads = true ∧ m.broadcast = false ∧ lastReturn lib retransmission q m = q.expected

structure Exact : Prop where
  once : (handedOver handlers lib retransmission m g).length ≤ 1
  called : handedOver handlers lib retransmission m g ≠ [] ↔
    ∃ q m', requestOf handlers m g = some (q, m') ∧ ReadSucceeds lib retransmission q m'
  length : ∀ handed ∈ handedOver handlers lib retransmission m g,
    ∃ q m', requestOf handlers m g = some (q, m') ∧ handed.bufferLen = q.expected
  failed : (∀ q m', requestOf handlers m g = some (q, m') →
      ∀ k < (retry lib q retransmission m').passes, (lib k).ret ≠ q.expected) →
    handedOver handlers lib retransmission m g = []

/-- One of the calls that the counter allows returns the count asked for, if the
message is a read of one device. -/
def Answered : Prop :=
  ∀ q m', requestOf handlers m g = some (q, m') → q.reads = true → m'.broadcast = false →
    ∃ k < budget retransmission, (lib k).ret = q.expected

end Spec

section Attempts

variable {lib : ℕ → Reply} {retransmission : BitVec 32} {q : Request} {m : Message}

theorem attempt_state (k : ℕ) :
    (entered (Modbus.pass lib q) ⟨m.buffer, 0, []⟩ k).calls.length = k ∧
      (0 < k → (entered (Modbus.pass lib q) ⟨m.buffer, 0, []⟩ k).retval = (lib (k-1)).ret) := by
  induction k with
  | zero => exact ⟨rfl, fun h => absurd h (lt_irrefl 0)⟩
  | succ k ih =>
    refine ⟨by rw [entered, pass_counts, ih.1], fun _ => ?_⟩
    rw [entered, Modbus.pass, state_test, ih.1, Nat.add_sub_cancel]

theorem attempt_again (k : ℕ) :
    Again (Modbus.pass lib q) (entered (Modbus.pass lib q) ⟨m.buffer, 0, []⟩ k) ↔
      (lib k).ret ≠ q.expected := by
  simp [Again, Modbus.pass, (attempt_state k).1]

theorem retry_retval (lib : ℕ → Reply) (retransmission : BitVec 32) (q : Request) (m : Message) :
    (retry lib q retransmission m).state.retval = lastReturn lib retransmission q m := by
  rw [retry, doWhile_entered]
  exact (attempt_state _).2 (passes_pos _ _ _)

/-- The last call returns the count exactly if one of the calls allowed does. -/
theorem last_return_iff : lastReturn lib retransmission q m = q.expected ↔
    ∃ k < budget retransmission, (lib k).ret = q.expected := by
  have hpos := passes_pos (Modbus.pass lib q) retransmission ⟨m.buffer, 0, []⟩
  have hle := passes_le_budget (Modbus.pass lib q) retransmission ⟨m.buffer, 0, []⟩
  constructor
  · intro h
    exact ⟨_, lt_of_lt_of_le (Nat.sub_lt hpos Nat.one_pos) hle, h⟩
  · rintro ⟨k, hk, hret⟩
    by_contra hlast
    have hagain := (attempt_again (m := m) _).mpr hlast
    have hall : (retry lib q retransmission m).passes = budget retransmission := by
      by_contra hne
      exact entered_last _ _ _ (lt_of_le_of_ne hle hne) hagain
    have hbefore := entered_again (Modbus.pass lib q) retransmission ⟨m.buffer, 0, []⟩ k
    rcases Nat.lt_or_ge (k+1) (retry lib q retransmission m).passes with hlt | hge
    · exact (attempt_again k).mp (hbefore hlt) hret
    · have heq : k = (retry lib q retransmission m).passes-1 := by omega
      rw [heq] at hret
      exact hlast hret

end Attempts

section Handed

variable (handlers : Handlers γ) (lib : ℕ → Reply) (retransmission : BitVec 32) (m : Message)
  (g : γ)

/-- The handler is called once for a read of one device, whatever came of it. -/
theorem handed_over (hrecv : handlers.recvHandle.isSome = true) :
    handedOver handlers lib retransmission m g =
      match requestOf handlers m g with
      | none => []
      | some (q, m') =>
        if q.reads = true ∧ m'.broadcast = false then
          [{ m' with
            buffer := (retry lib q retransmission m').state.buffer
            bufferLen := replyLen m'.code (lastReturn lib retransmission q m') }]
        else [] := by
  obtain ⟨recv, hrecv⟩ := Option.isSome_iff_exists.mp hrecv
  unfold handedOver messageProcess observed requestOf
  simp only [hrecv, Option.map_some, ← retry_retval]
  cases handlers.sendHandle with
  | none => rfl
  | some send =>
    simp only [Option.map_some]
    by_cases hlen : (send m g).1 < 0
    · simp only [hlen, if_true]
    · simp only [hlen, if_false]
      cases hq : request (send m g).2.1 (send m g).1 with
      | none => cases (send m g).2.1.code <;> rfl
      | some q =>
        simp only [Option.map_some]
        split_ifs <;> rfl

end Handed

section Exactness

theorem request_of {handlers : Handlers γ} {m m' : Message} {g : γ} {q : Request}
    (h : requestOf handlers m g = some (q, m')) :
    ∃ sendFrameLen, request m' sendFrameLen = some q := by
  cases hsend : handlers.sendHandle with
  | none => simp [requestOf, hsend] at h
  | some send =>
    obtain ⟨-, hq, rfl⟩ := request_made hsend h
    exact ⟨_, hq⟩

theorem one_item {sendFrameLen : ℤ} {q : Request} {m : Message}
    (hq : request m sendFrameLen = some q)
    (hcode : m.code = .readSignleCoil ∨ m.code = .readInputBit) : q.expected = 1 := by
  unfold request at hq
  rcases hcode with hcode | hcode <;> rw [hcode] at hq <;> obtain rfl := Option.some.inj hq <;> rfl

/-- After a successful read all codes report the count. -/
theorem reply_len {sendFrameLen : ℤ} {q : Request} {m : Message} {retval : ℤ}
    (hq : request m sendFrameLen = some q) (hret : retval = q.expected) :
    replyLen m.code retval = q.expected := by
  unfold replyLen
  split
  case h_1 hcode => exact (one_item hq (Or.inl hcode)).symm
  case h_2 hcode => exact (one_item hq (Or.inr hcode)).symm
  case h_3 => exact hret

variable {handlers : Handlers γ} {lib : ℕ → Reply} {retransmission : BitVec 32} {m m' : Message}
  {g : γ} {q : Request}

theorem exact_of_none (hhanded : handedOver handlers lib retransmission m g = [])
    (hno : ¬∃ q m', requestOf handlers m g = some (q, m') ∧ ReadSucceeds lib retransmission q m') :
    Exact handlers lib retransmission m g where
  once := by simp [hhanded]
  called := ⟨fun h => absurd hhanded h, fun h => absurd h hno⟩
  length := by simp [hhanded]
  failed := fun _ => hhanded

theorem exact_of_one {handed : Message}
    (hhanded : handedOver handlers lib retransmission m g = [handed])
    (hrequest : requestOf handlers m g = some (q, m'))
    (hsucceeds : ReadSucceeds lib retransmission q m') (hlength : handed.bufferLen = q.expected) :
    Exact handlers lib retransmission m g where
  once := by simp [hhanded]
  called := ⟨fun _ => ⟨q, m', hrequest, hsucceeds⟩, fun _ => by simp [hhanded]⟩
  length := by
    intro handed' hmem
    rw [hhanded, List.mem_singleton] at hmem
    exact ⟨q, m', hrequest, hmem ▸ hlength⟩
  failed := by
    intro hall
    have hpos := passes_pos (Modbus.pass lib q) retransmission ⟨m'.buffer, 0, []⟩
    exact absurd hsucceeds.2.2 (hall q m' hrequest _ (Nat.sub_lt hpos Nat.one_pos))

/-- The receive handler gets what it should if and only if every read of one
device is answered by one of the attempts. -/
theorem handover_exact_iff (handlers : Handlers γ) (lib : ℕ → Reply) (retransmission : BitVec 32)
    (m : Message) (g : γ) (hrecv : handlers.recvHandle.isSome = true) :
    Exact handlers lib retransmission m g ↔ Answered handlers lib retransmission m g := by
  have hhanded := handed_over handlers lib retransmission m g hrecv
  constructor
  · intro h q m' hrequest hreads hbroadcast
    rw [← last_return_iff]
    rw [hrequest] at hhanded
    simp only [hreads, hbroadcast, and_self, if_true] at hhanded
    obtain ⟨q', m'', hrequest', hsucceeds⟩ := h.called.mp (by rw [hhanded]; simp)
    obtain ⟨rfl, rfl⟩ := Prod.mk.inj (Option.some.inj (hrequest.symm.trans hrequest'))
    exact hsucceeds.2.2
  · intro h
    cases hrequest : requestOf handlers m g with
    | none =>
      rw [hrequest] at hhanded
      refine exact_of_none hhanded ?_
      rintro ⟨q, m', hrequest', -⟩
      exact absurd (hrequest.symm.trans hrequest') (by simp)
    | some request =>
      obtain ⟨q, m'⟩ := request
      rw [hrequest] at hhanded
      by_cases hread : q.reads = true ∧ m'.broadcast = false
      · have hlast : lastReturn lib retransmission q m' = q.expected :=
          last_return_iff.mpr (h q m' hrequest hread.1 hread.2)
        obtain ⟨sendFrameLen, hq⟩ := request_of hrequest
        simp only [if_pos hread] at hhanded
        exact exact_of_one hhanded hrequest ⟨hread.1, hread.2, hlast⟩ (reply_len hq hlast)
      · simp only [if_neg hread] at hhanded
        refine exact_of_none hhanded ?_
        rintro ⟨q', m'', hrequest', hreads, hbroadcast, -⟩
        obtain ⟨rfl, rfl⟩ := Prod.mk.inj (Option.some.inj (hrequest.symm.trans hrequest'))
        exact hread ⟨hreads, hbroadcast⟩

/-- A driver that reads one coil and keeps the length it was told. -/
def coilHandlers : Handlers (List ℤ) where
  sendHandle := some fun m lens => (1, m, lens)
  recvHandle := some fun m lens => (m, lens++[m.bufferLen])

def readCoil (code : FunctionCode) : Message where
  code := code
  deviceAddr := 1
  registerAddr := 0
  buffer := [0xaa, 0xaa]
  bufferLen := 256
  broadcast := false
  done := true

/-- A library that reads a 1 in every call. -/
def answering : ℕ → Reply := fun _ => ⟨1, fun buffer => 1::buffer.drop 1⟩

/-- A library none of whose calls succeeds. -/
def silent : ℕ → Reply := fun _ => ⟨-1, id⟩

theorem coil_answered : coilHandlers.recvHandle.isSome = true ∧
    (Exact coilHandlers answering 3 (readCoil .readSignleCoil) [] ↔
      Answered coilHandlers answering 3 (readCoil .readSignleCoil) []) :=
  ⟨rfl, handover_exact_iff coilHandlers answering 3 (readCoil .readSignleCoil) [] rfl⟩

theorem silent_keeps (q : Request) (retransmission : BitVec 32) (m : Message) :
    (retry silent q retransmission m).state.buffer = m.buffer := by
  rw [retry, doWhile_entered]
  generalize (doWhile (Modbus.pass silent q) retransmission _).passes = k
  induction k with
  | zero => rfl
  | succ k ih =>
    rw [entered, Modbus.pass, state_test]
    split_ifs <;> exact ih

theorem silent_fails {q : Request} {m m' : Message} {handed : Message} {retransmission : BitVec 32}
    (hhanded : handedOver coilHandlers silent retransmission m [] = [handed])
    (hrequest : requestOf coilHandlers m [] = some (q, m')) (hexpected : q.expected = 1) :
    ¬Exact coilHandlers silent retransmission m [] := by
  intro h
  obtain ⟨q', m'', hrequest', -, -, hlast⟩ := h.called.mp (by simp [hhanded])
  obtain ⟨rfl, rfl⟩ := Prod.mk.inj (Option.some.inj (hrequest.symm.trans hrequest'))
  rw [hexpected] at hlast
  exact absurd hlast (by simp [lastReturn, silent])

/-- When no attempt is answered the handler gets the bytes of the message before
as one item read, or with a length of -1. -/
theorem failure_handed_over :
    handedOver coilHandlers silent 3 (readCoil .readSignleCoil) [] =
        [{ readCoil .readSignleCoil with bufferLen := 1 }] ∧
      ¬Exact coilHandlers silent 3 (readCoil .readSignleCoil) [] ∧
      handedOver coilHandlers silent 3 (readCoil .readMultipleCoils) [] =
        [{ readCoil .readMultipleCoils with bufferLen := -1 }] ∧
      ¬Exact coilHandlers silent 3 (readCoil .readMultipleCoils) [] := by
  have hone : handedOver coilHandlers silent 3 (readCoil .readSignleCoil) [] =
      [{ readCoil .readSignleCoil with bufferLen := 1 }] := by
    rw [handed_over _ _ _ _ _ rfl]
    simp only [requestOf, coilHandlers, readCoil, request]
    simp [silent_keeps, replyLen]
  have hmany : handedOver coilHandlers silent 3 (readCoil .readMultipleCoils) [] =
      [{ readCoil .readMultipleCoils with bufferLen := -1 }] := by
    rw [handed_over _ _ _ _ _ rfl]
    simp only [requestOf, coilHandlers, readCoil, request]
    simp [silent_keeps, replyLen, lastReturn, silent]
  exact ⟨hone, silent_fails hone rfl rfl, hmany, silent_fails hmany rfl rfl⟩

end Exactness

end RS485.Handover
