import Rs485.Daikin
import Rs485.Handover
import Rs485.Runs

/-!
# The handshake with the Daikin adapter

The worker processes any messages that carry the handlers of the driver, and
the library answers each call as it likes. The status of the adapter should
move only on a successful read. The receive handler is also called after a read
that failed, and then finds what an earlier message left in the buffer.
-/

set_option autoImplicit false

namespace RS485.Handshake
open RS485.Platform RS485.Records RS485.Countdown RS485.Modbus RS485.Words RS485.Daikin
open RS485.Handover RS485.Runs

/-- A message taken from the queue, with its handlers and the library's answers. -/
structure Job where
  send : SendHandle
  recv : Bool
  method : Encoders.DeviceMethod
  value : BitVec 32
  message : Message
  retransmission : BitVec 32
  lib : ℕ → Reply

def Job.handlers (j : Job) : Modbus.Handlers Adapter where
  sendHandle := some (sendHandle j.send j.method j.value)
  recvHandle := if j.recv then some getDeviceInfoHandle else none

/-- The buffer of the worker and the static variables of the driver. -/
structure Line where
  buffer : List Byte
  adapter : Adapter

def work (l : Line) (j : Job) : Processed Adapter :=
  modbusWork j.handlers j.lib j.retransmission l.buffer j.message l.adapter

def step (l : Line) (j : Job) : Option Line :=
  some ⟨(work l j).message.buffer, (work l j).globals⟩

def initialisationRead : LibCall := .readInputRegisters 0 1
def connectionRead : LibCall := .readRegisters 1 4

/-- The call was made and returned the number of registers asked for. -/
def ReadSucceeded (l : Line) (j : Job) (call : LibCall) (nb : ℤ) : Prop :=
  ∃ k, (work l j).calls[k]? = some call ∧ (j.lib k).ret = nb

def WritesRegister : LibCall → Prop
  | .writeRegister _ _ | .writeRegisters _ _ _ => True
  | _ => False

def rank : HaStatus → ℕ
  | .waitInit => 0
  | .waitConnect => 1
  | .normal => 2
  | .error => 3

/-- What the handshake promises of one message. -/
structure Orderly (l : Line) (j : Job) (t : Line) : Prop where
  initialised : l.adapter.haStatus = .waitInit → t.adapter.haStatus ≠ .waitInit →
    ReadSucceeded l j initialisationRead 1 ∧ wordAt t.buffer 0 = 1
  connected : l.adapter.haStatus = .waitConnect → t.adapter.haStatus ≠ .waitConnect →
    ReadSucceeded l j connectionRead 4
  filled : t.adapter.connected ≠ l.adapter.connected →
    l.adapter.haStatus = .waitConnect ∧ ReadSucceeded l j connectionRead 4
  forward : rank l.adapter.haStatus ≤ rank t.adapter.haStatus
  quiet : l.adapter.haStatus = .waitInit → ∀ call ∈ (work l j).calls, ¬WritesRegister call

/-- A failed call leaves the buffer as it is. -/
def FailuresKeep (l : Line) (j : Job) : Prop :=
  ∀ q m, requestOf j.handlers (lend l.buffer j.message) l.adapter = some (q, m) →
    ∀ k, (j.lib k).ret ≠ q.expected → ∀ buffer, (j.lib k).fill buffer = buffer

/-- The receive handler is called for the message, if a read is made. -/
def Job.Asks (j : Job) : Prop :=
  j.send = .getDeviceInfoSend ∧ j.recv = true ∧ j.message.broadcast = false

/-- One of the attempts allowed reads that many registers. -/
def Job.Reads (j : Job) (nb : ℤ) : Prop := ∃ k < budget j.retransmission, (j.lib k).ret = nb

/-- A message that asks for the status is answered, or finds no 1 in the buffer
when it waits for the initialisation. -/
def Clean (l : Line) (j : Job) : Prop :=
  j.Asks → (l.adapter.haStatus = .waitInit → j.Reads 1 ∨ wordAt l.buffer 0 ≠ 1) ∧
    (l.adapter.haStatus = .waitConnect → j.Reads 4)

section Attempts

variable {lib : ℕ → Reply} {retransmission : BitVec 32} {q : Request} {m : Message}

/-- A read repeats one and the same call. -/
theorem retry_repeats {call : LibCall} (h : ∀ buffer, q.call buffer = call) :
    (retry lib q retransmission m).state.calls =
      List.replicate (retry lib q retransmission m).passes call := by
  rw [retry, doWhile_entered]
  generalize (doWhile (Modbus.pass lib q) retransmission _).passes = k
  induction k with
  | zero => rfl
  | succ k ih =>
    rw [entered, Modbus.pass, state_test]
    simp only [ih, h, List.replicate_succ']

theorem retry_keeps (hkeep : ∀ k, (lib k).ret ≠ q.expected → ∀ buffer, (lib k).fill buffer = buffer)
    (hfail : ¬∃ k < budget retransmission, (lib k).ret = q.expected) :
    (retry lib q retransmission m).state.buffer = m.buffer := by
  have hle := passes_le_budget (Modbus.pass lib q) retransmission ⟨m.buffer, 0, []⟩
  rw [retry, doWhile_entered]
  generalize (doWhile (Modbus.pass lib q) retransmission _).passes = k at hle
  induction k with
  | zero => rfl
  | succ k ih =>
    have hret : (lib k).ret ≠ q.expected := fun h => hfail ⟨k, hle, h⟩
    rw [entered, Modbus.pass, state_test, (attempt_state k).1]
    simp only [ih (Nat.le_of_succ_le hle), hkeep k hret, ite_self]

end Attempts

section Steps

variable (l : Line) (j : Job)

theorem recv_keeps (recv : Message → Adapter → Message × Adapter)
    (h : j.handlers.recvHandle = some recv) (m : Message) (g : Adapter) : (recv m g).1 = m := by
  unfold Job.handlers at h
  simp only at h
  split_ifs at h
  obtain rfl := Option.some.inj h
  exact handle_keeps_message m g

theorem work_eq : work l j =
    messageProcess j.handlers j.lib j.retransmission (lend l.buffer j.message) l.adapter := by
  apply work_once
  · intro send hsend m g
    obtain rfl := Option.some.inj hsend
    exact send_keeps_done j.send j.method j.value m g
  · intro recv hrecv m g
    rw [recv_keeps j recv hrecv]

/-- What a message with the send handler for the status asks the library for. -/
def statusRead (status : HaStatus) : Option Request :=
  match status with
  | .waitInit => some ⟨fun _ => initialisationRead, true, 1⟩
  | .waitConnect => some ⟨fun _ => connectionRead, true, 4⟩
  | .normal | .error => none

variable {l : Line} {j : Job}

theorem status_request (hsend : j.send = .getDeviceInfoSend) (m : Message) (g : Adapter) :
    requestOf j.handlers m g =
      (statusRead g.haStatus).map fun q => (q, (getDeviceInfoSend m g).2.1) := by
  unfold requestOf
  cases h : g.haStatus <;>
    simp [Job.handlers, hsend, Daikin.sendHandle, getDeviceInfoSend, h, request, statusRead,
      initialisationRead, connectionRead, inputRegisterStart, inputRegisterDeviceConnectStatusStart]

/-- A setter makes a write or nothing. -/
theorem setter_request (hsend : j.send ≠ .getDeviceInfoSend) {m : Message} {g : Adapter}
    {q : Request} {m' : Message} (h : requestOf j.handlers m g = some (q, m')) :
    q.reads = false ∧ g.haStatus ≠ .waitInit := by
  unfold requestOf Job.handlers at h
  simp only [setter_eq hsend] at h
  by_cases hidle : g.haStatus = .waitInit ∨ j.send = .setMode ∧ j.method = .airFanAuto
  · simp [hidle, request] at h
  · refine ⟨?_, fun hinit => hidle (Or.inl hinit)⟩
    simp only [hidle, if_false, setRegister] at h
    by_cases haddr : 63 < m.deviceAddr
    · simp [haddr] at h
    · simp only [haddr, if_false] at h
      split_ifs at h
      obtain ⟨q', hq, hpair⟩ := Option.map_eq_some_iff.mp h
      obtain ⟨rfl, rfl⟩ := Prod.mk.inj hpair
      obtain rfl := Option.some.inj hq
      rfl

/-- No send handler changes what the handshake is about. -/
theorem send_keeps_status (handle : SendHandle) (method : Encoders.DeviceMethod)
    (value : BitVec 32) (m : Message) (g : Adapter) :
    (sendHandle handle method value m g).2.2.haStatus = g.haStatus ∧
      (sendHandle handle method value m g).2.2.connected = g.connected := by
  by_cases h : handle = .getDeviceInfoSend
  · subst h
    simp only [sendHandle, getDeviceInfoSend]
    split <;> exact ⟨rfl, rfl⟩
  · rw [setter_eq h]
    split_ifs
    · exact ⟨rfl, rfl⟩
    · simp only [setRegister]
      split_ifs <;> exact ⟨rfl, rfl⟩

/-- Only the receive handler after a read moves the status. -/
theorem work_still (h : ¬(j.Asks ∧ statusRead l.adapter.haStatus ≠ none)) :
    (work l j).globals.haStatus = l.adapter.haStatus ∧
      (work l j).globals.connected = l.adapter.connected := by
  have hkept := send_keeps_status j.send j.method j.value (lend l.buffer j.message) l.adapter
  rw [work_eq]
  cases hrequest : requestOf j.handlers (lend l.buffer j.message) l.adapter with
  | none => rwa [(process_without_request j.lib j.retransmission rfl hrequest).2.1]
  | some request =>
    obtain ⟨q, m'⟩ := request
    obtain ⟨hm', -, hglobals⟩ := process_with_request j.lib j.retransmission rfl hrequest
    rw [hglobals]
    cases hrecv : j.recv with
    | false =>
      simp only [Job.handlers, hrecv]
      exact hkept
    | true =>
      have hread : ¬(q.reads = true ∧ m'.broadcast = false) := by
        rintro ⟨hreads, hbroadcast⟩
        have hsend : j.send = .getDeviceInfoSend := by
          by_contra hsend
          exact absurd hreads (by simp [(setter_request hsend hrequest).1])
        rw [status_request hsend] at hrequest
        cases hstatus : statusRead l.adapter.haStatus with
        | none => simp [hstatus] at hrequest
        | some q' =>
          refine h ⟨⟨hsend, hrecv, ?_⟩, by simp [hstatus]⟩
          rw [hm', hsend] at hbroadcast
          simp only [Daikin.sendHandle, getDeviceInfoSend] at hbroadcast
          revert hbroadcast
          split <;> exact id
      simp only [Job.handlers, hrecv, if_true, hread, if_false]
      exact hkept

/-- A message that asks is handed to the receive handler after its read, with
the buffer as the read left it. -/
theorem work_moved (h : j.Asks) {q : Request} (hq : statusRead l.adapter.haStatus = some q) :
    ∃ m, (work l j).message.buffer = (retry j.lib q j.retransmission m).state.buffer ∧
      (work l j).calls = (retry j.lib q j.retransmission m).state.calls ∧ m.buffer = l.buffer ∧
      ∃ m', m'.buffer = (work l j).message.buffer ∧
        (work l j).globals = (getDeviceInfoHandle m' l.adapter).2 := by
  obtain ⟨hsend, hrecv, hbroadcast⟩ := h
  have hrequest := status_request hsend (lend l.buffer j.message) l.adapter
  rw [hq, Option.map_some] at hrequest
  have hmessage : (getDeviceInfoSend (lend l.buffer j.message) l.adapter).2.1.buffer = l.buffer ∧
      (getDeviceInfoSend (lend l.buffer j.message) l.adapter).2.1.broadcast = false := by
    unfold getDeviceInfoSend
    split <;> exact ⟨rfl, hbroadcast⟩
  have hreads : q.reads = true := by
    unfold statusRead at hq
    split at hq
    · obtain rfl := Option.some.inj hq
      rfl
    · obtain rfl := Option.some.inj hq
      rfl
    · exact absurd hq (by simp)
    · exact absurd hq (by simp)
  have hsent : (sendHandle j.send j.method j.value (lend l.buffer j.message) l.adapter).2.2 =
      l.adapter := by
    rw [hsend]
    simp only [Daikin.sendHandle, getDeviceInfoSend]
    split <;> rfl
  obtain ⟨-, hcalls, hglobals⟩ := process_with_request j.lib j.retransmission rfl hrequest
  have hbuffer := process_buffer j.lib j.retransmission rfl hrequest (recv_keeps j)
  rw [work_eq]
  refine ⟨_, hbuffer, hcalls, hmessage.1, ?_⟩
  rw [hglobals, hbuffer]
  simp only [Job.handlers, hrecv, if_true, hreads, hmessage.2, and_self, hsent]
  exact ⟨_, rfl, rfl⟩

/-- While the initialisation is waited for, nothing but its register is read. -/
theorem quiet_while_waiting (h : l.adapter.haStatus = .waitInit) :
    ∀ call ∈ (work l j).calls, ¬WritesRegister call := by
  intro call hcall
  rw [work_eq] at hcall
  cases hrequest : requestOf j.handlers (lend l.buffer j.message) l.adapter with
  | none =>
    rw [(process_without_request j.lib j.retransmission rfl hrequest).2.2] at hcall
    exact absurd hcall List.not_mem_nil
  | some request =>
    obtain ⟨q, m'⟩ := request
    rw [(process_with_request j.lib j.retransmission rfl hrequest).2.1] at hcall
    by_cases hsend : j.send = .getDeviceInfoSend
    · rw [status_request hsend, h] at hrequest
      obtain ⟨rfl, -⟩ := Prod.mk.inj (Option.some.inj hrequest)
      rw [retry_repeats fun _ => rfl] at hcall
      rw [List.eq_of_mem_replicate hcall]
      exact id
    · exact absurd h (setter_request hsend hrequest).2

/-- The read is seen to succeed exactly if one of the attempts allowed does. -/
theorem read_succeeded_iff (h : j.Asks) {call : LibCall} {nb : ℤ}
    (hq : statusRead l.adapter.haStatus = some ⟨fun _ => call, true, nb⟩) :
    ReadSucceeded l j call nb ↔ j.Reads nb := by
  obtain ⟨m, -, hcalls, -, -⟩ := work_moved h hq
  rw [retry_repeats fun _ => rfl] at hcalls
  have hpos := passes_pos (Modbus.pass j.lib ⟨fun _ => call, true, nb⟩) j.retransmission
    ⟨m.buffer, 0, []⟩
  have hle := passes_le_budget (Modbus.pass j.lib ⟨fun _ => call, true, nb⟩) j.retransmission
    ⟨m.buffer, 0, []⟩
  unfold ReadSucceeded
  rw [hcalls]
  constructor
  · rintro ⟨k, hk, hret⟩
    have hlt := (List.getElem?_eq_some_iff.mp hk).1
    rw [List.length_replicate] at hlt
    exact ⟨k, lt_of_lt_of_le hlt hle, hret⟩
  · intro hreads
    have hlast := (last_return_iff (m := m) (q := ⟨fun _ => call, true, nb⟩)).mpr hreads
    refine ⟨_, ?_, hlast⟩
    rw [List.getElem?_replicate]
    exact if_pos (Nat.sub_lt hpos Nat.one_pos)

/-- A read that no attempt answers leaves the buffer of the worker. -/
theorem unread_buffer (h : j.Asks) {q : Request} (hq : statusRead l.adapter.haStatus = some q)
    (hkeep : FailuresKeep l j) (hfail : ¬j.Reads q.expected) :
    (work l j).message.buffer = l.buffer := by
  obtain ⟨m, hbuffer, -, hm, -⟩ := work_moved h hq
  have hrequest := status_request h.1 (lend l.buffer j.message) l.adapter
  rw [hq, Option.map_some] at hrequest
  rw [hbuffer, retry_keeps (hkeep _ _ hrequest) hfail, hm]

end Steps

section Exactness

variable {l t : Line} {j : Job}

/-- A step that hands nothing over is orderly. -/
theorem orderly_still (h : ¬(j.Asks ∧ statusRead l.adapter.haStatus ≠ none))
    (ht : step l j = some t) : Orderly l j t := by
  obtain rfl := Option.some.inj ht
  obtain ⟨hstatus, hconnected⟩ := work_still h
  exact {
    initialised := fun hinit hne => absurd (hstatus.trans hinit) hne
    connected := fun hwait hne => absurd (hstatus.trans hwait) hne
    filled := fun hne => absurd hconnected hne
    forward := by rw [hstatus]
    quiet := quiet_while_waiting }

theorem orderly_initial (h : j.Asks) (hstatus : l.adapter.haStatus = .waitInit)
    (hkeep : FailuresKeep l j) (ht : step l j = some t) :
    Orderly l j t ↔ j.Reads 1 ∨ wordAt l.buffer 0 ≠ 1 := by
  obtain rfl := Option.some.inj ht
  have hq : statusRead l.adapter.haStatus = some ⟨fun _ => initialisationRead, true, 1⟩ := by
    rw [hstatus]
    rfl
  obtain ⟨m, -, -, -, m', hm', hglobals⟩ := work_moved h hq
  have hhandled : (work l j).globals = if wordAt (work l j).message.buffer 0 = 1 then
      { l.adapter with haStatus := .waitConnect } else l.adapter := by
    rw [hglobals, ← hm']
    simp only [getDeviceInfoHandle, hstatus]
    split_ifs <;> rfl
  constructor
  · intro ho
    by_contra hneither
    push Not at hneither
    have hkept := unread_buffer h hq hkeep hneither.1
    rw [hkept, if_pos hneither.2] at hhandled
    have hread := (ho.initialised hstatus (by simp [hhandled])).1
    exact hneither.1 ((read_succeeded_iff h hq).mp hread)
  · intro hclean
    have hset : (work l j).globals.haStatus ≠ .waitInit →
        wordAt (work l j).message.buffer 0 = 1 := by
      intro hne
      by_contra hword
      exact hne (by rw [hhandled, if_neg hword, hstatus])
    exact {
      initialised := by
        intro _ hne
        refine ⟨(read_succeeded_iff h hq).mpr ?_, hset hne⟩
        by_contra hfail
        have hword := hset hne
        rw [unread_buffer h hq hkeep hfail] at hword
        exact hclean.elim hfail fun hnot => hnot hword
      connected := fun hwait => absurd (hstatus.symm.trans hwait) (by simp)
      filled := by
        intro hne
        refine absurd ?_ hne
        simp only [hhandled]
        split_ifs <;> rfl
      forward := by
        rw [hstatus]
        exact Nat.zero_le _
      quiet := quiet_while_waiting }

theorem orderly_connecting (h : j.Asks) (hstatus : l.adapter.haStatus = .waitConnect)
    (ht : step l j = some t) : Orderly l j t ↔ j.Reads 4 := by
  obtain rfl := Option.some.inj ht
  have hq : statusRead l.adapter.haStatus = some ⟨fun _ => connectionRead, true, 4⟩ := by
    rw [hstatus]
    rfl
  obtain ⟨m, -, -, -, m', -, hglobals⟩ := work_moved h hq
  have hmoved : (work l j).globals.haStatus = .normal := by
    rw [hglobals]
    simp only [getDeviceInfoHandle, hstatus]
  rw [← read_succeeded_iff h hq]
  constructor
  · exact fun ho => ho.connected hstatus (by simp [hmoved])
  · intro hread
    exact {
      initialised := fun hinit => absurd (hstatus.symm.trans hinit) (by simp)
      connected := fun _ _ => hread
      filled := fun _ => ⟨hstatus, hread⟩
      forward := by
        rw [hstatus, hmoved]
        decide
      quiet := quiet_while_waiting }

theorem orderly_iff (hkeep : FailuresKeep l j) (ht : step l j = some t) :
    Orderly l j t ↔ Clean l j := by
  by_cases h : j.Asks
  · cases hstatus : l.adapter.haStatus with
    | waitInit =>
      rw [orderly_initial h hstatus hkeep ht]
      simp [Clean, h, hstatus]
    | waitConnect =>
      rw [orderly_connecting h hstatus ht]
      simp [Clean, h, hstatus]
    | normal =>
      have ho := orderly_still (fun hread => hread.2 (by rw [hstatus]; rfl)) ht
      simp [Clean, ho, hstatus]
    | error =>
      have ho := orderly_still (fun hread => hread.2 (by rw [hstatus]; rfl)) ht
      simp [Clean, ho, hstatus]
  · have ho := orderly_still (fun hread => h hread.1) ht
    simp [Clean, h, ho]

/-- In every run the handshake is orderly throughout if and only if every
message that asks for the status is answered, or finds no 1 left over. -/
theorem handshake_orderly_iff (buffer : List Byte) (jobs : List Job)
    (hkeep : EveryStep step (fun l j _ => FailuresKeep l j) ⟨buffer, initialAdapter⟩ jobs) :
    EveryStep step Orderly ⟨buffer, initialAdapter⟩ jobs ↔
      EveryStep step (fun l j _ => Clean l j) ⟨buffer, initialAdapter⟩ jobs := by
  apply every_step_iff _ _ _ hkeep
  intro l j t ht hkept
  exact orderly_iff hkept ht

end Exactness

section Failure

/-- The driver asks for the status. -/
def ask (lib : ℕ → Reply) : Job where
  send := .getDeviceInfoSend
  recv := true
  method := .airGetDeviceInfo
  value := 0
  message := readCoil .doNothing
  retransmission := 3
  lib := lib

theorem ask_asks (lib : ℕ → Reply) : (ask lib).Asks := ⟨rfl, rfl, rfl⟩

def start : Line := ⟨List.replicate 512 0, initialAdapter⟩

theorem answered_at_once {q : Request} (hreads : q.reads = true) (hexpected : q.expected = 1)
    (retransmission : BitVec 32) (m : Message) :
    (retry answering q retransmission m).state.buffer = 1::m.buffer.drop 1 := by
  rw [retry, doWhile]
  simp [Modbus.pass, hreads, hexpected, answering]

theorem initialised_after_answer (l : Line) (hl : step start (ask answering) = some l) :
    l.adapter.haStatus = .waitConnect := by
  obtain rfl := Option.some.inj hl
  obtain ⟨m, hbuffer, -, hm, m', hm', hglobals⟩ := work_moved (ask_asks answering)
    (l := start) (q := ⟨fun _ => initialisationRead, true, 1⟩) rfl
  have hword : wordAt m'.buffer 0 = 1 := by
    rw [hm', hbuffer.trans (answered_at_once rfl rfl 3 m), hm]
    rfl
  have hinit : start.adapter.haStatus = .waitInit := rfl
  simp only [hglobals, getDeviceInfoHandle, hinit, hword, if_true]

theorem asked_twice_keeps :
    EveryStep step (fun l j _ => FailuresKeep l j) start [ask answering, ask silent] := by
  intro l _
  constructor
  · intro q m hrequest k hret
    rw [status_request rfl] at hrequest
    obtain ⟨rfl, -⟩ := Prod.mk.inj (Option.some.inj hrequest)
    exact absurd rfl hret
  · intro t _
    exact ⟨fun _ _ _ _ _ _ => rfl, trivial⟩

theorem asked_twice_exact : EveryStep step (fun l j _ => FailuresKeep l j) start
      [ask answering, ask silent] ∧
    (EveryStep step Orderly start [ask answering, ask silent] ↔
      EveryStep step (fun l j _ => Clean l j) start [ask answering, ask silent]) :=
  ⟨asked_twice_keeps, handshake_orderly_iff (List.replicate 512 0) [ask answering, ask silent]
    asked_twice_keeps⟩

/-- After the initialisation a read of the connections that fails three times
makes the adapter normal, and fills the table from the word read before. -/
theorem connected_without_answer :
    EveryStep step (fun l j _ => FailuresKeep l j) start [ask answering, ask silent] ∧
      (∃ l t, step start (ask answering) = some l ∧ step l (ask silent) = some t ∧
        t.adapter.haStatus = .normal) ∧
      ¬EveryStep step Orderly start [ask answering, ask silent] := by
  obtain ⟨l, hl⟩ : ∃ l, step start (ask answering) = some l := ⟨_, rfl⟩
  have hstatus := initialised_after_answer l hl
  refine ⟨asked_twice_keeps, ⟨l, _, hl, rfl, ?_⟩, ?_⟩
  · obtain ⟨-, -, -, -, m', -, hglobals⟩ := work_moved (ask_asks silent)
      (l := l) (q := ⟨fun _ => connectionRead, true, 4⟩) (by rw [hstatus]; rfl)
    simp only [hglobals, getDeviceInfoHandle, hstatus]
  · intro h
    obtain ⟨-, hrest⟩ := h l hl
    obtain ⟨horderly, -⟩ := hrest _ rfl
    obtain ⟨k, -, hret⟩ := (orderly_connecting (ask_asks silent) hstatus rfl).mp horderly
    exact absurd hret (by simp [ask, silent])

end Failure

end RS485.Handshake
