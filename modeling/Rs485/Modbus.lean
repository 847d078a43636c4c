import Rs485.Countdown
import Rs485.Records

/-!
# The worker of the modbus stack

`message_process` with one retry loop for each function code. The loops differ
in the library call they repeat, in the count they expect back and in the
length they report, so they are one loop with these three as parameters. The
replies of the library are given by a script; `γ` is what the drivers keep
between messages.
-/

set_option autoImplicit false

namespace RS485.Modbus
open RS485.Platform RS485.Records RS485.Countdown

inductive FunctionCode where
  | writeSignleCoil
  | readSignleCoil
  | writeMultipleCoils
  | readMultipleCoils
  | readInputBit
  | readInputMultipleBits
  | writeSignleRegister
  | readSignleRegister
  | writeMultipleRegisters
  | readMultipleRegisters
  | readInputRegister
  | readInputMultipleRegisters
  | doNothing
  | unsupported (code : ℤ)
  deriving DecidableEq

/-- `modbus_port_handle_t` -/
structure Message where
  code : FunctionCode
  deviceAddr : ℤ
  registerAddr : ℤ
  buffer : List Byte
  bufferLen : ℤ
  broadcast : Bool
  done : Bool

inductive LibCall where
  | setSlave (slave : ℤ)
  | writeBit (addr : ℤ) (status : Byte)
  | readBits (addr nb : ℤ)
  | writeBits (addr nb : ℤ) (data : List Byte)
  | readInputBits (addr nb : ℤ)
  | writeRegister (addr value : ℤ)
  | readRegisters (addr nb : ℤ)
  | writeRegisters (addr nb : ℤ) (data : List Byte)
  | readInputRegisters (addr nb : ℤ)
  deriving DecidableEq

/-- The return value of a call and what a read does to the buffer. -/
structure Reply where
  ret : ℤ
  fill : List Byte → List Byte

structure Handlers (γ : Type) where
  sendHandle : Option (Message → γ → ℤ × Message × γ)
  recvHandle : Option (Message → γ → Message × γ)

/-- What a retry loop repeats: the call, whether it reads into the buffer, and
the return value that ends the loop. -/
structure Request where
  call : List Byte → LibCall
  reads : Bool
  expected : ℤ

structure Loop where
  buffer : List Byte
  retval : ℤ
  /-- the calls made, latest last -/
  calls : List LibCall

section Process

variable {γ : Type} (handlers : Handlers γ) (lib : ℕ → Reply)

def pass (q : Request) (s : Loop) : Pass Loop :=
  let reply := lib s.calls.length
  let buffer := if q.reads then reply.fill s.buffer else s.buffer
  .test ⟨buffer, reply.ret, s.calls++[q.call s.buffer]⟩ (reply.ret ≠ q.expected)

/-- `do retval = call; while(--retransmission && retval != expected);` -/
def retry (q : Request) (retransmission : BitVec 32) (m : Message) : Outcome Loop :=
  doWhile (pass lib q) retransmission ⟨m.buffer, 0, []⟩

/-- The request of a function code, for the length the send handler returned. -/
def request (m : Message) (sendFrameLen : ℤ) : Option Request :=
  let addr := m.registerAddr
  let first := m.buffer.getD 0 0
  let second := m.buffer.getD 1 0
  match m.code with
  | .writeSignleCoil => some ⟨fun _ => .writeBit addr first, false, 1⟩
  | .readSignleCoil => some ⟨fun _ => .readBits addr 1, true, 1⟩
  | .writeMultipleCoils => some ⟨.writeBits addr sendFrameLen, false, sendFrameLen⟩
  | .readMultipleCoils => some ⟨fun _ => .readBits addr sendFrameLen, true, sendFrameLen⟩
  | .readInputBit => some ⟨fun _ => .readInputBits addr 1, true, 1⟩
  | .readInputMultipleBits =>
    some ⟨fun _ => .readInputBits addr sendFrameLen, true, sendFrameLen⟩
  | .writeSignleRegister =>
    some ⟨fun _ => .writeRegister addr (first.toNat * 256 + second.toNat), false, 1⟩
  | .readSignleRegister => some ⟨fun _ => .readRegisters addr 1, true, 1⟩
  | .writeMultipleRegisters => some ⟨.writeRegisters addr sendFrameLen, false, sendFrameLen⟩
  | .readMultipleRegisters => some ⟨fun _ => .readRegisters addr sendFrameLen, true, sendFrameLen⟩
  | .readInputRegister => some ⟨fun _ => .readInputRegisters addr 1, true, 1⟩
  | .readInputMultipleRegisters =>
    some ⟨fun _ => .readInputRegisters addr sendFrameLen, true, sendFrameLen⟩
  | .doNothing => none
  | .unsupported _ => none

/-- `buffer_len` as `recv_handle` finds it: two of the codes report one item
whatever the call returned. -/
def replyLen (code : FunctionCode) (retval : ℤ) : ℤ :=
  match code with
  | .readSignleCoil => 1
  | .readInputBit => 1
  | _ => retval

/-- The message and the drivers' state afterwards, and the calls made. -/
structure Processed (γ : Type) where
  message : Message
  globals : γ
  slave : Option ℤ
  calls : List LibCall

def messageProcess (retransmission : BitVec 32) (m : Message) (g : γ) : Processed γ :=
  match handlers.sendHandle with
  | none => ⟨{ m with done := true }, g, none, []⟩
  | some send =>
    let (sendFrameLen, m, g) := send m g
    if sendFrameLen < 0 then ⟨{ m with done := true }, g, none, []⟩
    else
      match request m sendFrameLen with
      | none =>
        match m.code with
        | .doNothing => ⟨m, g, some m.deviceAddr, []⟩
        | _ => ⟨{ m with done := true }, g, some m.deviceAddr, []⟩
      | some q =>
        let o := (retry lib q retransmission m).state
        let sent := { m with buffer := o.buffer }
        if q.reads ∧ m.broadcast = false then
          match handlers.recvHandle with
          | none => ⟨sent, g, some m.deviceAddr, o.calls⟩
          | some recv =>
            let (m, g) := recv { sent with bufferLen := replyLen m.code o.retval } g
            ⟨m, g, some m.deviceAddr, o.calls⟩
        else ⟨sent, g, some m.deviceAddr, o.calls⟩

/-- The request a message leads to, with the message as the send handler leaves it. -/
def requestOf (m : Message) (g : γ) : Option (Request × Message) :=
  match handlers.sendHandle with
  | none => none
  | some send =>
    let (sendFrameLen, m, _) := send m g
    if sendFrameLen < 0 then none else (request m sendFrameLen).map fun q => (q, m)

/-- A call is made, and it does not return the count the loop waits for. -/
def Unanswered (m : Message) (g : γ) : Prop :=
  ∃ q m', requestOf handlers m g = some (q, m') ∧ (lib 0).ret ≠ q.expected

theorem pass_counts (q : Request) (s : Loop) :
    (pass lib q s).state.calls.length = s.calls.length + 1 := by
  simp [pass]

theorem retry_calls (q : Request) (retransmission : BitVec 32) (m : Message) :
    (retry lib q retransmission m).state.calls.length = (retry lib q retransmission m).passes := by
  have h := passes_counted (pass lib q) (fun s => s.calls.length) (pass_counts lib q)
    retransmission ⟨m.buffer, 0, []⟩
  simpa [retry] using h

theorem retry_again_iff (q : Request) (m : Message) :
    Again (pass lib q) ⟨m.buffer, 0, []⟩ ↔ (lib 0).ret ≠ q.expected := by
  simp [Again, pass]

/-- A message makes the calls of its one retry loop, or none. -/
theorem process_calls (retransmission : BitVec 32) (m : Message) (g : γ) :
    (messageProcess handlers lib retransmission m g).calls.length =
      match requestOf handlers m g with
      | none => 0
      | some (q, m') => (retry lib q retransmission m').passes := by
  unfold messageProcess requestOf
  cases handlers.sendHandle with
  | none => rfl
  | some send =>
    by_cases hlen : (send m g).1 < 0
    · simp [hlen]
    · simp only [hlen, if_false]
      cases hq : request (send m g).2.1 (send m g).1 with
      | none =>
        simp only [Option.map_none]
        split <;> rfl
      | some q =>
        simp only [Option.map_some, ← retry_calls]
        split_ifs
        · cases handlers.recvHandle <;> rfl
        · rfl

variable {handlers} {send : Message → γ → ℤ × Message × γ} {m : Message} {g : γ}
  {q : Request} {m' : Message}

theorem process_without_request (retransmission : BitVec 32) (hs : handlers.sendHandle = some send)
    (h : requestOf handlers m g = none) :
    (messageProcess handlers lib retransmission m g).message.buffer = (send m g).2.1.buffer ∧
      (messageProcess handlers lib retransmission m g).globals = (send m g).2.2 ∧
      (messageProcess handlers lib retransmission m g).calls = [] := by
  unfold requestOf at h
  unfold messageProcess
  simp only [hs] at h ⊢
  by_cases hlen : (send m g).1 < 0
  · simp only [hlen, if_true, and_self]
  · simp only [hlen, if_false, Option.map_eq_none_iff] at h ⊢
    rw [h]
    cases (send m g).2.1.code <;> exact ⟨rfl, rfl, rfl⟩

theorem request_made (hs : handlers.sendHandle = some send)
    (h : requestOf handlers m g = some (q, m')) : ¬(send m g).1 < 0 ∧
      request (send m g).2.1 (send m g).1 = some q ∧ m' = (send m g).2.1 := by
  simp only [requestOf, hs] at h
  split_ifs at h with hlen
  obtain ⟨q', hq, hpair⟩ := Option.map_eq_some_iff.mp h
  obtain ⟨rfl, rfl⟩ := Prod.mk.inj hpair
  exact ⟨hlen, hq, rfl⟩

theorem process_with_request (retransmission : BitVec 32) (hs : handlers.sendHandle = some send)
    (h : requestOf handlers m g = some (q, m')) : m' = (send m g).2.1 ∧
      (messageProcess handlers lib retransmission m g).calls =
        (retry lib q retransmission m').state.calls ∧
      (messageProcess handlers lib retransmission m g).globals =
        match handlers.recvHandle with
        | none => (send m g).2.2
        | some recv =>
          if q.reads = true ∧ m'.broadcast = false then
            let o := (retry lib q retransmission m').state
            (recv { m' with
              buffer := o.buffer, bufferLen := replyLen m'.code o.retval } (send m g).2.2).2
          else (send m g).2.2 := by
  obtain ⟨hlen, hq, rfl⟩ := request_made hs h
  unfold messageProcess
  simp only [hs, hlen, if_false, hq]
  cases handlers.recvHandle with
  | none =>
    split_ifs <;> exact ⟨trivial, rfl, rfl⟩
  | some recv =>
    split_ifs <;> exact ⟨trivial, rfl, rfl⟩

/-- A receive handler that leaves the message alone leaves what was read. -/
theorem process_buffer (retransmission : BitVec 32) (hs : handlers.sendHandle = some send)
    (h : requestOf handlers m g = some (q, m'))
    (hrecv : ∀ recv, handlers.recvHandle = some recv → ∀ m g, (recv m g).1 = m) :
    (messageProcess handlers lib retransmission m g).message.buffer =
      (retry lib q retransmission m').state.buffer := by
  obtain ⟨hlen, hq, rfl⟩ := request_made hs h
  unfold messageProcess
  simp only [hs, hlen, if_false, hq]
  cases hr : handlers.recvHandle with
  | none => split_ifs <;> rfl
  | some recv =>
    split_ifs
    · simp only [hrecv recv hr]
    · rfl

end Process

section Worker

variable {γ : Type} (handlers : Handlers γ)

def rs485ModbusMtu : ℤ := 512
def doSomethingsMaxCounts : ℕ := 3

/-- `do message_process(message, fd); while(!message->done && --done_counts);`
with the calls made before. Each call has taken one off `retransmission`. -/
def processWhile (lib : ℕ → Reply) (calls : List LibCall) :
    ℕ → BitVec 32 → Message → γ → Processed γ
  | 0, _, m, g => ⟨m, g, none, calls⟩
  | counts+1, retransmission, m, g =>
    let p := messageProcess handlers (fun k => lib (calls.length+k)) retransmission m g
    if p.message.done = false ∧ counts ≠ 0 then
      processWhile lib (calls++p.calls) counts
        (retransmission - BitVec.ofNat 32 p.calls.length) p.message p.globals
    else { p with calls := calls++p.calls }

/-- A message on its way through `modbus_work_thread_function`, which lends it
the one buffer of the thread. -/
def lend (buffer : List Byte) (m : Message) : Message :=
  { m with buffer := buffer, bufferLen := rs485ModbusMtu, done := true }

def modbusWork (lib : ℕ → Reply) (retransmission : BitVec 32) (buffer : List Byte) (m : Message)
    (g : γ) : Processed γ :=
  processWhile handlers lib [] doSomethingsMaxCounts retransmission (lend buffer m) g

theorem process_done (lib : ℕ → Reply) (retransmission : BitVec 32) {m : Message} (g : γ)
    (hsend : ∀ send, handlers.sendHandle = some send → ∀ m g, (send m g).2.1.done = m.done)
    (hrecv : ∀ recv, handlers.recvHandle = some recv → ∀ m g, (recv m g).1.done = m.done)
    (hm : m.done = true) :
    (messageProcess handlers lib retransmission m g).message.done = true := by
  unfold messageProcess
  cases hs : handlers.sendHandle with
  | none => rfl
  | some send =>
    have hsent := (hsend send hs m g).trans hm
    by_cases hlen : (send m g).1 < 0
    · simp only [hlen, if_true]
    · simp only [hlen, if_false]
      cases request (send m g).2.1 (send m g).1 with
      | none =>
        simp only
        split
        · exact hsent
        · rfl
      | some q =>
        simp only
        split_ifs
        · cases hr : handlers.recvHandle with
          | none => exact hsent
          | some recv =>
            simp only
            rw [hrecv recv hr]
            exact hsent
        · exact hsent

/-- A message that no handler keeps open is processed once. -/
theorem work_once (lib : ℕ → Reply) (retransmission : BitVec 32) (buffer : List Byte) (m : Message)
    (g : γ)
    (hsend : ∀ send, handlers.sendHandle = some send → ∀ m g, (send m g).2.1.done = m.done)
    (hrecv : ∀ recv, handlers.recvHandle = some recv → ∀ m g, (recv m g).1.done = m.done) :
    modbusWork handlers lib retransmission buffer m g =
      messageProcess handlers lib retransmission (lend buffer m) g := by
  have hdone := process_done handlers lib retransmission (m := lend buffer m) g hsend hrecv rfl
  simp [modbusWork, doSomethingsMaxCounts, processWhile, hdone]

end Worker

end RS485.Modbus
