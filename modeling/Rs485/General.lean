import Rs485.Countdown
import Rs485.Records

/-!
# The worker of the general stack

The retry loop of `general_work_thread_function` with the send and receive
functions of `rs485.c`. A handle carries the fields the stack itself reads;
what a driver keeps in it besides is a parameter. The drivers' handlers are
functions on handles, and none of them reaches the retry counter.
-/

set_option autoImplicit false

namespace RS485.General
open RS485.Platform RS485.Records RS485.Countdown

def busMaxRetransmission : BitVec 32 := 3

/-- `struct mstp_port_handle` -/
structure Handle (δ : Type) where
  packageBuffer : List Byte
  packageBufferLen : ℤ
  exceptReply : Bool
  timeoutMs : BitVec 32
  data : δ

structure Handlers (δ : Type) where
  sendHandle : Option (Handle δ → ℤ × Handle δ)
  recvHandle : Option (Handle δ → ℤ × Handle δ)

/-- The answers of the serial port in one attempt. -/
structure Port where
  write : ℤ
  select : ℤ
  isset : Bool
  read : ℤ
  received : List Byte

variable {δ : Type}

/-- The error, the handle, and the frame if one was written. -/
def rs485SendHandleFrame (handlers : Handlers δ) (port : Port) (h : Handle δ) :
    ℤ × Handle δ × Option (List Byte) :=
  match handlers.sendHandle with
  | none => (-EPERM, h, none)
  | some send =>
    let (frameLen, h) := send h
    if frameLen < 0 then (frameLen, h, none)
    else
      let frame := h.packageBuffer.take frameLen.toNat
      if port.write ≠ frameLen then (-eio, h, some frame) else (0, h, some frame)

/-- The handle after a read of `port.read` bytes into the package buffer. -/
def Handle.filled (h : Handle δ) (port : Port) : Handle δ :=
  { h with
    packageBuffer := port.received.take port.read.toNat++h.packageBuffer.drop port.read.toNat
    packageBufferLen := port.read }

def rs485RecvHandleFrame (handlers : Handlers δ) (port : Port) (h : Handle δ) : ℤ × Handle δ :=
  if h.timeoutMs = 0#32 then (-EPERM, h)
  else if port.select < 0 then (port.select, h)
  else if port.select = 0 then (-eio, h)
  else if port.isset then
    let n := port.read
    if n ≤ 0 then (-eio, h)
    else
      let h := h.filled port
      match handlers.recvHandle with
      | none => (0, h)
      | some recv =>
        let (error, h) := recv h
        if error < 0 then (error, h) else (0, h)
  else (0, h)

structure Loop (δ : Type) where
  attempt : ℕ
  handle : Handle δ
  /-- the frames given to the port, one entry for each attempt -/
  frames : List (Option (List Byte))

section Work

variable (handlers : Handlers δ) (mtu : ℤ) (ports : ℕ → Port)

def pass (s : Loop δ) : Pass (Loop δ) :=
  let port := ports s.attempt
  let h := { s.handle with packageBufferLen := mtu }
  let (error, h, frame) := rs485SendHandleFrame handlers port h
  let frames := s.frames++[frame]
  if error ≠ 0 then .leave ⟨s.attempt+1, h, frames⟩
  else if h.exceptReply then
    let (error, h) := rs485RecvHandleFrame handlers port h
    .test ⟨s.attempt+1, h, frames⟩ (error ≠ 0)
  else .test ⟨s.attempt+1, h, frames⟩ (error ≠ 0)

def attempts (retransmission : BitVec 32) : BitVec 32 :=
  if retransmission > busMaxRetransmission then busMaxRetransmission else retransmission

/-- `general_work_thread_function` on the handle it took from the queue. -/
def generalWork (retransmission : BitVec 32) (h : Handle δ) : Outcome (Loop δ) :=
  doWhile (pass handlers mtu ports) (attempts retransmission) ⟨0, h, []⟩

/-- The driver's handler refuses what was read. -/
def Refused (port : Port) (h : Handle δ) : Prop :=
  ∃ recv, handlers.recvHandle = some recv ∧ (recv (h.filled port)).1 < 0

/-- No reply comes in time, or the driver refuses it. -/
def Unheard (port : Port) (h : Handle δ) : Prop :=
  h.timeoutMs = 0#32 ∨ port.select ≤ 0 ∨
    port.isset = true ∧ (port.read ≤ 0 ∨ Refused handlers port h)

/-- The frame goes out, a reply is expected, and none is accepted. -/
def Unanswered (port : Port) (h : Handle δ) : Prop :=
  ∃ send, handlers.sendHandle = some send ∧
    let sent := send { h with packageBufferLen := mtu }
    0 ≤ sent.1 ∧ port.write = sent.1 ∧ sent.2.exceptReply = true ∧ Unheard handlers port sent.2

theorem pass_counts (s : Loop δ) :
    (pass handlers mtu ports s).state.frames.length = s.frames.length + 1 := by
  simp only [pass]
  split_ifs <;> simp

/-- The worker makes as many attempts as its loop makes passes. -/
theorem attempts_are_passes (retransmission : BitVec 32) (h : Handle δ) :
    (generalWork handlers mtu ports retransmission h).state.frames.length =
      (generalWork handlers mtu ports retransmission h).passes := by
  have hc := passes_counted (pass handlers mtu ports) (fun s => s.frames.length)
    (pass_counts handlers mtu ports) (attempts retransmission) ⟨0, h, []⟩
  simpa [generalWork] using hc

theorem sent_iff (port : Port) (h : Handle δ) :
    (rs485SendHandleFrame handlers port h).1 = 0 ↔
      ∃ send, handlers.sendHandle = some send ∧ 0 ≤ (send h).1 ∧ port.write = (send h).1 := by
  unfold rs485SendHandleFrame
  cases handlers.sendHandle with
  | none => simp [EPERM]
  | some send =>
    by_cases hlen : (send h).1 < 0
    · simp [hlen, hlen.ne, not_le.mpr hlen]
    · by_cases hw : port.write = (send h).1 <;> simp [hlen, hw, not_lt.mp hlen, eio]

theorem sent_handle {port : Port} {h : Handle δ} {send : Handle δ → ℤ × Handle δ}
    (hs : handlers.sendHandle = some send) :
    (rs485SendHandleFrame handlers port h).2.1 = (send h).2 := by
  simp only [rs485SendHandleFrame, hs]
  split_ifs <;> rfl

theorem unheard_iff (port : Port) (h : Handle δ) :
    Unheard handlers port h ↔ (rs485RecvHandleFrame handlers port h).1 ≠ 0 := by
  unfold Unheard Refused rs485RecvHandleFrame
  by_cases ht : h.timeoutMs = 0#32
  · simp [ht, EPERM]
  · rcases lt_trichotomy port.select 0 with hs | hs | hs
    · simp [ht, hs, hs.le, hs.ne]
    · simp [ht, hs, eio]
    · have hne : ¬port.select < 0 ∧ port.select ≠ 0 ∧ ¬port.select ≤ 0 := by omega
      by_cases hset : port.isset = true
      · by_cases hr : port.read ≤ 0
        · simp [ht, hne, hset, hr, eio]
        · cases handlers.recvHandle with
          | none => simp [ht, hne, hset, hr]
          | some recv =>
            by_cases he : (recv (h.filled port)).1 < 0
            · simp [ht, hne, hset, hr, he, he.ne]
            · simp [ht, hne, hset, hr, he]
      · simp [ht, hne, hset]

theorem again_iff_unanswered (h : Handle δ) :
    Again (pass handlers mtu ports) ⟨0, h, []⟩ ↔ Unanswered handlers mtu (ports 0) h := by
  have hpass : Again (pass handlers mtu ports) ⟨0, h, []⟩ ↔
      let sent := rs485SendHandleFrame handlers (ports 0) { h with packageBufferLen := mtu }
      sent.1 = 0 ∧ sent.2.1.exceptReply = true ∧ Unheard handlers (ports 0) sent.2.1 := by
    unfold Again
    simp only [pass, unheard_iff]
    split_ifs <;> simp_all
  rw [hpass]
  simp only [sent_iff]
  constructor
  · rintro ⟨⟨send, hs, hlen, hw⟩, hreply, hun⟩
    rw [sent_handle handlers hs] at hreply hun
    exact ⟨send, hs, hlen, hw, hreply, hun⟩
  · rintro ⟨send, hs, hlen, hw, hreply, hun⟩
    rw [sent_handle handlers hs]
    exact ⟨⟨send, hs, hlen, hw⟩, hreply, hun⟩

end Work

end RS485.General
