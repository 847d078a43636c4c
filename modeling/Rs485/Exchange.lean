import Rs485.Countdown
import Rs485.Mdev

/-!
# Exchanging a message with a device

`do_bus_message` of the custom stack with the two helpers of `interface.c` it
calls. A script gives what the driver's callbacks and the serial port answer
in each attempt, so that a theorem for every script covers every behaviour of
theirs. The result lists what the function did, one list for each attempt.
-/

set_option autoImplicit false

namespace RS485.Exchange
open RS485.Platform RS485.Records RS485.Countdown RS485.Mdev

def customStackBufferSize : ℕ := 256
def customDataRetransmissionMax : BitVec 32 := 3
def customDataTimeoutMax : BitVec 32 := 1000

abbrev Buffer := Vector Byte 256

structure Answers where
  getRet : ℤ
  getBuffer : Buffer
  getBroadcast : Bool
  write : ℤ
  select : ℤ
  isset : Bool
  read : ℤ
  readBuffer : Buffer
  put : ℤ

inductive Event where
  | get (arg : WriteDevice) (ret : ℤ)
  | send (frame : List Byte) (ret : ℤ)
  | recv (timeout : BitVec 32) (ret : ℤ)
  | put (frame : List Byte) (len : ℤ) (arg : WriteDevice) (profile : Option ℕ) (ret : ℤ)
  | usleep (usec : ℕ)
  deriving DecidableEq

def interfaceSendAFrame (frame : Option (List Byte)) (a : Answers) : ℤ :=
  match frame with
  | none => -EINVAL
  | some _ => a.write

def interfaceRecvAFrame (frame : Option Buffer) (a : Answers) : ℤ × Option Buffer :=
  match frame with
  | none => (-EINVAL, none)
  | some buffer =>
    if a.select < 0 then (a.select, some buffer)
    else if a.select = 0 then (-ETIMEDOUT, some buffer)
    else if a.isset then (a.read, some a.readBuffer)
    else (a.select, some buffer)

/-- The variables of the loop, the number of the attempt, and what was done. -/
structure Loop where
  attempt : ℕ
  buffer : Buffer
  broadcast : Bool
  done : List (List Event)

def Loop.ended (s : Loop) (events : List Event) (buffer : Buffer) (broadcast : Bool) : Loop :=
  ⟨s.attempt+1, buffer, broadcast, s.done++[events]⟩

section Attempt

variable (driver : Rs485Driver) (profile : Option ℕ) (message : WriteDevice)

/-- The second half of an attempt, after the frame was sent. -/
def receive (a : Answers) (s : Loop) (events : List Event) (buffer : Buffer) (broadcast : Bool) :
    Pass Loop :=
  if driver.data.broadcast then .leave (s.ended events buffer broadcast)
  else if broadcast then .leave (s.ended events buffer broadcast)
  else
    let timeout := driver.data.receiveTimeoutMs
    let timeout := if timeout > customDataTimeoutMax then customDataTimeoutMax else timeout
    let (retval, reply) := interfaceRecvAFrame (some buffer) a
    let buffer := reply.getD buffer
    let events := events++[.recv timeout retval]
    if retval > 0 then
      if driver.put then
        let frame := buffer.toList.take retval.toNat
        let events := events++[.put frame retval message profile a.put]
        .test (s.ended events buffer broadcast) (a.put ≠ 0)
      else .leave (s.ended events buffer broadcast)
    else .test (s.ended (events++[.usleep 5000]) buffer broadcast) (retval ≠ 0)

def pass (script : ℕ → Answers) (s : Loop) : Pass Loop :=
  let a := script s.attempt
  if driver.get then
    let retval := a.getRet
    let events : List Event := [.get message retval]
    if retval < 0 ∨ retval > customStackBufferSize then
      .leave (s.ended events a.getBuffer a.getBroadcast)
    else
      let frame := a.getBuffer.toList.take retval.toNat
      let retval := interfaceSendAFrame (some frame) a
      let events := events++[.send frame retval]
      if retval ≠ 0 then .leave (s.ended events a.getBuffer a.getBroadcast)
      else receive driver profile message a s events a.getBuffer a.getBroadcast
  else receive driver profile message a s [] s.buffer s.broadcast

/-- `retransmission` after the clamp. -/
def attempts : BitVec 32 :=
  if driver.data.retransmission > customDataRetransmissionMax then customDataRetransmissionMax
  else driver.data.retransmission

def begin : Loop := ⟨0, Vector.replicate 256 0, false, []⟩

def exchange (script : ℕ → Answers) : Outcome Loop :=
  doWhile (pass driver profile message script) (attempts driver) begin

end Attempt

/-- The attempts made, each with what was done in it; no result where a pointer
to something that is no device is followed. -/
def doBusMessage (table : Memory) (device : DevPtr → Option Rs485Device)
    (driver : DrvPtr → Rs485Driver) (message : WriteDevice) (script : ℕ → Answers) :
    Option (List (List Event)) :=
  match getDeviceById table message.deviceId with
  | none => some []
  | some p => do
    let d ← device p
    match d.driver with
    | none => some []
    | some drv => some (exchange (driver drv) d.deviceData message script).state.done

section Count

variable (driver : Rs485Driver) (profile : Option ℕ) (message : WriteDevice)

/-- No reply comes, or the driver refuses it. A read of no bytes counts as neither. -/
def Unheard (a : Answers) : Prop :=
  a.select ≤ 0 ∨ (a.isset = true ∧ a.read < 0) ∨
    (a.isset = true → 0 < a.read) ∧ driver.put = true ∧ a.put ≠ 0

/-- The attempt sends nothing or nothing is written, and it ends with no reply
or with one that the driver refuses. -/
def Unanswered (a : Answers) : Prop :=
  (driver.get = true → 0 ≤ a.getRet ∧ a.getRet ≤ 256 ∧ a.write = 0 ∧ a.getBroadcast = false) ∧
    driver.data.broadcast = false ∧ Unheard driver a

theorem receive_counts (a : Answers) (s : Loop) (events : List Event) (buffer : Buffer)
    (broadcast : Bool) :
    (receive driver profile message a s events buffer broadcast).state.done.length =
      s.done.length + 1 := by
  simp only [receive]
  split_ifs <;> simp [Loop.ended]

theorem pass_counts (script : ℕ → Answers) (s : Loop) :
    (pass driver profile message script s).state.done.length = s.done.length + 1 := by
  simp only [pass]
  split_ifs <;> simp [Loop.ended, receive_counts]

/-- The function makes as many attempts as its loop makes passes. -/
theorem attempts_are_passes (script : ℕ → Answers) :
    (exchange driver profile message script).state.done.length =
      (exchange driver profile message script).passes := by
  have h := passes_counted (pass driver profile message script) (fun s => s.done.length)
    (pass_counts driver profile message script) (attempts driver) begin
  simpa [exchange, begin] using h

theorem unheard_iff (a : Answers) (buffer : Buffer) :
    Unheard driver a ↔
      let retval := (interfaceRecvAFrame (some buffer) a).1
      if retval > 0 then driver.put = true ∧ a.put ≠ 0 else retval ≠ 0 := by
  have htimeout : ¬ETIMEDOUT < 0 ∧ ETIMEDOUT ≠ 0 := by decide
  simp only [Unheard, interfaceRecvAFrame]
  rcases lt_trichotomy a.select 0 with hs | hs | hs
  · simp [hs, hs.le, hs.ne, not_lt.mpr hs.le]
  · simp [hs, htimeout]
  · have hne : ¬a.select < 0 ∧ a.select ≠ 0 ∧ ¬a.select ≤ 0 := by omega
    by_cases hset : a.isset = true
    · rcases lt_trichotomy a.read 0 with hr | hr | hr
      · simp [hne, hset, hr, hr.ne, not_lt.mpr hr.le]
      · simp [hne, hset, hr]
      · simp [hne, hset, hr, not_lt.mpr hr.le]
    · simp [hne, hset, hs]

theorem receive_again_iff (a : Answers) (s : Loop) (events : List Event) (buffer : Buffer)
    (broadcast : Bool) :
    (∃ t, receive driver profile message a s events buffer broadcast = .test t true) ↔
      driver.data.broadcast = false ∧ broadcast = false ∧ Unheard driver a := by
  rw [unheard_iff driver a buffer]
  simp only [receive]
  split_ifs <;> simp_all

theorem again_iff_unanswered (script : ℕ → Answers) :
    Again (pass driver profile message script) begin ↔ Unanswered driver (script 0) := by
  have hfirst : begin.attempt = 0 := rfl
  have hsend (frame) : interfaceSendAFrame (some frame) (script 0) = (script 0).write := rfl
  have hsize : (customStackBufferSize : ℤ) = 256 := rfl
  unfold Again Unanswered
  simp only [pass, hfirst, hsend, hsize]
  by_cases hget : driver.get = true
  · simp only [hget, if_true, forall_const]
    by_cases hlen : (script 0).getRet < 0 ∨ (script 0).getRet > 256
    · simp only [hlen, if_true, reduceCtorEq, exists_false, false_iff]
      rintro ⟨⟨h0, h1, -⟩, -⟩
      omega
    · simp only [hlen, if_false]
      have hin : 0 ≤ (script 0).getRet ∧ (script 0).getRet ≤ 256 := by omega
      by_cases hw : (script 0).write = 0
      · simp only [hw, ne_eq, not_true_eq_false, if_false, receive_again_iff]
        tauto
      · simp [hw]
  · simp only [hget, if_false, receive_again_iff, false_implies, true_and, Bool.false_eq_true]
    exact ⟨fun h => ⟨h.1, h.2.2⟩, fun h => ⟨h.1, rfl, h.2⟩⟩

end Count

/-- The length of the reply that came in. -/
def replyLength : Event → Option ℤ
  | .recv _ ret => if ret > 0 then some ret else none
  | _ => none

/-- The length of the reply that was handed to the driver. -/
def putLength : Event → Option ℤ
  | .put _ len _ _ _ => some len
  | _ => none

def refused : Event → Bool
  | .put _ _ _ _ ret => ret ≠ 0
  | _ => false

/-- A request is answered: every attempt waits for the reply, a reply goes to
the driver once, and another attempt follows a reply that is missing or refused
as long as attempts are left. -/
structure RequestReply (limit : ℕ) (made : List (List Event)) : Prop where
  begun : made ≠ []
  waits : ∀ events ∈ made, ∃ timeout ret, .recv timeout ret ∈ events
  passed : ∀ events ∈ made, events.filterMap putLength = events.filterMap replyLength
  again : ∀ i (h : i < made.length), i+1 < made.length ↔
    i+1 < limit ∧ (made[i].filterMap replyLength = [] ∨ made[i].any refused)

/-- The driver asks for a reply to a frame of its own, and the port takes the
whole frame. -/
structure Unicast (driver : Rs485Driver) (script : ℕ → Answers) : Prop where
  get : driver.get = true
  put : driver.put = true
  retransmission : 1 ≤ driver.data.retransmission.toNat
  single : driver.data.broadcast = false
  frame : ∀ i, 1 ≤ (script i).getRet ∧ (script i).getRet ≤ 256
  unmarked : ∀ i, (script i).getBroadcast = false
  written : ∀ i, (script i).write = (script i).getRet

/-- The number of bytes written is taken for an error. -/
theorem full_write_leaves {driver : Rs485Driver} {script : ℕ → Answers}
    (h : Unicast driver script) (profile : Option ℕ) (message : WriteDevice) (s : Loop) :
    pass driver profile message script s = .leave
      (s.ended [.get message (script s.attempt).getRet,
        .send ((script s.attempt).getBuffer.toList.take (script s.attempt).getRet.toNat)
          (script s.attempt).getRet] (script s.attempt).getBuffer false) := by
  have hframe := h.frame s.attempt
  have hin : ¬((script s.attempt).getRet < 0 ∨
      (script s.attempt).getRet > customStackBufferSize) := by
    show ¬(_ ∨ _ > (256 : ℤ))
    omega
  have hsent : interfaceSendAFrame
      (some ((script s.attempt).getBuffer.toList.take (script s.attempt).getRet.toNat))
      (script s.attempt) = (script s.attempt).getRet := h.written s.attempt
  have hne : (script s.attempt).getRet ≠ 0 := by omega
  simp only [pass, h.get, hin, hsent, hne, h.unmarked, if_true, if_false, ne_eq, not_false_eq_true,
    List.cons_append, List.nil_append]

section Request

variable {table : Memory} {device : DevPtr → Option Rs485Device} {driver : DrvPtr → Rs485Driver}
  {message : WriteDevice} {script : ℕ → Answers} {p : DevPtr} {d : Rs485Device} {drv : DrvPtr}

theorem request_made_once (hp : getDeviceById table message.deviceId = some p)
    (hd : device p = some d) (hdrv : d.driver = some drv) (h : Unicast (driver drv) script) :
    doBusMessage table device driver message script = some [[.get message (script 0).getRet,
      .send ((script 0).getBuffer.toList.take (script 0).getRet.toNat) (script 0).getRet]] := by
  have hpass := full_write_leaves h d.deviceData message begin
  have hloop := doWhile_left hpass (attempts (driver drv))
  simp only [doBusMessage, hp, hd, hdrv, Option.bind_eq_bind, Option.bind_some, exchange, hloop]
  rfl

theorem unread_reply_fails (limit : ℕ) (arg : WriteDevice) (n m : ℤ) (frame : List Byte) :
    ¬RequestReply limit [[.get arg n, .send frame m]] := by
  intro h
  obtain ⟨timeout, ret, hmem⟩ := h.waits _ (List.mem_singleton_self _)
  simp at hmem

/-- Whatever the device would answer, nobody waits for it. -/
theorem request_reply_never (hp : getDeviceById table message.deviceId = some p)
    (hd : device p = some d) (hdrv : d.driver = some drv) (h : Unicast (driver drv) script) :
    ∃ made, doBusMessage table device driver message script = some made ∧
      ¬RequestReply (min (driver drv).data.retransmission.toNat 3) made :=
  ⟨_, request_made_once hp hd hdrv h, unread_reply_fails _ _ _ _ _⟩

end Request

def curtainDriver : Rs485Driver :=
  ⟨"dooya".toList, false, false, true, true, ⟨3, 500, false⟩⟩

def curtain : Rs485Device :=
  ⟨1, ⟨[], some "dooya".toList, fun _ => 0⟩, none, some 0, ⟨[], none, false, some 0, some 0⟩⟩

def oneByteEach : Answers :=
  ⟨1, Vector.replicate 256 0x55, false, 1, 1, true, 1, Vector.replicate 256 0x55, 0⟩

theorem curtain_request_unanswered :
    ∃ made, doBusMessage (store emptyTable 1 (some 0)) (fun _ => some curtain)
        (fun _ => curtainDriver) ⟨1, false, 0, 0, 0⟩ (fun _ => oneByteEach) = some made ∧
      ¬RequestReply (min (3#32).toNat 3) made :=
  request_reply_never rfl rfl rfl
    ⟨rfl, rfl, by decide, rfl, fun _ => by decide, fun _ => rfl, fun _ => rfl⟩

/-- The reply is there, and the request is over before anyone looks for it. -/
theorem reply_never_read :
    doBusMessage (store emptyTable 1 (some 0)) (fun _ => some curtain) (fun _ => curtainDriver)
        ⟨1, false, 0, 0, 0⟩ (fun _ => oneByteEach) =
      some [[.get ⟨1, false, 0, 0, 0⟩ 1, .send [0x55] 1]] ∧
    ¬RequestReply 3 [[.get ⟨1, false, 0, 0, 0⟩ 1, .send [0x55] 1]] := by
  constructor
  · exact request_made_once rfl rfl rfl
      ⟨rfl, rfl, by decide, rfl, fun _ => by decide, fun _ => rfl, fun _ => rfl⟩
  · exact unread_reply_fails _ _ _ _ _

end RS485.Exchange
