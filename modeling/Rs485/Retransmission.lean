import Rs485.Frames

/-!
# Retransmissions

The loop of the general worker calls the send handler of the driver once for
each attempt, on a handle that the attempts before have changed: the buffer and
its length by the replies, the address and `except_reply` by the handler itself.
Encoding once more gives the same frame nevertheless.
-/

set_option autoImplicit false

namespace RS485.Retransmission
open RS485.Platform RS485.Records RS485.Countdown RS485.General RS485.Encoders

/-- What a send handler makes of a request: its return value, the bytes it puts
to the start of the buffer, and what it leaves in the handle. -/
structure Encoding where
  ret : ℤ
  frame : List Byte
  exceptReply : Bool
  data : Target
  written : ret < 0 ∨ ret = frame.length

theorem Encoding.frame_length (e : Encoding) (hret : 0 ≤ e.ret) : e.ret.toNat = e.frame.length := by
  have := e.written
  omega

/-- The handler does so whatever the buffer holds. -/
def Yields (driver : Driver) (len : ℤ) (exceptReply : Bool) (data : Target) (e : Encoding) :
    Prop :=
  ∀ buffer timeoutMs, sendPackageHandle driver ⟨buffer, len, exceptReply, timeoutMs, data⟩ =
    (e.ret, ⟨putFrame buffer e.frame, len, e.exceptReply, timeoutMs, e.data⟩)

/-- Encoding what the handler left gives the same again. -/
def Stable (driver : Driver) (len : ℤ) (exceptReply : Bool) (data : Target) : Prop :=
  ∃ e, Yields driver len exceptReply data e ∧ Yields driver len e.exceptReply e.data e

section Encoders

variable {len : ℤ} {exceptReply : Bool} {data : Target}

/-- A number of bytes goes to the start of the buffer, or an error is returned. -/
def Copies (send : List Byte → ℤ × List Byte) : Prop :=
  ∃ (ret : ℤ) (frame : List Byte), (ret < 0 ∨ ret = frame.length) ∧
    ∀ buffer, send buffer = (ret, putFrame buffer frame)

theorem copies_nothing {error : ℤ} (herror : error ≤ 0) : Copies fun buffer => (error, buffer) := by
  refine ⟨error, [], ?_, fun _ => rfl⟩
  rw [List.length_nil, Nat.cast_zero]
  omega

theorem copies_frame (frame : List Byte) :
    Copies fun buffer => (frame.length, putFrame buffer frame) :=
  ⟨frame.length, frame, Or.inr rfl, fun _ => rfl⟩

theorem copies_fits (frame : List Byte) {error : ℤ} (herror : error < 0) :
    Copies fun buffer => putIfFits buffer len frame error := by
  unfold putIfFits
  split_ifs
  · exact copies_nothing herror.le
  · exact copies_frame frame

theorem stable_of_copies {driver : Driver} {send : List Byte → ℤ × List Byte} {exceptReply' : Bool}
    {data' : Target} (hcopies : Copies send)
    (hfirst : ∀ buffer timeoutMs, sendPackageHandle driver ⟨buffer, len, exceptReply, timeoutMs,
      data⟩ = ((send buffer).1, ⟨(send buffer).2, len, exceptReply', timeoutMs, data'⟩))
    (hagain : ∀ buffer timeoutMs, sendPackageHandle driver ⟨buffer, len, exceptReply', timeoutMs,
      data'⟩ = ((send buffer).1, ⟨(send buffer).2, len, exceptReply', timeoutMs, data'⟩)) :
    Stable driver len exceptReply data := by
  obtain ⟨ret, frame, hwritten, hsend⟩ := hcopies
  simp only [hsend] at hfirst hagain
  exact ⟨⟨ret, frame, exceptReply', data', hwritten⟩, hfirst, hagain⟩

theorem stable_refused {driver : Driver} {error : ℤ} (herror : error ≤ 0)
    (h : ∀ buffer timeoutMs, sendPackageHandle driver ⟨buffer, len, exceptReply, timeoutMs, data⟩ =
      (error, ⟨buffer, len, exceptReply, timeoutMs, data⟩)) : Stable driver len exceptReply data :=
  stable_of_copies (copies_nothing herror) h h

theorem doya_package_copies (package : Package) :
    Copies fun buffer => doyaSendPackage buffer len package := by
  unfold doyaSendPackage
  split_ifs
  · exact copies_nothing (by decide)
  · exact copies_nothing (by decide)
  · exact copies_fits _ (by decide)

theorem doya_stable : Stable .doya len exceptReply data := by
  by_cases hlen : data.addressLen < 2
  · exact stable_refused (show (-1 : ℤ) ≤ 0 by decide) fun _ _ => if_pos hlen
  · -- the reply is switched off for good if the low byte of the address is 0
    obtain ⟨muted, hmuted⟩ : ∃ muted : Bool,
        muted = decide ((Package.zeroed data).addrLow = broadMask) := ⟨_, rfl⟩
    have hsend : ∀ reply buffer timeoutMs,
        sendPackageHandle .doya ⟨buffer, len, reply, timeoutMs, data⟩ =
          (((doyaPackage data).elim (-1, buffer) (doyaSendPackage buffer len)).1,
            ⟨((doyaPackage data).elim (-1, buffer) (doyaSendPackage buffer len)).2, len,
              reply && !muted, timeoutMs, data⟩) := by
      intro reply buffer timeoutMs
      by_cases hlow : (Package.zeroed data).addrLow = broadMask <;>
        cases hpackage : doyaPackage data <;>
        simp [sendPackageHandle, doyaSendPackageHandle, hlen, hlow, hmuted, hpackage]
    have hcopies : Copies fun buffer =>
        (doyaPackage data).elim (-1, buffer) (doyaSendPackage buffer len) := by
      cases doyaPackage data with
      | none => exact copies_nothing (by decide)
      | some package => exact doya_package_copies package
    apply stable_of_copies hcopies (hsend exceptReply)
    intro buffer timeoutMs
    rw [hsend, Bool.and_assoc, Bool.and_self]

theorem aoke_address_again (data : Target) : aokeAddress (aokeAddress data) = aokeAddress data := by
  by_cases hb : data.broadcast = true
  · simp only [aokeAddress, hb, if_true]
    congr 1
    funext i
    split_ifs <;> rfl
  · have hdata : aokeAddress data = data := if_neg hb
    rw [hdata, hdata]

theorem aoke_address_len (data : Target) : (aokeAddress data).addressLen = data.addressLen := by
  unfold aokeAddress
  split_ifs <;> rfl

def aokeCopy (package : Option AokePackage) (buffer : List Byte) : ℤ × List Byte :=
  package.elim (-1, buffer) fun package =>
    (7, putFrame buffer (aokeSi::package++[getCheck package]))

theorem aoke_copies (target : Target) : Copies (aokeCopy (aokePackage target)) := by
  cases hpackage : aokePackage target with
  | none => exact copies_nothing (by decide)
  | some package =>
    have h7 : (aokeSi::package++[getCheck package]).length = 7 := by
      simp [Frames.aoke_package_length hpackage]
    exact ⟨7, aokeSi::package++[getCheck package], Or.inr (by rw [h7]; rfl), fun _ => rfl⟩

theorem aoke_stable : Stable .aoke len exceptReply data := by
  by_cases haddress : data.addressLen ≠ 3
  · exact stable_refused (show (-1 : ℤ) ≤ 0 by decide) fun _ _ => if_pos haddress
  by_cases hlen : len % 2 ^ 32 < 7
  · exact stable_refused (show (-1 : ℤ) ≤ 0 by decide)
      fun _ _ => (if_neg haddress).trans (if_pos hlen)
  have hsend : ∀ target buffer timeoutMs, target.addressLen = data.addressLen →
      aokeAddress target = aokeAddress data →
      sendPackageHandle .aoke ⟨buffer, len, exceptReply, timeoutMs, target⟩ =
        ((aokeCopy (aokePackage (aokeAddress data)) buffer).1,
          ⟨(aokeCopy (aokePackage (aokeAddress data)) buffer).2, len, exceptReply, timeoutMs,
            aokeAddress data⟩) := by
    intro target buffer timeoutMs hsame htarget
    simp only [sendPackageHandle, aokeSendPackageHandle, hsame, haddress, hlen, htarget, if_false]
    cases aokePackage (aokeAddress data) <;> rfl
  exact stable_of_copies (aoke_copies (aokeAddress data))
    (fun buffer timeoutMs => hsend data buffer timeoutMs rfl rfl)
    fun buffer timeoutMs => hsend (aokeAddress data) buffer timeoutMs (aoke_address_len data)
      (aoke_address_again data)

theorem loreley_package_copies (addr cid : Byte) (bytes : List Byte) :
    Copies fun buffer => loreleySendPackage buffer len addr cid bytes := by
  unfold loreleySendPackage
  split_ifs
  · exact copies_fits _ (by decide)
  · exact copies_fits _ (by decide)
  · exact copies_fits _ (by decide)
  · exact copies_nothing (by decide)

theorem loreley_stable : Stable .loreley len exceptReply data := by
  by_cases haddress : data.addressLen ≠ 1
  · exact stable_refused (show (-1 : ℤ) ≤ 0 by decide) fun _ _ => if_pos haddress
  cases hcommand : loreleyCommand data.method with
  | none =>
    refine stable_refused (show (-1 : ℤ) ≤ 0 by decide) fun buffer timeoutMs => ?_
    simp [sendPackageHandle, loreleySendPackageHandle, haddress, hcommand]
  | some command =>
    have hsend : ∀ buffer timeoutMs,
        sendPackageHandle .loreley ⟨buffer, len, exceptReply, timeoutMs, data⟩ =
          ((loreleySendPackage buffer len (data.address 0) command.1 command.2).1,
            ⟨(loreleySendPackage buffer len (data.address 0) command.1 command.2).2, len,
              exceptReply, timeoutMs, data⟩) := by
      intro buffer timeoutMs
      simp [sendPackageHandle, loreleySendPackageHandle, haddress, hcommand]
    exact stable_of_copies (loreley_package_copies _ _ _) hsend hsend

theorem panasonnic_package_copies (addr cid : Byte) (bytes : List Byte) (n : ℤ) :
    Copies fun buffer => panasonnicSendPackage buffer len addr cid bytes n := by
  unfold panasonnicSendPackage
  split_ifs
  · exact copies_nothing (by decide)
  · exact copies_fits _ (by decide)
  · exact copies_fits _ (by decide)
  · exact copies_nothing (by decide)

theorem panasonnic_stable : Stable .panasonnic len exceptReply data := by
  by_cases haddress : data.addressLen ≠ 1
  · exact stable_refused (show -EPERM ≤ 0 by decide) fun _ _ => if_pos haddress
  have hsend : ∀ cid bytes n, (∀ buffer timeoutMs,
      sendPackageHandle .panasonnic ⟨buffer, len, exceptReply, timeoutMs, data⟩ =
        ((panasonnicSendPackage buffer len (data.address 0) cid bytes n).1,
          ⟨(panasonnicSendPackage buffer len (data.address 0) cid bytes n).2, len, exceptReply,
            timeoutMs, data⟩)) → Stable .panasonnic len exceptReply data :=
    fun cid bytes n h => stable_of_copies (panasonnic_package_copies _ _ _ _) h h
  cases hcommand : airCommand data.method with
  | some row =>
    apply hsend setAirArgCidSend (airCommandTable.getD row []) 5
    intro buffer timeoutMs
    simp [sendPackageHandle, panasonnicSendPackageHandle, haddress, hcommand]
  | none =>
    by_cases hmethod : data.method = .airGetDeviceInfo
    · apply hsend getAirInfoCidSend [] 0
      intro buffer timeoutMs
      simp [sendPackageHandle, panasonnicSendPackageHandle, haddress, airCommand, hmethod]
    · refine stable_refused le_rfl fun buffer timeoutMs => ?_
      simp [sendPackageHandle, panasonnicSendPackageHandle, haddress, hcommand, hmethod]

theorem stable (driver : Driver) (len : ℤ) (exceptReply : Bool) (data : Target) :
    Stable driver len exceptReply data := by
  cases driver with
  | doya => exact doya_stable
  | aoke => exact aoke_stable
  | loreley => exact loreley_stable
  | panasonnic => exact panasonnic_stable

end Encoders

section Attempts

variable (driver : Driver) (answer : Option (PortHandle → ℤ)) (mtu : ℤ) (ports : ℕ → Port)

/-- The driver's send handler and a receive handler, which as all of the four
reads the handle only. -/
def handlers : Handlers Target where
  sendHandle := some (sendPackageHandle driver)
  recvHandle := answer.map fun answer handle => (answer handle, handle)

/-- The send handler's call in the attempt number `k`. -/
def attempt (handle : PortHandle) (k : ℕ) : ℤ × PortHandle :=
  let s := entered (General.pass (handlers driver answer) mtu ports) ⟨0, handle, []⟩ k
  sendPackageHandle driver { s.handle with packageBufferLen := mtu }

/-- What is written in a call of the send handler. -/
def frameOf (sent : ℤ × PortHandle) : List Byte := sent.2.packageBuffer.take sent.1.toNat

/-- Every attempt for a message sends the frame of the first one, and expects a
reply if the first one does. -/
structure Repeats (retransmission : BitVec 32) (handle : PortHandle) : Prop where
  frames :
    let work := generalWork (handlers driver answer) mtu ports retransmission handle
    work.state.frames = List.replicate work.passes
      (some (frameOf (attempt driver answer mtu ports handle 0)))
  replies : ∀ k < (generalWork (handlers driver answer) mtu ports retransmission handle).passes,
    (attempt driver answer mtu ports handle k).2.exceptReply =
      (attempt driver answer mtu ports handle 0).2.exceptReply

/-- After `k` attempts the frame went to the port `k` times, and it would be
encoded again. -/
structure Kept (e : Encoding) (k : ℕ) (s : General.Loop Target) : Prop where
  yields : Yields driver mtu s.handle.exceptReply s.handle.data e
  frames : s.frames = List.replicate k (some e.frame)

variable {driver answer mtu ports} {e : Encoding}

theorem recv_keeps (driver : Driver) (answer : Option (PortHandle → ℤ)) (port : Port)
    (h : PortHandle) :
    (rs485RecvHandleFrame (handlers driver answer) port h).2.exceptReply = h.exceptReply ∧
      (rs485RecvHandleFrame (handlers driver answer) port h).2.data = h.data := by
  cases answer with
  | none =>
    simp only [rs485RecvHandleFrame, handlers, Option.map_none]
    split_ifs <;> exact ⟨rfl, rfl⟩
  | some answer =>
    simp only [rs485RecvHandleFrame, handlers, Option.map_some]
    split_ifs <;> exact ⟨rfl, rfl⟩

theorem send_yields (answer : Option (PortHandle → ℤ)) (port : Port) {h : PortHandle}
    (hyields : Yields driver mtu h.exceptReply h.data e) (hret : 0 ≤ e.ret) :
    ∃ error buffer, rs485SendHandleFrame (handlers driver answer) port
        { h with packageBufferLen := mtu } =
      (error, ⟨buffer, mtu, e.exceptReply, h.timeoutMs, e.data⟩, some e.frame) := by
  have hsend := hyields h.packageBuffer h.timeoutMs
  simp only [rs485SendHandleFrame, handlers, hsend, if_neg (not_lt.mpr hret),
    e.frame_length hret, Frames.put_take]
  split_ifs
  · exact ⟨_, _, rfl⟩
  · exact ⟨_, _, rfl⟩

theorem kept_pass (hagain : Yields driver mtu e.exceptReply e.data e) (hret : 0 ≤ e.ret) {k : ℕ}
    {s : General.Loop Target} (h : Kept driver mtu e k s) :
    Kept driver mtu e (k+1) (General.pass (handlers driver answer) mtu ports s).state := by
  obtain ⟨error, buffer, hsend⟩ := send_yields answer (ports s.attempt) h.yields hret
  have hframes : s.frames++[some e.frame] = List.replicate (k+1) (some e.frame) := by
    rw [h.frames, List.replicate_succ']
  simp only [General.pass, hsend]
  split_ifs
  · exact ⟨hagain, hframes⟩
  · obtain ⟨hreply, hdata⟩ := recv_keeps driver answer (ports s.attempt)
      ⟨buffer, mtu, e.exceptReply, s.handle.timeoutMs, e.data⟩
    refine ⟨?_, hframes⟩
    simp only [state_test, hreply, hdata]
    exact hagain
  · exact ⟨hagain, hframes⟩

theorem kept_entered (answer : Option (PortHandle → ℤ)) (ports : ℕ → Port)
    (hagain : Yields driver mtu e.exceptReply e.data e) (hret : 0 ≤ e.ret) {handle : PortHandle}
    (hfirst : Yields driver mtu handle.exceptReply handle.data e) (k : ℕ) :
    Kept driver mtu e k (entered (General.pass (handlers driver answer) mtu ports)
      ⟨0, handle, []⟩ k) := by
  induction k with
  | zero => exact ⟨hfirst, rfl⟩
  | succ k ih => exact kept_pass hagain hret ih

theorem frame_of_yields {handle : PortHandle} (hret : 0 ≤ e.ret)
    (hyields : Yields driver mtu handle.exceptReply handle.data e) :
    frameOf (sendPackageHandle driver { handle with packageBufferLen := mtu }) = e.frame := by
  rw [frameOf, hyields handle.packageBuffer handle.timeoutMs, e.frame_length hret, Frames.put_take]

/-- No driver sends anything else when it repeats a request it has accepted. -/
theorem retransmissions_repeat (driver : Driver) (answer : Option (PortHandle → ℤ)) (mtu : ℤ)
    (ports : ℕ → Port) (retransmission : BitVec 32) (handle : PortHandle)
    (haccepted : 0 ≤ (sendPackageHandle driver { handle with packageBufferLen := mtu }).1) :
    Repeats driver answer mtu ports retransmission handle := by
  obtain ⟨e, hfirst, hagain⟩ := stable driver mtu handle.exceptReply handle.data
  have hret : 0 ≤ e.ret := by
    rwa [hfirst handle.packageBuffer handle.timeoutMs] at haccepted
  have hkept := kept_entered answer ports hagain hret hfirst
  constructor
  · intro work
    have hstate : work.state = entered (General.pass (handlers driver answer) mtu ports)
        ⟨0, handle, []⟩ work.passes := doWhile_entered _ _ _
    rw [hstate, (hkept work.passes).frames]
    exact congrArg _ (congrArg some (frame_of_yields hret hfirst).symm)
  · intro k _
    have hreply : ∀ k,
      (attempt driver answer mtu ports handle k).2.exceptReply = e.exceptReply := by
      intro k
      rw [attempt, (hkept k).yields]
    rw [hreply k, hreply 0]

/-- A broadcast to an aoke curtain, whose address is replaced in the first
attempt, with the line dead each time. -/
def broadcastOpen : PortHandle where
  packageBuffer := List.replicate 20 0
  packageBufferLen := 20
  exceptReply := true
  timeoutMs := 500
  data := ⟨fun _ => 1, 3, true, .curtainOpen, 0, 7⟩

theorem broadcast_open_repeats :
    0 ≤ (sendPackageHandle .aoke { broadcastOpen with packageBufferLen := 20 }).1 ∧
      Repeats .aoke (some fun _ => -eio) 20 (fun _ => ⟨7, 0, false, 0, []⟩) 3 broadcastOpen :=
  ⟨by decide, retransmissions_repeat .aoke (some fun _ => -eio) 20
    (fun _ => ⟨7, 0, false, 0, []⟩) 3 broadcastOpen (by decide)⟩

end Attempts

end RS485.Retransmission
