import Rs485.Replies

/-!
# The checks of the curtain replies

The table-driven check of `doya.c` is the Modbus CRC-16. The driver compares it
with the end of a reply to a command, but not to a request of the device
information, and it does not refuse the replies that are too short for it.
-/

set_option autoImplicit false

namespace RS485.CurtainReplies
open RS485.Platform RS485.Records RS485.General RS485.Encoders RS485.Frames RS485.Replies

section Check

/-- The check of the tables is the bitwise one, and is 0 of bytes that end in
their own check. -/
theorem modbus_crc_residue (s : List Byte) :
    modbusCrc16 s = crcBytes s ∧ modbusCrc16 (s++modbusCrc16 s) = [0, 0] := by
  refine ⟨modbus_crc_eq s, ?_⟩
  have hbytes : crcBytes s = Crc.lowBytes (Crc.crc 0xa001#16 0xffff#16 s) 2 := by
    simp [crcBytes, Crc.lowBytes, List.range_succ]
  have hzero := Crc.crc_residue 0xa001#16 (by decide) (by decide : 16 ≤ 8*2) 0xffff#16 s
  rw [modbus_crc_eq s, modbus_crc_eq, crcBytes, hbytes, hzero]
  rfl

end Check

section Spec

variable (handle : PortHandle) (r : List Byte)

/-- The methods that command the curtain. -/
def commands : List DeviceMethod := [.curtainOpen, .curtainClose, .curtainSetPercent]

structure ValidReply : Prop where
  method : handle.data.method ∈ commands ∧ 3 ≤ r.length ∨
    handle.data.method = .curtainGetDeviceInfo ∧ r.length = 7
  check : r.drop (r.length-2) = crcBytes (r.take (r.length-2))

/-- Nothing outside the reply is read, 0 is returned exactly for a valid reply,
and any other is an error that stores nothing. -/
def Exact : Prop :=
  ∃ received, doyaRecvPackageHandle (holding handle r) = some received ∧
    (received.ret = 0 ↔ ValidReply handle r) ∧
    (¬ValidReply handle r → received.ret < 0 ∧ received.info = none)

/-- The replies the driver is exact about: to a command, any but one byte or two
bytes 0xff, and with the device information those of another length, those whose
check is two zeros, and those that end in neither two zeros nor their check. -/
structure Judged : Prop where
  command : handle.data.method ∈ commands → r.length ≠ 1 ∧ r ≠ [0xff, 0xff]
  info : handle.data.method = .curtainGetDeviceInfo → r.length = 7 →
    crcBytes (r.take 5) = [0, 0] ∨ r.drop 5 ≠ [0, 0] ∧ r.drop 5 ≠ crcBytes (r.take 5)

end Spec

section Receive

variable {handle : PortHandle} {r : List Byte}

/-- The replies the driver takes. -/
def Taken (handle : PortHandle) (r : List Byte) : Prop :=
  handle.data.method ∈ commands ∧ r.drop (r.length-2) = crcBytes (r.take (r.length-2)) ∨
    handle.data.method = .curtainGetDeviceInfo ∧ r.length = 7 ∧ r.drop 5 = [0, 0]

theorem command_not_info (hm : handle.data.method ∈ commands) :
    handle.data.method ≠ .curtainGetDeviceInfo := by
  rintro h
  simp [commands, h] at hm

theorem taken_of_command (hm : handle.data.method ∈ commands) :
    Taken handle r ↔ r.drop (r.length-2) = crcBytes (r.take (r.length-2)) := by
  simp [Taken, hm, command_not_info hm]

theorem taken_of_info (hm : handle.data.method = .curtainGetDeviceInfo) :
    Taken handle r ↔ r.length = 7 ∧ r.drop 5 = [0, 0] := by
  simp [Taken, commands, hm]

theorem not_taken (hcommand : handle.data.method ∉ commands)
    (hinfo : handle.data.method ≠ .curtainGetDeviceInfo) : ¬Taken handle r := by
  rintro (⟨h, -⟩ | ⟨h, -⟩)
  · exact hcommand h
  · exact hinfo h

/-- The length handed to the loop is -1, and it does not stop within the reply. -/
theorem receive_one (hm : handle.data.method ∈ commands) (hr : r.length = 1) :
    doyaRecvPackageHandle (holding handle r) = none := by
  unfold doyaRecvPackageHandle
  simp only [show (holding handle r).packageBufferLen = r.length from rfl,
    show (holding handle r).data = handle.data from rfl, hr]
  simp only [commands, List.mem_cons, List.not_mem_nil, or_false] at hm
  rcases hm with hm | hm | hm <;> simp [hm]

theorem receive_command (hm : handle.data.method ∈ commands) (hr : 2 ≤ r.length) :
    doyaRecvPackageHandle (holding handle r) =
      if crcBytes (r.take (r.length-2)) ≠ r.drop (r.length-2) then some ⟨-eio, none⟩
      else some ⟨0, none⟩ := by
  have hlong : ¬(r.length : ℤ) < 2 := by omega
  have hcount : ((r.length : ℤ)-2).toNat = r.length-2 := by omega
  unfold doyaRecvPackageHandle
  simp only [reply_holding, show (holding handle r).packageBufferLen = r.length from rfl,
    show (holding handle r).data = handle.data from rfl, hcount, modbus_crc_eq]
  simp only [commands, List.mem_cons, List.not_mem_nil, or_false] at hm
  rcases hm with hm | hm | hm <;> simp only [hm, if_neg hlong]

theorem receive_info (hm : handle.data.method = .curtainGetDeviceInfo) :
    ∃ received, doyaRecvPackageHandle (holding handle r) = some received ∧
      (Taken handle r ∧ received.ret = 0 ∨
        ¬Taken handle r ∧ received.ret < 0 ∧ received.info = none) := by
  unfold doyaRecvPackageHandle
  simp only [reply_holding, show (holding handle r).packageBufferLen = r.length from rfl,
    show (holding handle r).data = handle.data from rfl, hm, taken_of_info hm]
  by_cases hlength : r.length = 7
  · rw [if_neg (by simp [hlength])]
    by_cases hzero : r.drop 5 = [0, 0]
    · have hfour : 4 < r.length := by omega
      have hpercent : byteAt r 4 = some r[4] := by
        rw [← List.getElem?_eq_getElem]
        exact byte_at_nat 4
      rw [if_neg (not_not.mpr hzero), hpercent]
      exact ⟨_, rfl, Or.inl ⟨⟨hlength, hzero⟩, rfl⟩⟩
    · rw [if_pos hzero]
      exact ⟨_, rfl, Or.inr ⟨fun h => hzero h.2, by decide, rfl⟩⟩
  · rw [if_pos (by omega)]
    exact ⟨_, rfl, Or.inr ⟨fun h => hlength h.1, by decide, rfl⟩⟩

theorem receive_other (hcommand : handle.data.method ∉ commands)
    (hinfo : handle.data.method ≠ .curtainGetDeviceInfo) :
    doyaRecvPackageHandle (holding handle r) = some ⟨-EPERM, none⟩ := by
  unfold doyaRecvPackageHandle
  rw [show (holding handle r).data = handle.data from rfl]
  cases hm : handle.data.method <;> simp_all [commands]

/-- Unless a reply to a command has one byte, it is read and taken or refused. -/
theorem receive_taken (hr : 0 < r.length) (hone : handle.data.method ∈ commands → r.length ≠ 1) :
    ∃ received, doyaRecvPackageHandle (holding handle r) = some received ∧
      (Taken handle r ∧ received.ret = 0 ∨
        ¬Taken handle r ∧ received.ret < 0 ∧ received.info = none) := by
  by_cases hcommand : handle.data.method ∈ commands
  · have htwo : 2 ≤ r.length := by
      have := hone hcommand
      omega
    rw [receive_command hcommand htwo, taken_of_command hcommand]
    by_cases hcheck : crcBytes (r.take (r.length-2)) = r.drop (r.length-2)
    · rw [if_neg (not_not.mpr hcheck)]
      exact ⟨_, rfl, Or.inl ⟨hcheck.symm, rfl⟩⟩
    · rw [if_pos hcheck]
      exact ⟨_, rfl, Or.inr ⟨fun h => hcheck h.symm, by decide, rfl⟩⟩
  · by_cases hinfo : handle.data.method = .curtainGetDeviceInfo
    · exact receive_info hinfo
    · exact ⟨_, receive_other hcommand hinfo, Or.inr ⟨not_taken hcommand hinfo, by decide, rfl⟩⟩

end Receive

section Exactness

variable {handle : PortHandle} {r : List Byte}

theorem exact_taken_iff (hr : 0 < r.length)
    (hone : handle.data.method ∈ commands → r.length ≠ 1) :
    Exact handle r ↔ (Taken handle r ↔ ValidReply handle r) :=
  exact_received_iff (receive_taken hr hone)

theorem two_summed (hr : r.length = 2) :
    r.drop (r.length-2) = crcBytes (r.take (r.length-2)) ↔ r = [0xff, 0xff] := by
  rw [hr, Nat.sub_self, List.drop_zero, List.take_zero]
  exact Iff.rfl

/-- The commands are judged by their check, also those of two bytes. -/
theorem taken_command (hm : handle.data.method ∈ commands) (hr : 2 ≤ r.length) :
    (Taken handle r ↔ ValidReply handle r) ↔ r ≠ [0xff, 0xff] := by
  have hvalid : ValidReply handle r ↔
      3 ≤ r.length ∧ r.drop (r.length-2) = crcBytes (r.take (r.length-2)) := by
    constructor
    · rintro ⟨⟨-, hlong⟩ | ⟨h, -⟩, hcheck⟩
      · exact ⟨hlong, hcheck⟩
      · exact absurd h (command_not_info hm)
    · exact fun h => ⟨Or.inl ⟨hm, h.1⟩, h.2⟩
  rw [taken_of_command hm, hvalid]
  by_cases hlong : 3 ≤ r.length
  · have hne : r ≠ [0xff, 0xff] := by
      rintro rfl
      simp at hlong
    exact iff_of_true (and_iff_right hlong).symm hne
  · rw [two_summed (by omega)]
    simp [hlong]

theorem taken_info (hm : handle.data.method = .curtainGetDeviceInfo) :
    (Taken handle r ↔ ValidReply handle r) ↔ (r.length = 7 →
      crcBytes (r.take 5) = [0, 0] ∨ r.drop 5 ≠ [0, 0] ∧ r.drop 5 ≠ crcBytes (r.take 5)) := by
  have hvalid : ValidReply handle r ↔ r.length = 7 ∧ r.drop 5 = crcBytes (r.take 5) := by
    constructor
    · rintro ⟨⟨h, -⟩ | ⟨-, hlength⟩, hcheck⟩
      · simp [commands, hm] at h
      · rw [hlength] at hcheck
        exact ⟨hlength, hcheck⟩
    · rintro ⟨hlength, hcheck⟩
      refine ⟨Or.inr ⟨hm, hlength⟩, ?_⟩
      rw [hlength]
      exact hcheck
  rw [taken_of_info hm, hvalid]
  by_cases hlength : r.length = 7
  · simp only [hlength, true_and, true_imp_iff]
    by_cases hzero : crcBytes (r.take 5) = [0, 0]
    · simp [hzero]
    · simp only [hzero, false_or]
      constructor
      · intro h
        by_contra hboth
        have : r.drop 5 = [0, 0] ∧ r.drop 5 = crcBytes (r.take 5) := by tauto
        exact hzero (this.2.symm.trans this.1)
      · exact fun h => iff_of_false h.1 h.2
  · simp [hlength]

theorem taken_other (hcommand : handle.data.method ∉ commands)
    (hinfo : handle.data.method ≠ .curtainGetDeviceInfo) :
    Taken handle r ↔ ValidReply handle r := by
  apply iff_of_false (not_taken hcommand hinfo)
  rintro ⟨⟨h, -⟩ | ⟨h, -⟩, -⟩
  · exact hcommand h
  · exact hinfo h

/-- The driver is exact about a reply unless it answers a command with the single
byte or the two bytes that have no check before them, or a request of the device
information, whose check is not computed. -/
theorem curtain_replies_iff (handle : PortHandle) (r : List Byte) (hr : 0 < r.length) :
    Exact handle r ↔ Judged handle r := by
  by_cases hcommand : handle.data.method ∈ commands
  · by_cases hone : r.length = 1
    · constructor
      · rintro ⟨received, hreceived, -⟩
        rw [receive_one hcommand hone] at hreceived
        cases hreceived
      · exact fun h => absurd hone (h.command hcommand).1
    · rw [exact_taken_iff hr fun _ => hone, taken_command hcommand (by omega)]
      exact ⟨fun h => ⟨fun _ => ⟨hone, h⟩, fun hm => absurd hm (command_not_info hcommand)⟩,
        fun h => (h.command hcommand).2⟩
  · rw [exact_taken_iff hr fun h => absurd h hcommand]
    by_cases hinfo : handle.data.method = .curtainGetDeviceInfo
    · rw [taken_info hinfo]
      exact ⟨fun h => ⟨fun hm => absurd hm hcommand, fun _ => h⟩, fun h => h.info hinfo⟩
    · exact iff_of_true (taken_other hcommand hinfo)
        ⟨fun hm => absurd hm hcommand, fun hm => absurd hm hinfo⟩

/-- A curtain repeats the request to open it. -/
def openAnswer : List Byte := [0x55, 0x01, 0x01, 0x03, 0x01, 0xb9, 0x00]

theorem open_answer_exact : Exact (portHandle 20 2 .curtainOpen) openAnswer :=
  (curtain_replies_iff (portHandle 20 2 .curtainOpen) openAnswer (by decide)).mpr
    ⟨fun _ => ⟨by decide, by decide⟩, fun h => absurd h (by decide)⟩

/-- A curtain reports that it is at 50 percent. -/
def percentAnswer : List Byte := [0x55, 0x01, 0x01, 0x01, 0x32, 0xf8, 0x75]

theorem percent_answer_refused :
    doyaRecvPackageHandle (holding (portHandle 20 2 .curtainGetDeviceInfo) percentAnswer) =
        some ⟨-eio, none⟩ ∧
      ValidReply (portHandle 20 2 .curtainGetDeviceInfo) percentAnswer ∧
      ¬Exact (portHandle 20 2 .curtainGetDeviceInfo) percentAnswer := by
  have hrefused : doyaRecvPackageHandle
      (holding (portHandle 20 2 .curtainGetDeviceInfo) percentAnswer) = some ⟨-eio, none⟩ := by
    decide
  have hvalid : ValidReply (portHandle 20 2 .curtainGetDeviceInfo) percentAnswer :=
    ⟨Or.inr ⟨rfl, rfl⟩, by rw [← modbus_crc_eq]; decide⟩
  refine ⟨hrefused, hvalid, ?_⟩
  rintro ⟨received, hreceived, hiff, -⟩
  obtain rfl := Option.some.inj (hrefused.symm.trans hreceived)
  exact absurd (hiff.mpr hvalid) (by decide)

end Exactness

end RS485.CurtainReplies
