import Rs485.Frames

/-!
# The replies of the fresh air unit

What a valid reply to a request is, and which replies the driver takes for one.
The driver checks the frame and its sum, but not the header that names the unit,
the command and the outcome.
-/

set_option autoImplicit false

namespace RS485.Replies
open RS485.Platform RS485.Records RS485.General RS485.Encoders RS485.Frames

section Spec

variable (handle : PortHandle) (r : List Byte)

/-- The handle with the reply read into its buffer. -/
def holding : PortHandle :=
  { handle with
    packageBuffer := r++handle.packageBuffer.drop r.length
    packageBufferLen := r.length }

/-- The tests the driver makes. -/
structure Checked : Prop where
  method : (loreleyCommand handle.data.method).isSome = true
  head : r[0]? = some 0x55
  check : r[r.length-2]? = some (-((r.drop 1).take (r.length-3)).sum)
  tail : r[r.length-1]? = some 0x0d
  info : handle.data.method = .freshAirGetDeviceInfo → r.length = 18

/-- What the header of a reply to the request says. -/
structure Headed : Prop where
  long : 7 ≤ r.length
  address : r[1]? = some (handle.data.address 0)
  command : ∃ request, loreleyCommand handle.data.method = some request ∧ r[2]? = some request.1
  right : r[3]? = some rtnReceiveCmdRight
  length : ∃ length, r[4]? = some length ∧ length.toNat+7 = r.length

structure ValidReply : Prop where
  method : handle.data.method ∈
    [DeviceMethod.freshAirAutoOn, .freshAirAutoOff, .freshAirGetDeviceInfo]
  long : 7 ≤ r.length
  head : r[0]? = some 0x55
  address : r[1]? = some (handle.data.address 0)
  command : ∃ request, loreleyCommand handle.data.method = some request ∧ r[2]? = some request.1
  right : r[3]? = some rtnReceiveCmdRight
  length : ∃ length, r[4]? = some length ∧ length.toNat+7 = r.length
  check : r[r.length-2]? = some (-((r.drop 1).take (r.length-3)).sum)
  tail : r[r.length-1]? = some 0x0d
  info : handle.data.method = .freshAirGetDeviceInfo → r.length = 18

/-- Nothing outside the reply is read, 0 is returned exactly for a valid reply,
and any other is an error that stores nothing. -/
def Exact : Prop :=
  ∃ received, loreleyRecvPackageHandle (holding handle r) = some received ∧
    (received.ret = 0 ↔ ValidReply handle r) ∧
    (¬ValidReply handle r → received.ret < 0 ∧ received.info = none)

end Spec

section Header

variable {handle : PortHandle} {r : List Byte}

theorem known_iff (method : DeviceMethod) : (loreleyCommand method).isSome = true ↔
    method ∈ [DeviceMethod.freshAirAutoOn, .freshAirAutoOff, .freshAirGetDeviceInfo] := by
  cases method <;> simp [loreleyCommand]

theorem valid_reply_iff : ValidReply handle r ↔ Checked handle r ∧ Headed handle r := by
  constructor
  · intro h
    exact ⟨⟨(known_iff _).mpr h.method, h.head, h.check, h.tail, h.info⟩,
      h.long, h.address, h.command, h.right, h.length⟩
  · rintro ⟨hc, hh⟩
    exact ⟨(known_iff _).mp hc.method, hh.long, hc.head, hh.address, hh.command, hh.right,
      hh.length, hc.check, hc.tail, hc.info⟩

end Header

section Receive

variable {handle : PortHandle} {r : List Byte}

theorem reply_holding : reply (holding handle r) = r := by
  simp [reply, holding]

theorem byte_at_nat (i : ℕ) : byteAt r i = r[i]? := by
  simp [byteAt]

/-- Replies too short for a sum have no byte before the first to be read. -/
theorem two_bytes (hhead : r[0]? = some 0x55) (htail : r[r.length-1]? = some 0x0d) :
    2 ≤ r.length := by
  match r with
  | [] => simp at hhead
  | [byte] => simp_all
  | _::_::_ => simp

/-- What is decoded from the 18 bytes of an answer. -/
theorem info_read (h : r.length = 18) : freshAirInfo r =
    some ⟨r.getD 15 0 ≠ 0, r.getD 14 0 ≠ 0,
      .freshAir (r.getD 7 0) (r.getD 9 0) (r.getD 11 0) 1⟩ := by
  have hbyte : ∀ i : ℕ, i < 18 → byteAt r i = some (r.getD i 0) := by
    intro i hi
    rw [byte_at_nat, List.getElem?_eq_getElem (by omega), List.getD_eq_getElem _ _ (by omega)]
  have h7 := hbyte 7 (by omega)
  have h9 := hbyte 9 (by omega)
  have h11 := hbyte 11 (by omega)
  have h14 := hbyte 14 (by omega)
  have h15 := hbyte 15 (by omega)
  push_cast at h7 h9 h11 h14 h15
  simp only [freshAirInfo, h7, h9, h11, h14, h15, Option.bind_eq_bind, Option.bind_some]
  rfl

theorem byte_at_last {k : ℕ} (hk : k ≤ r.length) :
    byteAt r ((r.length : ℤ)-k) = r[r.length-k]? := by
  rw [← byte_at_nat, Nat.cast_sub hk]

theorem sum_read (h : 2 ≤ r.length) : bytesFromOne r ((r.length : ℤ)-3) =
    some ((r.drop 1).take (r.length-3)) := by
  unfold bytesFromOne
  rw [if_pos (by omega), show ((r.length : ℤ)-3).toNat = r.length-3 by omega]

theorem receive_unframed (handle : PortHandle) (hr : 0 < r.length)
    (h : ¬(r[0]? = some 0x55 ∧ r[r.length-1]? = some 0x0d)) :
    loreleyRecvPackageHandle (holding handle r) = some ⟨-eio, none⟩ := by
  have hhead : byteAt r 0 = some r[0] := by
    rw [← List.getElem?_eq_getElem, ← byte_at_nat]
    rfl
  have htail : byteAt r ((r.length : ℤ)-1) = some r[r.length-1] := by
    rw [← List.getElem?_eq_getElem, ← byte_at_last hr]
    rfl
  have hends : r[0] ≠ soiReceive ∨ r[r.length-1] ≠ eoi := by
    by_contra hboth
    push Not at hboth
    apply h
    rw [List.getElem?_eq_getElem (by omega), List.getElem?_eq_getElem (by omega), hboth.1, hboth.2]
    exact ⟨rfl, rfl⟩
  unfold loreleyRecvPackageHandle
  simp only [reply_holding, show (holding handle r).packageBufferLen = r.length from rfl, hhead,
    htail, Option.bind_eq_bind, Option.bind_some]
  rw [if_pos hends]

section Framed

variable (handle) (h0 : r[0]? = some 0x55) (h1 : r[r.length-1]? = some 0x0d)
include h0 h1

/-- The bytes the tests of a framed reply read. -/
theorem framed_reads : byteAt r 0 = some soiReceive ∧ byteAt r ((r.length : ℤ)-1) = some eoi ∧
    byteAt r ((r.length : ℤ)-2) = r[r.length-2]? := by
  have htwo := two_bytes h0 h1
  have hone : 1 ≤ r.length := by omega
  exact ⟨(byte_at_nat 0).trans h0, (byte_at_last hone).trans h1, byte_at_last htwo⟩

theorem receive_unsummed (h : r[r.length-2]? ≠ some (-((r.drop 1).take (r.length-3)).sum)) :
    loreleyRecvPackageHandle (holding handle r) = some ⟨-eio, none⟩ := by
  have htwo := two_bytes h0 h1
  obtain ⟨hhead, htail, hsum⟩ := framed_reads h0 h1
  rw [List.getElem?_eq_getElem (by omega)] at h hsum
  unfold loreleyRecvPackageHandle
  simp only [reply_holding, show (holding handle r).packageBufferLen = r.length from rfl, hhead,
    htail, hsum, sum_read htwo, sum_check_neg, Option.bind_eq_bind, Option.bind_some, ne_eq,
    not_true_eq_false, or_self, if_false]
  rw [if_pos fun heq => h (congrArg some heq)]

/-- A framed reply with the right sum is judged by the method of the request. -/
theorem receive_summed (h2 : r[r.length-2]? = some (-((r.drop 1).take (r.length-3)).sum)) :
    ∃ received, loreleyRecvPackageHandle (holding handle r) = some received ∧
      (Checked handle r ∧ received.ret = 0 ∨
        ¬Checked handle r ∧ received.ret < 0 ∧ received.info = none) := by
  obtain ⟨hhead, htail, hsum⟩ := framed_reads h0 h1
  unfold loreleyRecvPackageHandle
  simp only [reply_holding, show (holding handle r).packageBufferLen = r.length from rfl,
    show (holding handle r).data = handle.data from rfl, hhead, htail, hsum.trans h2,
    sum_read (two_bytes h0 h1), sum_check_neg, Option.bind_eq_bind, Option.bind_some, ne_eq,
    not_true_eq_false, or_self, if_false]
  split
  case h_1 hm =>
    exact ⟨_, rfl, Or.inl ⟨⟨by simp [hm, loreleyCommand], h0, h2, h1, by simp [hm]⟩, rfl⟩⟩
  case h_2 hm =>
    exact ⟨_, rfl, Or.inl ⟨⟨by simp [hm, loreleyCommand], h0, h2, h1, by simp [hm]⟩, rfl⟩⟩
  case h_3 hm =>
    by_cases hlength : r.length = 18
    · rw [if_neg (by simp [hlength]), info_read hlength]
      exact ⟨_, rfl, Or.inl ⟨⟨by simp [hm, loreleyCommand], h0, h2, h1, fun _ => hlength⟩, rfl⟩⟩
    · rw [if_pos (by omega)]
      exact ⟨_, rfl, Or.inr ⟨fun h => hlength (h.info hm), by decide, rfl⟩⟩
  case h_4 hoff hon hget =>
    refine ⟨_, rfl, Or.inr ⟨fun h => ?_, by decide, rfl⟩⟩
    have hknown := (known_iff _).mp h.method
    simp only [List.mem_cons, List.not_mem_nil, or_false] at hknown
    tauto

end Framed

/-- The driver reads the reply only, and takes it exactly if its tests pass. -/
theorem receive_checked (handle : PortHandle) (hr : 0 < r.length) :
    ∃ received, loreleyRecvPackageHandle (holding handle r) = some received ∧
      (Checked handle r ∧ received.ret = 0 ∨
        ¬Checked handle r ∧ received.ret < 0 ∧ received.info = none) := by
  by_cases hends : r[0]? = some 0x55 ∧ r[r.length-1]? = some 0x0d
  · by_cases hsum : r[r.length-2]? = some (-((r.drop 1).take (r.length-3)).sum)
    · exact receive_summed handle hends.1 hends.2 hsum
    · refine ⟨_, receive_unsummed handle hends.1 hends.2 hsum, Or.inr ⟨?_, by decide, rfl⟩⟩
      exact fun h => hsum h.check
  · refine ⟨_, receive_unframed handle hr hends, Or.inr ⟨?_, by decide, rfl⟩⟩
    exact fun h => hends ⟨h.head, h.tail⟩

end Receive

section Exactness

/-- A driver that takes some replies and refuses all others is exact if those it
takes are the valid ones. -/
theorem exact_received_iff {answer : Option Received} {taken valid : Prop}
    (h : ∃ received, answer = some received ∧
      (taken ∧ received.ret = 0 ∨ ¬taken ∧ received.ret < 0 ∧ received.info = none)) :
    (∃ received, answer = some received ∧ (received.ret = 0 ↔ valid) ∧
      (¬valid → received.ret < 0 ∧ received.info = none)) ↔ (taken ↔ valid) := by
  obtain ⟨received, hreceived, hcases⟩ := h
  have hzero : received.ret = 0 ↔ taken := by
    rcases hcases with ⟨htaken, hret⟩ | ⟨hnot, hret, -⟩
    · exact iff_of_true hret htaken
    · exact iff_of_false hret.ne hnot
  constructor
  · rintro ⟨received', hreceived', hiff, -⟩
    obtain rfl := Option.some.inj (hreceived.symm.trans hreceived')
    exact hzero.symm.trans hiff
  · intro hvalid
    refine ⟨received, hreceived, hzero.trans hvalid, fun hinvalid => ?_⟩
    rcases hcases with ⟨htaken, -⟩ | ⟨-, herror⟩
    · exact absurd (hvalid.mp htaken) hinvalid
    · exact herror

/-- The driver is exact about a reply unless it passes the tests under a header
that does not answer the request. -/
theorem fresh_air_replies_iff (handle : PortHandle) (r : List Byte) (hr : 0 < r.length) :
    Exact handle r ↔ (Checked handle r → Headed handle r) := by
  have hexact : Exact handle r ↔ (Checked handle r ↔ ValidReply handle r) :=
    exact_received_iff (receive_checked handle hr)
  rw [hexact, valid_reply_iff]
  exact iff_self_and

/-- A valid reply to the request to turn the unit 1 on. -/
def answer : List Byte := [0x55, 0x01, 0x23, 0x01, 0x00, 0xdb, 0x0d]

theorem answer_exact : Exact (portHandle 20 1 .freshAirAutoOn) answer :=
  (fresh_air_replies_iff (portHandle 20 1 .freshAirAutoOn) answer (by decide)).mpr
    fun _ => ⟨by decide, rfl, ⟨(setArgCid, newTrendOn), rfl, rfl⟩, rfl, ⟨0x00, rfl, rfl⟩⟩

/-- Unit 9 refuses the request to turn unit 1 on, and the driver takes it for success. -/
def refusal : List Byte := [0x55, 0x09, 0x23, 0x03, 0x00, 0xd1, 0x0d]

theorem refusal_accepted :
    loreleyRecvPackageHandle (holding (portHandle 20 1 .freshAirAutoOn) refusal) =
        some ⟨0, none⟩ ∧
      ¬ValidReply (portHandle 20 1 .freshAirAutoOn) refusal ∧
      ¬Exact (portHandle 20 1 .freshAirAutoOn) refusal := by
  have haccepted : loreleyRecvPackageHandle
      (holding (portHandle 20 1 .freshAirAutoOn) refusal) = some ⟨0, none⟩ := by decide
  have hinvalid : ¬ValidReply (portHandle 20 1 .freshAirAutoOn) refusal :=
    fun h => absurd h.address (by decide)
  refine ⟨haccepted, hinvalid, ?_⟩
  rintro ⟨received, hreceived, hiff, -⟩
  obtain rfl := Option.some.inj (haccepted.symm.trans hreceived)
  exact hinvalid (hiff.mp rfl)

end Exactness

end RS485.Replies
