import Rs485.Replies

/-!
# The measurements of the fresh air unit

The older decoder that `loreley.c` keeps, and the one in use. They read the
concentration and the run status from different bytes.
-/

set_option autoImplicit false

namespace RS485.Measurements
open RS485.Platform RS485.Records RS485.General RS485.Encoders RS485.Frames RS485.Replies

inductive RunStatus where
  | autoOff
  | autoOn
  deriving DecidableEq, Repr

/-- The fields of `struct rs485_new_trend_info` -/
structure NewTrendInfo where
  runStatus : RunStatus
  tempInt : Byte
  tempPoint : Byte
  humiInt : Byte
  humiPoint : Byte
  pm25Int : ℕ
  error : ℤ
  deriving DecidableEq

def newTrendRunStatusOff : Byte := 0x00
def newTrendRunStatusOn : Byte := 0x01
def newTrendStatusError : Byte := 0x01
def newTrendStatusNormal : Byte := 0x00

/-- A status byte of another value leaves its field as it was. -/
def processNewTrendInfo (info : NewTrendInfo) (buffer : List Byte) : Option NewTrendInfo := do
  let run ← byteAt buffer 1
  let tempInt ← byteAt buffer 2
  let tempPoint ← byteAt buffer 3
  let humiInt ← byteAt buffer 4
  let humiPoint ← byteAt buffer 5
  let pm25High ← byteAt buffer 6
  let pm25Low ← byteAt buffer 7
  let error ← byteAt buffer 9
  some {
    runStatus :=
      if run = newTrendRunStatusOff then .autoOff
      else if run = newTrendRunStatusOn then .autoOn
      else info.runStatus
    tempInt
    tempPoint
    humiInt
    humiPoint
    pm25Int := pm25High.toNat*256+pm25Low.toNat
    error :=
      if error = newTrendStatusError then -1
      else if error = newTrendStatusNormal then 0
      else info.error }

/-- The 11 bytes between the header and the sum of an answer. -/
def dataPart (r : List Byte) : List Byte := (r.drop 5).take 11

section Spec

variable (handle : PortHandle) (r : List Byte) (info : ReadDeviceReturn)

/-- What the layout of an answer says about its 18 bytes. -/
structure Documented : Prop where
  profile : ∃ pm25 level, info.profile = .freshAir (r.getD 7 0) (r.getD 9 0) pm25 level ∧
    pm25.toNat = 256*(r.getD 11 0).toNat+(r.getD 12 0).toNat
  runing : info.runing = true ↔ r.getD 6 0 ≠ 0
  error : info.error = true ↔ r.getD 14 0 ≠ 0

/-- The older decoder, whatever it starts from, says the same. -/
def Agrees : Prop :=
  ∀ old, ∃ new, processNewTrendInfo old (dataPart r) = some new ∧
    (∃ pm25 level, info.profile = .freshAir new.tempInt new.humiInt pm25 level ∧
      pm25.toNat = new.pm25Int) ∧
    (r.getD 6 0 = newTrendRunStatusOff ∨ r.getD 6 0 = newTrendRunStatusOn →
      (info.runing = true ↔ new.runStatus = .autoOn)) ∧
    (r.getD 14 0 = newTrendStatusNormal ∨ r.getD 14 0 = newTrendStatusError →
      (info.error = true ↔ new.error ≠ 0))

/-- The reply is taken, and what is stored follows the layout and the older decoder. -/
def Decoded : Prop :=
  ∃ info, loreleyRecvPackageHandle (holding handle r) =
      some ⟨0, some (info, handle.data.deviceId)⟩ ∧
    Documented r info ∧ Agrees r info

end Spec

section Decoding

variable {handle : PortHandle} {r : List Byte}

/-- What the driver in use stores. -/
def stored (r : List Byte) : ReadDeviceReturn :=
  ⟨r.getD 15 0 ≠ 0, r.getD 14 0 ≠ 0, .freshAir (r.getD 7 0) (r.getD 9 0) (r.getD 11 0) 1⟩

theorem receive_stored (hvalid : ValidReply handle r)
    (hm : handle.data.method = .freshAirGetDeviceInfo) :
    loreleyRecvPackageHandle (holding handle r) =
      some ⟨0, some (stored r, handle.data.deviceId)⟩ := by
  have hlength := hvalid.info hm
  obtain ⟨hhead, htail, hsum⟩ := framed_reads hvalid.head hvalid.tail
  unfold loreleyRecvPackageHandle
  simp only [reply_holding, show (holding handle r).packageBufferLen = r.length from rfl,
    show (holding handle r).data = handle.data from rfl, hhead, htail, hsum.trans hvalid.check,
    sum_read (two_bytes hvalid.head hvalid.tail), sum_check_neg, Option.bind_eq_bind,
    Option.bind_some, ne_eq, not_true_eq_false, or_self, if_false, hm]
  rw [if_neg (by simp [hlength]), info_read hlength]
  rfl

/-- What the older decoder makes of the same bytes. -/
theorem process_data_part (old : NewTrendInfo) (hlength : r.length = 18) :
    processNewTrendInfo old (dataPart r) = some {
      runStatus :=
        if r.getD 6 0 = newTrendRunStatusOff then .autoOff
        else if r.getD 6 0 = newTrendRunStatusOn then .autoOn
        else old.runStatus
      tempInt := r.getD 7 0
      tempPoint := r.getD 8 0
      humiInt := r.getD 9 0
      humiPoint := r.getD 10 0
      pm25Int := (r.getD 11 0).toNat*256+(r.getD 12 0).toNat
      error :=
        if r.getD 14 0 = newTrendStatusError then -1
        else if r.getD 14 0 = newTrendStatusNormal then 0
        else old.error } := by
  have hbyte : ∀ i : ℕ, i < 11 → byteAt (dataPart r) i = some (r.getD (5+i) 0) := by
    intro i hi
    rw [byte_at_nat, dataPart, List.getElem?_take_of_lt hi, List.getElem?_drop,
      List.getElem?_eq_getElem (by omega), List.getD_eq_getElem _ _ (by omega)]
  have h1 := hbyte 1 (by omega)
  have h2 := hbyte 2 (by omega)
  have h3 := hbyte 3 (by omega)
  have h4 := hbyte 4 (by omega)
  have h5 := hbyte 5 (by omega)
  have h6 := hbyte 6 (by omega)
  have h7 := hbyte 7 (by omega)
  have h9 := hbyte 9 (by omega)
  push_cast at h1 h2 h3 h4 h5 h6 h7 h9
  simp only [processNewTrendInfo, h1, h2, h3, h4, h5, h6, h7, h9, Option.bind_eq_bind,
    Option.bind_some]
  rfl

/-- A number of two bytes is its high byte only if both are 0. -/
theorem high_byte_alone (high low : Byte) :
    high.toNat = 256*high.toNat+low.toNat ↔ high = 0 ∧ low = 0 := by
  rw [BitVec.toNat_eq, BitVec.toNat_eq]
  simp only [BitVec.ofNat_eq_ofNat, BitVec.toNat_ofNat, Nat.zero_mod]
  omega

theorem stored_documented_iff : Documented r (stored r) ↔
    r.getD 11 0 = 0 ∧ r.getD 12 0 = 0 ∧ (r.getD 15 0 ≠ 0 ↔ r.getD 6 0 ≠ 0) := by
  constructor
  · intro h
    obtain ⟨pm25, level, hprofile, hpm25⟩ := h.profile
    simp only [stored, Profile.freshAir.injEq, true_and] at hprofile
    rw [← hprofile.1, high_byte_alone] at hpm25
    have hruning := h.runing
    simp only [stored, decide_eq_true_eq] at hruning
    exact ⟨hpm25.1, hpm25.2, hruning⟩
  · rintro ⟨hhigh, hlow, hruning⟩
    refine ⟨⟨_, _, rfl, (high_byte_alone _ _).mpr ⟨hhigh, hlow⟩⟩, ?_, ?_⟩
    · simpa [stored] using hruning
    · simp [stored]

/-- The older decoder follows the layout where it knows the status bytes. -/
theorem stored_agrees (hlength : r.length = 18) (h : Documented r (stored r)) :
    Agrees r (stored r) := by
  intro old
  obtain ⟨pm25, level, hprofile, hpm25⟩ := h.profile
  refine ⟨_, process_data_part old hlength, ⟨pm25, level, hprofile, ?_⟩, ?_, ?_⟩
  · rw [hpm25, Nat.mul_comm]
  · intro hknown
    rw [h.runing]
    rcases hknown with hoff | hon
    · rw [hoff]
      simp [newTrendRunStatusOff]
    · rw [hon]
      simp [newTrendRunStatusOff, newTrendRunStatusOn]
  · intro hknown
    rw [h.error]
    rcases hknown with hnormal | herror
    · rw [hnormal]
      simp [newTrendStatusNormal, newTrendStatusError]
    · rw [herror]
      simp [newTrendStatusError]

/-- An answer is decoded by its layout exactly if it reports no particles, and
its last status byte is 0 just when the run status is. -/
theorem fresh_air_measurements_iff (handle : PortHandle) (r : List Byte)
    (hvalid : ValidReply handle r) (hm : handle.data.method = .freshAirGetDeviceInfo) :
    Decoded handle r ↔
      r.getD 11 0 = 0 ∧ r.getD 12 0 = 0 ∧ (r.getD 15 0 ≠ 0 ↔ r.getD 6 0 ≠ 0) := by
  rw [← stored_documented_iff]
  constructor
  · rintro ⟨info, hinfo, hdocumented, -⟩
    rw [receive_stored hvalid hm] at hinfo
    simp only [Option.some.injEq, Received.mk.injEq, Prod.mk.injEq, and_true, true_and] at hinfo
    rw [hinfo]
    exact hdocumented
  · exact fun h => ⟨_, receive_stored hvalid hm, h, stored_agrees (hvalid.info hm) h⟩

/-- A unit that is off, at 25 degrees and 50 percent, reports clean air. -/
def idleAnswer : List Byte :=
  [0x55, 0x01, 0x22, 0x01, 0x0b, 0x01, 0x00, 0x19, 0x00,
    0x32, 0x00, 0x00, 0x00, 0x00, 0x00, 0x00, 0x85, 0x0d]

theorem idle_answer_decoded :
    Decoded (portHandle 20 1 .freshAirGetDeviceInfo) idleAnswer :=
  (fresh_air_measurements_iff (portHandle 20 1 .freshAirGetDeviceInfo) idleAnswer
    ⟨by decide, by decide, rfl, rfl, ⟨(getInfoCid, []), rfl, rfl⟩, rfl, ⟨0x0b, rfl, rfl⟩,
      by decide, rfl, fun _ => rfl⟩ rfl).mpr (by decide)

/-- The answer that the code for debugging makes up: open, and 100 particles. -/
def openAnswer : List Byte :=
  [0x55, 0x01, 0x22, 0x01, 0x0b, 0x01, 0x01, 0x19, 0x00,
    0x32, 0x00, 0x00, 0x64, 0x00, 0x00, 0x00, 0x20, 0x0d]

theorem open_answer_misread :
    ValidReply (portHandle 20 1 .freshAirGetDeviceInfo) openAnswer ∧
      loreleyRecvPackageHandle (holding (portHandle 20 1 .freshAirGetDeviceInfo) openAnswer) =
        some ⟨0, some (⟨false, false, .freshAir 25 50 0 1⟩, 7)⟩ ∧
      ¬Decoded (portHandle 20 1 .freshAirGetDeviceInfo) openAnswer := by
  have hstored : loreleyRecvPackageHandle
      (holding (portHandle 20 1 .freshAirGetDeviceInfo) openAnswer) =
        some ⟨0, some (⟨false, false, .freshAir 25 50 0 1⟩, 7)⟩ := by decide
  refine ⟨⟨by decide, by decide, rfl, rfl, ⟨(getInfoCid, []), rfl, rfl⟩, rfl, ⟨0x0b, rfl, rfl⟩,
    by decide, rfl, fun _ => rfl⟩, hstored, ?_⟩
  rintro ⟨info, hinfo, hdocumented, -⟩
  rw [hstored] at hinfo
  simp only [Option.some.injEq, Received.mk.injEq, Prod.mk.injEq, true_and] at hinfo
  rw [← hinfo.1] at hdocumented
  exact absurd (hdocumented.runing.mpr (by decide)) (by decide)

end Decoding

end RS485.Measurements
