import Rs485.Crc
import Rs485.Encoders

/-!
# Well-formed frames

The frames of the four protocols on their own terms, and when the drivers send
nothing else.
-/

set_option autoImplicit false

namespace RS485.Frames
open RS485.Platform RS485.Records RS485.General RS485.Encoders

section Spec

/-- The Modbus CRC-16, low byte first. -/
def crcBytes (bytes : List Byte) : List Byte :=
  let crc := Crc.crc 0xa001#16 0xffff#16 bytes
  [crc.setWidth 8, (crc >>> 8).setWidth 8]

def DoyaFrame (f : List Byte) : Prop :=
  f.head? = some 0x55 ∧ (∃ function ∈ [1#8, 2#8, 3#8], f[3]? = some function) ∧
    ∃ bytes, f = bytes++crcBytes bytes

def AokeFrame (f : List Byte) : Prop :=
  f.head? = some 0x9a ∧ f.length = 7 ∧ f.getLast? = some (((f.drop 1).take 5).foldl (· ^^^ ·) 0)

def SumFrame (f : List Byte) : Prop :=
  f.head? = some 0xaa ∧ (∃ length, f[4]? = some length ∧ length.toNat+7 = f.length) ∧
    ((f.drop 1).take (f.length-2)).sum = 0 ∧ f.getLast? = some 0x0d

def Frame : Driver → List Byte → Prop
  | .doya => DoyaFrame
  | .aoke => AokeFrame
  | .loreley => SumFrame
  | .panasonnic => SumFrame

/-- Either an error is returned, or the number of bytes written to the start of
the buffer, and they are a frame. -/
def WellSent (frame : List Byte → Prop) (handle : PortHandle) (sent : ℤ × PortHandle) : Prop :=
  sent.1 < 0 ∨ (0 < sent.1 ∧ sent.1 ≤ handle.packageBufferLen ∧
    sent.2.packageBuffer.length = handle.packageBuffer.length ∧
    sent.2.packageBuffer.drop sent.1.toNat = handle.packageBuffer.drop sent.1.toNat ∧
    frame (sent.2.packageBuffer.take sent.1.toNat))

/-- The methods that make a driver send something else are not asked for, or
refused for another reason. -/
def Encodes (driver : Driver) (handle : PortHandle) : Prop :=
  match driver with
  | .doya => handle.data.method = .curtainReset →
      handle.data.addressLen < 2 ∨ handle.packageBufferLen < 7
  | .aoke => True
  | .loreley => True
  | .panasonnic => handle.data.addressLen = 1 →
      (airCommand handle.data.method).isSome = true ∨ handle.data.method = .airGetDeviceInfo

end Spec

section Buffer

variable {frame : List Byte → Prop} {handle : PortHandle}

theorem put_take (buffer f : List Byte) : (putFrame buffer f).take f.length = f := by
  simp [putFrame]

theorem put_drop (buffer f : List Byte) :
    (putFrame buffer f).drop f.length = buffer.drop f.length := by
  simp [putFrame]

theorem put_length {buffer f : List Byte} (h : f.length ≤ buffer.length) :
    (putFrame buffer f).length = buffer.length := by
  simp only [putFrame, List.length_append, List.length_drop]
  omega

theorem put_well_sent {f : List Byte} {sent : ℤ × PortHandle} (hf : frame f) (hne : f ≠ [])
    (hlen : handle.packageBufferLen = handle.packageBuffer.length)
    (hfit : (f.length : ℤ) ≤ handle.packageBufferLen) (hn : sent.1 = f.length)
    (hsent : sent.2.packageBuffer = putFrame handle.packageBuffer f) :
    WellSent frame handle sent := by
  have hpos := List.length_pos_iff.mpr hne
  right
  simp only [hn, hsent, Int.toNat_natCast, put_take, put_drop]
  exact ⟨by omega, hfit, put_length (by omega), trivial, hf⟩

theorem fits_well_sent {f : List Byte} {error : ℤ} {sent : ℤ × PortHandle} (hf : frame f)
    (hne : f ≠ []) (herror : error < 0)
    (hlen : handle.packageBufferLen = handle.packageBuffer.length)
    (hsent : (sent.1, sent.2.packageBuffer) =
      putIfFits handle.packageBuffer handle.packageBufferLen f error) :
    WellSent frame handle sent := by
  unfold putIfFits at hsent
  split_ifs at hsent with hfit
  · left
    rw [(Prod.mk.inj hsent).1]
    exact herror
  · obtain ⟨hn, hbuffer⟩ := Prod.mk.inj hsent
    exact put_well_sent hf hne hlen (not_lt.mp hfit) hn hbuffer

end Buffer

section Modbus

/-- The two bytes of the code as one number. -/
def joined (crc : Byte × Byte) : BitVec 16 := crc.1 ++ crc.2

theorem joined_low (crc : Byte × Byte) : (joined crc).setWidth 8 = crc.2 := by
  apply BitVec.eq_of_getLsbD_eq
  intro i hi
  simp only [joined, BitVec.getLsbD_setWidth, BitVec.getLsbD_append, hi, decide_true,
    Bool.true_and, if_true]

theorem joined_high (crc : Byte × Byte) : (joined crc >>> 8).setWidth 8 = crc.1 := by
  apply BitVec.eq_of_getLsbD_eq
  intro i hi
  simp only [joined, BitVec.getLsbD_setWidth, BitVec.getLsbD_ushiftRight, BitVec.getLsbD_append,
    hi, decide_true, Bool.true_and, show ¬8+i < 8 by omega, if_false, Nat.add_sub_cancel_left]

/-- The two tables side by side. -/
theorem tables_eq : List.zipWith (fun low high : Byte => (low ++ high : BitVec 16)) crcLow crcHigh =
    (List.range 256).map fun i => Crc.entry 0xa001#16 (BitVec.ofNat 8 i) := by
  decide +kernel

theorem table_entry (index : Fin 256) :
    Crc.entry 0xa001#16 (BitVec.ofFin index : BitVec 8) =
      (crcLow.getD index 0 ++ crcHigh.getD index 0 : BitVec 16) := by
  have hlen : crcLow.length = 256 ∧ crcHigh.length = 256 := by decide +kernel
  have hlow : index.val < crcLow.length := by
    rw [hlen.1]
    exact index.isLt
  have hhigh : index.val < crcHigh.length := by
    rw [hlen.2]
    exact index.isLt
  have hbyte : BitVec.ofNat 8 index.val = BitVec.ofFin index := by
    apply BitVec.eq_of_toNat_eq
    simp
  have hat := congrArg (fun entries => entries[index.val]?) tables_eq
  simp only [List.getElem?_zipWith, List.getElem?_eq_getElem hlow, List.getElem?_eq_getElem hhigh,
    List.getElem?_map, List.getElem?_range index.isLt, Option.map_some, Option.some.injEq,
    hbyte] at hat
  rw [List.getD_eq_getElem _ _ hlow, List.getD_eq_getElem _ _ hhigh]
  exact hat.symm

theorem crc_step (crc : Byte × Byte) (byte : Byte) :
    joined (modbusCrcStep crc byte) = Crc.crcByte 0xa001#16 (joined crc) byte := by
  rw [Crc.crc_byte_eq _ (by decide), joined_low]
  have hentry := table_entry (crc.2 ^^^ byte).toFin
  rw [BitVec.ofFin_toFin] at hentry
  rw [hentry, joined, modbusCrcStep]
  apply BitVec.eq_of_getLsbD_eq
  intro i hi
  simp only [joined, BitVec.getLsbD_append, BitVec.getLsbD_xor, BitVec.getLsbD_ushiftRight]
  by_cases h : i < 8
  · simp [h, BitVec.val_toFin]
  · simp [h, show ¬8+i < 8 by omega, BitVec.val_toFin, BitVec.getLsbD_of_ge crc.1 i (by omega)]

/-- The check of the tables is the Modbus CRC-16. -/
theorem modbus_crc_eq (bytes : List Byte) : modbusCrc16 bytes = crcBytes bytes := by
  have hfold : ∀ crc, joined (bytes.foldl modbusCrcStep crc) =
      Crc.crc 0xa001#16 (joined crc) bytes := by
    induction bytes with
    | nil => exact fun _ => rfl
    | cons byte bytes ih =>
      intro crc
      rw [List.foldl_cons, ih, crc_step]
      rfl
  have h := hfold (0xff, 0xff)
  unfold modbusCrc16 crcBytes
  rw [show (0xffff#16 : BitVec 16) = joined (0xff, 0xff) from rfl, ← h]
  simp only [joined_low, joined_high]

end Modbus

section Doya

variable {handle : PortHandle} {package : Package}

theorem doya_cases (handle : PortHandle) :
    (doyaSendPackageHandle handle).1 < 0 ∧
      (handle.data.addressLen < 2 ∨ doyaPackage handle.data = none) ∨
    2 ≤ handle.data.addressLen ∧ ∃ package, doyaPackage handle.data = some package ∧
      ((doyaSendPackageHandle handle).1, (doyaSendPackageHandle handle).2.packageBuffer) =
        doyaSendPackage handle.packageBuffer handle.packageBufferLen package := by
  unfold doyaSendPackageHandle
  by_cases hlen : handle.data.addressLen < 2
  · rw [if_pos hlen]
    exact Or.inl ⟨by simp, Or.inl hlen⟩
  · rw [if_neg hlen]
    by_cases hlow : (Package.zeroed handle.data).addrLow = broadMask <;>
      cases hpackage : doyaPackage handle.data with
      | none => exact Or.inl (by simp [hlow, hpackage])
      | some package => exact Or.inr ⟨not_lt.mp hlen, package, rfl, by simp [hlow, hpackage]⟩

theorem doya_body (package : Package) :
    package.body = package.header++(List.range package.dataLen).map package.data := rfl

theorem doya_frame (hc : package.command ∈ [1#8, 2#8, 3#8]) :
    DoyaFrame (package.body++modbusCrc16 package.body) := by
  refine ⟨by simp [doya_body, Package.header], ⟨package.command, hc, ?_⟩, package.body, ?_⟩
  · simp [doya_body, Package.header]
  · rw [modbus_crc_eq]

theorem doya_function {target : Target} (hp : doyaPackage target = some package) :
    package.command ∈ [1#8, 2#8, 3#8] ↔ target.method ≠ .curtainReset := by
  unfold doyaPackage at hp
  cases hm : target.method <;> simp only [hm, reduceCtorEq] at hp
  all_goals
    obtain rfl := Option.some.inj hp
    simp [Package.zeroed, curtainCommand, curtainRead]

theorem doya_package_well_sent {sent : ℤ × PortHandle} (hc : package.command ∈ [1#8, 2#8, 3#8])
    (hlen : handle.packageBufferLen = handle.packageBuffer.length)
    (hsent : (sent.1, sent.2.packageBuffer) =
      doyaSendPackage handle.packageBuffer handle.packageBufferLen package) :
    WellSent DoyaFrame handle sent := by
  unfold doyaSendPackage at hsent
  split_ifs at hsent
  · exact Or.inl (by rw [(Prod.mk.inj hsent).1]; decide)
  · exact Or.inl (by rw [(Prod.mk.inj hsent).1]; decide)
  · exact fits_well_sent (doya_frame hc) (by simp [doya_body, Package.header]) (by decide) hlen
      hsent

/-- A request to reset is sent with the function byte 0. -/
theorem doya_reset {target : Target} (hm : target.method = .curtainReset) (buffer : List Byte)
    (len : ℤ) : ∃ package, doyaPackage target = some package ∧
      doyaSendPackage buffer len package =
        putIfFits buffer len (package.body++modbusCrc16 package.body) (-1) ∧
      (package.body++modbusCrc16 package.body).length = 7 ∧
      (package.body++modbusCrc16 package.body)[3]? = some 0#8 := by
  refine ⟨Package.zeroed target, by simp [doyaPackage, hm], ?_, ?_, ?_⟩
  · simp [doyaSendPackage, Package.zeroed]
  · simp [doya_body, Package.header, Package.dataLen, Package.zeroed, modbusCrc16]
  · simp [doya_body, Package.header, Package.zeroed]

theorem doya_well_sent_iff (hlen : handle.packageBufferLen = handle.packageBuffer.length) :
    WellSent DoyaFrame handle (doyaSendPackageHandle handle) ↔ Encodes .doya handle := by
  rcases doya_cases handle with ⟨herror, hwhy⟩ | ⟨haddress, package, hpackage, hsent⟩
  · refine ⟨fun _ hm => ?_, fun _ => Or.inl herror⟩
    rcases hwhy with hshort | hnone
    · exact Or.inl hshort
    · simp [doyaPackage, hm] at hnone
  · by_cases hm : handle.data.method = .curtainReset
    · obtain ⟨package', hpackage', hput, hseven, hthree⟩ :=
        doya_reset hm handle.packageBuffer handle.packageBufferLen
      obtain rfl := Option.some.inj (hpackage.symm.trans hpackage')
      rw [hput, putIfFits, hseven] at hsent
      constructor
      · intro hwell _
        right
        by_contra hfit
        rw [if_neg (by exact_mod_cast hfit)] at hsent
        obtain ⟨hn, hbuffer⟩ := Prod.mk.inj hsent
        rcases hwell with hneg | ⟨-, -, -, -, -, ⟨function, hmem, hfunction⟩, -⟩
        · omega
        · rw [hn, hbuffer, Int.toNat_natCast, ← hseven, put_take, hthree] at hfunction
          obtain rfl := Option.some.inj hfunction
          exact absurd hmem (by decide)
      · intro henc
        left
        rw [if_pos (by have := henc hm; push_cast; omega)] at hsent
        rw [(Prod.mk.inj hsent).1]
        decide
    · exact ⟨fun _ h => absurd h hm, fun _ =>
        doya_package_well_sent ((doya_function hpackage).mpr hm) hlen hsent⟩

end Doya

section Aoke

variable {handle : PortHandle}

theorem aoke_package_length {target : Target} {package : AokePackage}
    (hp : aokePackage target = some package) : package.length = 5 := by
  unfold aokePackage at hp
  cases hm : target.method <;> simp only [hm, reduceCtorEq] at hp
  all_goals
    obtain rfl := Option.some.inj hp
    rfl

theorem aoke_frame {package : AokePackage} (h : package.length = 5) :
    AokeFrame (aokeSi::package++[getCheck package]) := by
  refine ⟨rfl, by simp [h], ?_⟩
  have htake : ((aokeSi::package++[getCheck package]).drop 1).take 5 = package := by
    simp [← h]
  rw [htake, List.getLast?_concat]
  rfl

theorem aoke_well_sent (hlen : handle.packageBufferLen = handle.packageBuffer.length) :
    WellSent AokeFrame handle (aokeSendPackageHandle handle) := by
  unfold aokeSendPackageHandle
  split_ifs with haddress hfit
  · exact Or.inl (by simp)
  · exact Or.inl (by simp)
  · cases hp : aokePackage (aokeAddress handle.data) with
    | none => exact Or.inl (by simp [hp])
    | some package =>
      have h5 := aoke_package_length hp
      simp only [hp]
      refine put_well_sent (aoke_frame h5) (by simp) hlen ?_ (by simp [h5]) rfl
      simp only [List.length_append, List.length_cons, h5, List.length_nil]
      omega

end Aoke

section Sums

variable {handle : PortHandle}

theorem sum_check_neg (value : List Byte) : calculateSumCheck value = -value.sum := by
  rw [BitVec.neg_eq_not_add, List.sum_eq_foldl]
  rfl

theorem sum_check (value : List Byte) : value.sum+calculateSumCheck value = 0 := by
  rw [sum_check_neg, add_neg_cancel]

theorem sum_frame (addr cid : Byte) {data : List Byte} (hd : data.length < 256) :
    SumFrame (sumFrame addr cid data) := by
  have hlength : (sumFrame addr cid data).length = data.length+7 := by
    simp [sumFrame, sumBody]
  have hsplit : sumFrame addr cid data =
      soiSend::(sumBody addr cid data++[calculateSumCheck (sumBody addr cid data)])++[eoi] := by
    simp [sumFrame]
  refine ⟨rfl, ⟨BitVec.ofNat 8 data.length, rfl, ?_⟩, ?_, ?_⟩
  · rw [hlength, BitVec.toNat_ofNat, Nat.mod_eq_of_lt hd]
  · have htake : ((sumFrame addr cid data).drop 1).take ((sumFrame addr cid data).length-2) =
        sumBody addr cid data++[calculateSumCheck (sumBody addr cid data)] := by
      rw [hlength, hsplit, List.cons_append, List.drop_one, List.tail_cons]
      exact List.take_left' (by simp [sumBody])
    rw [htake, List.sum_append, List.sum_singleton, sum_check]
  · rw [hsplit, List.getLast?_concat]
    rfl

theorem loreley_package_well_sent {sent : ℤ × PortHandle} {addr cid : Byte} {data : List Byte}
    (hlen : handle.packageBufferLen = handle.packageBuffer.length)
    (hsent : (sent.1, sent.2.packageBuffer) =
      loreleySendPackage handle.packageBuffer handle.packageBufferLen addr cid data) :
    WellSent SumFrame handle sent := by
  have hone := List.length_take_le 1 data
  have hfive := List.length_take_le 5 data
  unfold loreleySendPackage at hsent
  split_ifs at hsent
  · exact fits_well_sent (sum_frame addr cid (by simp)) (by simp [sumFrame]) (by decide) hlen hsent
  · exact fits_well_sent (sum_frame addr cid (by omega)) (by simp [sumFrame]) (by decide) hlen hsent
  · exact fits_well_sent (sum_frame addr cid (by omega)) (by simp [sumFrame]) (by decide) hlen hsent
  · exact Or.inl (by rw [(Prod.mk.inj hsent).1]; decide)

theorem loreley_well_sent (hlen : handle.packageBufferLen = handle.packageBuffer.length) :
    WellSent SumFrame handle (loreleySendPackageHandle handle) := by
  unfold loreleySendPackageHandle
  split_ifs with haddress
  · exact Or.inl (by simp)
  · cases hc : loreleyCommand handle.data.method with
    | none => exact Or.inl (by simp)
    | some command => exact loreley_package_well_sent hlen rfl

theorem panasonnic_package_well_sent (addr cid : Byte) (data : List Byte) (dataLen : ℤ)
    {sent : ℤ × PortHandle}
    (hlen : handle.packageBufferLen = handle.packageBuffer.length)
    (hsent : (sent.1, sent.2.packageBuffer) =
      panasonnicSendPackage handle.packageBuffer handle.packageBufferLen addr cid data dataLen) :
    WellSent SumFrame handle sent := by
  have hfive := List.length_take_le 5 data
  unfold panasonnicSendPackage at hsent
  split_ifs at hsent
  · exact Or.inl (by rw [(Prod.mk.inj hsent).1]; decide)
  · exact fits_well_sent (sum_frame addr cid (by simp)) (by simp [sumFrame]) (by decide) hlen hsent
  · exact fits_well_sent (sum_frame addr cid (by omega)) (by simp [sumFrame]) (by decide) hlen hsent
  · exact Or.inl (by rw [(Prod.mk.inj hsent).1]; decide)

/-- For any other method the panasonnic driver reports a frame of no bytes. -/
theorem panasonnic_well_sent_iff
    (hlen : handle.packageBufferLen = handle.packageBuffer.length) :
    WellSent SumFrame handle (panasonnicSendPackageHandle handle) ↔
      Encodes .panasonnic handle := by
  unfold panasonnicSendPackageHandle Encodes
  by_cases haddress : handle.data.addressLen = 1
  · rw [if_neg (not_not.mpr haddress)]
    cases hc : airCommand handle.data.method with
    | some row =>
      refine ⟨fun _ _ => Or.inl rfl, fun _ => ?_⟩
      exact panasonnic_package_well_sent _ setAirArgCidSend (airCommandTable.getD row []) 5 hlen rfl
    | none =>
      simp only [Option.isSome_none, Bool.false_eq_true, false_or, haddress, true_imp_iff]
      split_ifs with hm
      · exact ⟨fun _ => hm, fun _ =>
          panasonnic_package_well_sent _ getAirInfoCidSend [] 0 hlen rfl⟩
      · refine ⟨fun h => ?_, fun h => absurd h hm⟩
        rcases h with h | ⟨h, -⟩ <;> exact absurd h (by simp)
  · rw [if_pos haddress]
    exact ⟨fun _ h => absurd h haddress, fun _ => Or.inl eperm_neg⟩

end Sums

/-- A driver sends well-formed frames, and nothing else, exactly if it is not
asked to reset a doya curtain, nor for a method that panasonnic does not know. -/
theorem frames_well_formed_iff (driver : Driver) (handle : PortHandle)
    (hlen : handle.packageBufferLen = handle.packageBuffer.length) :
    WellSent (Frame driver) handle (sendPackageHandle driver handle) ↔ Encodes driver handle := by
  cases driver with
  | doya => exact doya_well_sent_iff hlen
  | aoke => exact ⟨fun _ => trivial, fun _ => aoke_well_sent hlen⟩
  | loreley => exact ⟨fun _ => trivial, fun _ => loreley_well_sent hlen⟩
  | panasonnic => exact panasonnic_well_sent_iff hlen

def portHandle (len : ℕ) (addressLen : ℤ) (method : DeviceMethod) : PortHandle where
  packageBuffer := List.replicate len 0
  packageBufferLen := len
  exceptReply := true
  timeoutMs := 500
  data := ⟨fun _ => 1, addressLen, false, method, 50, 7⟩

theorem curtain_open_well_formed :
    (portHandle 20 2 .curtainOpen).packageBufferLen = 20 ∧
      (WellSent (Frame .doya) (portHandle 20 2 .curtainOpen)
          (sendPackageHandle .doya (portHandle 20 2 .curtainOpen)) ↔
        Encodes .doya (portHandle 20 2 .curtainOpen)) :=
  ⟨rfl, frames_well_formed_iff .doya (portHandle 20 2 .curtainOpen) rfl⟩

/-- A doya curtain is reset with the function byte 0, and an air conditioner asked
to restart is sent no byte. -/
theorem reset_not_well_formed :
    (sendPackageHandle .doya (portHandle 20 2 .curtainReset)).1 = 7 ∧
      ¬WellSent (Frame .doya) (portHandle 20 2 .curtainReset)
        (sendPackageHandle .doya (portHandle 20 2 .curtainReset)) ∧
      (sendPackageHandle .panasonnic (portHandle 20 1 .airRestart)).1 = 0 ∧
      ¬WellSent (Frame .panasonnic) (portHandle 20 1 .airRestart)
        (sendPackageHandle .panasonnic (portHandle 20 1 .airRestart)) := by
  refine ⟨rfl, ?_, rfl, ?_⟩
  · rintro (h | ⟨-, -, -, -, -, ⟨function, hmem, hfunction⟩, -⟩)
    · exact absurd h (by decide)
    · obtain rfl := Option.some.inj (show some 0#8 = some function from hfunction)
      exact absurd hmem (by decide)
  · rintro (h | ⟨h, -⟩) <;> exact absurd h (by decide)

end RS485.Frames
