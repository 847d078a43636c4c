import Rs485.Encoders

/-!
# The commands the curtain driver exports

Thirteen functions fill a package on their stack and hand it to `send_package`,
which reads other fields of it for each command. What a function has not filled
in is what was on the stack, and may go out on the line.
-/

set_option autoImplicit false

namespace RS485.CurtainCommands
open RS485.Platform RS485.Records RS485.Encoders

section Commands

def curtainCommandStop : Byte := 0x03
def curtainCommandDelete : Byte := 0x07
def curtainCommandRefactory : Byte := 0x08

def curtainReadWriteAddr : Byte := 0x00
def curtainReadWriteDirection : Byte := 0x03
def curtainReadWriteHandle : Byte := 0x04
def curtainReadWriteSwitchPassive : Byte := 0x27
def curtainReadWriteSwitchActive : Byte := 0x28
def curtainReadWriteVersion : Byte := 0xfe

/-- The result and the bytes handed to `rs485_send`, if it is called. -/
def sendPackage (package : Package) : ℤ × Option (List Byte) :=
  if package.cmd = .woAddr ∧ (package.data 1 = 0x00 ∨ package.data 2 = 0x00) then (-1, none)
  else if package.cmd = .woAddr ∧ (package.data 1 = 0xff ∨ package.data 2 = 0xff) then (-1, none)
  else (0, some (package.body++modbusCrc16 package.body))

/-- A function fills in the address, the command and the first bytes of the data.
It does not look at the result of `send_package`. -/
def noReply (cmd : Command) (command dataAddr : Byte) (data : List Byte) (addr : Byte × Byte)
    (package : Package) : ℤ × Option (List Byte) :=
  (0, (sendPackage { package with
    addrLow := addr.1
    addrHigh := addr.2
    cmd := cmd
    command := command
    dataAddr := dataAddr
    data := fun i => data.getD i (package.data i) }).2)

variable (addr : Byte × Byte) (package : Package)

def openCurtainNoReply : ℤ × Option (List Byte) :=
  noReply .commandOpen curtainCommand curtainCommandOpen [] addr package

def closeCurtainNoReply : ℤ × Option (List Byte) :=
  noReply .commandClose curtainCommand curtainCommandClose [] addr package

def stopCurtainNoReply : ℤ × Option (List Byte) :=
  noReply .commandStop curtainCommand curtainCommandStop [] addr package

def percentCurtainNoReply (data : Byte) : ℤ × Option (List Byte) :=
  noReply .commandPercent curtainCommand curtainCommandPercent [data] addr package

def deleteTrackCurtainNoReply : ℤ × Option (List Byte) :=
  noReply .commandDelete curtainCommand curtainCommandDelete [] addr package

def refactoryCurtainNoReply : ℤ × Option (List Byte) :=
  noReply .commandRefactory curtainCommand curtainCommandRefactory [] addr package

def setAddrCurtainNoReply (set : Byte × Byte) : ℤ × Option (List Byte) :=
  noReply .woAddr curtainWrite curtainReadWriteAddr [0x02, set.1, set.2] addr package

def setDirectionCurtainNoReply (same : Byte) : ℤ × Option (List Byte) :=
  noReply .rwDirection curtainWrite curtainReadWriteDirection [same] addr package

def setHandleEnableCurtainNoReply (enable : Byte) : ℤ × Option (List Byte) :=
  noReply .rwHandle curtainWrite curtainReadWriteHandle [enable] addr package

def setSwitchPassiveCurtainNoReply (type : Byte) : ℤ × Option (List Byte) :=
  noReply .rwSwitchPassive curtainWrite curtainReadWriteSwitchPassive [type] addr package

/-- The argument is not used. -/
def setSwitchActiveCurtainNoReply (_type : Byte) : ℤ × Option (List Byte) :=
  noReply .rwSwitchActive curtainWrite curtainReadWriteSwitchActive [] addr package

def readPercentCurtainNoReply : ℤ × Option (List Byte) :=
  noReply .roPercent curtainRead curtainReadWritePercent [] addr package

def readVersionCurtainNoReply : ℤ × Option (List Byte) :=
  noReply .roVersion curtainRead curtainReadWriteVersion [] addr package

end Commands

section Spec

/-- A call of one of the functions, with its argument. -/
inductive Call where
  | openCurtain
  | closeCurtain
  | stop
  | percent (data : Byte)
  | deleteTrack
  | refactory
  | setAddr (set : Byte × Byte)
  | setDirection (same : Byte)
  | setHandleEnable (enable : Byte)
  | setSwitchPassive (type : Byte)
  | setSwitchActive (type : Byte)
  | readPercent
  | readVersion
  deriving DecidableEq

def Call.sent (call : Call) (addr : Byte × Byte) (package : Package) : ℤ × Option (List Byte) :=
  match call with
  | .openCurtain => openCurtainNoReply addr package
  | .closeCurtain => closeCurtainNoReply addr package
  | .stop => stopCurtainNoReply addr package
  | .percent data => percentCurtainNoReply addr package data
  | .deleteTrack => deleteTrackCurtainNoReply addr package
  | .refactory => refactoryCurtainNoReply addr package
  | .setAddr set => setAddrCurtainNoReply addr package set
  | .setDirection same => setDirectionCurtainNoReply addr package same
  | .setHandleEnable enable => setHandleEnableCurtainNoReply addr package enable
  | .setSwitchPassive type => setSwitchPassiveCurtainNoReply addr package type
  | .setSwitchActive type => setSwitchActiveCurtainNoReply addr package type
  | .readPercent => readPercentCurtainNoReply addr package
  | .readVersion => readVersionCurtainNoReply addr package

/-- What a setting is to be set to. -/
def Call.setting : Call → Option Byte
  | .setDirection v | .setHandleEnable v | .setSwitchPassive v | .setSwitchActive v => some v
  | _ => none

/-- The frame has one byte of data, which is the argument. -/
def Carries (frame : Option (List Byte)) (v : Byte) : Prop :=
  ∃ f, frame = some f ∧ f[5]? = some 1 ∧ f[6]? = some v

/-- What was on the stack does not show, and a setting is sent as it was given. -/
structure Clean (call : Call) (addr : Byte × Byte) (p p' : Package) : Prop where
  same : (call.sent addr p).2 = (call.sent addr p').2
  argument : ∀ v, call.setting = some v →
    Carries (call.sent addr p).2 v ∧ Carries (call.sent addr p').2 v

/-- What the stack must hold in the bytes that are sent and not filled in. -/
def Settled (call : Call) (p p' : Package) : Prop :=
  match call with
  | .setDirection v | .setHandleEnable v | .setSwitchPassive v =>
    v = 1 ∧ p.data 1 = 1 ∧ p'.data 1 = 1
  | .setSwitchActive v => (p.data 0 = 1 ∧ p'.data 0 = 1) ∧ p.data 1 = v ∧ p'.data 1 = v
  | .readPercent | .readVersion => p.data 0 = p'.data 0
  | _ => True

end Spec

section Frames

variable {addr : Byte × Byte} {cmd : Command} {command dataAddr : Byte} {data : List Byte}

/-- A frame is its header, the bytes of data and their check. -/
def frame (addr : Byte × Byte) (command dataAddr : Byte) (data : List Byte) : List Byte :=
  let body := [0x55, addr.1, addr.2, command, dataAddr]++data
  body++modbusCrc16 body

theorem frame_injective {data' : List Byte} (hlen : data.length = data'.length) :
    frame addr command dataAddr data = frame addr command dataAddr data' ↔ data = data' := by
  constructor
  · intro h
    obtain ⟨hbody, -⟩ := List.append_inj h (by simp [hlen])
    exact List.append_cancel_left hbody
  · rintro rfl
    rfl

theorem frame_carries (v v₀ v₁ : Byte) :
    Carries (some (frame addr command dataAddr [v₀, v₁])) v ↔ v₀ = 1 ∧ v₁ = v := by
  constructor
  · rintro ⟨f, hf, h5, h6⟩
    obtain rfl := Option.some.inj hf
    exact ⟨Option.some.inj h5, Option.some.inj h6⟩
  · rintro ⟨rfl, rfl⟩
    exact ⟨_, rfl, rfl, rfl⟩

/-- How many bytes of data `send_package` takes. -/
def taken (cmd : Command) (command : Byte) : ℕ :=
  Package.dataLen ⟨0, 0, command, 0, fun _ => 0, cmd⟩

theorem no_reply_frame (hcmd : cmd ≠ .woAddr) (p : Package) :
    (noReply cmd command dataAddr data addr p).2 = some (frame addr command dataAddr
      ((List.range (taken cmd command)).map fun i => data.getD i (p.data i))) := by
  rw [noReply, sendPackage, if_neg fun h => hcmd h.1, if_neg fun h => hcmd h.1]
  rfl

/-- Two calls send the same exactly if they find the same in the bytes that are
taken and not filled in. -/
theorem no_reply_same_iff (hcmd : cmd ≠ .woAddr) (p p' : Package) :
    (noReply cmd command dataAddr data addr p).2 = (noReply cmd command dataAddr data addr p').2 ↔
      ∀ i < taken cmd command, data.getD i (p.data i) = data.getD i (p'.data i) := by
  rw [no_reply_frame hcmd, no_reply_frame hcmd, Option.some.injEq, frame_injective (by simp)]
  simp only [List.map_inj_left, List.mem_range]

theorem no_reply_filled (hcmd : cmd ≠ .woAddr) (hlen : taken cmd command ≤ data.length)
    (p p' : Package) :
    (noReply cmd command dataAddr data addr p).2 =
      (noReply cmd command dataAddr data addr p').2 := by
  rw [no_reply_same_iff hcmd]
  intro i hi
  have hfilled : i < data.length := hi.trans_le hlen
  simp only [List.getD_eq_getElem?_getD, List.getElem?_eq_getElem hfilled, Option.getD_some]

theorem no_reply_two (hcmd : cmd ≠ .woAddr) (htaken : taken cmd command = 2) (p : Package) :
    (noReply cmd command dataAddr data addr p).2 =
      some (frame addr command dataAddr [data.getD 0 (p.data 0), data.getD 1 (p.data 1)]) := by
  rw [no_reply_frame hcmd, htaken]
  rfl

theorem no_reply_one_iff (hcmd : cmd ≠ .woAddr) (htaken : taken cmd command = 1)
    (p p' : Package) :
    (noReply cmd command dataAddr [] addr p).2 = (noReply cmd command dataAddr [] addr p').2 ↔
      p.data 0 = p'.data 0 := by
  rw [no_reply_same_iff hcmd, htaken]
  simp

/-- The address to set is checked and sent from what is filled in. -/
theorem set_addr_same (set : Byte × Byte) (p p' : Package) :
    (setAddrCurtainNoReply addr p set).2 = (setAddrCurtainNoReply addr p' set).2 := rfl

end Frames

section Settings

variable {call : Call} {addr : Byte × Byte} (p p' : Package)

theorem clean_plain (hplain : call.setting = none) :
    Clean call addr p p' ↔ (call.sent addr p).2 = (call.sent addr p').2 := by
  constructor
  · exact fun h => h.same
  · exact fun h => ⟨h, fun v hv => by rw [hplain] at hv; cases hv⟩

/-- A setting writes two bytes of data. They must be the length and the argument. -/
theorem clean_setting {cmd : Command} {v command dataAddr : Byte} {data : List Byte}
    (hset : call.setting = some v)
    (hsent : ∀ q, call.sent addr q = noReply cmd command dataAddr data addr q)
    (hcmd : cmd ≠ .woAddr) (htaken : taken cmd command = 2) :
    Clean call addr p p' ↔
      (data.getD 0 (p.data 0) = 1 ∧ data.getD 1 (p.data 1) = v) ∧
        data.getD 0 (p'.data 0) = 1 ∧ data.getD 1 (p'.data 1) = v := by
  have hframe : ∀ q, (call.sent addr q).2 =
      some (frame addr command dataAddr [data.getD 0 (q.data 0), data.getD 1 (q.data 1)]) := by
    intro q
    rw [hsent q, no_reply_two hcmd htaken]
  have hcarries : ∀ q, Carries (call.sent addr q).2 v ↔
      data.getD 0 (q.data 0) = 1 ∧ data.getD 1 (q.data 1) = v := by
    intro q
    rw [hframe q, frame_carries]
  constructor
  · intro h
    obtain ⟨hp, hp'⟩ := h.argument v hset
    exact ⟨(hcarries p).mp hp, (hcarries p').mp hp'⟩
  · rintro ⟨hp, hp'⟩
    constructor
    · rw [hframe p, hframe p', hp.1, hp.2, hp'.1, hp'.2]
    · intro u hu
      obtain rfl := Option.some.inj (hset.symm.trans hu)
      exact ⟨(hcarries p).mpr hp, (hcarries p').mpr hp'⟩

end Settings

section Calls

/-- The stack of a caller, with the same byte all over the data. -/
def stack (byte : Byte) : Package := ⟨0, 0, 0, 0, fun _ => byte, .commandOpen⟩

variable (call : Call) (addr : Byte × Byte) (p p' : Package)

/-- A call is clean exactly if the stack holds the right bytes where the function
does not fill in what it sends. -/
theorem commands_clean_iff : Clean call addr p p' ↔ Settled call p p' := by
  cases call with
  | openCurtain | closeCurtain | stop | deleteTrack | refactory =>
    rw [clean_plain p p' rfl]
    exact iff_of_true (no_reply_filled (by decide) (by decide) p p') trivial
  | percent data =>
    rw [clean_plain p p' rfl]
    exact iff_of_true (no_reply_filled (by decide) (le_refl 1) p p') trivial
  | setAddr set =>
    rw [clean_plain p p' rfl]
    exact iff_of_true (set_addr_same set p p') trivial
  | setDirection v | setHandleEnable v | setSwitchPassive v =>
    refine (clean_setting p p' rfl (fun q => rfl) (by decide) rfl).trans ?_
    simp only [List.getD_cons_zero, List.getD_cons_succ, List.getD_nil, Settled]
    grind
  | setSwitchActive v =>
    exact (clean_setting p p' rfl (fun q => rfl) (by decide) rfl).trans and_and_and_comm
  | readPercent | readVersion =>
    rw [clean_plain p p' rfl]
    exact no_reply_one_iff (by decide) rfl p p'

/-- The length that a request of the position carries is what was on the stack, and
a direction is sent in the place of the length. -/
theorem stack_shows :
    (Call.readPercent.sent (0xfe, 0xfe) (stack 0)).2 =
        some [0x55, 0xfe, 0xfe, 0x01, 0x02, 0x00, 0x44, 0x82] ∧
      (Call.readPercent.sent (0xfe, 0xfe) (stack 1)).2 =
        some [0x55, 0xfe, 0xfe, 0x01, 0x02, 0x01, 0x85, 0x42] ∧
      ¬Clean .readPercent (0xfe, 0xfe) (stack 0) (stack 1) ∧
      ¬Carries ((Call.setDirection 0).sent (0xfe, 0xfe) (stack 0)).2 0 := by
  have hzero : (Call.readPercent.sent (0xfe, 0xfe) (stack 0)).2 =
      some [0x55, 0xfe, 0xfe, 0x01, 0x02, 0x00, 0x44, 0x82] := by decide
  have hone : (Call.readPercent.sent (0xfe, 0xfe) (stack 1)).2 =
      some [0x55, 0xfe, 0xfe, 0x01, 0x02, 0x01, 0x85, 0x42] := by decide
  refine ⟨hzero, hone, fun h => ?_, fun h => ?_⟩
  · have hsame := h.same
    rw [hzero, hone] at hsame
    exact absurd hsame (by decide)
  · obtain ⟨f, hf, hlength, -⟩ := h
    obtain rfl := Option.some.inj hf
    exact absurd hlength (by decide)

end Calls

end RS485.CurtainCommands
