import Rs485.Termios

/-!
# The serial settings of an interface

`parse_c_cflag` of `interface.c` merges a profile into one word of control
flags. Read back by their standard meaning, they have the parity the other way
round, and the speed 76800 is the code of 38400.
-/

set_option autoImplicit false

namespace RS485.Profiles
open RS485.Words RS485.Termios

section Encode

inductive InterfaceDataBits where
  | bits5
  | bits6
  | bits7
  | bits8
  | unknown (value : ℤ)
  deriving DecidableEq, Repr

inductive InterfaceParodd where
  | null
  | odd
  | even
  | unknown (value : ℤ)
  deriving DecidableEq, Repr

inductive InterfaceStopBits where
  | bits0
  | bits1
  | bits2
  | unknown (value : ℤ)
  deriving DecidableEq, Repr

structure InterfaceProfile where
  baudRate : BitVec 32
  dataBits : InterfaceDataBits
  parity : InterfaceParodd
  stopBits : InterfaceStopBits

def rs485mod : BitVec 32 := 0

/-- The switch of `get_baud_rate`. -/
def baudSpeed : ℕ → Speed
  | 0 => .b0
  | 50 => .b50
  | 75 => .b75
  | 110 => .b110
  | 134 => .b134
  | 150 => .b150
  | 200 => .b200
  | 300 => .b300
  | 600 => .b600
  | 1200 => .b1200
  | 1800 => .b1800
  | 2400 => .b2400
  | 4800 => .b4800
  | 9600 => .b9600
  | 19200 => .b19200
  | 38400 => .b38400
  | 57600 => .b57600
  | 76800 => .b38400
  | 115200 => .b115200
  | 230400 => .b230400
  | _ => .b9600

variable (t : Constants) (interface : InterfaceProfile) (cflags : BitVec 32)

def getBaudRate (baud : BitVec 32) : BitVec 32 := t.speed (baudSpeed baud.toNat)

/-- `set databits` -/
def setDataBits : BitVec 32 :=
  let cflags := cflags &&& ~~~t.mask .csize
  match interface.dataBits with
  | .bits5 => cflags ||| t.size .cs5
  | .bits6 => cflags ||| t.size .cs6
  | .bits7 => cflags ||| t.size .cs7
  | .bits8 => cflags ||| t.size .cs8
  | .unknown _ => cflags ||| t.size .cs8

/-- `set stopbits` -/
def setStopBits : BitVec 32 :=
  match interface.stopBits with
  | .bits1 => cflags &&& ~~~t.mask .cstopb
  | .bits2 => cflags ||| t.mask .cstopb
  | .bits0 | .unknown _ => cflags &&& ~~~t.mask .cstopb

/-- `set parity bits` -/
def setParity : BitVec 32 :=
  match interface.parity with
  | .null => cflags &&& ~~~t.mask .parenb
  | .odd => (cflags ||| t.mask .parenb) &&& ~~~t.mask .parodd
  | .even => (cflags ||| t.mask .parenb) ||| t.mask .parodd
  | .unknown _ => cflags &&& ~~~t.mask .parenb

def parseCCflag : BitVec 32 :=
  let cflags := 0
  let cflags := cflags ||| (t.mask .clocal ||| t.mask .cread ||| rs485mod)
  let cflags := setDataBits t interface cflags
  let cflags := setStopBits t interface cflags
  let cflags := setParity t interface cflags
  cflags ||| getBaudRate t interface.baudRate

end Encode

section Spec

/-- The rates in the switch of `get_baud_rate`. -/
def rates : List ℕ := [0, 50, 75, 110, 134, 150, 200, 300, 600, 1200, 1800, 2400, 4800, 9600,
  19200, 38400, 57600, 76800, 115200, 230400]

/-- The profiles whose settings are those of the enumerations, with a stop bit. -/
structure Named (interface : InterfaceProfile) : Prop where
  dataBits : ∀ v, interface.dataBits ≠ .unknown v
  parity : ∀ v, interface.parity ≠ .unknown v
  stopBits : interface.stopBits = .bits1 ∨ interface.stopBits = .bits2

def sizeBits : Size → InterfaceDataBits
  | .cs5 => .bits5
  | .cs6 => .bits6
  | .cs7 => .bits7
  | .cs8 => .bits8

def checkedParity : Checked → InterfaceParodd
  | .none => .null
  | .odd => .odd
  | .even => .even

/-- The flags read back as the profile, with 9600 for a rate not in the switch. -/
structure Survives (t : Constants) (interface : InterfaceProfile) : Prop where
  dataBits : (t.readSize (parseCCflag t interface)).map sizeBits = some interface.dataBits
  stopBits : (if t.readTwoStopBits (parseCCflag t interface) then .bits2 else .bits1) =
    interface.stopBits
  parity : checkedParity (t.readParity (parseCCflag t interface)) = interface.parity
  baudRate : t.readRate (parseCCflag t interface) =
    some (if interface.baudRate.toNat ∈ rates then interface.baudRate.toNat else 9600)
  clocal : parseCCflag t interface &&& t.mask .clocal = t.mask .clocal
  cread : parseCCflag t interface &&& t.mask .cread = t.mask .cread

end Spec

section Stages

variable (t : Constants) (interface : InterfaceProfile) (cflags : BitVec 32) {m : Mask}

/-- The size the switch over the data bits takes. -/
def bitsSize : InterfaceDataBits → Size
  | .bits5 => .cs5
  | .bits6 => .cs6
  | .bits7 => .cs7
  | .bits8 | .unknown _ => .cs8

theorem set_data_bits_eq : setDataBits t interface cflags =
    (cflags &&& ~~~t.mask .csize) ||| t.size (bitsSize interface.dataBits) := by
  unfold setDataBits
  cases interface.dataBits <;> rfl

theorem data_bits_apart (hm : m ≠ .csize) :
    setDataBits t interface cflags &&& t.mask m = cflags &&& t.mask m := by
  rw [set_data_bits_eq, or_apart (size_apart _ hm), clear_apart (t.disjoint _ _ hm.symm)]

theorem data_bits_own : setDataBits t interface cflags &&& t.mask .csize =
    t.size (bitsSize interface.dataBits) := by
  rw [set_data_bits_eq]
  exact or_within (t.size_within _) (clear_own _ _)

theorem stop_bits_apart (hm : m ≠ .cstopb) :
    setStopBits t interface cflags &&& t.mask m = cflags &&& t.mask m := by
  unfold setStopBits
  cases interface.stopBits with
  | bits2 => exact or_apart (t.disjoint _ _ hm.symm) cflags
  | bits0 | bits1 | unknown => exact clear_apart (t.disjoint _ _ hm.symm) cflags

theorem stop_bits_own (hclear : cflags &&& t.mask .cstopb = 0#32) :
    setStopBits t interface cflags &&& t.mask .cstopb =
      if interface.stopBits = .bits2 then t.mask .cstopb else 0#32 := by
  unfold setStopBits
  cases interface.stopBits with
  | bits2 =>
    rw [if_pos rfl]
    exact or_within (BitVec.and_not_self _) hclear
  | bits0 | bits1 | unknown => exact clear_own _ _

theorem parity_apart (hm : m ≠ .parenb) (hm' : m ≠ .parodd) :
    setParity t interface cflags &&& t.mask m = cflags &&& t.mask m := by
  have henable := t.disjoint _ _ hm.symm
  have hodd := t.disjoint _ _ hm'.symm
  unfold setParity
  cases interface.parity with
  | null | unknown => exact clear_apart henable cflags
  | odd =>
    exact (clear_apart hodd _).trans (or_apart henable cflags)
  | even => exact (or_apart hodd _).trans (or_apart henable cflags)

/-- What the parity set in the flags reads as. -/
def setChecked : InterfaceParodd → Checked
  | .null | .unknown _ => .none
  | .odd => .even
  | .even => .odd

theorem parity_own (henable : cflags &&& t.mask .parenb = 0#32)
    (hodd : cflags &&& t.mask .parodd = 0#32) {flags : BitVec 32}
    (hflags : ∀ m, m = .parenb ∨ m = .parodd →
      flags &&& t.mask m = setParity t interface cflags &&& t.mask m) :
    t.readParity flags = setChecked interface.parity := by
  have happart : t.mask .parodd &&& t.mask .parenb = 0#32 := t.disjoint _ _ (by decide)
  have henabled : (cflags ||| t.mask .parenb) &&& t.mask .parenb = t.mask .parenb :=
    or_within (BitVec.and_not_self _) henable
  rw [Constants.readParity, hflags .parenb (Or.inl rfl), hflags .parodd (Or.inr rfl)]
  unfold setParity
  cases interface.parity with
  | null | unknown => exact if_pos (clear_own _ _)
  | odd =>
    simp only [clear_apart happart, henabled, t.nonzero, if_false]
    exact if_pos (clear_own _ _)
  | even =>
    have hset : (cflags ||| t.mask .parenb) &&& t.mask .parodd = 0#32 := by
      rw [or_apart (t.disjoint _ _ (by decide)), hodd]
    simp only [or_apart happart, henabled, t.nonzero, if_false]
    rw [or_within (BitVec.and_not_self _) hset, if_neg (t.nonzero _)]
    rfl

end Stages

section Fields

variable (t : Constants) (interface : InterfaceProfile) {m : Mask}

/-- The flags that are set for every profile. -/
def control : BitVec 32 := t.mask .clocal ||| t.mask .cread

theorem control_apart (hlocal : m ≠ .clocal) (hread : m ≠ .cread) :
    control t &&& t.mask m = 0#32 := by
  rw [control, or_apart (t.disjoint _ _ hread.symm), t.disjoint _ _ hlocal.symm]

theorem control_local : control t &&& t.mask .clocal = t.mask .clocal := by
  rw [control, or_apart (t.disjoint _ _ (by decide)), BitVec.and_self]

theorem control_read : control t &&& t.mask .cread = t.mask .cread :=
  or_within (BitVec.and_not_self _) (t.disjoint _ _ (by decide))

theorem flags_eq : parseCCflag t interface =
    setParity t interface (setStopBits t interface (setDataBits t interface (control t))) |||
      t.speed (baudSpeed interface.baudRate.toNat) := by
  have hcontrol : (0#32 ||| (t.mask .clocal ||| t.mask .cread ||| rs485mod)) = control t := by
    rw [rs485mod, control, BitVec.zero_or]
    exact BitVec.or_zero
  rw [← hcontrol]
  rfl

theorem flags_speed : parseCCflag t interface &&& t.mask .cbaud =
    t.speed (baudSpeed interface.baudRate.toNat) := by
  rw [flags_eq]
  apply or_within (t.speed_within _)
  rw [parity_apart _ _ _ (by decide) (by decide), stop_bits_apart _ _ _ (by decide),
    data_bits_apart _ _ _ (by decide), control_apart t (by decide) (by decide)]

theorem flags_size : parseCCflag t interface &&& t.mask .csize =
    t.size (bitsSize interface.dataBits) := by
  rw [flags_eq, or_apart (speed_apart _ (by decide)), parity_apart _ _ _ (by decide) (by decide),
    stop_bits_apart _ _ _ (by decide), data_bits_own]

theorem flags_stop : parseCCflag t interface &&& t.mask .cstopb =
    if interface.stopBits = .bits2 then t.mask .cstopb else 0#32 := by
  rw [flags_eq, or_apart (speed_apart _ (by decide)), parity_apart _ _ _ (by decide) (by decide)]
  apply stop_bits_own
  rw [data_bits_apart _ _ _ (by decide), control_apart t (by decide) (by decide)]

theorem flags_parity :
    t.readParity (parseCCflag t interface) = setChecked interface.parity := by
  have hclear : ∀ m, m = .parenb ∨ m = .parodd →
      setStopBits t interface (setDataBits t interface (control t)) &&& t.mask m = 0#32 := by
    rintro m hm
    rw [stop_bits_apart, data_bits_apart, control_apart] <;> rcases hm with rfl | rfl <;> decide
  apply parity_own t interface _ (hclear _ (Or.inl rfl)) (hclear _ (Or.inr rfl))
  rintro m hm
  rw [flags_eq, or_apart (speed_apart _ (by rcases hm with rfl | rfl <;> decide))]

/-- The masks that no setting uses are as they were set at first. -/
theorem flags_control (hm : m = .clocal ∨ m = .cread) :
    parseCCflag t interface &&& t.mask m = t.mask m := by
  have hapart : parseCCflag t interface &&& t.mask m = control t &&& t.mask m := by
    rw [flags_eq, or_apart, parity_apart, stop_bits_apart, data_bits_apart] <;>
      first
      | rcases hm with rfl | rfl <;> decide
      | exact speed_apart _ (by rcases hm with rfl | rfl <;> decide)
  rw [hapart]
  rcases hm with rfl | rfl
  · exact control_local t
  · exact control_read t

end Fields

section Survival

variable (t : Constants) (interface : InterfaceProfile)

theorem data_bits_survive (h : ∀ v, interface.dataBits ≠ .unknown v) :
    (t.readSize (parseCCflag t interface)).map sizeBits = some interface.dataBits := by
  rw [size_read (flags_size t interface)]
  cases hbits : interface.dataBits with
  | unknown v => exact absurd hbits (h v)
  | bits5 | bits6 | bits7 | bits8 => rfl

theorem stop_bits_survive (h : interface.stopBits = .bits1 ∨ interface.stopBits = .bits2) :
    (if t.readTwoStopBits (parseCCflag t interface) then .bits2 else .bits1) =
      interface.stopBits := by
  rw [Constants.readTwoStopBits, flags_stop]
  rcases h with h | h <;> simp [h, t.nonzero]

/-- Odd reads as even and even as odd. -/
theorem parity_survives_iff (h : ∀ v, interface.parity ≠ .unknown v) :
    checkedParity (t.readParity (parseCCflag t interface)) = interface.parity ↔
      interface.parity = .null := by
  rw [flags_parity]
  cases hparity : interface.parity with
  | unknown v => exact absurd hparity (h v)
  | null | odd | even => decide

/-- The rate of the speed is the one asked for, but for 76800. -/
theorem baud_speed_rate (n : ℕ) : (baudSpeed n).rate =
    if n = 76800 then 38400 else if n ∈ rates then n else 9600 := by
  unfold baudSpeed
  split <;> simp_all [Speed.rate, rates]

theorem baud_rate_survives_iff :
    t.readRate (parseCCflag t interface) =
        some (if interface.baudRate.toNat ∈ rates then interface.baudRate.toNat else 9600) ↔
      interface.baudRate ≠ 76800 := by
  have hrate : interface.baudRate = 76800 ↔ interface.baudRate.toNat = 76800 := BitVec.toNat_eq
  rw [rate_read (flags_speed t interface), baud_speed_rate, Option.some.injEq, ne_eq, hrate]
  by_cases h : interface.baudRate.toNat = 76800
  · simp [h, rates]
  · simp [h]

/-- The settings survive exactly without a parity and at another rate than 76800. -/
theorem profile_survives_iff (t : Constants) (interface : InterfaceProfile)
    (h : Named interface) :
    Survives t interface ↔ interface.parity = .null ∧ interface.baudRate ≠ 76800 := by
  rw [← parity_survives_iff t interface h.parity, ← baud_rate_survives_iff t interface]
  constructor
  · exact fun hs => ⟨hs.parity, hs.baudRate⟩
  · rintro ⟨hparity, hrate⟩
    exact ⟨data_bits_survive t interface h.dataBits, stop_bits_survive t interface h.stopBits,
      hparity, hrate, flags_control t interface (Or.inl rfl),
      flags_control t interface (Or.inr rfl)⟩

/-- What the driver of a curtain asks for. -/
def plain : InterfaceProfile := ⟨9600, .bits8, .null, .bits1⟩

theorem plain_survives : Survives linux plain :=
  (profile_survives_iff linux plain ⟨by simp [plain], by simp [plain], Or.inl rfl⟩).mpr
    ⟨rfl, by decide⟩

theorem odd_reads_even :
    Named { plain with parity := .odd } ∧
      linux.readParity (parseCCflag linux { plain with parity := .odd }) = .even ∧
      ¬Survives linux { plain with parity := .odd } ∧
      linux.readRate (parseCCflag linux { plain with baudRate := 76800 }) = some 38400 ∧
      ¬Survives linux { plain with baudRate := 76800 } := by
  have heven : linux.readParity (parseCCflag linux { plain with parity := .odd }) = .even := by
    decide
  have hrate : linux.readRate (parseCCflag linux { plain with baudRate := 76800 }) =
      some 38400 := by decide
  refine ⟨⟨by simp [plain], by simp, Or.inl rfl⟩, heven, fun h => ?_, hrate, fun h => ?_⟩
  · have hparity := h.parity
    rw [heven] at hparity
    exact absurd hparity (by decide)
  · have hbaud := h.baudRate
    rw [hrate] at hbaud
    exact absurd hbaud (by decide)

end Survival

end RS485.Profiles
