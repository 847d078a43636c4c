import Rs485.Words

/-!
# The control flags of a serial port

The constants of the system's `termios.h`, of which only the shape is known: the
masks are bit fields that do not overlap, the sizes and the speeds lie in theirs
and differ. Flags are read back as the standard has it.
-/

set_option autoImplicit false

namespace RS485.Termios
open RS485.Words

inductive Mask where
  | csize
  | cstopb
  | cread
  | parenb
  | parodd
  | clocal
  | cbaud
  deriving DecidableEq, Repr

/-- The character sizes. -/
inductive Size where
  | cs5
  | cs6
  | cs7
  | cs8
  deriving DecidableEq, Repr

inductive Speed where
  | b0
  | b50
  | b75
  | b110
  | b134
  | b150
  | b200
  | b300
  | b600
  | b1200
  | b1800
  | b2400
  | b4800
  | b9600
  | b19200
  | b38400
  | b57600
  | b115200
  | b230400
  deriving DecidableEq, Repr

def sizes : List Size := [.cs5, .cs6, .cs7, .cs8]

def speeds : List Speed := [.b0, .b50, .b75, .b110, .b134, .b150, .b200, .b300, .b600, .b1200,
  .b1800, .b2400, .b4800, .b9600, .b19200, .b38400, .b57600, .b115200, .b230400]

/-- The bits per second that a speed stands for. -/
def Speed.rate : Speed → ℕ
  | .b0 => 0
  | .b50 => 50
  | .b75 => 75
  | .b110 => 110
  | .b134 => 134
  | .b150 => 150
  | .b200 => 200
  | .b300 => 300
  | .b600 => 600
  | .b1200 => 1200
  | .b1800 => 1800
  | .b2400 => 2400
  | .b4800 => 4800
  | .b9600 => 9600
  | .b19200 => 19200
  | .b38400 => 38400
  | .b57600 => 57600
  | .b115200 => 115200
  | .b230400 => 230400

structure Constants where
  mask : Mask → BitVec 32
  size : Size → BitVec 32
  speed : Speed → BitVec 32
  disjoint : ∀ m m', m ≠ m' → mask m &&& mask m' = 0#32
  nonzero : ∀ m, mask m ≠ 0#32
  size_within : ∀ s, size s &&& ~~~mask .csize = 0#32
  size_injective : Function.Injective size
  speed_within : ∀ s, speed s &&& ~~~mask .cbaud = 0#32
  speed_injective : Function.Injective speed

section Read

variable (t : Constants) (flags : BitVec 32)

/-- The size in the flags. -/
def Constants.readSize : Option Size := sizes.find? fun s => t.size s = flags &&& t.mask .csize

/-- Two stop bits rather than one. -/
def Constants.readTwoStopBits : Bool := flags &&& t.mask .cstopb ≠ 0#32

inductive Checked where
  | none
  | odd
  | even
  deriving DecidableEq, Repr

def Constants.readParity : Checked :=
  if flags &&& t.mask .parenb = 0#32 then .none
  else if flags &&& t.mask .parodd = 0#32 then .even
  else .odd

/-- The speed that is the constant. -/
def Constants.readSpeed (code : BitVec 32) : Option Speed := speeds.find? fun s => t.speed s = code

def Constants.readRate : Option ℕ := (t.readSpeed (flags &&& t.mask .cbaud)).map Speed.rate

end Read

section Codes

variable {t : Constants}

theorem find_code {A B : Type} [DecidableEq B] {f : A → B} (hf : Function.Injective f) {a : A}
    {l : List A} (ha : a ∈ l) : l.find? (fun x => f x = f a) = some a := by
  induction l with
  | nil => cases ha
  | cons x l ih =>
    by_cases hx : x = a
    · simp [hx]
    · have hmem : a ∈ l := (List.mem_cons.mp ha).resolve_left (Ne.symm hx)
      simp [hf.ne hx, ih hmem]

theorem size_read {flags : BitVec 32} {s : Size} (h : flags &&& t.mask .csize = t.size s) :
    t.readSize flags = some s := by
  rw [Constants.readSize, h]
  exact find_code t.size_injective (by cases s <;> decide)

theorem speed_read (s : Speed) : t.readSpeed (t.speed s) = some s :=
  find_code t.speed_injective (by cases s <;> decide)

theorem rate_read {flags : BitVec 32} {s : Speed} (h : flags &&& t.mask .cbaud = t.speed s) :
    t.readRate flags = some s.rate := by
  rw [Constants.readRate, h, speed_read]
  rfl

/-- A size leaves the other fields alone. -/
theorem size_apart (s : Size) {m : Mask} (hm : m ≠ .csize) : t.size s &&& t.mask m = 0#32 :=
  within_apart (t.size_within s) (t.disjoint _ _ hm.symm)

theorem speed_apart (s : Speed) {m : Mask} (hm : m ≠ .cbaud) : t.speed s &&& t.mask m = 0#32 :=
  within_apart (t.speed_within s) (t.disjoint _ _ hm.symm)

end Codes

/-- The constants of Linux. -/
def linux : Constants where
  mask
    | .csize => 0x30
    | .cstopb => 0x40
    | .cread => 0x80
    | .parenb => 0x100
    | .parodd => 0x200
    | .clocal => 0x800
    | .cbaud => 0x100f
  size
    | .cs5 => 0x00
    | .cs6 => 0x10
    | .cs7 => 0x20
    | .cs8 => 0x30
  speed
    | .b0 => 0x0
    | .b50 => 0x1
    | .b75 => 0x2
    | .b110 => 0x3
    | .b134 => 0x4
    | .b150 => 0x5
    | .b200 => 0x6
    | .b300 => 0x7
    | .b600 => 0x8
    | .b1200 => 0x9
    | .b1800 => 0xa
    | .b2400 => 0xb
    | .b4800 => 0xc
    | .b9600 => 0xd
    | .b19200 => 0xe
    | .b38400 => 0xf
    | .b57600 => 0x1001
    | .b115200 => 0x1002
    | .b230400 => 0x1003
  disjoint m m' h := by cases m <;> cases m' <;> first | rfl | exact absurd rfl h
  nonzero m := by cases m <;> decide
  size_within s := by cases s <;> rfl
  size_injective s s' h := by cases s <;> cases s' <;> first | rfl | exact absurd h (by decide)
  speed_within s := by cases s <;> rfl
  speed_injective s s' h := by cases s <;> cases s' <;> first | rfl | exact absurd h (by decide)

end RS485.Termios
