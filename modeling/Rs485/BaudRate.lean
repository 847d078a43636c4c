import Rs485.Termios

/-!
# The baud rate of the RS485 port

`rs485.c` keeps the code of a speed, and a flag that tells 76800 from 38400,
which have the same code. The flag is cleared before the rate is looked at.
-/

set_option autoImplicit false

namespace RS485.BaudRate
open RS485.Termios

section Port

structure Port where
  /-- `RS485_Baud` -/
  baud : BitVec 32
  /-- `RS485_SpecBaud` -/
  specBaud : Bool
  deriving DecidableEq

/-- The switch of `rs485_set_baud_rate`: the speed to store, and the flag. -/
def rateCode : ℕ → Option (Speed × Bool)
  | 0 => some (.b0, false)
  | 50 => some (.b50, false)
  | 75 => some (.b75, false)
  | 110 => some (.b110, false)
  | 134 => some (.b134, false)
  | 150 => some (.b150, false)
  | 200 => some (.b200, false)
  | 300 => some (.b300, false)
  | 600 => some (.b600, false)
  | 1200 => some (.b1200, false)
  | 1800 => some (.b1800, false)
  | 2400 => some (.b2400, false)
  | 4800 => some (.b4800, false)
  | 9600 => some (.b9600, false)
  | 19200 => some (.b19200, false)
  | 38400 => some (.b38400, false)
  | 57600 => some (.b57600, false)
  | 76800 => some (.b38400, true)
  | 115200 => some (.b115200, false)
  | 230400 => some (.b230400, false)
  | _ => none

variable (t : Constants)

def initialPort : Port := ⟨t.speed .b38400, false⟩

def rs485SetBaudRate (port : Port) (baud : BitVec 32) : Bool × Port :=
  let port := { port with specBaud := false }
  match rateCode baud.toNat with
  | some (speed, spec) => (true, { port with baud := t.speed speed, specBaud := spec })
  | none => (false, port)

def rs485GetBaudRate (port : Port) : BitVec 32 :=
  match t.readSpeed port.baud with
  | some .b38400 => if port.specBaud = false then 38400 else 76800
  | some speed => BitVec.ofNat 32 speed.rate
  | none => 9600

end Port

section History

variable (t : Constants)

/-- A call, with the rate of the last call that returned true. -/
def call (s : Port × BitVec 32) (baud : BitVec 32) : Port × BitVec 32 :=
  let set := rs485SetBaudRate t s.1 baud
  (set.2, if set.1 then baud else s.2)

def history (calls : List (BitVec 32)) : Port × BitVec 32 :=
  calls.foldl (call t) (initialPort t, 38400)

/-- The rate that the port reports. -/
def reported (calls : List (BitVec 32)) : BitVec 32 := rs485GetBaudRate t (history t calls).1

/-- The rate of the last call that returned true. -/
def accepted (calls : List (BitVec 32)) : BitVec 32 := (history t calls).2

/-- The last rate taken is 76800, and a rate that is not has been tried since. -/
def Lost (calls : List (BitVec 32)) : Prop :=
  ∃ before since, calls = before++76800::since ∧ since ≠ [] ∧
    ∀ baud ∈ since, rateCode baud.toNat = none

variable {t}

theorem call_taken {baud : BitVec 32} {speed : Speed} {spec : Bool}
    (h : rateCode baud.toNat = some (speed, spec)) (s : Port × BitVec 32) :
    call t s baud = (⟨t.speed speed, spec⟩, baud) := by
  simp [call, rs485SetBaudRate, h]

theorem call_special (s : Port × BitVec 32) :
    call t s 76800 = (⟨t.speed .b38400, true⟩, 76800) := call_taken rfl s

theorem call_rejected {baud : BitVec 32} (h : rateCode baud.toNat = none) (s : Port × BitVec 32) :
    call t s baud = ({ s.1 with specBaud := false }, s.2) := by
  simp [call, rs485SetBaudRate, h]

theorem history_append (calls : List (BitVec 32)) (baud : BitVec 32) :
    history t (calls++[baud]) = call t (history t calls) baud := by
  rw [history, List.foldl_append]
  rfl

/-- Calls that are rejected clear the flag, and do nothing else. -/
theorem calls_rejected {since : List (BitVec 32)} (hne : since ≠ [])
    (h : ∀ baud ∈ since, rateCode baud.toNat = none) (s : Port × BitVec 32) :
    since.foldl (call t) s = ({ s.1 with specBaud := false }, s.2) := by
  induction since generalizing s with
  | nil => exact absurd rfl hne
  | cons baud since ih =>
    rw [List.foldl_cons, call_rejected (h baud (by simp))]
    by_cases hrest : since = []
    · rw [hrest]
      rfl
    · rw [ih hrest fun b hb => h b (by simp [hb])]

theorem get_speed (speed : Speed) (spec : Bool) : rs485GetBaudRate t ⟨t.speed speed, spec⟩ =
    BitVec.ofNat 32 (if speed = .b38400 ∧ spec = true then 76800 else speed.rate) := by
  unfold rs485GetBaudRate
  simp only [speed_read]
  cases speed <;> cases spec <;> rfl

theorem code_rate {n : ℕ} {speed : Speed} {spec : Bool} (h : rateCode n = some (speed, spec)) :
    n = if speed = .b38400 ∧ spec = true then 76800 else speed.rate := by
  unfold rateCode at h
  split at h <;> cases h <;> rfl

theorem code_spec_iff {n : ℕ} {speed : Speed} {spec : Bool}
    (h : rateCode n = some (speed, spec)) : spec = true ↔ n = 76800 := by
  unfold rateCode at h
  split at h <;> cases h <;> decide

/-- What is stored for a rate is reported as the rate. -/
theorem get_code {n : ℕ} {speed : Speed} {spec : Bool} (h : rateCode n = some (speed, spec)) :
    rs485GetBaudRate t ⟨t.speed speed, spec⟩ = BitVec.ofNat 32 n := by
  rw [get_speed, ← code_rate h]

/-- The calls end in rejected ones, and what stands before these is what was taken last. -/
theorem history_split (calls : List (BitVec 32)) : ∃ before since speed spec,
    calls = before++since ∧ (∀ baud ∈ since, rateCode baud.toNat = none) ∧
      rateCode (history t before).2.toNat = some (speed, spec) ∧
      (history t before).1 = ⟨t.speed speed, spec⟩ := by
  induction calls using List.reverseRecOn with
  | nil => exact ⟨[], [], .b38400, false, rfl, by simp, rfl, rfl⟩
  | append_singleton calls baud ih =>
    cases hcode : rateCode baud.toNat with
    | none =>
      obtain ⟨before, since, speed, spec, rfl, hsince, hrest⟩ := ih
      refine ⟨before, since++[baud], speed, spec, by simp, fun b hb => ?_, hrest⟩
      rcases List.mem_append.mp hb with hb | hb
      · exact hsince b hb
      · rw [List.mem_singleton.mp hb, hcode]
    | some code =>
      obtain ⟨speed, spec⟩ := code
      have htaken : call t (history t calls) baud = (⟨t.speed speed, spec⟩, baud) :=
        call_taken hcode _
      refine ⟨calls++[baud], [], speed, spec, by simp, by simp, ?_, ?_⟩
      · rw [history_append, htaken, hcode]
      · rw [history_append, htaken]

end History

section Report

variable {t : Constants}

/-- The flag stands exactly after a call for 76800. -/
theorem special_iff (calls : List (BitVec 32)) :
    (history t calls).1.specBaud = true ↔ calls.getLast? = some 76800 := by
  rcases calls.eq_nil_or_concat with rfl | ⟨before, baud, rfl⟩
  · simp [history, initialPort]
  · have hbaud : baud = 76800 ↔ baud.toNat = 76800 := BitVec.toNat_eq
    rw [List.concat_eq_append, history_append, List.getLast?_concat, Option.some.injEq, hbaud]
    cases hcode : rateCode baud.toNat with
    | none =>
      rw [call_rejected hcode]
      refine iff_of_false Bool.false_ne_true fun h => ?_
      rw [h] at hcode
      cases hcode
    | some code =>
      rw [call_taken hcode]
      exact code_spec_iff hcode

theorem port_unspecial {calls : List (BitVec 32)} (h : calls.getLast? ≠ some 76800) :
    ({ (history t calls).1 with specBaud := false } : Port) = (history t calls).1 := by
  have hspec : (history t calls).1.specBaud = false :=
    Bool.eq_false_of_not_eq_true fun hspec => h ((special_iff calls).mp hspec)
  rw [← hspec]

theorem lost_reported {calls : List (BitVec 32)} (h : Lost calls) :
    reported t calls = 38400 ∧ accepted t calls = 76800 := by
  obtain ⟨before, since, rfl, hne, hsince⟩ := h
  have hend : history t (before++76800::since) = (⟨t.speed .b38400, false⟩, 76800) := by
    rw [history, List.foldl_append, List.foldl_cons, call_special, calls_rejected hne hsince]
  rw [reported, accepted, hend]
  exact ⟨get_code (n := 38400) rfl, rfl⟩

theorem kept_reported {calls : List (BitVec 32)} (h : ¬Lost calls) :
    reported t calls = accepted t calls := by
  obtain ⟨before, since, speed, spec, rfl, hsince, hcode, hport⟩ := history_split (t := t) calls
  have hbefore : rs485GetBaudRate t (history t before).1 = (history t before).2 := by
    rw [hport, get_code hcode, BitVec.ofNat_toNat, BitVec.setWidth_eq]
  by_cases hne : since = []
  · rw [hne, List.append_nil]
    exact hbefore
  · have hlast : before.getLast? ≠ some 76800 := by
      intro hlast
      obtain ⟨first, rfl⟩ := List.getLast?_eq_some_iff.mp hlast
      exact h ⟨first, since, by simp, hne, hsince⟩
    have hend : history t (before++since) = history t before := by
      rw [history, List.foldl_append, calls_rejected hne hsince]
      exact Prod.ext (port_unspecial hlast) rfl
    rw [reported, accepted, hend]
    exact hbefore

/-- A rejected call changes what is reported only right after a call for 76800. -/
theorem rejected_reported_iff {calls : List (BitVec 32)} {baud : BitVec 32}
    (h : rateCode baud.toNat = none) :
    reported t (calls++[baud]) = reported t calls ↔ calls.getLast? ≠ some 76800 := by
  constructor
  · intro hsame hlast
    obtain ⟨before, rfl⟩ := List.getLast?_eq_some_iff.mp hlast
    have hlost : Lost (before++[76800]++[baud]) :=
      ⟨before, [baud], by simp, by simp, fun b hb => by rwa [List.mem_singleton.mp hb]⟩
    have hspecial : reported t (before++[76800]) = 76800 := by
      rw [reported, history_append, call_special]
      exact get_code (n := 76800) rfl
    rw [(lost_reported hlost).1, hspecial] at hsame
    exact absurd hsame (by decide)
  · intro hlast
    rw [reported, history_append, call_rejected h, port_unspecial hlast]
    rfl

theorem set_false_iff (port : Port) (baud : BitVec 32) :
    (rs485SetBaudRate t port baud).1 = false ↔ rateCode baud.toNat = none := by
  unfold rs485SetBaudRate
  cases rateCode baud.toNat <;> simp

/-- The port reports the rate of the last call that returned true unless that is
76800 and calls have returned false since. A call that returns false changes what
is reported only right after one for 76800. -/
theorem reported_accepted_iff (t : Constants) (calls : List (BitVec 32)) :
    (reported t calls = accepted t calls ↔ ¬Lost calls) ∧
      ∀ baud, (rs485SetBaudRate t (history t calls).1 baud).1 = false →
        (reported t (calls++[baud]) = reported t calls ↔ calls.getLast? ≠ some 76800) := by
  constructor
  · constructor
    · intro hsame hlost
      obtain ⟨hreported, haccepted⟩ := lost_reported (t := t) hlost
      rw [hreported, haccepted] at hsame
      exact absurd hsame (by decide)
    · exact kept_reported
  · intro baud hfalse
    exact rejected_reported_iff ((set_false_iff _ _).mp hfalse)

theorem taken_rate_reported :
    (rs485SetBaudRate linux (history linux [9600]).1 1).1 = false ∧
      (reported linux ([9600]++[1]) = reported linux [9600] ↔ [9600#32].getLast? ≠ some 76800) :=
  ⟨rfl, (reported_accepted_iff linux [9600]).2 1 rfl⟩

/-- A call for 1 baud after one for 76800 makes the port report 38400. -/
theorem rejected_rate_shows :
    (rs485SetBaudRate linux (history linux [76800]).1 1).1 = false ∧
      reported linux [76800] = 76800 ∧ reported linux [76800, 1] = 38400 ∧
      accepted linux [76800, 1] = 76800 := by
  decide

end Report

end RS485.BaudRate
