import Rs485.Temperatures

/-!
# The connection table of the Daikin adapter

The two loops over the connection registers write the entry of a unit by the
product of their counters, and from all bits that a shift leaves. What the table
holds afterwards, when that is what the registers say, and for which numbers an
entry of the table is written at all.
-/

set_option autoImplicit false

namespace RS485.Connections
open RS485.Platform RS485.Records RS485.Encoders RS485.Modbus RS485.Words RS485.Daikin
open RS485.Temperatures (message)

section Spec

/-- The memory around `indoor_machine_connect_status`, which has its first entry at 0. -/
abbrev Memory := ℤ → Bool

/-- No number is below 0 and above 64, and none is turned away. -/
def setIndoorMachineConnectStatus (machine : ℤ) (status : Bool) (memory : Memory) : Memory :=
  if machine < 0 ∧ machine > 64 then memory else Function.update memory machine status

/-- Whatever is written for the machine, nothing outside the 64 entries changes. -/
def Inside (machine : ℤ) : Prop :=
  ∀ status memory i, ¬(0 ≤ i ∧ i < 64) →
    setIndoorMachineConnectStatus machine status memory i = memory i

/-- The bit of the four registers that stands for a unit. -/
def unitBit (buffer : List Byte) (k : ℕ) : Bool := (wordAt buffer (k/16)).getLsbD (k%16)

/-- Every entry is the bit of its unit. -/
def Decoded (buffer : List Byte) (connected : ℕ → Bool) : Prop :=
  ∀ k < 64, connected k = unitBit buffer k

/-- The units whose entry is written last from the second, third or fourth register. -/
def fromSecond : List ℕ := [1, 5, 7]
def fromThird : List ℕ := [2, 4, 8, 10, 14]
def fromFourth : List ℕ := [0, 3, 6, 9, 12, 15, 18, 21]

/-- The bit of a unit that is written agrees with the size of the register it is
written from, and that of any other one with the entry before. -/
structure Matches (buffer : List Byte) (connected : ℕ → Bool) : Prop where
  second : ∀ k ∈ fromSecond, unitBit buffer k = true ↔ 2^k ≤ (wordAt buffer 1).toNat
  third : ∀ k ∈ fromThird, unitBit buffer k = true ↔ 2^(k/2) ≤ (wordAt buffer 2).toNat
  fourth : ∀ k ∈ fromFourth, unitBit buffer k = true ↔ 2^(k/3) ≤ (wordAt buffer 3).toNat
  rest : ∀ k < 64, k ∉ fromSecond++fromThird++fromFourth → unitBit buffer k = connected k

end Spec

section Loops

variable (buffer : List Byte) (connected : ℕ → Bool)

/-- The counters of the two loops. -/
def counters : List (ℕ × ℕ) :=
  (List.range 4).flatMap fun i => (List.range 8).map fun j => (i, j)

/-- What one pass writes to the entry of a unit. -/
def writes (k : ℕ) (c : ℕ × ℕ) : Option Bool :=
  if c.1*c.2 = k then some (wordAt buffer c.1 >>> c.2 != 0) else none

theorem fill_connected_eq : fillConnected buffer connected =
    counters.foldl (fun t c => Function.update t (c.1*c.2) (wordAt buffer c.1 >>> c.2 != 0))
      connected := by
  simp only [fillConnected, counters, List.foldl_flatMap, List.foldl_map]

/-- The calls of the function that sets a status, in the order of the two loops. -/
def statusCalls (memory : Memory) : Memory :=
  counters.foldl (fun memory c => setIndoorMachineConnectStatus ((c.1*c.2 : ℕ) : ℤ)
    (wordAt buffer c.1 >>> c.2 != 0) memory) memory

theorem fill_connected_calls (memory : Memory) (k : ℕ) :
    fillConnected buffer (fun n => memory n) k = statusCalls buffer memory k := by
  rw [fill_connected_eq, statusCalls]
  induction counters generalizing memory with
  | nil => rfl
  | cons c cs ih =>
    have hset : (fun n : ℕ => setIndoorMachineConnectStatus ((c.1*c.2 : ℕ) : ℤ)
        (wordAt buffer c.1 >>> c.2 != 0) memory n) =
        Function.update (fun n : ℕ => memory n) (c.1*c.2) (wordAt buffer c.1 >>> c.2 != 0) := by
      funext n
      rw [setIndoorMachineConnectStatus, if_neg (by omega)]
      by_cases hn : n = c.1*c.2
      · rw [hn, Function.update_self, Function.update_self]
      · rw [Function.update_of_ne hn, Function.update_of_ne (by exact_mod_cast hn)]
    rw [List.foldl_cons, List.foldl_cons, ← ih, hset]

/-- An entry holds the last status written to it, or is what it was. -/
theorem entry_latest (k : ℕ) :
    fillConnected buffer connected k = latest (writes buffer k) (connected k) counters := by
  rw [fill_connected_eq]
  apply foldl_latest (writes buffer k) _ (fun t : ℕ → Bool => t k)
  intro t c
  rw [writes, Function.update_apply]
  by_cases hc : c.1*c.2 = k
  · rw [if_pos hc.symm, if_pos hc]
    rfl
  · rw [if_neg (Ne.symm hc), if_neg hc]
    rfl

theorem shift_nonzero_iff (w : BitVec 16) (j : ℕ) : (w >>> j != 0) = true ↔ 2^j ≤ w.toNat := by
  rw [bne_iff_ne, ne_eq, BitVec.toNat_eq, BitVec.toNat_ushiftRight, Nat.shiftRight_eq_div_pow]
  simp only [BitVec.ofNat_eq_ofNat, BitVec.toNat_ofNat, Nat.zero_mod, Nat.div_eq_zero_iff]
  have hpos := Nat.two_pow_pos j
  omega

theorem entry_second {k : ℕ} (h : k ∈ fromSecond) :
    fillConnected buffer connected k = true ↔ 2^k ≤ (wordAt buffer 1).toNat := by
  rw [entry_latest, ← shift_nonzero_iff]
  fin_cases h <;> exact Iff.rfl

theorem entry_third {k : ℕ} (h : k ∈ fromThird) :
    fillConnected buffer connected k = true ↔ 2^(k/2) ≤ (wordAt buffer 2).toNat := by
  rw [entry_latest, ← shift_nonzero_iff]
  fin_cases h <;> exact Iff.rfl

theorem entry_fourth {k : ℕ} (h : k ∈ fromFourth) :
    fillConnected buffer connected k = true ↔ 2^(k/3) ≤ (wordAt buffer 3).toNat := by
  rw [entry_latest, ← shift_nonzero_iff]
  fin_cases h <;> exact Iff.rfl

theorem entry_rest {k : ℕ} (h : k ∉ fromSecond++fromThird++fromFourth) :
    fillConnected buffer connected k = connected k := by
  have hwritten : ∀ c ∈ counters, c.1*c.2 ∈ fromSecond++fromThird++fromFourth := by decide
  rw [entry_latest]
  apply latest_of_none
  intro c hc
  apply if_neg
  rintro rfl
  exact h (hwritten c hc)

end Loops

section Exactness

theorem filled_decoded_iff (buffer : List Byte) (connected : ℕ → Bool) :
    Decoded buffer (fillConnected buffer connected) ↔ Matches buffer connected := by
  have hsmall : ∀ k ∈ fromSecond++fromThird++fromFourth, k < 64 := by decide
  constructor
  · intro h
    have hbit : ∀ k ∈ fromSecond++fromThird++fromFourth,
        unitBit buffer k = fillConnected buffer connected k := fun k hk => (h k (hsmall k hk)).symm
    constructor
    · intro k hk
      rw [hbit k (by simp [hk]), entry_second buffer connected hk]
    · intro k hk
      rw [hbit k (by simp [hk]), entry_third buffer connected hk]
    · intro k hk
      rw [hbit k (by simp [hk]), entry_fourth buffer connected hk]
    · intro k hlt hk
      rw [← h k hlt, entry_rest buffer connected hk]
  · intro h k hlt
    by_cases hk : k ∈ fromSecond++fromThird++fromFourth
    · rw [Bool.eq_iff_iff]
      simp only [List.mem_append] at hk
      rcases hk with (hk | hk) | hk
      · rw [entry_second buffer connected hk, h.second k hk]
      · rw [entry_third buffer connected hk, h.third k hk]
      · rw [entry_fourth buffer connected hk, h.fourth k hk]
    · rw [entry_rest buffer connected hk, h.rest k hlt hk]

theorem inside_iff (machine : ℤ) : Inside machine ↔ 0 ≤ machine ∧ machine < 64 := by
  constructor
  · intro h
    by_contra hout
    have hset := h true (fun _ => false) machine hout
    rw [setIndoorMachineConnectStatus, if_neg (by omega), Function.update_self] at hset
    exact absurd hset (by decide)
  · intro hin status memory i hi
    rw [setIndoorMachineConnectStatus, if_neg (by omega)]
    apply Function.update_of_ne
    rintro rfl
    exact hi hin

/-- The table is decoded and written within its bounds exactly if the registers
match their own bits and the machine is one of the 64. What the handler leaves in
the table is what its calls of the setter leave there. -/
theorem connections_decoded_iff (m : Message) (g : Adapter) (h : g.haStatus = .waitConnect)
    (machine : ℤ) :
    (Decoded m.buffer (getDeviceInfoHandle m g).2.connected ∧ Inside machine ↔
      Matches m.buffer g.connected ∧ 0 ≤ machine ∧ machine < 64) ∧
    ∀ memory : Memory, (∀ n : ℕ, memory n = g.connected n) →
      ∀ k : ℕ, (getDeviceInfoHandle m g).2.connected k = statusCalls m.buffer memory k := by
  have hfilled : (getDeviceInfoHandle m g).2.connected = fillConnected m.buffer g.connected := by
    simp only [getDeviceInfoHandle, h]
  rw [hfilled, filled_decoded_iff, inside_iff]
  refine ⟨Iff.rfl, fun memory hmemory k => ?_⟩
  rw [← fill_connected_calls, funext hmemory]

def waitConnect : Adapter := { initialAdapter with haStatus := .waitConnect }

theorem unconnected_decoded : waitConnect.haStatus = .waitConnect ∧
    (Decoded (message 2).buffer (getDeviceInfoHandle (message 2) waitConnect).2.connected ∧
        Inside 5 ↔
      Matches (message 2).buffer waitConnect.connected ∧ (0 : ℤ) ≤ 5 ∧ (5 : ℤ) < 64) ∧
    ∀ memory : Memory, (∀ n : ℕ, memory n = waitConnect.connected n) →
      ∀ k : ℕ, (getDeviceInfoHandle (message 2) waitConnect).2.connected k =
        statusCalls (message 2).buffer memory k :=
  ⟨rfl, connections_decoded_iff (message 2) waitConnect rfl 5⟩

/-- Only unit 31 is connected. The table says that the units 1, 5 and 7 are, and
the status of a machine 64 goes behind it. -/
def oneConnected : Message := { message 2 with buffer := bytesOf [0, 0x8000, 0, 0] }

theorem one_connected_misread :
    (List.range 64).filter (unitBit oneConnected.buffer) = [31] ∧
      (List.range 64).filter (getDeviceInfoHandle oneConnected waitConnect).2.connected =
        [1, 5, 7] ∧
      ¬Decoded oneConnected.buffer (getDeviceInfoHandle oneConnected waitConnect).2.connected ∧
      ¬Inside 64 := by
  refine ⟨by decide, by decide, ?_, ?_⟩
  · intro h
    exact absurd (h 1 (by decide)) (by decide)
  · rw [inside_iff]
    exact fun h => absurd h.2 (by decide)

end Exactness

end RS485.Connections
