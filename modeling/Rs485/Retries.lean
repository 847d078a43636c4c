import Rs485.Exchange
import Rs485.General
import Rs485.Modbus

/-!
# Retry bounds of the three stacks

All three stacks count down a 32-bit counter that is decremented before it is
tested. Each makes at most as many attempts as it was given, with one attempt
always made, unless it was given none and the first attempt asks for another.
-/

set_option autoImplicit false

namespace RS485.Retries
open RS485.Records RS485.Countdown

theorem exchange_bounded_iff (driver : Rs485Driver) (profile : Option ℕ) (message : WriteDevice)
    (script : ℕ → Exchange.Answers) :
    (Exchange.exchange driver profile message script).state.done.length ≤
        max 1 (min driver.data.retransmission.toNat 3) ↔
      driver.data.retransmission ≠ 0#32 ∨ ¬Exchange.Unanswered driver (script 0) := by
  have hcount : (Exchange.attempts driver).toNat = min driver.data.retransmission.toNat 3 := by
    unfold Exchange.attempts Exchange.customDataRetransmissionMax
    split_ifs <;> bv_omega
  have hzero : Exchange.attempts driver ≠ 0#32 ↔ driver.data.retransmission ≠ 0#32 := by
    unfold Exchange.attempts Exchange.customDataRetransmissionMax
    split_ifs <;> bv_omega
  rw [Exchange.attempts_are_passes, ← hcount, ← hzero,
    ← Exchange.again_iff_unanswered driver profile message]
  exact passes_le_count_iff _ _ _

theorem general_bounded_iff {δ : Type} (handlers : General.Handlers δ) (mtu : ℤ)
    (ports : ℕ → General.Port) (retransmission : BitVec 32) (h : General.Handle δ) :
    (General.generalWork handlers mtu ports retransmission h).state.frames.length ≤
        max 1 (min retransmission.toNat 3) ↔
      retransmission ≠ 0#32 ∨ ¬General.Unanswered handlers mtu (ports 0) h := by
  have hcount : (General.attempts retransmission).toNat = min retransmission.toNat 3 := by
    unfold General.attempts General.busMaxRetransmission
    split_ifs <;> bv_omega
  have hzero : General.attempts retransmission ≠ 0#32 ↔ retransmission ≠ 0#32 := by
    unfold General.attempts General.busMaxRetransmission
    split_ifs <;> bv_omega
  rw [General.attempts_are_passes, ← hcount, ← hzero, ← General.again_iff_unanswered]
  exact passes_le_count_iff _ _ _

theorem modbus_bounded_iff {γ : Type} (handlers : Modbus.Handlers γ) (lib : ℕ → Modbus.Reply)
    (retransmission : BitVec 32) (m : Modbus.Message) (g : γ) :
    (Modbus.messageProcess handlers lib retransmission m g).calls.length ≤
        max 1 retransmission.toNat ↔
      retransmission ≠ 0#32 ∨ ¬Modbus.Unanswered handlers lib m g := by
  rw [Modbus.process_calls, Modbus.Unanswered]
  cases hq : Modbus.requestOf handlers m g with
  | none => simp
  | some r =>
    obtain ⟨q, m'⟩ := r
    have hasked : (∃ q' m'', some (q, m') = some (q', m'') ∧ (lib 0).ret ≠ q'.expected) ↔
        Again (Modbus.pass lib q) ⟨m'.buffer, 0, []⟩ := by
      rw [Modbus.retry_again_iff]
      constructor
      · rintro ⟨q', m'', he, hne⟩
        cases he
        exact hne
      · exact fun hne => ⟨q, m', rfl, hne⟩
    rw [hasked]
    exact passes_le_count_iff _ _ _

/-- The bound of each stack, and when it holds. -/
theorem retries_bounded_iff {δ γ : Type} :
    (∀ (driver : Rs485Driver) (profile : Option ℕ) (message : WriteDevice)
      (script : ℕ → Exchange.Answers),
      (Exchange.exchange driver profile message script).state.done.length ≤
          max 1 (min driver.data.retransmission.toNat 3) ↔
        driver.data.retransmission ≠ 0#32 ∨ ¬Exchange.Unanswered driver (script 0)) ∧
    (∀ (handlers : General.Handlers δ) (mtu : ℤ) (ports : ℕ → General.Port)
      (retransmission : BitVec 32) (h : General.Handle δ),
      (General.generalWork handlers mtu ports retransmission h).state.frames.length ≤
          max 1 (min retransmission.toNat 3) ↔
        retransmission ≠ 0#32 ∨ ¬General.Unanswered handlers mtu (ports 0) h) ∧
    (∀ (handlers : Modbus.Handlers γ) (lib : ℕ → Modbus.Reply) (retransmission : BitVec 32)
      (m : Modbus.Message) (g : γ),
      (Modbus.messageProcess handlers lib retransmission m g).calls.length ≤
          max 1 retransmission.toNat ↔
        retransmission ≠ 0#32 ∨ ¬Modbus.Unanswered handlers lib m g) :=
  ⟨exchange_bounded_iff, general_bounded_iff, modbus_bounded_iff⟩

def oneByteHandlers : General.Handlers Unit :=
  ⟨some fun h => (1, { h with exceptReply := true }), none⟩

def silentPort : General.Port := ⟨1, 0, false, 0, []⟩

/-- A retry count of zero sends a frame that nobody answers four billion times. -/
theorem zero_retries_wrap :
    (General.generalWork oneByteHandlers 256 (fun _ => silentPort) 0#32
      ⟨[0x55], 256, true, 500, ()⟩).state.frames.length = 2^32 ∧
    ¬2^32 ≤ max 1 (min (0#32).toNat 3) := by
  have halways : ∀ s, Again (General.pass oneByteHandlers 256 fun _ => silentPort) s := by
    intro s
    unfold Again General.pass General.rs485SendHandleFrame General.rs485RecvHandleFrame
    by_cases ht : s.handle.timeoutMs = 0#32 <;>
      simp [oneByteHandlers, silentPort, ht, Platform.EPERM, Platform.eio]
  constructor
  · rw [General.attempts_are_passes]
    exact passes_of_always _ halways _ _
  · decide

end RS485.Retries
