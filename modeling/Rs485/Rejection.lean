import Rs485.Shutdown

/-!
# A rejected driver

What a registration that fails leaves of the driver, of the lists and of the
devices. The driver has its new bus before the name is looked up, and the walk
that finds the name takes the next driver off the list, so nothing changes only
if the driver had this bus already and the name found is the last of the list.
-/

set_option autoImplicit false

namespace RS485.Rejection
open RS485.Platform RS485.Records RS485.Attached RS485.Registry RS485.Probing RS485.Operations
  RS485.Runs RS485.Shutdown

variable {env : Env} {probe : Probe} {s t : State} {drv : DrvPtr} {name : CString}
  {malloc : Bool} {e : ℤ}

section Spec

structure Unchanged (s t : State) (drv : DrvPtr) : Prop where
  bus : (t.driver drv).bus = (s.driver drv).bus
  p : (t.driver drv).p = (s.driver drv).p
  lists : ∀ k, t.drivers.items k = s.drivers.items k
  devices : ∀ d, t.device d = s.device d
  bound : ∀ d, t.bound.owner d = s.bound.owner d

/-- The driver has the bus that is named, and no driver follows the first one of
its name there. -/
def Harmless (env : Env) (s : State) (drv : DrvPtr) (name : CString) : Prop :=
  ∀ b, rs485DriverMatchBus s name = some b → (s.driver drv).bus = some b ∧
    ∀ k, livePriv s b = some k →
      ∀ p, ¬AfterStop (HasName env s (env.driver drv).name) (s.drivers.items k) p

end Spec

section Failures

theorem driver_attach_zero (h : driverAttach env probe s drv = some (e, t))
    (hbus : (s.driver drv).bus ≠ none) : e = 0 := by
  obtain ⟨b, hb⟩ := Option.ne_none_iff_exists'.mp hbus
  simp only [driverAttach, hb, busForEachDev, forEach, Option.bind_eq_bind,
    Option.bind_eq_some_iff, Prod.exists, Option.some.injEq, Prod.mk.injEq] at h
  obtain ⟨k, -, e', w, u, ⟨e'', cur, u', hv, w', -, rfl, -, -⟩, rfl, -⟩ := h
  refine visit_zero (fun d s e t hd => ?_) hv
  simp only [driverAttachTo, Option.bind_eq_bind, Option.bind_eq_some_iff] at hd
  obtain ⟨r, -, hd⟩ := hd
  split at hd
  · exact (Prod.mk.inj (Option.some.inj hd)).1.symm
  · simp only [Option.bind_eq_some_iff, Option.some.injEq, Prod.mk.injEq] at hd
    obtain ⟨-, -, he, -⟩ := hd
    exact he.symm

theorem add_driver_fails {b : BusPtr}
    (h : busAddDriver env probe (withBus s drv b) drv malloc = some (e, t)) (he : e ≠ 0) :
    t = withBus s drv b := by
  have hbus : ((withBus s drv b).driver drv).bus = some b := by simp [withBus]
  cases malloc with
  | false =>
    simp only [busAddDriver, hbus, Bool.false_eq_true, if_false, Option.some.injEq,
      Prod.mk.injEq] at h
    exact h.2.symm
  | true =>
    simp only [busAddDriver, hbus, if_true, Option.bind_eq_bind, Option.bind_eq_some_iff,
      Prod.exists] at h
    obtain ⟨e', u, hattach, h⟩ := h
    have hzero := driver_attach_zero hattach (by simp)
    simp only [hzero, ne_eq, not_true_eq_false, if_false, Option.bind_eq_some_iff,
      Option.some.injEq, Prod.mk.injEq] at h
    obtain ⟨-, -, -, -, he', -⟩ := h
    exact absurd he'.symm he

/-- The ways to fail: without a bus of the name, or on a bus, with the lists as
the search for the driver's name leaves them. -/
theorem rejected_cases (h : rs485DriverRegister env probe s drv name malloc = some (e, t))
    (he : e ≠ 0) : (rs485DriverMatchBus s name = none ∧ t = s) ∨
      ∃ b k w, rs485DriverMatchBus s name = some b ∧ livePriv s b = some k ∧
        LeftOf s.drivers w k ∧ Drops (HasName env s (env.driver drv).name) s.drivers w k ∧
        t = { withBus s drv b with drivers := w } := by
  cases hb : rs485DriverMatchBus s name with
  | none =>
    simp only [rs485DriverRegister, hb, Option.some.injEq, Prod.mk.injEq] at h
    exact Or.inl ⟨rfl, h.2.symm⟩
  | some b =>
    rw [driver_register_on hb] at h
    obtain ⟨⟨found, u⟩, hfind, h⟩ := Option.bind_eq_some_iff.mp h
    obtain ⟨k, hk, hdrops⟩ := find_drops hfind
    obtain ⟨k', hk', hcases⟩ := driver_find_cases hfind
    obtain rfl := Option.some.inj (hk.symm.trans hk')
    refine Or.inr ⟨b, k, u.drivers, rfl, hk, ?_, hdrops, ?_⟩
    · rcases hcases with ⟨-, -, rfl⟩ | ⟨-, -, w, hw, rfl⟩
      · exact Or.inl rfl
      · exact hw
    · rcases hcases with ⟨-, rfl, rfl⟩ | ⟨-, rfl, w, -, rfl⟩
      · simp only [ne_eq, not_true_eq_false, if_false] at h
        exact add_driver_fails h he
      · simp only [ne_eq, one_ne_zero, not_false_eq_true, if_true, Option.some.injEq,
          Prod.mk.injEq] at h
        exact h.2.symm

end Failures

section Exactness

/-- A walk that drops nothing leaves the lists as they were. -/
theorem lists_kept_iff {stop : DrvPriv → Prop} {w : Lists BusPriv DrvPriv} {k : BusPriv}
    (hleft : LeftOf s.drivers w k) (hdrops : Drops stop s.drivers w k) :
    (∀ k', w.items k' = s.drivers.items k') ↔ ∀ p, ¬AfterStop stop (s.drivers.items k) p := by
  constructor
  · rintro hsame p hafter
    have hmem : p ∈ s.drivers.items k := by
      obtain ⟨pre, n, post, hsplit, -⟩ := hafter
      simp [hsplit]
    rw [← hsame k] at hmem
    exact ((hdrops k p).mp hmem).2 hafter
  · intro hnone k'
    rcases hleft with rfl | ⟨q, hq, rfl⟩
    · rfl
    · have hstays := (hdrops k q).mpr ⟨hq, hnone q⟩
      exact absurd rfl ((mem_detach s.drivers q q k).mp hstays).2

/-- In any state a registration that fails changes nothing if and only if it is
harmless. -/
theorem rejected_unchanged_iff
    (h : rs485DriverRegister env probe s drv name malloc = some (e, t)) (he : e ≠ 0) :
    Unchanged s t drv ↔ Harmless env s drv name := by
  rcases rejected_cases h he with ⟨hnone, rfl⟩ | ⟨b, k, w, hb, hk, hleft, hdrops, rfl⟩
  · refine iff_of_true ⟨rfl, rfl, fun _ => rfl, fun _ => rfl, fun _ => rfl⟩ fun b hb => ?_
    exact absurd (hnone.symm.trans hb) (by simp)
  · have hbus : ((withBus s drv b).driver drv).bus = some b := by simp [withBus]
    have hp : ((withBus s drv b).driver drv).p = (s.driver drv).p := by simp [withBus]
    have hlists := lists_kept_iff hleft hdrops
    constructor
    · intro hsame b' hb'
      obtain rfl := Option.some.inj (hb.symm.trans hb')
      refine ⟨hsame.bus.symm.trans hbus, fun k' hk' => ?_⟩
      obtain rfl := Option.some.inj (hk.symm.trans hk')
      exact hlists.mp hsame.lists
    · intro hharmless
      obtain ⟨hsame, hnot⟩ := hharmless b hb
      exact ⟨hbus.trans hsame.symm, hp, hlists.mpr (hnot k hk), fun _ => rfl, fun _ => rfl⟩

theorem registered_again_end :
    (run (step Consistency.twoPorts) initial Consistency.offeredTwice).bind (fun s =>
      (rs485DriverRegister Consistency.twoPorts (fun _ _ => 0) s 0 "custom-/dev/ttyS1".toList
        true).map fun r => (r.1, (s.driver 0).bus, (r.2.driver 0).bus)) =
    some (-EEXIST, some 1, some 0) := by
  rfl

theorem registered_again_exact : ∃ s t,
    run (step Consistency.twoPorts) initial Consistency.offeredTwice = some s ∧
      rs485DriverRegister Consistency.twoPorts (fun _ _ => 0) s 0 "custom-/dev/ttyS1".toList true =
        some (-EEXIST, t) ∧
      (Unchanged s t 0 ↔ Harmless Consistency.twoPorts s 0 "custom-/dev/ttyS1".toList) := by
  obtain ⟨s, hs, hend⟩ := Option.bind_eq_some_iff.mp registered_again_end
  obtain ⟨⟨e, t⟩, hregister, hend⟩ := Option.map_eq_some_iff.mp hend
  simp only [Prod.mk.injEq] at hend
  obtain ⟨rfl, -⟩ := hend
  exact ⟨s, t, hs, hregister, rejected_unchanged_iff hregister (by decide)⟩

/-- The driver has been registered on both ports. Once more on the first one, it
is rejected, and is moved there from the second. -/
theorem rejected_driver_moves : ∃ s t,
    run (step Consistency.twoPorts) initial Consistency.offeredTwice = some s ∧
      rs485DriverRegister Consistency.twoPorts (fun _ _ => 0) s 0 "custom-/dev/ttyS1".toList true =
        some (-EEXIST, t) ∧
      (s.driver 0).bus = some 1 ∧ (t.driver 0).bus = some 0 ∧ ¬Unchanged s t 0 := by
  obtain ⟨s, hs, hend⟩ := Option.bind_eq_some_iff.mp registered_again_end
  obtain ⟨⟨e, t⟩, hregister, hend⟩ := Option.map_eq_some_iff.mp hend
  simp only [Prod.mk.injEq] at hend
  obtain ⟨rfl, hold, hnew⟩ := hend
  refine ⟨s, t, hs, hregister, hold, hnew, fun h => ?_⟩
  exact absurd (hnew.symm.trans (h.bus.trans hold)) (by decide)

end Exactness

end RS485.Rejection
