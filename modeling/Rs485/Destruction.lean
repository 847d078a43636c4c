import Rs485.Shutdown
import Rs485.Unregister

/-!
# Destroying a device

All that a device leaves behind is taken away, but its record is freed by the
release callback in the middle of it, read once more for its id and freed again.
-/

set_option autoImplicit false

namespace RS485.Destruction
open RS485.Platform RS485.Records RS485.Attached RS485.Registry RS485.Operations RS485.Wiring
  RS485.Identity RS485.Unregister RS485.Shutdown RS485.Runs
open RS485.Mdev (getDeviceById freeDeviceId check_id_of_id)

variable {env : Env} {s t : State} {d : DevPtr} {r : Rs485Device}

section Spec

variable (env : Env) (s t : State) (d : DevPtr) (r : Rs485Device)

/-- The calls of remove callbacks for a device that is released. -/
def removals : List Event :=
  r.dev.driver.elim [] fun drv => if (env.driver drv).remove then [.removed drv d] else []

/-- What a destruction logs, latest first. -/
def destruction : List Event := [Event.freed d, .readFreed d, .freed d]++removals env d r

/-- The device has no id and no list any more, and the others keep their places. -/
structure Cleaned : Prop where
  id : getDeviceById t.table r.id = none
  deviceList : d ∉ t.deviceList
  devices : ∀ k, d ∉ t.devices.items k
  bound : ∀ p, d ∉ t.bound.items p
  ids : ∀ e r', e ≠ d → s.device e = some r' → getDeviceById t.table r'.id = some e
  records : ∀ e, e ≠ d → t.device e = s.device e
  places : t.deviceList = s.deviceList.erase d ∧
    (∀ k, t.devices.items k = (s.devices.items k).erase d) ∧
    (∀ p, t.bound.items p = (s.bound.items p).erase d) ∧ t.drivers = s.drivers

/-- What happened, latest first: the driver's remove callback is called, and the
record is freed, once each. -/
structure ReleasedOnce (es : List Event) : Prop where
  removed : ∀ drv e, es.count (.removed drv e) = (removals env d r).count (.removed drv e)
  freed : es.count (.freed d) = 1
  unread : .readFreed d ∉ es

def UndoesCreate : Prop :=
  ∃ t r es, rs485DeviceDestroy env s (some d) = some t ∧ s.device d = some r ∧ t.log = es++s.log ∧
    Cleaned s t d r ∧ ReleasedOnce env d r es

end Spec

section Returns

theorem release_returns (hr : s.device d = some r)
    (howner : r.dev.driver ≠ none → s.bound.owner d ≠ none) :
    ∃ t, deviceReleaseDriver env s d = some t ∧ t.log = removals env d r++s.log := by
  unfold deviceReleaseDriver removals
  cases hdrv : r.dev.driver with
  | none => exact ⟨s, by simp [hr, hdrv], rfl⟩
  | some drv =>
    have hdel : del s.bound d = some (detach s.bound d) := if_neg (howner (by simp [hdrv]))
    refine ⟨_, by simp only [hr, hdrv, hdel, Option.bind_eq_bind, Option.bind_some]; rfl, ?_⟩
    simp only [Option.elim_some]
    split_ifs <;> rfl

/-- A device on the device list can be destroyed. -/
theorem destroy_returns (env : Env) (hs : Held s) (hl : Listed s) (hd : d ∈ s.deviceList) :
    ∃ t r, rs485DeviceDestroy env s (some d) = some t ∧ s.device d = some r ∧
      t.log = destruction env d r++s.log := by
  obtain ⟨r, hr⟩ := Option.ne_none_iff_exists'.mp ((hl.live d).mp hd)
  obtain ⟨b, k, hb, -, -, hhome⟩ := hs.wired.homed d r hr
  obtain ⟨u, hu⟩ : ∃ u, u = { s with
      deviceList := s.deviceList.erase d, devices := detach s.devices d } := ⟨_, rfl⟩
  have hunlist : busUnlist { s with deviceList := s.deviceList.erase d } d =
      some (detach s.devices d) := by
    have hlisted : s.devices.owner d ≠ none := by simp [hhome]
    simp [busUnlist, hlisted, del]
  have hr' : u.device d = some r := by rw [hu, hr]
  have hbound : r.dev.driver ≠ none → u.bound.owner d ≠ none := by
    intro hdrv
    rw [hu]
    exact hs.listed d r hr hdrv
  obtain ⟨v, hv, hlog⟩ : ∃ v, deviceReleaseDriver env u d = some v ∧
      v.log = removals env d r++u.log := release_returns hr' hbound
  have hremove : busRemoveDevice env { s with deviceList := s.deviceList.erase d } d = some v := by
    simp only [busRemoveDevice, hr, hb, hunlist, Option.bind_eq_bind, Option.bind_some]
    rw [← hv, hu]
  refine ⟨_, r, by simp only [rs485DeviceDestroy, if_pos hd, hr, deviceUnregister, deviceDel,
    hremove, Option.bind_eq_bind, Option.bind_some]; rfl, hr, ?_⟩
  simp only [deviceFree, hlog, hu, destruction, List.cons_append, List.nil_append]

end Returns

section Cleaning

theorem cleaned_of_destroyed (hs : Wired s) (hl : Listed s) (hc : Tabled s)
    (hr : s.device d = some r) (h : rs485DeviceDestroy env s (some d) = some t) :
    Cleaned s t d r := by
  obtain ⟨-, r', hr', ht⟩ := destroy_cases hs h
  obtain rfl := Option.some.inj (hr.symm.trans hr')
  obtain ⟨hisid, hheld⟩ := hc.holds d r hr
  have hcell (i : ℤ) : (freeDeviceId s.table r.id).cell i =
      if i = r.id then none else s.table.cell i := by
    rw [freeDeviceId, if_pos (check_id_of_id hisid)]
    exact Function.update_apply _ _ _ _
  rw [ht]
  exact {
    id := by simp [getDeviceById, hcell]
    deviceList := hl.nodup.not_mem_erase
    devices := fun k hk => ((mem_detach s.devices d d k).mp hk).2 rfl
    bound := fun p hp => ((mem_detach s.bound d d p).mp hp).2 rfl
    ids := by
      intro e r' he hre
      obtain ⟨hisid', hheld'⟩ := hc.holds e r' hre
      have hne : r'.id ≠ r.id := by
        intro hid
        rw [hid] at hheld'
        exact he (Option.some.inj (hheld'.symm.trans hheld))
      rw [getDeviceById, if_pos (check_id_of_id hisid'), hcell, if_neg hne]
      exact hheld'
    records := fun e he => Function.update_of_ne he _ _
    places := ⟨rfl, fun _ => rfl, fun _ => rfl, rfl⟩ }

theorem destruction_removed (env : Env) (d e : DevPtr) (r : Rs485Device) (drv : DrvPtr) :
    (destruction env d r).count (.removed drv e) = (removals env d r).count (.removed drv e) := by
  simp [destruction]

theorem destruction_freed (env : Env) (d : DevPtr) (r : Rs485Device) :
    (destruction env d r).count (.freed d) = 2 := by
  have hnone : (removals env d r).count (.freed d) = 0 := by
    unfold removals
    cases r.dev.driver with
    | none => rfl
    | some drv =>
      simp only [Option.elim_some]
      split_ifs <;> simp
  simp [destruction, hnone]

end Cleaning

section Reachable

/-- What holds in every state and is needed to destroy a device. -/
structure Ready (s : State) : Prop where
  held : Held s
  listed : Listed s
  tabled : Tabled s

theorem ready_initial : Ready initial := ⟨held_initial, listed_initial, tabled_initial⟩

theorem ready_step (hs : Ready s) (op : Op) (h : step env s op = some t) : Ready t where
  held := held_step hs.held op h
  listed := listed_step hs.held.wired hs.listed op h
  tabled := tabled_moves hs.held.wired hs.tabled (moves_step hs.held.wired op h)

/-- A log of two releases is not one of a single release. -/
theorem not_undone {es : List Event} (ht : rs485DeviceDestroy env s (some d) = some t)
    (hlog : t.log = es++s.log) (htwice : es.count (.freed d) = 2) : ¬UndoesCreate env s d := by
  rintro ⟨t', r, es', ht', -, hlog', -, honce⟩
  obtain rfl := Option.some.inj (ht.symm.trans ht')
  have hes : es' = es := List.append_cancel_right (hlog'.symm.trans hlog)
  have hfreed := honce.freed
  rw [hes, htwice] at hfreed
  exact absurd hfreed (by decide)

/-- In no state that can be reached does destroying a device undo its creation:
everything else is cleaned up, but the record is freed, read and freed again. -/
theorem destroy_frees_twice (env : Env) (ops : List Op) :
    EveryState (step env) (fun s => ∀ d ∈ s.deviceList, ¬UndoesCreate env s d ∧
      ∃ t r es, rs485DeviceDestroy env s (some d) = some t ∧ s.device d = some r ∧
        t.log = es++s.log ∧ Cleaned s t d r ∧
        (∀ drv e, es.count (.removed drv e) = (removals env d r).count (.removed drv e)) ∧
        es.count (.freed d) = 2 ∧ .readFreed d ∈ es) initial ops := by
  have hready : EveryState (step env) Ready initial ops :=
    every_state_of_step (fun _ op _ hs h => ready_step hs op h) initial ready_initial ops
  rw [every_state_iff] at hready ⊢
  intro pre s hpre hrun d hd
  have hs := hready pre s hpre hrun
  obtain ⟨t, r, ht, hr, hlog⟩ := destroy_returns env hs.held hs.listed hd
  have hclean := cleaned_of_destroyed hs.held.wired hs.listed hs.tabled hr ht
  exact ⟨not_undone ht hlog (destruction_freed env d r), t, r, destruction env d r, ht, hr, hlog,
    hclean, fun drv e => destruction_removed env d e r drv, destruction_freed env d r,
    by simp [destruction]⟩

/-- One bus and one device without a driver. -/
def oneDevice : List Op :=
  [.register (.bus (some 0) ⟨0, true, 0⟩),
    .register (.device ⟨"custom-/dev/ttyS1".toList, some "curtain_custom_dooya".toList, fun _ => 0⟩
      true fun _ _ => 0)]

theorem one_device_end :
    (run (step Consistency.twoPorts) initial oneDevice).bind (fun s =>
      (rs485DeviceDestroy Consistency.twoPorts s (some 0)).map fun t =>
        (s.deviceList, s.log, t.log)) =
    some ([0], [.threadStarted 0], [.freed 0, .readFreed 0, .freed 0, .threadStarted 0]) := by
  rfl

/-- The record of the only device is freed twice. -/
theorem only_device_freed_twice : ∃ s t,
    run (step Consistency.twoPorts) initial oneDevice = some s ∧ 0 ∈ s.deviceList ∧
      rs485DeviceDestroy Consistency.twoPorts s (some 0) = some t ∧
      t.log = [Event.freed 0, .readFreed 0, .freed 0]++s.log ∧
      ¬UndoesCreate Consistency.twoPorts s 0 := by
  obtain ⟨s, hs, hend⟩ := Option.bind_eq_some_iff.mp one_device_end
  obtain ⟨t, ht, hend⟩ := Option.map_eq_some_iff.mp hend
  simp only [Prod.mk.injEq] at hend
  obtain ⟨hlist, hold, hlog⟩ := hend
  have hall : t.log = [Event.freed 0, .readFreed 0, .freed 0]++s.log := by
    rw [hlog, hold]
    rfl
  exact ⟨s, t, hs, by simp [hlist], ht, hall, not_undone ht hall rfl⟩

end Reachable

end RS485.Destruction
