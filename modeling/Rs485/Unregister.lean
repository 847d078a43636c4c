import Rs485.Consistency

/-!
# Unregistering a driver

What `rs485_driver_unregister` has to leave behind, and that it does so exactly
for a driver whose one private part is on a list. A driver has room for one
private part; those that earlier registrations made are not found again, nor are
the lists that have them and the devices they have.
-/

set_option autoImplicit false

namespace RS485.Unregister
open RS485.Platform RS485.Records RS485.Mdev RS485.Attached RS485.Registry RS485.Probing
  RS485.Operations RS485.Wiring RS485.Runs

variable {env : Env} {probe : Probe}

section Spec

variable (env : Env) (s : State) (drv : DrvPtr)

def BoundTo (s : State) (drv : DrvPtr) (d : DevPtr) : Prop :=
  ∃ r, s.device d = some r ∧ r.dev.driver = some drv

/-- Nothing refers to the driver any more, its devices were each removed once,
and the others are as they were. -/
structure Gone (t : State) : Prop where
  unbound : ∀ d, ¬BoundTo t drv d
  unlisted : ∀ k, ∀ p ∈ t.drivers.items k, t.drvPriv p ≠ some drv
  removed : ∃ es, t.log = es++s.log ∧
    (∀ d, BoundTo s drv d → es.count (.removed drv d) =
      if (env.driver drv).remove = true then 1 else 0) ∧
    ∀ ev ∈ es, ∃ d, BoundTo s drv d ∧ ev = .removed drv d
  kept : ∀ d r, s.device d = some r → r.dev.driver ≠ some drv →
    t.device d = some r ∧ t.bound.owner d = s.bound.owner d

def Completes : Prop := ∃ t, rs485DriverUnregister env s (some drv) = some t ∧ Gone env s drv t

/-- The driver was never given a bus, or its private part is on a list and no
other one that was made for it is on a list or has devices. -/
def Sole : Prop :=
  (s.driver drv).bus = none ∨
    ∃ p, (s.driver drv).p = some p ∧ s.drivers.owner p ≠ none ∧
      ∀ q, q ≠ p → s.drvPriv q = some drv → s.drivers.owner q = none ∧ s.bound.items q = []

end Spec

section Held

/-- A bound device is on some driver's list, and a driver with a private part
was given a bus. -/
structure Held (s : State) : Prop where
  wired : Wired s
  listed : ∀ d r, s.device d = some r → r.dev.driver ≠ none → s.bound.owner d ≠ none
  placed : ∀ p drv, s.drvPriv p = some drv → (s.driver drv).bus ≠ none

theorem held_initial : Held initial where
  wired := wired_initial
  listed _ _ h := by simp [initial] at h
  placed _ _ h := by simp [initial] at h

variable {s t : State}

theorem bound_to_owner (hs : Held s) {d : DevPtr} {drv : DrvPtr} (hd : BoundTo s drv d) :
    ∃ p, s.drvPriv p = some drv ∧ d ∈ s.bound.items p := by
  obtain ⟨r, hr, hdrv⟩ := hd
  obtain ⟨p, hp⟩ := Option.ne_none_iff_exists'.mp (hs.listed d r hr (by simp [hdrv]))
  obtain ⟨r', drv', hr', hdrv', hpriv⟩ := hs.wired.bound d p hp
  obtain rfl := Option.some.inj (hr.symm.trans hr')
  obtain rfl := Option.some.inj (hdrv.symm.trans hdrv')
  exact ⟨p, hpriv, (s.bound.mem_iff p d).mpr hp⟩

theorem listed_bound_to (hs : Wired s) {d : DevPtr} {drv : DrvPtr} {p : DrvPriv}
    (hp : s.drvPriv p = some drv) (hd : d ∈ s.bound.items p) : BoundTo s drv d := by
  obtain ⟨r, drv', hr, hdrv, hpriv⟩ := hs.bound d p ((s.bound.mem_iff p d).mp hd)
  obtain rfl := Option.some.inj (hp.symm.trans hpriv)
  exact ⟨r, hr, hdrv⟩

theorem held_buses_grow (hs : Held s) (h : BusesGrow s t) : Held t := by
  have ht := wired_buses_grow hs.wired h
  have hdevice : t.device = s.device := by rw [h.frame]
  have hbound : t.bound = s.bound := by rw [h.frame]
  have hpriv : t.drvPriv = s.drvPriv := by rw [h.frame]
  have hdriver : t.driver = s.driver := by rw [h.frame]
  refine ⟨ht, ?_, ?_⟩
  · rw [hdevice, hbound]
    exact hs.listed
  · rw [hpriv, hdriver]
    exact hs.placed

theorem with_bus_bus (s : State) (drv : DrvPtr) {b : BusPtr} {drv' : DrvPtr}
    (h : (s.driver drv').bus ≠ none) : ((withBus s drv b).driver drv').bus ≠ none := by
  by_cases he : drv' = drv
  · subst he
    simp [withBus]
  · simpa [withBus, he] using h

theorem held_swept (hs : Held s) (ht : Wired t) {drv : DrvPtr} {ds : List DevPtr}
    (h : Swept env probe drv ds s t) : Held t := by
  refine ⟨ht, fun d r hr hdrv => ?_, ?_⟩
  · by_cases hd : d ∈ ds ∧ Taken env probe drv s d
    · rw [(h.taken d hd.1 hd.2).2.1]
      exact (h.taken d hd.1 hd.2).2.2
    · obtain ⟨hdev, howner⟩ := h.left d hd
      rw [howner]
      exact hs.listed d r (hdev ▸ hr) hdrv
  · have hpriv : t.drvPriv = s.drvPriv := by rw [h.frame]
    have hdriver : t.driver = s.driver := by rw [h.frame]
    rw [hpriv, hdriver]
    exact hs.placed

theorem held_with_priv (hs : Held s) (drv : DrvPtr) (b : BusPtr) : Held (withPriv s drv b) := by
  refine ⟨wired_with_priv hs.wired drv b, hs.listed, fun p drv' hp => ?_⟩
  by_cases he : drv' = drv
  · subst he
    simp [withPriv]
  · have hold : s.drvPriv p = some drv' := by
      by_cases hnew : p = s.nextPriv
      · subst hnew
        exact absurd (Option.some.inj (show some drv = some drv' by simpa [withPriv] using hp)).symm he
      · simpa [withPriv, hnew] using hp
    simpa [withPriv, he] using hs.placed p drv' hold

theorem held_driver_register (hs : Held s) {drv : DrvPtr} {name : CString} {malloc : Bool}
    {e : ℤ} (h : rs485DriverRegister env probe s drv name malloc = some (e, t)) : Held t := by
  have ht := wired_driver_register hs.wired h
  rcases driver_register_cases hs.wired.settled h with ⟨-, -, rfl⟩ | ⟨b, k, hb, hk, hcases⟩
  · exact hs
  · rcases hcases with ⟨-, -, w, hw, rfl⟩ | ⟨-, -, -, rfl⟩ | ⟨-, -, -, u, hfree, hswept, rfl⟩
    · exact ⟨ht, hs.listed, fun p drv' hp => with_bus_bus s drv (hs.placed p drv' hp)⟩
    · exact ⟨ht, hs.listed, fun p drv' hp => with_bus_bus s drv (hs.placed p drv' hp)⟩
    · have hp₀ : ((withPriv s drv b).driver drv).p = some s.nextPriv := by simp [withPriv]
      have hlive : (withPriv s drv b).drvPriv s.nextPriv = some drv := by simp [withPriv]
      have hu : Wired u := wired_swept (wired_with_priv hs.wired drv b) hp₀ hlive hswept
      have hheld := held_swept (held_with_priv hs drv b) hu hswept
      exact ⟨ht, hheld.listed, hheld.placed⟩

theorem held_device_create (hs : Held s) {info : Rs485DeviceInfo} {calloc : Bool} {e : ℤ}
    {id : Option ℤ} (h : rs485DeviceCreate env probe s info calloc = some (e, id, t)) :
    Held t := by
  have ht := wired_device_create hs.wired h
  have hunbound := dead_unbound hs.wired (next_dev_dead hs.wired)
  rcases device_create_cases hunbound h with
    ⟨-, rfl, -⟩ | ⟨-, -, rfl⟩ | ⟨-, -, -, -, b, k, u, hfree, hb, hk, hoffered, rfl⟩
  · exact hs
  · exact ⟨ht, hs.listed, hs.placed⟩
  · cases hoffered with
    | refused hno =>
      refine ⟨ht, fun d r hr hdrv => ?_, hs.placed⟩
      change (withDevice s b info).device d = some r at hr
      rw [with_device_device] at hr
      split_ifs at hr with he
      · obtain rfl := Option.some.inj hr
        exact absurd rfl hdrv
      · exact hs.listed d r hr hdrv
    | taken p drv q w hfree' hmem hdrv htakes hq hlive hw =>
      refine ⟨ht, fun d r hr hne => ?_, hs.placed⟩
      change (bindTo (withDevice s b info) s.nextDev drv q hfree').device d = some r at hr
      show (bindTo (withDevice s b info) s.nextDev drv q hfree').bound.owner d ≠ none
      rw [bind_to_device] at hr
      rw [bind_to_owner]
      split_ifs at hr with he
      · simp [he]
      · rw [with_device_device, if_neg he] at hr
        rw [if_neg he]
        exact hs.listed d r hr hne

theorem held_driver_unregister (hs : Held s) {drv : Option DrvPtr}
    (h : rs485DriverUnregister env s drv = some t) : Held t := by
  have ht := wired_driver_unregister hs.wired h
  cases drv with
  | none =>
    obtain rfl := Option.some.inj h
    exact hs
  | some drv =>
    rcases driver_unregister_cases h with ⟨-, rfl⟩ | ⟨p, u, hp, hlive, hon, hdet, rfl⟩
    · exact hs
    · have hpriv : u.drvPriv = s.drvPriv := by rw [hdet.frame]
      have hdriver : u.driver = s.driver := by rw [hdet.frame]
      refine ⟨ht, fun d r hr hdrv => ?_, fun q drv' hq => ?_⟩
      · change u.device d = some r at hr
        show u.bound.owner d ≠ none
        by_cases hd : d ∈ s.bound.items p
        · obtain ⟨-, r', -, -, hnew⟩ := hdet.released d hd
          obtain rfl := Option.some.inj (hr.symm.trans hnew)
          exact absurd rfl hdrv
        · obtain ⟨hdev, howner⟩ := hdet.left d hd
          rw [howner]
          exact hs.listed d r (hdev ▸ hr) hdrv
      · change Function.update u.drvPriv p none q = some drv' at hq
        show (u.driver drv').bus ≠ none
        rw [hdriver]
        by_cases he : q = p
        · simp [he] at hq
        · rw [Function.update_of_ne he, hpriv] at hq
          exact hs.placed q drv' hq

theorem held_device_destroy (hs : Held s) {d : Option DevPtr}
    (h : rs485DeviceDestroy env s d = some t) : Held t := by
  have ht := wired_device_destroy hs.wired h
  cases d with
  | none =>
    obtain rfl := Option.some.inj h
    exact hs
  | some d =>
    obtain ⟨-, r, hr, heq⟩ := destroy_cases hs.wired h
    refine ⟨ht, ?_, ?_⟩
    · rw [heq]
      intro e r' he hdrv
      by_cases hed : e = d
      · simp [hed] at he
      · simpa [hed] using hs.listed e r' (by simpa [hed] using he) hdrv
    · rw [heq]
      exact hs.placed

theorem held_step (hs : Held s) (op : Op) (h : step env s op = some t) : Held t := by
  refine step_cases (motive := fun _ t => Held t) ?bus ?driver ?device ?unregister ?destroy h
  case bus => exact fun b a => held_buses_grow hs (bus_register_grows s b a)
  case driver => exact fun _ _ _ _ _ _ hreg => held_driver_register hs hreg
  case device => exact fun _ _ _ _ _ _ hreg => held_device_create hs hreg
  case unregister => exact fun _ _ hun => held_driver_unregister hs hun
  case destroy => exact fun _ _ hdes => held_device_destroy hs hdes

end Held

section Loop

/-- Every device on the list is bound to the driver. -/
def AllBound (s : State) (drv : DrvPtr) (p : DrvPriv) : Prop :=
  ∀ d ∈ s.bound.items p, BoundTo s drv d

/-- The remove callbacks that taking these devices off makes, latest first. -/
def removals (env : Env) (drv : DrvPtr) (ds : List DevPtr) : List Event :=
  if (env.driver drv).remove = true then ds.map (.removed drv) else []

theorem removals_concat (env : Env) (drv : DrvPtr) (ds : List DevPtr) (d : DevPtr)
    (log : List Event) : removals env drv (ds++[d])++log =
      removals env drv ds++if (env.driver drv).remove = true then .removed drv d::log else log := by
  unfold removals
  split_ifs
  · simp
  · rfl

/-- The loop takes off one device after the other and comes back. -/
theorem detach_loop_returns {drv : DrvPtr} {p : DrvPriv} (left : ℕ) {s : State}
    (hlen : (s.bound.items p).length ≤ left) (hall : AllBound s drv p) :
    ∃ t, driverDetachLoop env drv p left s = some t ∧
      t.log = removals env drv (s.bound.items p)++s.log := by
  induction left generalizing s with
  | zero =>
    have hnil := List.length_eq_zero_iff.mp (Nat.le_zero.mp hlen)
    refine ⟨s, by rw [driverDetachLoop, if_pos hnil], ?_⟩
    simp [hnil, removals]
  | succ left ih =>
    rcases List.eq_nil_or_concat (s.bound.items p) with hnil | ⟨ds, d, hsplit⟩
    · exact ⟨s, by simp [driverDetachLoop, hnil], by simp [hnil, removals]⟩
    · rw [List.concat_eq_append] at hsplit
      have hd : d ∈ s.bound.items p := by simp [hsplit]
      obtain ⟨r, hr, hdrv⟩ := hall d hd
      have hon : s.bound.owner d ≠ none := by simp [(s.bound.mem_iff p d).mp hd]
      have hnot : d ∉ ds := by
        have hnodup := s.bound.nodup p
        rw [hsplit] at hnodup
        exact fun h => (List.nodup_append.mp hnodup).2.2 d h d (by simp) rfl
      have herase : (s.bound.items p).erase d = ds := by
        rw [hsplit, List.erase_append_right _ hnot]
        simp
      obtain ⟨u, hu⟩ : ∃ u, u = { setDriver s d none with
          bound := detach s.bound d
          log := if (env.driver drv).remove then .removed drv d::s.log else s.log } := ⟨_, rfl⟩
      have hrelease : deviceReleaseDriver env s d = some u := by
        simp [deviceReleaseDriver, hr, hdrv, del, hon, hu]
      have hitems : u.bound.items p = ds := by rw [hu]; exact herase
      have hrest : AllBound u drv p := by
        intro e he
        rw [hitems] at he
        have hne : e ≠ d := fun h => hnot (h ▸ he)
        obtain ⟨r', hr', hdrv'⟩ := hall e (by simp [hsplit, he])
        refine ⟨r', ?_, hdrv'⟩
        rw [hu]
        exact (set_driver_device s d e none).trans ((if_neg hne).trans hr')
      obtain ⟨t, ht, hlog⟩ := ih (by simp [hitems, hsplit] at hlen ⊢; omega) hrest
      refine ⟨t, ?_, ?_⟩
      · simp [driverDetachLoop, hsplit, hr, hdrv, hrelease, ht]
      · rw [hlog, hitems, hsplit, removals_concat, hu]

theorem removals_count {drv : DrvPtr} {ds : List DevPtr} (hd : ds.Nodup) {d : DevPtr}
    (hmem : d ∈ ds) : (removals env drv ds).count (.removed drv d) =
      if (env.driver drv).remove = true then 1 else 0 := by
  unfold removals
  split_ifs
  · rw [List.count_map_of_injective ds (Event.removed drv) (fun a b h => (Event.removed.inj h).2)]
    exact List.count_eq_one_of_mem hd hmem
  · rfl

theorem removals_mem {drv : DrvPtr} {ds : List DevPtr} {ev : Event}
    (h : ev ∈ removals env drv ds) : ∃ d ∈ ds, ev = .removed drv d := by
  unfold removals at h
  split_ifs at h
  · obtain ⟨d, hd, rfl⟩ := List.mem_map.mp h
    exact ⟨d, hd, rfl⟩
  · simp at h

end Loop

section Exactness

variable {s t : State}

theorem no_bus_unbound (hs : Held s) {drv : DrvPtr} (hb : (s.driver drv).bus = none) :
    (∀ p, s.drvPriv p ≠ some drv) ∧ ∀ d, ¬BoundTo s drv d := by
  have hno : ∀ p, s.drvPriv p ≠ some drv := fun p hp => hs.placed p drv hp hb
  refine ⟨hno, fun d hd => ?_⟩
  obtain ⟨p, hp, -⟩ := bound_to_owner hs hd
  exact hno p hp

theorem completes_without_bus (hs : Held s) {drv : DrvPtr} (hb : (s.driver drv).bus = none) :
    Completes env s drv := by
  obtain ⟨hno, hfree⟩ := no_bus_unbound hs hb
  refine ⟨s, by simp [rs485DriverUnregister, driverUnregister, busRemoveDriver, hb], ?_⟩
  exact ⟨hfree, fun _ p _ => hno p, ⟨[], rfl, fun d hd => absurd hd (hfree d), by simp⟩,
    fun _ _ hr _ => ⟨hr, rfl⟩⟩

/-- The one private part of the driver has all its devices. -/
theorem sole_bound_iff (hs : Held s) {drv : DrvPtr} {p : DrvPriv} (hp : s.drvPriv p = some drv)
    (hsole : ∀ q, q ≠ p → s.drvPriv q = some drv → s.bound.items q = []) (d : DevPtr) :
    BoundTo s drv d ↔ d ∈ s.bound.items p := by
  constructor
  · intro hd
    obtain ⟨q, hq, hmem⟩ := bound_to_owner hs hd
    by_cases he : q = p
    · exact he ▸ hmem
    · rw [hsole q he hq] at hmem
      exact absurd hmem (by simp)
  · exact listed_bound_to hs.wired hp

/-- `wlist_remove(&drv->p->wnode_bus)` -/
def unlist (s : State) (p : DrvPriv) : State := { s with drivers := detach s.drivers p }

/-- `free(drv->p)` -/
def freePriv (s : State) (p : DrvPriv) : State :=
  { s with drvPriv := Function.update s.drvPriv p none }

theorem gone_of_detached (hs : Held s) {drv : DrvPtr} {p : DrvPriv} {u : State}
    (hp : s.drvPriv p = some drv)
    (hsole : ∀ q, q ≠ p → s.drvPriv q = some drv →
      s.drivers.owner q = none ∧ s.bound.items q = [])
    (hdet : Detached drv p (unlist s p) u)
    (hlog : u.log = removals env drv (s.bound.items p)++s.log) :
    Gone env s drv (freePriv u p) := by
  have hbound := sole_bound_iff hs hp fun q he hq => (hsole q he hq).2
  refine ⟨?_, fun k q hq hpriv => ?_, ⟨_, hlog, fun d hd => ?_, fun ev hev => ?_⟩,
    fun d r hr hdrv => ?_⟩
  · rintro d ⟨r, hr, hdrv⟩
    change u.device d = some r at hr
    by_cases hd : d ∈ s.bound.items p
    · obtain ⟨-, r', -, -, hnew⟩ := hdet.released d hd
      obtain rfl := Option.some.inj (hr.symm.trans hnew)
      exact absurd hdrv (by simp)
    · rw [(hdet.left d hd).1] at hr
      exact hd ((hbound d).mp ⟨r, hr, hdrv⟩)
  · have hdrivers : u.drivers = detach s.drivers p := by rw [hdet.frame]; rfl
    have hprivs : u.drvPriv = s.drvPriv := by rw [hdet.frame]; rfl
    change q ∈ u.drivers.items k at hq
    change Function.update u.drvPriv p none q = some drv at hpriv
    rw [hdrivers, mem_detach] at hq
    rw [Function.update_of_ne hq.2, hprivs] at hpriv
    have hfree := (hsole q hq.2 hpriv).1
    exact not_mem_of_free s.drivers hfree k hq.1
  · exact removals_count (s.bound.nodup p) ((hbound d).mp hd)
  · obtain ⟨d, hd, rfl⟩ := removals_mem hev
    exact ⟨d, (hbound d).mpr hd, rfl⟩
  · have hd : d ∉ s.bound.items p := by
      intro hd
      obtain ⟨r', hr', hdrv'⟩ := (hbound d).mpr hd
      obtain rfl := Option.some.inj (hr.symm.trans hr')
      exact hdrv hdrv'
    obtain ⟨hdev, howner⟩ := hdet.left d hd
    exact ⟨hdev.trans hr, howner⟩

theorem completes_of_sole (hs : Held s) {drv : DrvPtr} {p : DrvPriv} {b : BusPtr}
    (hb : (s.driver drv).bus = some b) (hp : (s.driver drv).p = some p)
    (hon : s.drivers.owner p ≠ none)
    (hsole : ∀ q, q ≠ p → s.drvPriv q = some drv →
      s.drivers.owner q = none ∧ s.bound.items q = []) : Completes env s drv := by
  obtain ⟨k, hk⟩ := Option.ne_none_iff_exists'.mp hon
  obtain ⟨drv', hlive⟩ := Option.ne_none_iff_exists'.mp (hs.wired.driversOn p k hk).2
  obtain rfl := (hs.wired.own drv p hp).2 drv' hlive
  have hall : AllBound (unlist s p) drv' p := fun d hd => listed_bound_to hs.wired hlive hd
  obtain ⟨u, hu, hlog⟩ : ∃ u,
      driverDetachLoop env drv' p (s.bound.items p).length (unlist s p) = some u ∧
        u.log = removals env drv' (s.bound.items p)++s.log :=
    detach_loop_returns _ le_rfl hall
  refine ⟨freePriv u p, ?_, gone_of_detached hs hlive hsole (detach_loop_detached hu) hlog⟩
  simp only [rs485DriverUnregister, driverUnregister, busRemoveDriver, hb, hp, hlive, driverDetach,
    del, hon, if_false, Option.bind_eq_bind, Option.bind_some]
  change (driverDetachLoop env drv' p _ (unlist s p)).bind _ = _
  rw [hu]
  rfl

theorem sole_of_completes (hs : Held s) {drv : DrvPtr} (h : Completes env s drv) : Sole s drv := by
  obtain ⟨t, ht, hgone⟩ := h
  rcases driver_unregister_cases ht with ⟨hb, -⟩ | ⟨p, u, hp, hlive, hon, hdet, rfl⟩
  · exact Or.inl hb
  · refine Or.inr ⟨p, hp, hon, fun q hq hpriv => ⟨?_, ?_⟩⟩
    · by_contra hne
      obtain ⟨k, hk⟩ := Option.ne_none_iff_exists'.mp hne
      have hdrivers : u.drivers = detach s.drivers p := by rw [hdet.frame]
      have hprivs : u.drvPriv = s.drvPriv := by rw [hdet.frame]
      apply hgone.unlisted k q
      · change q ∈ u.drivers.items k
        rw [hdrivers, mem_detach]
        exact ⟨(s.drivers.mem_iff k q).mpr hk, hq⟩
      · change Function.update u.drvPriv p none q = some drv
        rw [Function.update_of_ne hq, hprivs, hpriv]
    · rw [List.eq_nil_iff_forall_not_mem]
      intro d hd
      obtain ⟨r, hr, hdrv⟩ := listed_bound_to hs.wired hpriv hd
      have hnot : d ∉ s.bound.items p := fun hmem => hq (mem_unique s.bound hd hmem)
      exact hgone.unbound d ⟨r, (hdet.left d hnot).1.trans hr, hdrv⟩

/-- In every state that can be reached, unregistering a driver is complete, and
comes back, exactly for a driver whose private part is its only one. -/
theorem unregister_completes_iff (env : Env) (ops : List Op) :
    EveryState (step env) (fun s => ∀ drv, Completes env s drv ↔ Sole s drv) initial ops := by
  have hheld : EveryState (step env) Held initial ops :=
    every_state_of_step (fun _ op _ hs h => held_step hs op h) initial held_initial ops
  rw [every_state_iff] at hheld ⊢
  intro pre s hpre hrun drv
  have hs := hheld pre s hpre hrun
  refine ⟨sole_of_completes hs, ?_⟩
  rintro (hb | ⟨p, hp, hon, hsole⟩)
  · exact completes_without_bus hs hb
  · cases hb : (s.driver drv).bus with
    | none => exact completes_without_bus hs hb
    | some b => exact completes_of_sole hs hb hp hon hsole

/-- Two ports, one driver offered to both, and a device that it got on the first. -/
def servedTwice : List Op :=
  [.register (.bus (some 0) ⟨0, true, 0⟩), .register (.bus (some 1) ⟨0, true, 0⟩),
    .register (.driver 0 "custom-/dev/ttyS1".toList true fun _ _ => 0),
    .register (.device ⟨"custom-/dev/ttyS1".toList, some "curtain_custom_aoke".toList, fun _ => 0⟩
      true fun _ _ => 0),
    .register (.driver 0 "custom-/dev/ttyS2".toList true fun _ _ => 0)]

theorem served_twice_end : ((run (step Consistency.twoPorts) initial servedTwice).bind fun s =>
      rs485DriverUnregister Consistency.twoPorts s (some 0)).map (fun t =>
        ((t.device 0).map fun r => r.dev.driver, t.drivers.items 0, t.drvPriv 0)) =
    some (some (some 0), [0], some 0) := by
  rfl

/-- The driver is unregistered from the second port only. Its device on the first
one is still bound to it, and the first bus still lists it. -/
theorem first_port_left_behind : ∃ s t, run (step Consistency.twoPorts) initial servedTwice = some s ∧
    rs485DriverUnregister Consistency.twoPorts s (some 0) = some t ∧ BoundTo t 0 0 ∧
      0 ∈ t.drivers.items 0 ∧ t.drvPriv 0 = some 0 ∧ ¬Completes Consistency.twoPorts s 0 := by
  obtain ⟨t, ht, hend⟩ := Option.map_eq_some_iff.mp served_twice_end
  obtain ⟨s, hs, ht⟩ := Option.bind_eq_some_iff.mp ht
  simp only [Prod.mk.injEq] at hend
  obtain ⟨hdevice, hitems, hpriv⟩ := hend
  obtain ⟨r, hr, hdrv⟩ := Option.map_eq_some_iff.mp hdevice
  refine ⟨s, t, hs, ht, ⟨r, hr, hdrv⟩, by simp [hitems], hpriv, ?_⟩
  rintro ⟨t', ht', hgone⟩
  obtain rfl := Option.some.inj (ht.symm.trans ht')
  exact hgone.unbound 0 ⟨r, hr, hdrv⟩

end Exactness

end RS485.Unregister
