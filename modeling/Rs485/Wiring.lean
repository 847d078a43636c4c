import Rs485.Operations

/-!
# What holds in every state

Facts about the records that every operation preserves, whatever was done
before it: the private parts of buses and drivers are each other's, a device on
a driver's list is bound to that driver, and a device is on the list of its bus.
-/

set_option autoImplicit false

namespace RS485.Wiring
open RS485.Platform RS485.Records RS485.Mdev RS485.Attached RS485.Registry RS485.Probing
  RS485.Operations

variable {env : Env} {probe : Probe}

/-- What holds in every state. -/
structure Wired (s : State) : Prop where
  settled : Settled s
  buses : ∀ b ∈ s.busList, ∃ k, (s.bus b).p = some k ∧ s.busPriv k = some b
  busFresh : ∀ k, s.busPriv k ≠ none → k < s.nextBus
  driversOn : ∀ p k, s.drivers.owner p = some k → k < s.nextBus ∧ s.drvPriv p ≠ none
  privFresh : ∀ p, s.drvPriv p ≠ none → p < s.nextPriv
  own : ∀ drv p, (s.driver drv).p = some p →
    p < s.nextPriv ∧ ∀ drv', s.drvPriv p = some drv' → drv' = drv
  bound : ∀ d p, s.bound.owner d = some p →
    ∃ r drv, s.device d = some r ∧ r.dev.driver = some drv ∧ s.drvPriv p = some drv
  devFresh : ∀ d, s.device d ≠ none → d < s.nextDev
  homed : ∀ d r, s.device d = some r → ∃ b k, r.dev.bus = some b ∧ b ∈ s.busList ∧
    (s.bus b).p = some k ∧ s.devices.owner d = some k

theorem wired_initial : Wired initial where
  settled _ _ h := by simp [initial] at h
  buses _ h := by simp [initial] at h
  busFresh _ h := by simp [initial] at h
  driversOn _ _ h := by simp [initial, empty] at h
  privFresh _ h := by simp [initial] at h
  own _ _ h := by simp [initial] at h
  bound _ _ h := by simp [initial, empty] at h
  devFresh _ h := by simp [initial] at h
  homed _ _ h := by simp [initial] at h

section Facts

variable {s : State}

theorem same_bus (hs : Wired s) {b b' : BusPtr} {k : BusPriv} (hb : b ∈ s.busList)
    (hb' : b' ∈ s.busList) (hk : (s.bus b).p = some k) (hk' : (s.bus b').p = some k) : b = b' := by
  obtain ⟨k₁, h₁, hp₁⟩ := hs.buses b hb
  obtain ⟨k₂, h₂, hp₂⟩ := hs.buses b' hb'
  obtain rfl := Option.some.inj (hk.symm.trans h₁)
  obtain rfl := Option.some.inj (hk'.symm.trans h₂)
  exact Option.some.inj (hp₁.symm.trans hp₂)

theorem dead_unbound (hs : Wired s) {d : DevPtr} (h : s.device d = none) :
    s.bound.owner d = none := by
  by_contra hne
  obtain ⟨p, hp⟩ := Option.ne_none_iff_exists'.mp hne
  obtain ⟨r, drv, hr, -⟩ := hs.bound d p hp
  exact absurd (h.symm.trans hr) (by simp)

theorem next_dev_dead (hs : Wired s) : s.device s.nextDev = none := by
  by_contra hne
  exact lt_irrefl _ (hs.devFresh _ hne)

theorem homed_on (hs : Wired s) {d : DevPtr} {r : Rs485Device} {b : BusPtr} {k : BusPriv}
    (hr : s.device d = some r) (hb : b ∈ s.busList) (hk : (s.bus b).p = some k) :
    d ∈ s.devices.items k ↔ r.dev.bus = some b := by
  obtain ⟨b', k', hbus, hb', hk', howner⟩ := hs.homed d r hr
  rw [s.devices.mem_iff, howner, hbus]
  constructor
  · intro he
    obtain rfl := Option.some.inj he
    rw [same_bus hs hb hb' hk hk']
  · intro he
    obtain rfl := Option.some.inj he
    exact hk'.symm.trans hk

theorem left_of_owner {w w' : Lists BusPriv DrvPriv} {k k' : BusPriv} {p : DrvPriv}
    (h : LeftOf w w' k) (hp : w'.owner p = some k') : w.owner p = some k' := by
  rcases h with rfl | ⟨q, -, rfl⟩
  · exact hp
  · rw [detach_owner] at hp
    split_ifs at hp
    exact hp

theorem swept_source {drv : DrvPtr} {ds : List DevPtr} {s t : State}
    (h : Swept env probe drv ds s t) {d : DevPtr} {r' : Rs485Device} (hr : t.device d = some r') :
    ∃ r, s.device d = some r ∧ (r' = r ∨ r' = withDriver r (some drv)) := by
  by_cases hd : d ∈ ds ∧ Taken env probe drv s d
  · obtain ⟨r, hr₀, -⟩ := hd.2
    rw [(h.taken d hd.1 hd.2).1, hr₀] at hr
    exact ⟨r, hr₀, Or.inr (Option.some.inj hr).symm⟩
  · rw [(h.left d hd).1] at hr
    exact ⟨r', hr, Or.inl rfl⟩

end Facts

section Preserved

variable {s t : State}

theorem wired_buses_grow (hs : Wired s) (h : BusesGrow s t) : Wired t := by
  have hmem : ∀ b ∈ s.busList, b ∈ t.busList := by
    intro b hb
    rcases h.list with hl | ⟨b', -, hl, -⟩
    · exact hl ▸ hb
    · exact hl ▸ List.mem_cons_of_mem b' hb
  have hold : ∀ b ∈ s.busList, ∃ k, (t.bus b).p = some k ∧ t.busPriv k = some b := by
    intro b hb
    obtain ⟨k, hk, hp⟩ := hs.buses b hb
    have hlt := hs.busFresh k (by simp [hp])
    exact ⟨k, (h.kept b hb).trans hk, (h.privs k hlt.ne).trans hp⟩
  rw [h.frame]
  refine { hs with buses := ?_, busFresh := ?_, driversOn := ?_, homed := ?_ }
  · intro b hb
    rcases h.list with hl | ⟨b', -, hl, hk, hp⟩
    · exact hold b (hl ▸ hb)
    · rcases List.mem_cons.mp (hl ▸ hb) with rfl | hb
      · exact ⟨s.nextBus, hk, hp⟩
      · exact hold b hb
  · intro k hk
    by_cases he : k = s.nextBus
    · subst he
      rcases h.next.2 with hsame | hlt
      · exact absurd (hs.busFresh _ (hsame ▸ hk)) (lt_irrefl _)
      · exact hlt
    · exact lt_of_lt_of_le (hs.busFresh k (h.privs k he ▸ hk)) h.next.1
  · intro p k hp
    exact ⟨lt_of_lt_of_le (hs.driversOn p k hp).1 h.next.1, (hs.driversOn p k hp).2⟩
  · intro d r hr
    obtain ⟨b, k, hbus, hb, hk, ho⟩ := hs.homed d r hr
    exact ⟨b, k, hbus, hmem b hb, (h.kept b hb).trans hk, ho⟩

theorem with_bus_p (s : State) (drv drv' : DrvPtr) (b : BusPtr) :
    ((withBus s drv b).driver drv').p = (s.driver drv').p := by
  by_cases he : drv' = drv
  · subst he
    simp [withBus]
  · simp [withBus, he]

theorem wired_with_bus (hs : Wired s) (drv : DrvPtr) (b : BusPtr) : Wired (withBus s drv b) :=
  { hs with own := fun drv' p hp => hs.own drv' p (with_bus_p s drv drv' b ▸ hp) }

theorem wired_left_of (hs : Wired s) {w : Lists BusPriv DrvPriv} {k : BusPriv}
    (hw : LeftOf s.drivers w k) : Wired { s with drivers := w } :=
  { hs with driversOn := fun p k' hp => hs.driversOn p k' (left_of_owner hw hp) }

theorem wired_unlisted (hs : Wired s) {p : DrvPriv} (hp : s.drivers.owner p ≠ none) :
    Wired { s with drivers := detach s.drivers p } := by
  obtain ⟨k, hk⟩ := Option.ne_none_iff_exists'.mp hp
  exact wired_left_of hs (Or.inr ⟨p, (s.drivers.mem_iff k p).mpr hk, rfl⟩)

theorem wired_with_priv (hs : Wired s) (drv : DrvPtr) (b : BusPtr) : Wired (withPriv s drv b) := by
  have hold : ∀ p, p < s.nextPriv → (withPriv s drv b).drvPriv p = s.drvPriv p := by
    intro p hp
    simp [withPriv, hp.ne]
  have hnew : (withPriv s drv b).drvPriv s.nextPriv = some drv := by simp [withPriv]
  refine { hs with driversOn := ?_, privFresh := ?_, own := ?_, bound := ?_ }
  · intro p k hp
    obtain ⟨hk, hlive⟩ := hs.driversOn p k hp
    exact ⟨hk, (hold p (hs.privFresh p hlive)).symm ▸ hlive⟩
  · intro p hp
    by_cases he : p = s.nextPriv
    · exact he ▸ Nat.lt_succ_self _
    · have hlive : s.drvPriv p ≠ none := by simpa [withPriv, he] using hp
      exact Nat.lt_succ_of_lt (hs.privFresh p hlive)
  · intro drv' p hp
    by_cases he : drv' = drv
    · subst he
      obtain rfl : s.nextPriv = p := by simpa [withPriv] using hp
      exact ⟨Nat.lt_succ_self _, fun drv'' h => (Option.some.inj (hnew.symm.trans h)).symm⟩
    · have hp' : (s.driver drv').p = some p := by simpa [withPriv, he] using hp
      obtain ⟨hlt, hown⟩ := hs.own drv' p hp'
      exact ⟨Nat.lt_succ_of_lt hlt, fun drv'' h => hown drv'' (hold p hlt ▸ h)⟩
  · intro d p hp
    obtain ⟨r, drv', hr, hdrv, hlive⟩ := hs.bound d p hp
    have hlt := hs.privFresh p (by simp [hlive])
    exact ⟨r, drv', hr, hdrv, (hold p hlt).trans hlive⟩

theorem wired_swept (hs : Wired s) {drv : DrvPtr} {p₀ : DrvPriv} {ds : List DevPtr}
    (hp₀ : (s.driver drv).p = some p₀) (hlive : s.drvPriv p₀ = some drv)
    (h : Swept env probe drv ds s t) : Wired t := by
  have hsettled := h.settled
  rw [h.frame]
  refine { hs with settled := hsettled, bound := ?_, devFresh := ?_, homed := ?_ }
  · intro d p hp
    by_cases hd : d ∈ ds ∧ Taken env probe drv s d
    · obtain ⟨r, hr, -⟩ := hd.2
      obtain ⟨hdev, howner, -⟩ := h.taken d hd.1 hd.2
      obtain rfl : p = p₀ := Option.some.inj (hp.symm.trans (howner.trans hp₀))
      exact ⟨withDriver r (some drv), drv, hdev.trans (by rw [hr]; rfl), rfl, hlive⟩
    · obtain ⟨hdev, howner⟩ := h.left d hd
      obtain ⟨r, drv', hr, hrest⟩ := hs.bound d p (howner ▸ hp)
      exact ⟨r, drv', hdev.trans hr, hrest⟩
  · intro d hd
    obtain ⟨r', hr'⟩ := Option.ne_none_iff_exists'.mp hd
    obtain ⟨r, hr, -⟩ := swept_source h hr'
    exact hs.devFresh d (by simp [hr])
  · intro d r' hr'
    obtain ⟨r, hr, rfl | rfl⟩ := swept_source h hr'
    · exact hs.homed d r' hr
    · exact hs.homed d r hr

theorem wired_driver_register (hs : Wired s) {drv : DrvPtr} {name : CString} {malloc : Bool}
    {e : ℤ} (h : rs485DriverRegister env probe s drv name malloc = some (e, t)) : Wired t := by
  rcases driver_register_cases hs.settled h with ⟨-, -, rfl⟩ | ⟨b, k, hb, hk, hcases⟩
  · exact hs
  · rcases hcases with ⟨-, -, w, hw, rfl⟩ | ⟨-, -, -, rfl⟩ | ⟨-, -, -, u, hfree, hswept, rfl⟩
    · exact wired_left_of (wired_with_bus hs drv b) hw
    · exact wired_with_bus hs drv b
    · have hp₀ : ((withPriv s drv b).driver drv).p = some s.nextPriv := by simp [withPriv]
      have hlive : (withPriv s drv b).drvPriv s.nextPriv = some drv := by simp [withPriv]
      have hu := wired_swept (wired_with_priv hs drv b) hp₀ hlive hswept
      have hpriv : u.drvPriv = (withPriv s drv b).drvPriv := by rw [hswept.frame]
      have hnextB : u.nextBus = s.nextBus := by rw [hswept.frame]; rfl
      refine { hu with driversOn := fun p k' hp => ?_ }
      change (attach u.drivers s.nextPriv k hfree).owner p = some k' at hp
      rw [attach_owner] at hp
      split_ifs at hp with he
      · subst he
        obtain rfl := Option.some.inj hp
        refine ⟨?_, ?_⟩
        · change k < u.nextBus
          rw [hnextB]
          exact hs.busFresh k (live_priv_some hk).2
        · change u.drvPriv s.nextPriv ≠ none
          rw [hpriv, hlive]
          simp
      · exact hu.driversOn p k' hp

/-- The new device on the list of its bus, before any driver saw it. -/
theorem wired_with_device (hs : Wired s) {info : Rs485DeviceInfo} {b : BusPtr} {k : BusPriv}
    (hb : b ∈ s.busList) (hk : (s.bus b).p = some k)
    (hfree : s.devices.owner s.nextDev = none) (list : List DevPtr) :
    Wired { withDevice s b info with
      devices := attach s.devices s.nextDev k hfree, deviceList := list } := by
  have hunbound := dead_unbound hs (next_dev_dead hs)
  have hdev (d : DevPtr) : (withDevice s b info).device d = if d = s.nextDev
      then some (newDevice b info (findNextDeviceId s.table)) else s.device d := by
    simp [withDevice, Function.update_apply]
  refine { hs with settled := ?_, bound := ?_, devFresh := ?_, homed := ?_ }
  · intro d r hr
    change (withDevice s b info).device d = some r at hr
    rw [hdev] at hr
    split_ifs at hr with he
    · subst he
      obtain rfl := Option.some.inj hr
      exact ⟨rfl, fun _ => hunbound⟩
    · exact hs.settled d r hr
  · intro d p hp
    obtain ⟨r, drv, hr, hrest⟩ := hs.bound d p hp
    have hne : d ≠ s.nextDev := fun he => absurd (next_dev_dead hs) (by simp [← he, hr])
    exact ⟨r, drv, (hdev d).trans ((if_neg hne).trans hr), hrest⟩
  · intro d hd
    change (withDevice s b info).device d ≠ none at hd
    rw [hdev] at hd
    show d < s.nextDev+1
    split_ifs at hd with he
    · rw [he]
      exact Nat.lt_succ_self _
    · exact Nat.lt_succ_of_lt (hs.devFresh d hd)
  · intro d r hr
    change (withDevice s b info).device d = some r at hr
    rw [hdev] at hr
    split_ifs at hr with he
    · subst he
      obtain rfl := Option.some.inj hr
      exact ⟨b, k, rfl, hb, hk, by simp⟩
    · obtain ⟨b', k', hbus, hb', hk', ho⟩ := hs.homed d r hr
      exact ⟨b', k', hbus, hb', hk', by simpa [he] using ho⟩

theorem offered_wired {d : DevPtr} {r : Rs485Device} {k : BusPriv} (hs : Wired s)
    (hu : Unbound s d r) (h : Offered env probe s d r k t) : Wired t := by
  cases h with
  | refused _ => exact hs
  | taken p drv q w hfree hmem hdrv htakes hq hlive hw =>
    obtain ⟨drv', hdrv'⟩ := Option.ne_none_iff_exists'.mp hlive
    obtain rfl := (hs.own drv q hq).2 drv' hdrv'
    have hswept := swept_bind hs.settled hu htakes hq
    exact wired_left_of (wired_swept hs hq hdrv' hswept) hw

/-- Offering the device does not look at the list of devices. -/
theorem offered_devices {d : DevPtr} {r : Rs485Device} {k : BusPriv} {u : State}
    (h : Offered env probe s d r k u) (w : Lists BusPriv DevPtr) (list : List DevPtr) :
    Offered env probe { s with devices := w, deviceList := list } d r k
      { u with devices := w, deviceList := list } := by
  cases h with
  | refused h => exact .refused h
  | taken p drv q w' hfree hmem hdrv htakes hq hlive hw =>
    exact Offered.taken (s := { s with devices := w, deviceList := list })
      p drv q w' hfree hmem hdrv htakes hq hlive hw

theorem wired_device_create (hs : Wired s) {info : Rs485DeviceInfo} {calloc : Bool} {e : ℤ}
    {id : Option ℤ} (h : rs485DeviceCreate env probe s info calloc = some (e, id, t)) :
    Wired t := by
  have hunbound := dead_unbound hs (next_dev_dead hs)
  rcases device_create_cases hunbound h with
    ⟨-, rfl, -⟩ | ⟨-, -, rfl⟩ | ⟨-, -, -, -, b, k, u, hfree, hb, hk, hoffered, rfl⟩
  · exact hs
  · exact { hs with devFresh := fun d hd => Nat.lt_succ_of_lt (hs.devFresh d hd) }
  · have hsame : u.devices = s.devices ∧ u.deviceList = s.deviceList := by
      cases hoffered <;> exact ⟨rfl, rfl⟩
    obtain ⟨hbmem, -⟩ := bus_named_some hb
    have hlisted : Wired { withDevice s b info with
        devices := attach u.devices s.nextDev k hfree, deviceList := s.nextDev::u.deviceList } := by
      have hfree' : s.devices.owner s.nextDev = none := hsame.1 ▸ hfree
      have hattach : attach u.devices s.nextDev k hfree = attach s.devices s.nextDev k hfree' := by
        congr 1
        exact hsame.1
      rw [hattach]
      exact wired_with_device hs hbmem (live_priv_some hk).1 hfree' _
    have hu := with_device_unbound hunbound b info
    have hu' : Unbound { withDevice s b info with
        devices := attach u.devices s.nextDev k hfree, deviceList := s.nextDev::u.deviceList }
        s.nextDev (newDevice b info (findNextDeviceId s.table)) :=
      ⟨hu.device, hu.driver, hu.registered, hu.owner⟩
    exact offered_wired hlisted hu' (offered_devices hoffered _ _)

theorem detached_source {drv : DrvPtr} {p : DrvPriv} (h : Detached drv p s t) {d : DevPtr}
    {r' : Rs485Device} (hr : t.device d = some r') :
    ∃ r, s.device d = some r ∧ (r' = r ∨ r' = withDriver r none) := by
  by_cases hd : d ∈ s.bound.items p
  · obtain ⟨-, r, hr₀, -, ht⟩ := h.released d hd
    exact ⟨r, hr₀, Or.inr (Option.some.inj (hr.symm.trans ht))⟩
  · exact ⟨r', (h.left d hd).1 ▸ hr, Or.inl rfl⟩

/-- Taking all devices off a driver's list. -/
theorem wired_detached {drv : DrvPtr} {p : DrvPriv} (hs : Wired s) (h : Detached drv p s t) :
    Wired t := by
  rw [h.frame]
  refine { hs with settled := ?_, bound := ?_, devFresh := ?_, homed := ?_ }
  · intro d r' hr'
    obtain ⟨r, hr, hcase⟩ := detached_source h hr'
    have hregistered : r'.dev.isDriverRegister = false := by
      rcases hcase with rfl | rfl
      · exact (hs.settled d r' hr).1
      · exact (hs.settled d r hr).1
    refine ⟨hregistered, fun hnone => ?_⟩
    by_cases hd : d ∈ s.bound.items p
    · exact (h.released d hd).1
    · obtain ⟨hdev, howner⟩ := h.left d hd
      exact howner.trans ((hs.settled d r' (hdev ▸ hr')).2 hnone)
  · intro d q hq
    have hd : d ∉ s.bound.items p :=
      fun hd => absurd (hq.symm.trans (h.released d hd).1) (by simp)
    obtain ⟨hdev, howner⟩ := h.left d hd
    obtain ⟨r, drv', hr, hrest⟩ := hs.bound d q (howner ▸ hq)
    exact ⟨r, drv', hdev.trans hr, hrest⟩
  · intro d hd
    obtain ⟨r', hr'⟩ := Option.ne_none_iff_exists'.mp hd
    obtain ⟨r, hr, -⟩ := detached_source h hr'
    exact hs.devFresh d (by simp [hr])
  · intro d r' hr'
    obtain ⟨r, hr, rfl | rfl⟩ := detached_source h hr'
    · exact hs.homed d r' hr
    · exact hs.homed d r hr

/-- Freeing a `driver_private` that is on no list and has no devices. -/
theorem wired_free_priv (hs : Wired s) {p : DrvPriv} (hlist : s.drivers.owner p = none)
    (hgone : s.bound.items p = []) :
    Wired { s with drvPriv := Function.update s.drvPriv p none } := by
  have hother : ∀ q, q ≠ p → Function.update s.drvPriv p none q = s.drvPriv q :=
    fun q hq => by simp [hq]
  have hsub : ∀ q drv, Function.update s.drvPriv p none q = some drv → s.drvPriv q = some drv := by
    intro q drv hq
    by_cases he : q = p
    · subst he
      simp at hq
    · rwa [hother q he] at hq
  refine { hs with driversOn := ?_, privFresh := ?_, own := ?_, bound := ?_ }
  · intro q k hq
    have he : q ≠ p := fun he => absurd (he ▸ hq) (by simp [hlist])
    refine ⟨(hs.driversOn q k hq).1, ?_⟩
    show Function.update s.drvPriv p none q ≠ none
    rw [hother q he]
    exact (hs.driversOn q k hq).2
  · intro q hq
    obtain ⟨drv, hdrv⟩ := Option.ne_none_iff_exists'.mp hq
    exact hs.privFresh q (by simp [hsub q drv hdrv])
  · intro drv q hq
    exact ⟨(hs.own drv q hq).1, fun drv' h => (hs.own drv q hq).2 drv' (hsub q drv' h)⟩
  · intro d q hq
    have he : q ≠ p := by
      rintro rfl
      have hmem := (s.bound.mem_iff q d).mpr hq
      simp [hgone] at hmem
    obtain ⟨r, drv, hr, hdrv, hlive⟩ := hs.bound d q hq
    exact ⟨r, drv, hr, hdrv, (hother q he).trans hlive⟩

theorem wired_driver_unregister (hs : Wired s) {drv : Option DrvPtr}
    (h : rs485DriverUnregister env s drv = some t) : Wired t := by
  cases drv with
  | none =>
    obtain rfl := Option.some.inj h
    exact hs
  | some drv =>
    rcases driver_unregister_cases h with ⟨-, rfl⟩ | ⟨p, u, hp, hlive, hon, hdet, rfl⟩
    · exact hs
    · have hu := wired_detached (wired_unlisted hs hon) hdet
      have hdrivers : u.drivers = detach s.drivers p := by rw [hdet.frame]
      exact wired_free_priv hu (by simp [hdrivers]) hdet.gone

/-- A device that is destroyed is on no list any more, and its id is free. -/
theorem destroy_cases (hs : Wired s) {d : DevPtr} (h : rs485DeviceDestroy env s (some d) = some t) :
    d ∈ s.deviceList ∧ ∃ r, s.device d = some r ∧ t = { s with
      device := Function.update s.device d none
      deviceList := s.deviceList.erase d
      devices := detach s.devices d
      bound := detach s.bound d
      table := freeDeviceId s.table r.id
      log := t.log } := by
  simp only [rs485DeviceDestroy] at h
  split_ifs at h with hd
  simp only [deviceUnregister, deviceDel, busRemoveDevice, Option.bind_eq_bind,
    Option.bind_eq_some_iff, Option.some.injEq] at h
  obtain ⟨r, hr, u, ⟨v, ⟨r', hr', h⟩, rfl⟩, rfl⟩ := h
  obtain rfl := Option.some.inj (hr.symm.trans hr')
  refine ⟨hd, r, hr, ?_⟩
  obtain ⟨b, -, hb, -⟩ := hs.homed d r hr
  simp only [hb, Option.bind_eq_some_iff] at h
  obtain ⟨w, hw, hrel⟩ := h
  have hdevices : w = detach s.devices d := by
    unfold busUnlist at hw
    split_ifs at hw with howner
    · exact ((del_eq_some _ _ _).mp hw).2
    · rw [detach_of_free s.devices (not_not.mp howner)]
      exact (Option.some.inj hw).symm
  subst hdevices
  obtain ⟨r'', hr'', ⟨hnone, rfl⟩ | ⟨drv, -, -, rfl⟩⟩ := release_cases hrel
  · obtain rfl := Option.some.inj (hr.symm.trans hr'')
    have hbound : detach s.bound d = s.bound := detach_of_free s.bound ((hs.settled d r hr).2 hnone)
    simp only [deviceFree, Function.update_idem, hbound]
  · simp only [deviceFree, setDriver, Function.update_idem]

theorem wired_device_destroy (hs : Wired s) {d : Option DevPtr}
    (h : rs485DeviceDestroy env s d = some t) : Wired t := by
  cases d with
  | none =>
    obtain rfl := Option.some.inj h
    exact hs
  | some d =>
    obtain ⟨-, r, hr, ht⟩ := destroy_cases hs h
    have hdevice : ∀ e r', Function.update s.device d none e = some r' →
        e ≠ d ∧ s.device e = some r' := by
      intro e r' he
      by_cases hed : e = d
      · subst hed
        simp at he
      · exact ⟨hed, by simpa [hed] using he⟩
    rw [ht]
    generalize t.log = log
    refine { hs with settled := ?_, bound := ?_, devFresh := ?_, homed := ?_ }
    · intro e r' he
      obtain ⟨hed, he⟩ := hdevice e r' he
      refine ⟨(hs.settled e r' he).1, fun hnone => ?_⟩
      show (detach s.bound d).owner e = none
      rw [detach_owner, if_neg hed]
      exact (hs.settled e r' he).2 hnone
    · intro e p he
      change (detach s.bound d).owner e = some p at he
      rw [detach_owner] at he
      split_ifs at he with hed
      obtain ⟨r', drv, hr', hrest⟩ := hs.bound e p he
      exact ⟨r', drv, by simpa [hed] using hr', hrest⟩
    · intro e he
      obtain ⟨r', hr'⟩ := Option.ne_none_iff_exists'.mp he
      exact hs.devFresh e (by simp [(hdevice e r' hr').2])
    · intro e r' he
      obtain ⟨hed, he⟩ := hdevice e r' he
      obtain ⟨b, k, hb, hmem, hk, ho⟩ := hs.homed e r' he
      exact ⟨b, k, hb, hmem, hk, by simpa [hed] using ho⟩

theorem wired_step (hs : Wired s) (op : Op) (h : step env s op = some t) : Wired t := by
  refine step_cases (motive := fun _ t => Wired t) ?bus ?driver ?device ?unregister ?destroy h
  case bus => exact fun b a => wired_buses_grow hs (bus_register_grows s b a)
  case driver => exact fun _ _ _ _ _ _ hreg => wired_driver_register hs hreg
  case device => exact fun _ _ _ _ _ _ hreg => wired_device_create hs hreg
  case unregister => exact fun _ _ hun => wired_driver_unregister hs hun
  case destroy => exact fun _ _ hdes => wired_device_destroy hs hdes

end Preserved

end RS485.Wiring
