import Rs485.Runs
import Rs485.Wiring

/-!
# The driver lists over whole runs

One static driver object is offered to several buses, and the object has room
for one bus and one private part. The lists of drivers and of bound devices
agree with the back pointers exactly as long as no registration takes a driver
away from a bus, or from devices, that it still serves.
-/

set_option autoImplicit false

namespace RS485.Consistency
open RS485.Platform RS485.Records RS485.Mdev RS485.Attached RS485.Registry RS485.Probing
  RS485.Operations RS485.Wiring RS485.Runs

variable {env : Env} {probe : Probe}

/-- The drivers on a bus's list point back to the bus and to their entry, and a
driver's list of devices agrees with the devices' own pointers. -/
structure Consistent (s : State) : Prop where
  listed : ∀ b ∈ s.busList, ∀ k, (s.bus b).p = some k → ∀ p ∈ s.drivers.items k,
    ∃ drv, s.drvPriv p = some drv ∧ (s.driver drv).bus = some b ∧ (s.driver drv).p = some p
  held : ∀ d r drv, s.device d = some r →
    ((∃ p, (s.driver drv).p = some p ∧ d ∈ s.bound.items p) ↔ r.dev.driver = some drv)

/-- The driver is listed on a bus other than `b`. -/
def ServesOther (s : State) (drv : DrvPtr) (b : BusPtr) : Prop :=
  ∃ b' ∈ s.busList, b' ≠ b ∧ ∃ k, (s.bus b').p = some k ∧ ∃ p ∈ s.drivers.items k,
    s.drvPriv p = some drv

/-- Some device is bound to the driver. -/
def HasDevices (s : State) (drv : DrvPtr) : Prop :=
  ∃ d r, s.device d = some r ∧ r.dev.driver = some drv

/-- A driver is registered with a bus only while no other bus lists it, and it
is given a new private part only while it has no devices. -/
def Keeps (env : Env) (s : State) : Op → Prop
  | .register (.driver drv name malloc _) => ∀ b k, rs485DriverMatchBus s name = some b →
    livePriv s b = some k → ¬ServesOther s drv b ∧
      (malloc = true → ¬NameOn env s k (env.driver drv).name → ¬HasDevices s drv)
  | _ => True

section Preserved

variable {s t : State}

/-- A device on the list of a driver is bound to it. -/
theorem bound_driver (hs : Wired s) {d : DevPtr} {r : Rs485Device} {drv : DrvPtr} {p : DrvPriv}
    (hr : s.device d = some r) (hp : (s.driver drv).p = some p) (hd : d ∈ s.bound.items p) :
    r.dev.driver = some drv := by
  obtain ⟨r', drv', hr', hdrv, hlive⟩ := hs.bound d p ((s.bound.mem_iff p d).mp hd)
  obtain rfl := Option.some.inj (hr.symm.trans hr')
  rw [hdrv, (hs.own drv p hp).2 drv' hlive]

theorem consistent_of (hs : Wired s)
    (hlisted : ∀ b ∈ s.busList, ∀ k, (s.bus b).p = some k → ∀ p ∈ s.drivers.items k,
      ∃ drv, s.drvPriv p = some drv ∧ (s.driver drv).bus = some b ∧ (s.driver drv).p = some p)
    (hheld : ∀ d r drv, s.device d = some r → r.dev.driver = some drv →
      ∃ p, (s.driver drv).p = some p ∧ s.bound.owner d = some p) : Consistent s where
  listed := hlisted
  held d r drv hr := by
    constructor
    · rintro ⟨p, hp, hd⟩
      exact bound_driver hs hr hp hd
    · intro hdrv
      obtain ⟨p, hp, ho⟩ := hheld d r drv hr hdrv
      exact ⟨p, hp, (s.bound.mem_iff p d).mpr ho⟩

theorem held_owner (hc : Consistent s) {d : DevPtr} {r : Rs485Device} {drv : DrvPtr}
    (hr : s.device d = some r) (hdrv : r.dev.driver = some drv) :
    ∃ p, (s.driver drv).p = some p ∧ s.bound.owner d = some p := by
  obtain ⟨p, hp, hd⟩ := (hc.held d r drv hr).mpr hdrv
  exact ⟨p, hp, (s.bound.mem_iff p d).mp hd⟩

theorem consistent_buses_grow (hs : Wired s) (hc : Consistent s) (h : BusesGrow s t) :
    Consistent t := by
  have hdevice : t.device = s.device := by rw [h.frame]
  have hdriver : t.driver = s.driver := by rw [h.frame]
  have hpriv : t.drvPriv = s.drvPriv := by rw [h.frame]
  have hdrivers : t.drivers = s.drivers := by rw [h.frame]
  have hbound : t.bound = s.bound := by rw [h.frame]
  refine consistent_of (wired_buses_grow hs h) ?_ ?_
  · rw [hdrivers, hdriver, hpriv]
    intro b hb k hk p hp
    have hold : b ∈ s.busList → ∃ drv, s.drvPriv p = some drv ∧ (s.driver drv).bus = some b ∧
        (s.driver drv).p = some p :=
      fun hb => hc.listed b hb k ((h.kept b hb).symm.trans hk) p hp
    rcases h.list with hl | ⟨b', -, hl, hnew, -⟩
    · exact hold (hl ▸ hb)
    · rcases List.mem_cons.mp (hl ▸ hb) with rfl | hb
      · obtain rfl := Option.some.inj (hnew.symm.trans hk)
        have hlt := (hs.driversOn p _ ((s.drivers.mem_iff _ p).mp hp)).1
        exact absurd hlt (lt_irrefl _)
      · exact hold hb
  · rw [hdevice, hdriver, hbound]
    exact fun d r drv hr => held_owner hc hr

theorem left_of_self (w : Lists BusPriv DrvPriv) (k : BusPriv) : LeftOf w w k := Or.inl rfl

theorem left_of_mem {w w' : Lists BusPriv DrvPriv} {k k' : BusPriv} {p : DrvPriv}
    (h : LeftOf w w' k) (hp : p ∈ w'.items k') : p ∈ w.items k' :=
  (w.mem_iff k' p).mpr (left_of_owner h ((w'.mem_iff k' p).mp hp))

theorem consistent_device_create (hs : Wired s) (hc : Consistent s) {info : Rs485DeviceInfo}
    {calloc : Bool} {e : ℤ} {id : Option ℤ}
    (h : rs485DeviceCreate env probe s info calloc = some (e, id, t)) : Consistent t := by
  have hunbound := dead_unbound hs (next_dev_dead hs)
  have ht := wired_device_create hs h
  rcases device_create_cases hunbound h with
    ⟨-, rfl, -⟩ | ⟨-, -, rfl⟩ | ⟨-, -, -, -, b, k, u, hfree, hb, hk, hoffered, rfl⟩
  · exact hc
  · exact ⟨hc.listed, hc.held⟩
  · cases hoffered with
    | refused hno =>
      refine consistent_of ht hc.listed fun d r drv hr hdrv => ?_
      change (withDevice s b info).device d = some r at hr
      rw [with_device_device] at hr
      split_ifs at hr with he
      · obtain rfl := Option.some.inj hr
        simp [newDevice] at hdrv
      · exact held_owner hc hr hdrv
    | taken p drv q w hfree' hmem hdrv htakes hq hlive hw =>
      refine consistent_of ht ?_ fun d r drv' hr hdrv' => ?_
      · exact fun b' hb' k' hk' p' hp' => hc.listed b' hb' k' hk' p' (left_of_mem hw hp')
      · change (bindTo (withDevice s b info) s.nextDev drv q hfree').device d = some r at hr
        rw [bind_to_device] at hr
        show ∃ p', (s.driver drv').p = some p' ∧
          (bindTo (withDevice s b info) s.nextDev drv q hfree').bound.owner d = some p'
        rw [bind_to_owner]
        split_ifs at hr with he
        · subst he
          rw [with_device_device, if_pos rfl] at hr
          obtain rfl := Option.some.inj hr
          obtain rfl := Option.some.inj hdrv'
          exact ⟨q, hq, if_pos rfl⟩
        · rw [with_device_device, if_neg he] at hr
          rw [if_neg he]
          exact held_owner hc hr hdrv'

theorem consistent_device_destroy (hs : Wired s) (hc : Consistent s) {d : Option DevPtr}
    (h : rs485DeviceDestroy env s d = some t) : Consistent t := by
  have ht := wired_device_destroy hs h
  cases d with
  | none =>
    obtain rfl := Option.some.inj h
    exact hc
  | some d =>
    obtain ⟨-, r, hr, heq⟩ := destroy_cases hs h
    refine consistent_of ht ?_ ?_
    · rw [heq]
      exact hc.listed
    · rw [heq]
      intro e r' drv he hdrv
      by_cases hed : e = d
      · subst hed
        simp at he
      · have hrest := held_owner hc (by simpa [hed] using he) hdrv
        simpa [hed] using hrest

theorem consistent_driver_unregister (hs : Wired s) (hc : Consistent s) {drv : Option DrvPtr}
    (h : rs485DriverUnregister env s drv = some t) : Consistent t := by
  have ht := wired_driver_unregister hs h
  cases drv with
  | none =>
    obtain rfl := Option.some.inj h
    exact hc
  | some drv =>
    rcases driver_unregister_cases h with ⟨-, rfl⟩ | ⟨p, u, hp, hlive, hon, hdet, rfl⟩
    · exact hc
    · have hbus : u.bus = s.bus := by rw [hdet.frame]
      have hlist : u.busList = s.busList := by rw [hdet.frame]
      have hdriver : u.driver = s.driver := by rw [hdet.frame]
      have hpriv : u.drvPriv = s.drvPriv := by rw [hdet.frame]
      have hdrivers : u.drivers = detach s.drivers p := by rw [hdet.frame]
      refine consistent_of ht ?_ ?_
      · show ∀ b ∈ u.busList, ∀ k, (u.bus b).p = some k → ∀ q ∈ u.drivers.items k,
          ∃ drv', Function.update u.drvPriv p none q = some drv' ∧
            (u.driver drv').bus = some b ∧ (u.driver drv').p = some q
        rw [hbus, hlist, hdriver, hpriv, hdrivers]
        intro b hb k hk q hq
        obtain ⟨hq, hne⟩ := (mem_detach s.drivers p q k).mp hq
        simpa [hne] using hc.listed b hb k hk q hq
      · show ∀ d r drv', u.device d = some r → r.dev.driver = some drv' →
          ∃ q, (u.driver drv').p = some q ∧ u.bound.owner d = some q
        rw [hdriver]
        intro d r' drv' hr' hdrv'
        by_cases hd : d ∈ s.bound.items p
        · obtain ⟨-, r, -, -, hnew⟩ := hdet.released d hd
          obtain rfl := Option.some.inj (hr'.symm.trans hnew)
          simp at hdrv'
        · obtain ⟨hdev, howner⟩ := hdet.left d hd
          rw [howner]
          exact held_owner hc (hdev ▸ hr') hdrv'

/-- What a registration that found its bus does in any case. -/
structure DriverOffered (s t : State) (drv : DrvPtr) (b : BusPtr) (k : BusPriv) : Prop where
  bus : t.bus = s.bus
  busList : t.busList = s.busList
  now : (t.driver drv).bus = some b
  privs : ∀ p, s.drvPriv p ≠ none → t.drvPriv p = s.drvPriv p
  others : ∀ k', k' ≠ k → ∀ p ∈ s.drivers.items k', p ∈ t.drivers.items k'

theorem left_of_other {w w' : Lists BusPriv DrvPriv} {k k' : BusPriv} {p : DrvPriv}
    (h : LeftOf w w' k) (hk : k' ≠ k) (hp : p ∈ w.items k') : p ∈ w'.items k' := by
  rcases h with rfl | ⟨q, hq, rfl⟩
  · exact hp
  · rw [mem_detach]
    refine ⟨hp, ?_⟩
    rintro rfl
    exact hk (mem_unique w hp hq)

theorem driver_offered (hs : Wired s) {drv : DrvPtr} {name : CString} {malloc : Bool} {e : ℤ}
    {b : BusPtr} {k : BusPriv} (hb : busNamed s name = some b) (hk : livePriv s b = some k)
    (h : rs485DriverRegister env probe s drv name malloc = some (e, t)) :
    DriverOffered s t drv b k := by
  rcases driver_register_cases hs.settled h with ⟨hnone, -⟩ | ⟨b', k', hb', hk', hcases⟩
  · exact absurd (hb.symm.trans hnone) (by simp)
  · obtain rfl := Option.some.inj (hb.symm.trans hb')
    obtain rfl := Option.some.inj (hk.symm.trans hk')
    rcases hcases with ⟨-, -, w, hw, rfl⟩ | ⟨-, -, -, rfl⟩ | ⟨-, -, -, u, hfree, hswept, rfl⟩
    · exact ⟨rfl, rfl, by simp [withBus], fun _ _ => rfl, fun k' hk' p hp => left_of_other hw hk' hp⟩
    · exact ⟨rfl, rfl, by simp [withBus], fun _ _ => rfl, fun _ _ _ hp => hp⟩
    · have hdriver : u.driver = (withPriv s drv b).driver := by rw [hswept.frame]
      have hpriv : u.drvPriv = (withPriv s drv b).drvPriv := by rw [hswept.frame]
      have hdrivers : u.drivers = s.drivers := by rw [hswept.frame]; rfl
      have hbus : u.bus = s.bus := by rw [hswept.frame]; rfl
      have hlist : u.busList = s.busList := by rw [hswept.frame]; rfl
      refine ⟨hbus, hlist, ?_, ?_, ?_⟩
      · show (u.driver drv).bus = some b
        rw [hdriver]
        simp [withPriv]
      · intro p hp
        show u.drvPriv p = s.drvPriv p
        rw [hpriv]
        simp [withPriv, (hs.privFresh p hp).ne]
      · intro k' hk' p hp
        show p ∈ (attach u.drivers s.nextPriv k hfree).items k'
        rw [mem_attach]
        exact Or.inl (hdrivers ▸ hp)

/-- A driver that another bus lists loses its pointer to that bus. -/
theorem serves_other_breaks (hs : Wired s) {drv : DrvPtr} {b : BusPtr} {k : BusPriv}
    (hbl : b ∈ s.busList) (hk : livePriv s b = some k) (h : DriverOffered s t drv b k)
    (ht : Consistent t) : ¬ServesOther s drv b := by
  rintro ⟨b', hb', hne, k', hk', p, hp, hdrv⟩
  have hkk : k' ≠ k := by
    rintro rfl
    exact hne (same_bus hs hb' hbl hk' (live_priv_some hk).1)
  obtain ⟨drv', hdrv', hbus, -⟩ := ht.listed b' (h.busList ▸ hb') k' (h.bus ▸ hk') p
    (h.others k' hkk p hp)
  rw [h.privs p (by simp [hdrv]), hdrv] at hdrv'
  obtain rfl := Option.some.inj hdrv'
  exact hne (Option.some.inj (hbus.symm.trans h.now))

/-- Pointing the driver at the bus it was found for, and nothing more. -/
theorem consistent_with_bus (hs : Wired s) (hc : Consistent s) {drv : DrvPtr} {b : BusPtr}
    {k : BusPriv} {w : Lists BusPriv DrvPriv} (hw : LeftOf s.drivers w k)
    (hno : ¬ServesOther s drv b) : Consistent { withBus s drv b with drivers := w } := by
  refine consistent_of (wired_left_of (wired_with_bus hs drv b) hw) ?_ ?_
  · intro b' hb' k' hk' p hp
    have hp' := left_of_mem hw hp
    obtain ⟨drv', hdrv', hbus, hself⟩ := hc.listed b' hb' k' hk' p hp'
    refine ⟨drv', hdrv', ?_, (with_bus_p s drv drv' b).trans hself⟩
    show ((withBus s drv b).driver drv').bus = some b'
    by_cases he : drv' = drv
    · subst he
      have hbb : b' = b := by
        by_contra hne
        exact hno ⟨b', hb', hne, k', hk', p, hp', hdrv'⟩
      simp [withBus, hbb]
    · simpa [withBus, he] using hbus
  · intro d r drv' hr hdrv'
    obtain ⟨p, hp, howner⟩ := held_owner hc hr hdrv'
    exact ⟨p, (with_bus_p s drv drv' b).trans hp, howner⟩

theorem with_priv_driver (s : State) (drv drv' : DrvPtr) (b : BusPtr) :
    (withPriv s drv b).driver drv' = if drv' = drv then ⟨some b, some s.nextPriv⟩
      else s.driver drv' := by
  simp [withPriv, Function.update_apply]

section NewPriv

variable {drv : DrvPtr} {b : BusPtr} {k : BusPriv} {u : State} {ds : List DevPtr}

/-- The driver that gets a new private part leaves its devices on the old one. -/
theorem new_priv_breaks (hs : Wired s) (hc : Consistent s)
    (hswept : Swept env probe drv ds (withPriv s drv b) u)
    (hheld : ∀ d r drv', u.device d = some r →
      ((∃ p, (u.driver drv').p = some p ∧ d ∈ u.bound.items p) ↔ r.dev.driver = some drv')) :
    ¬HasDevices s drv := by
  rintro ⟨d, r, hr, hdrv⟩
  have hno : ¬(d ∈ ds ∧ Taken env probe drv (withPriv s drv b) d) := by
    rintro ⟨-, r', hr', hfree, -⟩
    obtain rfl := Option.some.inj (hr.symm.trans hr')
    exact absurd (hdrv.symm.trans hfree) (by simp)
  obtain ⟨hdev, howner⟩ := hswept.left d hno
  obtain ⟨p, hp, hold⟩ := held_owner hc hr hdrv
  obtain ⟨q, hq, hmem⟩ := (hheld d r drv (hdev.trans hr)).mpr hdrv
  rw [swept_driver hswept, with_priv_driver, if_pos rfl] at hq
  obtain rfl := Option.some.inj hq
  have hnew : s.bound.owner d = some s.nextPriv := howner ▸ (u.bound.mem_iff _ d).mp hmem
  obtain rfl := Option.some.inj (hold.symm.trans hnew)
  exact lt_irrefl _ (hs.own drv _ hp).1

/-- An entry of the driver itself would be on this bus and would have its name. -/
theorem new_priv_listed (hs : Wired s) (hc : Consistent s) (hbl : b ∈ s.busList)
    (hk : livePriv s b = some k) (hfree : s.drivers.owner s.nextPriv = none)
    (hother : ¬ServesOther s drv b) (hname : ¬NameOn env s k (env.driver drv).name) :
    ∀ b' ∈ s.busList, ∀ k', (s.bus b').p = some k' →
      ∀ p ∈ (attach s.drivers s.nextPriv k hfree).items k',
        ∃ drv', (withPriv s drv b).drvPriv p = some drv' ∧
          ((withPriv s drv b).driver drv').bus = some b' ∧
          ((withPriv s drv b).driver drv').p = some p := by
  intro b' hb' k' hk' p hmem
  rcases (mem_attach _ _ _ _ _ hfree).mp hmem with hp | ⟨rfl, rfl⟩
  · obtain ⟨drv', hdrv', hbus', hself⟩ := hc.listed b' hb' k' hk' p hp
    have hne : drv' ≠ drv := by
      rintro rfl
      by_cases hbb : b' = b
      · subst hbb
        obtain rfl := Option.some.inj (hk'.symm.trans (live_priv_some hk).1)
        exact hname ⟨p, hp, drv', hdrv', rfl⟩
      · exact hother ⟨b', hb', hbb, k', hk', p, hp, hdrv'⟩
    refine ⟨drv', ?_, ?_, ?_⟩
    · have hlt := hs.privFresh p (by simp [hdrv'])
      simpa [withPriv, hlt.ne] using hdrv'
    · rw [with_priv_driver, if_neg hne]
      exact hbus'
    · rw [with_priv_driver, if_neg hne]
      exact hself
  · have hbb : b' = b := same_bus hs hb' hbl hk' (live_priv_some hk).1
    refine ⟨drv, by simp [withPriv], ?_, ?_⟩ <;> rw [with_priv_driver, if_pos rfl]
    rw [hbb]

/-- The devices that the driver took hang on its new private part. -/
theorem new_priv_held (hc : Consistent s)
    (hswept : Swept env probe drv (s.devices.items k) (withPriv s drv b) u)
    (hdevs : ¬HasDevices s drv) {d : DevPtr} {r : Rs485Device} {drv' : DrvPtr}
    (hr : u.device d = some r) (hdrv' : r.dev.driver = some drv') :
    ∃ p, ((withPriv s drv b).driver drv').p = some p ∧ u.bound.owner d = some p := by
  by_cases hd : d ∈ s.devices.items k ∧ Taken env probe drv (withPriv s drv b) d
  · obtain ⟨hdev, howner, -⟩ := hswept.taken d hd.1 hd.2
    obtain ⟨r₀, hr₀, -⟩ := hd.2
    rw [hdev, hr₀] at hr
    obtain rfl := Option.some.inj hr
    obtain rfl := Option.some.inj hdrv'
    rw [howner, with_priv_driver, if_pos rfl]
    exact ⟨s.nextPriv, rfl, rfl⟩
  · obtain ⟨hdev, howner⟩ := hswept.left d hd
    have hr' : s.device d = some r := hdev.symm.trans hr
    have hne : drv' ≠ drv := by
      rintro rfl
      exact hdevs ⟨d, r, hr', hdrv'⟩
    rw [howner, with_priv_driver, if_neg hne]
    exact held_owner hc hr' hdrv'

theorem new_priv_keeps (hs : Wired s) (hc : Consistent s) (hbl : b ∈ s.busList)
    (hk : livePriv s b = some k)
    (hswept : Swept env probe drv (s.devices.items k) (withPriv s drv b) u)
    (hfree : u.drivers.owner s.nextPriv = none) {log : List Event}
    (ht : Wired { u with drivers := attach u.drivers s.nextPriv k hfree, log := log })
    (hother : ¬ServesOther s drv b) (hname : ¬NameOn env s k (env.driver drv).name)
    (hdevs : ¬HasDevices s drv) :
    Consistent { u with drivers := attach u.drivers s.nextPriv k hfree, log := log } := by
  obtain ⟨device, bound, rfl⟩ : ∃ device bound,
      u = { withPriv s drv b with device := device, bound := bound } := ⟨_, _, hswept.frame⟩
  apply consistent_of ht
  · exact new_priv_listed hs hc hbl hk hfree hother hname
  · exact fun d r drv' hr hdrv' => new_priv_held hc hswept hdevs hr hdrv'

end NewPriv

theorem consistent_driver_register_iff (hs : Wired s) (hc : Consistent s) {drv : DrvPtr}
    {name : CString} {malloc : Bool} {e : ℤ}
    (h : rs485DriverRegister env probe s drv name malloc = some (e, t)) :
    Consistent t ↔ Keeps env s (.register (.driver drv name malloc probe)) := by
  have ht := wired_driver_register hs h
  rcases driver_register_cases hs.settled h with ⟨hnone, -, rfl⟩ | ⟨b, k, hb, hk, hcases⟩
  · refine iff_of_true hc fun b k hb => ?_
    exact absurd (hnone.symm.trans hb) (by simp)
  · have hbl := (bus_named_some hb).1
    have hoffered := driver_offered hs hb hk h
    have hkeeps : Keeps env s (.register (.driver drv name malloc probe)) ↔
        ¬ServesOther s drv b ∧
          (malloc = true → ¬NameOn env s k (env.driver drv).name → ¬HasDevices s drv) :=
      named_live_iff hb hk
    rw [hkeeps]
    rcases hcases with ⟨hon, -, w, hw, rfl⟩ | ⟨-, hm, -, rfl⟩ |
      ⟨hno, hm, -, u, hfree, hswept, rfl⟩
    · constructor
      · exact fun hct => ⟨serves_other_breaks hs hbl hk hoffered hct, fun _ hno => absurd hon hno⟩
      · exact fun hone => consistent_with_bus hs hc hw hone.1
    · constructor
      · exact fun hct => ⟨serves_other_breaks hs hbl hk hoffered hct,
          fun htrue => absurd htrue (by simp [hm])⟩
      · exact fun hone => consistent_with_bus hs hc (left_of_self s.drivers k) hone.1
    · constructor
      · exact fun hct => ⟨serves_other_breaks hs hbl hk hoffered hct,
          fun _ _ => new_priv_breaks hs hc hswept hct.held⟩
      · exact fun hone => new_priv_keeps hs hc hbl hk hswept hfree ht hone.1 hno (hone.2 hm hno)

theorem consistent_step_iff (hs : Wired s) (hc : Consistent s) (op : Op)
    (h : step env s op = some t) : Consistent t ↔ Keeps env s op := by
  refine step_cases (motive := fun op t => Consistent t ↔ Keeps env s op)
    ?bus ?driver ?device ?unregister ?destroy h
  case bus =>
    exact fun b a => iff_of_true (consistent_buses_grow hs hc (bus_register_grows s b a)) trivial
  case driver => exact fun _ _ _ _ _ _ hreg => consistent_driver_register_iff hs hc hreg
  case device =>
    exact fun _ _ _ _ _ _ hreg => iff_of_true (consistent_device_create hs hc hreg) trivial
  case unregister =>
    exact fun _ _ hun => iff_of_true (consistent_driver_unregister hs hc hun) trivial
  case destroy => exact fun _ _ hdes => iff_of_true (consistent_device_destroy hs hc hdes) trivial

end Preserved

theorem consistent_initial : Consistent initial where
  listed _ h := by simp [initial] at h
  held _ _ _ h := by simp [initial] at h

/-- The lists are consistent in every state of a run exactly when every
registration of the run keeps them so. -/
theorem driver_lists_exact (env : Env) (ops : List Op) :
    EveryState (step env) Consistent initial ops ↔
      EveryStep (step env) (fun s op _ => Keeps env s op) initial ops :=
  exact_states (fun _ op _ hs h => wired_step hs op h)
    (fun _ op _ hs hc h => consistent_step_iff hs hc op h) initial wired_initial
    consistent_initial ops

/-- Two ports and one driver, as the main program has them. -/
def twoPorts : Env where
  bus b := ⟨some "custom".toList,
    some (if b = 0 then "/dev/ttyS1".toList else "/dev/ttyS2".toList), true, false, false⟩
  driver _ := ⟨"curtain_custom_dooya".toList, true, true, true, true, ⟨3, 300, false⟩⟩

def offeredTwice : List Op :=
  [.register (.bus (some 0) ⟨0, true, 0⟩), .register (.bus (some 1) ⟨0, true, 0⟩),
    .register (.driver 0 "custom-/dev/ttyS1".toList true fun _ _ => 0),
    .register (.driver 0 "custom-/dev/ttyS2".toList true fun _ _ => 0)]

theorem offered_twice_end : (run (step twoPorts) initial offeredTwice).map (fun t =>
      (t.busList, (t.bus 0).p, t.drivers.items 0, t.drvPriv 0, (t.driver 0).bus)) =
    some ([1, 0], some 0, [0], some 0, some 1) := by
  rfl

/-- The list of the first bus still has the driver, whose bus is the second. -/
theorem second_bus_takes_driver :
    ¬EveryState (step twoPorts) Consistent initial offeredTwice := by
  intro h
  obtain ⟨t, ht, hend⟩ := Option.map_eq_some_iff.mp offered_twice_end
  simp only [Prod.mk.injEq] at hend
  obtain ⟨hlist, hp, hitems, hpriv, hbus⟩ := hend
  have hc := (every_state_iff _ _ _).mp h offeredTwice t (List.prefix_refl _) ht
  obtain ⟨drv, hdrv, hback, -⟩ := hc.listed 0 (by simp [hlist]) 0 hp 0 (by simp [hitems])
  obtain rfl := Option.some.inj (hpriv.symm.trans hdrv)
  exact absurd (hbus.symm.trans hback) (by decide)

end RS485.Consistency
