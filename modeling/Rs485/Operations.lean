import Rs485.Probing

/-!
# What each operation can do

For every operation of the registry, the results it can have and the state it
leaves behind in each case. All later facts about operations come from these
case lists and not from the code.
-/

set_option autoImplicit false

namespace RS485.Operations
open RS485.Platform RS485.Records RS485.Mdev RS485.Attached RS485.Registry RS485.Probing

variable {env : Env} {probe : Probe}

theorem bus_named_some {s : State} {name : CString} {b : BusPtr} (h : busNamed s name = some b) :
    b ∈ s.busList ∧ (s.bus b).initName = name := by
  have hname := List.find?_some h
  exact ⟨List.mem_of_find?_eq_some h, by simpa using hname⟩

theorem live_priv_some {s : State} {b : BusPtr} {k : BusPriv} (h : livePriv s b = some k) :
    (s.bus b).p = some k ∧ s.busPriv k ≠ none := by
  simp only [livePriv, Option.bind_eq_bind, Option.bind_eq_some_iff, Option.some.injEq] at h
  obtain ⟨k', hk, b', hb, rfl⟩ := h
  exact ⟨hk, by simp [hb]⟩

/-- A name and a bus of it speak of one bus and its private part. -/
theorem named_live_iff {s : State} {name : CString} {b : BusPtr} {k : BusPriv}
    {P : BusPtr → BusPriv → Prop} (hb : busNamed s name = some b) (hk : livePriv s b = some k) :
    (∀ b' k', busNamed s name = some b' → livePriv s b' = some k' → P b' k') ↔ P b k := by
  constructor
  · exact fun hall => hall b k hb hk
  · intro hone b' k' hb' hk'
    obtain rfl := Option.some.inj (hb.symm.trans hb')
    obtain rfl := Option.some.inj (hk.symm.trans hk')
    exact hone

theorem driver_register_step {s t : State} {drv : DrvPtr} {name : CString} {malloc : Bool}
    (h : register env s (.driver drv name malloc probe) = some t) :
    ∃ e, rs485DriverRegister env probe s drv name malloc = some (e, t) := by
  obtain ⟨⟨e, u⟩, hreg, hu⟩ := Option.bind_eq_some_iff.mp h
  obtain rfl := Option.some.inj hu
  exact ⟨e, hreg⟩

theorem device_create_step {s t : State} {info : Rs485DeviceInfo} {calloc : Bool}
    (h : register env s (.device info calloc probe) = some t) :
    ∃ e id, rs485DeviceCreate env probe s info calloc = some (e, id, t) := by
  obtain ⟨⟨e, id, u⟩, hreg, hu⟩ := Option.bind_eq_some_iff.mp h
  obtain rfl := Option.some.inj hu
  exact ⟨e, id, hreg⟩

/-- What holds of each operation on its own holds of every step. -/
theorem step_cases {s t : State} {op : Op} {motive : Op → State → Prop}
    (bus : ∀ b a, motive (.register (.bus b a)) (rs485BusRegister env s b a).2)
    (driver : ∀ drv name malloc probe e t,
      rs485DriverRegister env probe s drv name malloc = some (e, t) →
        motive (.register (.driver drv name malloc probe)) t)
    (device : ∀ info calloc probe e id t,
      rs485DeviceCreate env probe s info calloc = some (e, id, t) →
        motive (.register (.device info calloc probe)) t)
    (driverUnregister : ∀ drv t, rs485DriverUnregister env s drv = some t →
      motive (.driverUnregister drv) t)
    (deviceDestroy : ∀ d t, rs485DeviceDestroy env s d = some t → motive (.deviceDestroy d) t)
    (h : step env s op = some t) : motive op t := by
  cases op with
  | driverUnregister drv => exact driverUnregister drv t h
  | deviceDestroy d => exact deviceDestroy d t h
  | register r =>
    cases r with
    | bus b a =>
      obtain rfl := Option.some.inj h
      exact bus b a
    | driver drv name malloc probe =>
      obtain ⟨e, hreg⟩ := driver_register_step h
      exact driver drv name malloc probe e t hreg
    | device info calloc probe =>
      obtain ⟨e, id, hreg⟩ := device_create_step h
      exact device info calloc probe e id t hreg

section Find

/-- Some driver on the list has the name. -/
def NameOn (env : Env) (s : State) (k : BusPriv) (name : CString) : Prop :=
  ∃ p ∈ s.drivers.items k, ∃ drv, s.drvPriv p = some drv ∧ (env.driver drv).name = name

/-- The list as it was, or without one of its nodes: what a walk can leave. -/
def LeftOf (w w' : Lists BusPriv DrvPriv) (k : BusPriv) : Prop :=
  w' = w ∨ ∃ q ∈ w.items k, w' = detach w q

theorem leave_cases {w w' : Lists BusPriv DrvPriv} {k : BusPriv} {cur : Option DrvPriv}
    (hcur : ∀ q, cur = some q → q ∈ w.items k) (h : leave w cur = some w') : LeftOf w w' k := by
  cases cur with
  | none => exact Or.inl (Option.some.inj h).symm
  | some q =>
    obtain ⟨-, hw⟩ := (del_eq_some _ _ _).mp h
    exact Or.inr ⟨q, hcur q rfl, hw⟩

theorem name_walk_cases {s t : State} {name : CString} {ps : List DrvPriv} {e : ℤ}
    {cur : Option DrvPriv}
    (h : visit (fun p s => do some (driverMatchName env name (← s.drvPriv p), s)) ps s =
      some (e, cur, t)) :
    t = s ∧ (∀ q, cur = some q → q ∈ ps) ∧
      ((e = 0 ∧ cur = none ∧ ∀ p ∈ ps, ∀ drv, s.drvPriv p = some drv → (env.driver drv).name ≠ name) ∨
        e = 1 ∧ ∃ p ∈ ps, ∃ drv, s.drvPriv p = some drv ∧ (env.driver drv).name = name) := by
  induction ps with
  | nil =>
    simp only [visit, Option.some.injEq, Prod.mk.injEq] at h
    obtain ⟨rfl, rfl, rfl⟩ := h
    simp
  | cons p ps ih =>
    simp only [visit, Option.bind_eq_bind, Option.bind_eq_some_iff, Prod.exists,
      Option.some.injEq, Prod.mk.injEq] at h
    obtain ⟨e', s', ⟨drv, hdrv, he', rfl⟩, h⟩ := h
    by_cases hname : name = (env.driver drv).name
    · have he : e' = 1 := by simp [← he', driverMatchName, hname]
      simp only [he, one_ne_zero, if_false, Option.some.injEq, Prod.mk.injEq] at h
      obtain ⟨rfl, rfl, rfl⟩ := h
      exact ⟨rfl, fun q hq => List.mem_cons_of_mem p (List.mem_of_mem_head? hq),
        Or.inr ⟨rfl, p, List.mem_cons_self, drv, hdrv, hname.symm⟩⟩
    · have he : e' = 0 := by simp [← he', driverMatchName, hname]
      simp only [he, if_true] at h
      obtain ⟨ht, hcur, hrest⟩ := ih h
      refine ⟨ht, fun q hq => List.mem_cons_of_mem p (hcur q hq), ?_⟩
      rcases hrest with ⟨he, hc, hall⟩ | ⟨he, q, hq, hfound⟩
      · refine Or.inl ⟨he, hc, fun p' hp' drv' hdrv' => ?_⟩
        rcases List.mem_cons.mp hp' with rfl | hp'
        · obtain rfl := Option.some.inj (hdrv.symm.trans hdrv')
          exact fun hn => hname hn.symm
        · exact hall p' hp' drv' hdrv'
      · exact Or.inr ⟨he, q, List.mem_cons_of_mem p hq, hfound⟩

theorem driver_find_cases {s t : State} {name : CString} {b : BusPtr} {e : ℤ}
    (h : driverFind env s name (some b) = some (e, t)) :
    ∃ k, livePriv s b = some k ∧
      ((¬NameOn env s k name ∧ e = 0 ∧ t = s) ∨
        (NameOn env s k name ∧ e = 1 ∧ ∃ w, LeftOf s.drivers w k ∧ t = { s with drivers := w })) := by
  simp only [driverFind, busForEachDrv, forEach, after, Option.bind_eq_bind,
    Option.bind_eq_some_iff, Prod.exists, Option.some.injEq, Prod.mk.injEq] at h
  obtain ⟨k, hk, e', w, s', ⟨e'', cur, s'', hv, w', hw, rfl, rfl, rfl⟩, rfl, rfl⟩ := h
  refine ⟨k, hk, ?_⟩
  obtain ⟨rfl, hcur, hcases⟩ := name_walk_cases hv
  rcases hcases with ⟨he, rfl, hall⟩ | ⟨he, p, hp, drv, hdrv, hname⟩
  · obtain rfl := Option.some.inj hw
    refine Or.inl ⟨?_, he, rfl⟩
    rintro ⟨p, hp, drv, hdrv, hname⟩
    exact hall p hp drv hdrv hname
  · exact Or.inr ⟨⟨p, hp, drv, hdrv, hname⟩, he, w', leave_cases hcur hw, rfl⟩

end Find

section DriverRegister

/-- `drv->bus = bus` -/
def withBus (s : State) (drv : DrvPtr) (b : BusPtr) : State :=
  { s with driver := Function.update s.driver drv { s.driver drv with bus := some b } }

/-- The driver with a new `driver_private`, not on any list yet. -/
def withPriv (s : State) (drv : DrvPtr) (b : BusPtr) : State :=
  { s with
    nextPriv := s.nextPriv+1
    drvPriv := Function.update s.drvPriv s.nextPriv (some drv)
    driver := Function.update s.driver drv ⟨some b, some s.nextPriv⟩ }

theorem with_priv_eq (s : State) (drv : DrvPtr) (b : BusPtr) :
    { withBus s drv b with
      nextPriv := s.nextPriv+1
      drvPriv := Function.update s.drvPriv s.nextPriv (some drv)
      driver := Function.update (withBus s drv b).driver drv ⟨some b, some s.nextPriv⟩ } =
    withPriv s drv b := by
  simp [withBus, withPriv]

theorem driver_attach_cases {s t : State} {drv : DrvPtr} {b : BusPtr} {e : ℤ} (hs : Settled s)
    (hb : (s.driver drv).bus = some b) (h : driverAttach env probe s drv = some (e, t)) :
    e = 0 ∧ ∃ k, livePriv s b = some k ∧ Swept env probe drv (s.devices.items k) s t := by
  simp only [driverAttach, hb, busForEachDev, forEach, after, Option.bind_eq_bind,
    Option.bind_eq_some_iff, Prod.exists, Option.some.injEq, Prod.mk.injEq] at h
  obtain ⟨k, hk, e', w, u, ⟨e'', cur, u', hv, w', hw, rfl, rfl, rfl⟩, rfl, rfl⟩ := h
  obtain ⟨he, rfl, hswept⟩ := driver_walk_swept hs (s.devices.nodup k) hv
  obtain rfl := Option.some.inj hw
  have hsame : { u' with devices := s.devices } = u' := by
    rw [hswept.frame]
  rw [hsame]
  exact ⟨he, k, hk, hswept⟩

theorem add_driver_cases {s t : State} {drv : DrvPtr} {b : BusPtr} {malloc : Bool} {e : ℤ}
    (hs : Settled s) (h : busAddDriver env probe (withBus s drv b) drv malloc = some (e, t)) :
    (malloc = false ∧ e = -ENOMEM ∧ t = withBus s drv b) ∨
      (malloc = true ∧ e = 0 ∧ ∃ k u hfree, livePriv s b = some k ∧
        Swept env probe drv (s.devices.items k) (withPriv s drv b) u ∧
        t = { u with
          drivers := attach u.drivers s.nextPriv k hfree
          log := .registered b drv::u.log }) := by
  have hbus : ((withBus s drv b).driver drv).bus = some b := by simp [withBus]
  have hbus' : ((withPriv s drv b).driver drv).bus = some b := by simp [withPriv]
  have hs' : Settled (withPriv s drv b) := hs
  have hfield : (withBus s drv b).nextPriv = s.nextPriv ∧
      (withBus s drv b).drvPriv = s.drvPriv := ⟨rfl, rfl⟩
  cases malloc with
  | false =>
    simp only [busAddDriver, hbus, Bool.false_eq_true, if_false, Option.some.injEq,
      Prod.mk.injEq] at h
    exact Or.inl ⟨rfl, h.1.symm, h.2.symm⟩
  | true =>
    simp only [busAddDriver, hbus, if_true, hfield, Option.bind_eq_bind,
      Option.bind_eq_some_iff, Prod.exists] at h
    obtain ⟨e', u, hattach, h⟩ := h
    rw [with_priv_eq] at hattach
    obtain ⟨rfl, k, hk, hswept⟩ := driver_attach_cases hs' hbus' hattach
    simp only [ne_eq, not_true_eq_false, if_false, Option.bind_eq_some_iff, Option.some.injEq,
      Prod.mk.injEq] at h
    obtain ⟨k', hk', w, hw, he, ht⟩ := h
    have hu : livePriv u b = livePriv s b := by
      rw [hswept.frame]
      rfl
    obtain rfl := Option.some.inj (hk.symm.trans (hu.symm.trans hk'))
    obtain ⟨hfree, rfl⟩ := (addTail_eq_some _ _ _ _).mp hw
    exact Or.inr ⟨rfl, he.symm, k, u, hfree, hk, hswept, ht.symm⟩

/-- A driver with a bus is looked for on it by name, and added if it is not there. -/
theorem driver_register_on {s : State} {drv : DrvPtr} {name : CString} {b : BusPtr}
    (hb : busNamed s name = some b) (malloc : Bool) :
    rs485DriverRegister env probe s drv name malloc =
      (driverFind env (withBus s drv b) (env.driver drv).name (some b)).bind fun r =>
        if r.1 ≠ 0 then some (-EEXIST, r.2) else busAddDriver env probe r.2 drv malloc := by
  have hbus : ((withBus s drv b).driver drv).bus = some b := by simp [withBus]
  rw [← hbus, rs485DriverRegister, rs485DriverMatchBus, hb]
  rfl

theorem driver_register_cases {s t : State} {drv : DrvPtr} {name : CString} {malloc : Bool}
    {e : ℤ} (hs : Settled s) (h : rs485DriverRegister env probe s drv name malloc = some (e, t)) :
    (busNamed s name = none ∧ e = -ENODEV ∧ t = s) ∨
      ∃ b k, busNamed s name = some b ∧ livePriv s b = some k ∧
        ((NameOn env s k (env.driver drv).name ∧ e = -EEXIST ∧
            ∃ w, LeftOf s.drivers w k ∧ t = { withBus s drv b with drivers := w }) ∨
          (¬NameOn env s k (env.driver drv).name ∧ malloc = false ∧ e = -ENOMEM ∧
            t = withBus s drv b) ∨
          (¬NameOn env s k (env.driver drv).name ∧ malloc = true ∧ e = 0 ∧ ∃ u hfree,
            Swept env probe drv (s.devices.items k) (withPriv s drv b) u ∧
            t = { u with
              drivers := attach u.drivers s.nextPriv k hfree
              log := .registered b drv::u.log })) := by
  cases hb : busNamed s name with
  | none =>
    simp only [rs485DriverRegister, rs485DriverMatchBus, hb, Option.some.injEq,
      Prod.mk.injEq] at h
    exact Or.inl ⟨rfl, h.1.symm, h.2.symm⟩
  | some b =>
    rw [driver_register_on hb] at h
    obtain ⟨⟨found, u⟩, hfind, h⟩ := Option.bind_eq_some_iff.mp h
    obtain ⟨k, hk, hcases⟩ := driver_find_cases hfind
    refine Or.inr ⟨b, k, rfl, hk, ?_⟩
    rcases hcases with ⟨hno, rfl, rfl⟩ | ⟨hon, rfl, w, hw, rfl⟩
    · simp only [ne_eq, not_true_eq_false, if_false] at h
      rcases add_driver_cases hs h with ⟨hm, he, ht⟩ | ⟨hm, he, k', u, hfree, hk', hswept, ht⟩
      · exact Or.inr (Or.inl ⟨hno, hm, he, ht⟩)
      · obtain rfl : k = k' := Option.some.inj (hk.symm.trans hk')
        exact Or.inr (Or.inr ⟨hno, hm, he, u, hfree, hswept, ht⟩)
    · simp only [ne_eq, one_ne_zero, not_false_eq_true, if_true, Option.some.injEq,
        Prod.mk.injEq] at h
      exact Or.inl ⟨hon, h.1.symm, w, hw, h.2.symm⟩

end DriverRegister

section DeviceCreate

/-- The state in which the new device is offered to the drivers. -/
def withDevice (s : State) (b : BusPtr) (info : Rs485DeviceInfo) : State :=
  { s with
    nextDev := s.nextDev+1
    table := store s.table (findNextDeviceId s.table) (some s.nextDev)
    device := Function.update s.device s.nextDev
      (some (newDevice b info (findNextDeviceId s.table))) }

theorem with_device_device (s : State) (b : BusPtr) (info : Rs485DeviceInfo) (d : DevPtr) :
    (withDevice s b info).device d = if d = s.nextDev
      then some (newDevice b info (findNextDeviceId s.table)) else s.device d := by
  simp [withDevice, Function.update_apply]

/-- What offering the new device to the drivers of its bus leads to: nothing, or
it goes to the first driver that takes it, and the driver listed next, if any,
drops off the list. -/
inductive Offered (env : Env) (probe : Probe) (s : State) (d : DevPtr) (r : Rs485Device)
    (k : BusPriv) : State → Prop
  | refused (h : ∀ p ∈ s.drivers.items k, ∃ drv, s.drvPriv p = some drv ∧
      ¬Takes env probe r drv d) : Offered env probe s d r k s
  | taken (p : DrvPriv) (drv : DrvPtr) (q : DrvPriv) (w : Lists BusPriv DrvPriv)
      (hfree : s.bound.owner d = none) (hmem : p ∈ s.drivers.items k)
      (hdrv : s.drvPriv p = some drv) (htakes : Takes env probe r drv d)
      (hq : (s.driver drv).p = some q) (hlive : s.drvPriv q ≠ none)
      (hw : LeftOf s.drivers w k) :
      Offered env probe s d r k { bindTo s d drv q hfree with drivers := w }

theorem device_attach_offered {s t : State} {d : DevPtr} {r : Rs485Device} {b : BusPtr} {e : ℤ}
    (hu : Unbound s d r) (hb : r.dev.bus = some b) (h : deviceAttach env probe s d = some (e, t)) :
    e ≥ 0 ∧ ∃ k, livePriv s b = some k ∧ Offered env probe s d r k t := by
  simp only [deviceAttach, hu.device, hu.driver, hb, busForEachDrv, forEach, after,
    Option.bind_eq_bind, Option.bind_some, Option.bind_eq_some_iff, Prod.exists,
    Option.some.injEq, Prod.mk.injEq] at h
  obtain ⟨k, hk, e', w, u, ⟨e'', cur, u', hv, w', hw, rfl, rfl, rfl⟩, rfl, rfl⟩ := h
  rcases device_walk_cases hu hv with
    ⟨rfl, rfl, rfl, hall⟩ | ⟨rfl, pre, p, post, drv, q, hsplit, hcur, hdrv, htakes, hq, hlive, rfl⟩
  · obtain rfl := Option.some.inj hw
    exact ⟨le_refl 0, k, hk, .refused hall⟩
  · have hmem : p ∈ s.drivers.items k := by simp [hsplit]
    have hleft : LeftOf s.drivers w' k := by
      refine leave_cases (fun q hq => ?_) hw
      have := List.mem_of_mem_head? (hcur ▸ hq)
      simp [hsplit, this]
    exact ⟨zero_le_one, k, hk, .taken p drv q w' hu.owner hmem hdrv htakes hq hlive hleft⟩

theorem offered_live_priv {s u : State} {d : DevPtr} {r : Rs485Device} {k : BusPriv}
    (h : Offered env probe s d r k u) (b : BusPtr) : livePriv u b = livePriv s b := by
  cases h <;> rfl

/-- A device that is offered to the drivers keeps its bus, and the others stay as they are. -/
theorem offered_device {s t : State} {d : DevPtr} {r : Rs485Device} {k : BusPriv} {r₀ : Rs485Device}
    (h : Offered env probe s d r k t) (hr : s.device d = some r₀) :
    (∃ r', t.device d = some r' ∧ r'.dev.bus = r₀.dev.bus) ∧
      ∀ e ≠ d, t.device e = s.device e := by
  cases h with
  | refused hno => exact ⟨⟨r₀, hr, rfl⟩, fun _ _ => rfl⟩
  | taken p drv q w hfree hmem hdrv htakes hq hlive hw =>
    have hdevice (e : DevPtr) := bind_to_device s d e drv q hfree
    constructor
    · refine ⟨withDriver r₀ (some drv), ?_, rfl⟩
      exact (hdevice d).trans (by simp [hr])
    · intro e he
      exact (hdevice e).trans (if_neg he)

/-- The new device has its bus, whoever took it, and the others stay as they are. -/
theorem offered_new {s u : State} {b : BusPtr} {info : Rs485DeviceInfo} {r : Rs485Device}
    {k : BusPriv} (h : Offered env probe (withDevice s b info) s.nextDev r k u) :
    (∃ r', u.device s.nextDev = some r' ∧ r'.dev.bus = some b) ∧
      ∀ d ≠ s.nextDev, u.device d = s.device d := by
  have hnew : (withDevice s b info).device s.nextDev =
      some (newDevice b info (findNextDeviceId s.table)) := by
    rw [with_device_device, if_pos rfl]
  obtain ⟨hself, hother⟩ := offered_device h hnew
  refine ⟨hself, fun d hd => ?_⟩
  rw [hother d hd, with_device_device, if_neg hd]

theorem device_register_cases {s t : State} {d : DevPtr} {r : Rs485Device} {b : BusPtr} {e : ℤ}
    (hu : Unbound s d r) (hb : r.dev.bus = some b) (hname : r.dev.initName = none)
    (hid : r.dev.busId ≠ []) (h : deviceRegister env probe s d = some (e, t)) :
    e = 0 ∧ ∃ k u hfree, livePriv s b = some k ∧ Offered env probe s d r k u ∧
      t = { u with devices := attach u.devices d k hfree } := by
  simp only [deviceRegister, deviceAdd, hu.device, hname, devSetName, hid, hb, busAttachDevice,
    Option.bind_eq_bind, Option.bind_some, if_false, Option.bind_eq_some_iff, Prod.exists,
    Option.some.injEq, Prod.mk.injEq] at h
  obtain ⟨v, ⟨ret, u, hattach, h⟩, he, rfl⟩ := h
  obtain ⟨hret, k, hk, hoffered⟩ := device_attach_offered hu hb hattach
  simp only [hret, if_true, Option.bind_eq_some_iff, Option.some.injEq] at h
  obtain ⟨k', hk', w, hw, rfl⟩ := h
  obtain rfl : k = k' := Option.some.inj (hk.symm.trans (offered_live_priv hoffered b ▸ hk'))
  obtain ⟨hfree, rfl⟩ := (addTail_eq_some _ _ _ _).mp hw
  exact ⟨he.symm, k, u, hfree, hk, hoffered, rfl⟩

theorem with_device_unbound {s : State} (hd : s.bound.owner s.nextDev = none) (b : BusPtr)
    (info : Rs485DeviceInfo) : Unbound (withDevice s b info) s.nextDev
      (newDevice b info (findNextDeviceId s.table)) where
  device := by simp [withDevice]
  driver := rfl
  registered := rfl
  owner := hd

theorem device_create_cases {s t : State} {info : Rs485DeviceInfo} {calloc : Bool} {e : ℤ}
    {id : Option ℤ} (hd : s.bound.owner s.nextDev = none)
    (h : rs485DeviceCreate env probe s info calloc = some (e, id, t)) :
    (e ≠ 0 ∧ t = s ∧ (busNamed s info.matchBus = none ∨ calloc = false)) ∨
      (e ≠ 0 ∧ findNextDeviceId s.table < 0 ∧ t = { s with
        nextDev := s.nextDev+1
        table := store s.table (findNextDeviceId s.table) (some s.nextDev) }) ∨
      (e = 0 ∧ calloc = true ∧ 0 ≤ findNextDeviceId s.table ∧
        id = some (findNextDeviceId s.table) ∧
        ∃ b k u hfree, busNamed s info.matchBus = some b ∧ livePriv s b = some k ∧
          Offered env probe (withDevice s b info) s.nextDev
            (newDevice b info (findNextDeviceId s.table)) k u ∧
          t = { u with
            devices := attach u.devices s.nextDev k hfree
            deviceList := s.nextDev::u.deviceList }) := by
  simp only [rs485DeviceCreate, rs485BusMatchByName] at h
  cases hb : busNamed s info.matchBus with
  | none =>
    simp only [hb, Option.some.injEq, Prod.mk.injEq] at h
    exact Or.inl ⟨by simp [← h.1, ENODEV], h.2.2.symm, Or.inl rfl⟩
  | some b =>
    cases calloc with
    | false =>
      simp only [hb, Bool.false_eq_true, if_false, Option.some.injEq, Prod.mk.injEq] at h
      exact Or.inl ⟨by simp [← h.1, ENOMEM], h.2.2.symm, Or.inr rfl⟩
    | true =>
      simp only [hb, if_true, getDeviceId, Option.bind_eq_bind] at h
      by_cases hid : findNextDeviceId s.table < 0
      · simp only [hid, if_true, Option.some.injEq, Prod.mk.injEq] at h
        exact Or.inr (Or.inl ⟨by simp [← h.1, ENODEV], hid, h.2.2.symm⟩)
      · simp only [hid, if_false, Option.bind_eq_some_iff, Prod.exists] at h
        obtain ⟨retval, v, hreg, h⟩ := h
        obtain ⟨rfl, k, u, hfree, hk, hoffered, rfl⟩ := device_register_cases
          (with_device_unbound hd b info) rfl rfl (device_bus_id_ne_nil info) hreg
        simp only [ne_eq, not_true_eq_false, if_false, Option.some.injEq, Prod.mk.injEq] at h
        exact Or.inr (Or.inr ⟨h.1.symm, rfl, by omega, h.2.1.symm, b, k, u, hfree, rfl, hk,
          hoffered, h.2.2.symm⟩)

end DeviceCreate

section BusRegister

/-- What registering a bus can change: the buses that are not on the list, and
the list by a bus with a new private part. -/
structure BusesGrow (s t : State) : Prop where
  frame : t = { s with
    bus := t.bus, busList := t.busList, busPriv := t.busPriv, nextBus := t.nextBus, log := t.log }
  kept : ∀ b ∈ s.busList, (t.bus b).p = (s.bus b).p
  privs : ∀ k, k ≠ s.nextBus → t.busPriv k = s.busPriv k
  list : t.busList = s.busList ∨ ∃ b, b ∉ s.busList ∧ t.busList = b::s.busList ∧
    (t.bus b).p = some s.nextBus ∧ t.busPriv s.nextBus = some b
  next : s.nextBus ≤ t.nextBus ∧ (t.busPriv s.nextBus = s.busPriv s.nextBus ∨ s.nextBus < t.nextBus)

theorem buses_grow_self (s : State) : BusesGrow s s :=
  ⟨rfl, fun _ _ => rfl, fun _ _ => rfl, Or.inl rfl, ⟨le_refl _, Or.inl rfl⟩⟩

theorem buses_grow_renamed {s t : State} {b : BusPtr} {initName : CString}
    (h : BusesGrow (withInitName s b initName) t) : BusesGrow s t := by
  refine ⟨h.frame, fun b' hb' => (h.kept b' hb').trans ?_, h.privs, h.list, h.next⟩
  by_cases he : b' = b
  · subst he
    simp [withInitName]
  · simp [withInitName, he]

theorem unused_not_listed {s : State} {b : BusPtr} {port : CString}
    (hport : (env.bus b).portName = some port) (h : isRs485BusUsed env s port = false) :
    b ∉ s.busList := by
  intro hb
  have hused : isRs485BusUsed env s port = true := List.any_eq_true.mpr ⟨b, hb, by simp [hport]⟩
  simp [h] at hused

def ProbeFails (env : Env) (b : BusPtr) (a : BusAnswers) : Prop :=
  (env.bus b).probe = true ∧ a.probe ≠ 0

/-- What the probe of a bus leaves in the log if it does not fail. -/
def probing (env : Env) (b : BusPtr) : List Event := if (env.bus b).probe then [.busProbed b] else []

/-- What `remove` of a bus leaves in the log. -/
def removing (env : Env) (b : BusPtr) : List Event := if (env.bus b).remove then [.busRemoved b] else []

/-- The state after `bus_register` and `bus_unregister`. -/
def freedBus (s : State) (b : BusPtr) : State :=
  { s with
    bus := Function.update s.bus b { s.bus b with p := some s.nextBus }
    busPriv := Function.update s.busPriv s.nextBus none
    nextBus := s.nextBus+1 }

theorem freed_bus_eq (s : State) (b : BusPtr) :
    busUnregister (busRegister s b true).2 b = freedBus s b := by
  simp [busUnregister, busRegister, freedBus]

theorem bus_remove_eq (env : Env) (s : State) (b : BusPtr) :
    busRemove env s b = { s with log := removing env b++s.log } := by
  unfold busRemove removing
  split_ifs <;> rfl

theorem bus_probe_cases (env : Env) (s : State) (b : BusPtr) (a : BusAnswers) :
    (ProbeFails env b a ∧ busProbe env s b a.probe = (a.probe, s)) ∨
      ¬ProbeFails env b a ∧
        busProbe env s b a.probe = (0, { s with log := probing env b++s.log }) := by
  unfold busProbe ProbeFails probing
  by_cases hprobe : (env.bus b).probe = true
  · by_cases ha : a.probe = 0 <;> simp [hprobe, ha]
  · simp [hprobe]

/-- The four ends of the registration. -/
theorem bus_start_cases (env : Env) (s : State) (b : BusPtr) (a : BusAnswers) :
    (ProbeFails env b a ∧ busStart env s b a = (a.probe, s)) ∨
      (¬ProbeFails env b a ∧ a.malloc = false ∧ busStart env s b a =
        (-ENOMEM, { s with log := removing env b++(probing env b++s.log) })) ∨
      (¬ProbeFails env b a ∧ a.malloc = true ∧ ((env.bus b).pthreadFunc = false ∨ a.pthread ≠ 0) ∧
        busStart env s b a = (if (env.bus b).pthreadFunc = false then 0 else a.pthread,
          { freedBus s b with log := removing env b++(probing env b++s.log) })) ∨
      (¬ProbeFails env b a ∧ a.malloc = true ∧ (env.bus b).pthreadFunc = true ∧ a.pthread = 0 ∧
        busStart env s b a = (0, { (busRegister s b true).2 with
          busList := b::s.busList, log := .threadStarted b::(probing env b++s.log) })) := by
  rcases bus_probe_cases env s b a with ⟨hfails, hprobe⟩ | ⟨hfails, hprobe⟩
  · refine Or.inl ⟨hfails, ?_⟩
    simp [busStart, hprobe, hfails.2]
  · have hne : -ENOMEM ≠ 0 := by decide
    cases hmalloc : a.malloc with
    | false =>
      refine Or.inr (Or.inl ⟨hfails, rfl, ?_⟩)
      simp [busStart, hprobe, hmalloc, busRegister, hne, bus_remove_eq]
    | true =>
      have hok : ∀ u, (busRegister u b true).1 = 0 := fun _ => rfl
      by_cases hfunc : (env.bus b).pthreadFunc = false
      · refine Or.inr (Or.inr (Or.inl ⟨hfails, rfl, Or.inl hfunc, ?_⟩))
        simp only [busStart, hprobe, hmalloc, hok, hfunc, threadFail, bus_remove_eq, freed_bus_eq,
          ne_eq, not_true_eq_false, if_false, if_true]
        rfl
      · by_cases hthread : a.pthread = 0
        · refine Or.inr (Or.inr (Or.inr
            ⟨hfails, rfl, Bool.eq_true_of_not_eq_false hfunc, hthread, ?_⟩))
          simp only [busStart, hprobe, hmalloc, hok, hfunc, pthreadCreate, hthread, ne_eq,
            not_true_eq_false, if_false, if_true]
          rfl
        · refine Or.inr (Or.inr (Or.inl ⟨hfails, rfl, Or.inr hthread, ?_⟩))
          simp only [busStart, hprobe, hmalloc, hok, hfunc, pthreadCreate, hthread, threadFail,
            bus_remove_eq, freed_bus_eq, ne_eq, not_true_eq_false, not_false_eq_true, if_false,
            if_true]
          rfl

theorem bus_start_grows (s : State) {b : BusPtr} (hnot : b ∉ s.busList) (a : BusAnswers) :
    BusesGrow s (busStart env s b a).2 := by
  have hother : ∀ b' ∈ s.busList, b' ≠ b := fun b' hb' he => hnot (he ▸ hb')
  rcases bus_start_cases env s b a with ⟨-, hend⟩ | ⟨-, -, hend⟩ | ⟨-, -, -, hend⟩ |
    ⟨-, -, -, -, hend⟩ <;> rw [hend]
  · exact buses_grow_self s
  · exact ⟨rfl, fun _ _ => rfl, fun _ _ => rfl, Or.inl rfl, le_refl _, Or.inl rfl⟩
  · refine ⟨rfl, fun b' hb' => ?_, fun k hk => ?_, Or.inl rfl, Nat.le_succ _, Or.inr ?_⟩
    · simp [freedBus, hother b' hb']
    · simp [freedBus, hk]
    · exact Nat.lt_succ_self _
  · simp only [busRegister, if_true]
    refine ⟨rfl, fun b' hb' => ?_, fun k hk => ?_, Or.inr ⟨b, hnot, rfl, ?_, ?_⟩, Nat.le_succ _,
      Or.inr ?_⟩
    · simp [hother b' hb']
    · simp [hk]
    · simp
    · simp
    · exact Nat.lt_succ_self _

theorem bus_register_grows (s : State) (b : Option BusPtr) (a : BusAnswers) :
    BusesGrow s (rs485BusRegister env s b a).2 := by
  cases b with
  | none => exact buses_grow_self s
  | some b =>
    simp only [rs485BusRegister]
    split
    · next name port _ hport =>
      split_ifs with hused
      · exact buses_grow_renamed (buses_grow_self _)
      · have hnot : b ∉ s.busList := unused_not_listed hport (Bool.eq_false_of_not_eq_true hused)
        exact buses_grow_renamed (bus_start_grows (withInitName s b _) hnot a)
    · exact buses_grow_self s

end BusRegister

section Release

theorem release_cases {s t : State} {d : DevPtr} (h : deviceReleaseDriver env s d = some t) :
    ∃ r, s.device d = some r ∧ ((r.dev.driver = none ∧ t = s) ∨
      ∃ drv, r.dev.driver = some drv ∧ s.bound.owner d ≠ none ∧ t = { setDriver s d none with
        bound := detach s.bound d
        log := if (env.driver drv).remove then .removed drv d::s.log else s.log }) := by
  simp only [deviceReleaseDriver, Option.bind_eq_bind, Option.bind_eq_some_iff] at h
  obtain ⟨r, hr, h⟩ := h
  refine ⟨r, hr, ?_⟩
  cases hdrv : r.dev.driver with
  | none =>
    simp only [hdrv, Option.some.injEq] at h
    exact Or.inl ⟨rfl, h.symm⟩
  | some drv =>
    simp only [hdrv, Option.bind_eq_some_iff, Option.some.injEq] at h
    obtain ⟨w, hw, rfl⟩ := h
    obtain ⟨⟨k, hk⟩, rfl⟩ := (del_eq_some _ _ _).mp hw
    exact Or.inr ⟨drv, rfl, by simp [hk], rfl⟩

/-- The state after all devices of a driver's list were released. -/
structure Detached (drv : DrvPtr) (p : DrvPriv) (s t : State) : Prop where
  frame : t = { s with device := t.device, bound := t.bound, log := t.log }
  gone : t.bound.items p = []
  released : ∀ d ∈ s.bound.items p, t.bound.owner d = none ∧
    ∃ r, s.device d = some r ∧ r.dev.driver = some drv ∧ t.device d = some (withDriver r none)
  left : ∀ d, d ∉ s.bound.items p → t.device d = s.device d ∧ t.bound.owner d = s.bound.owner d

theorem detached_self {drv : DrvPtr} {p : DrvPriv} {s : State} (h : s.bound.items p = []) :
    Detached drv p s s :=
  ⟨rfl, h, by simp [h], fun _ _ => ⟨rfl, rfl⟩⟩

theorem detached_cons {drv : DrvPtr} {p : DrvPriv} {s t : State} {d : DevPtr} {r : Rs485Device}
    {log : List Event} (hr : s.device d = some r) (hdrv : r.dev.driver = some drv)
    (hd : d ∈ s.bound.items p)
    (h : Detached drv p { setDriver s d none with bound := detach s.bound d, log := log } t) :
    Detached drv p s t := by
  have hitems (e : DevPtr) : e ∈ (detach s.bound d).items p ↔ e ∈ s.bound.items p ∧ e ≠ d :=
    mem_detach s.bound d e p
  have hself := h.left d fun hmem => ((hitems d).mp hmem).2 rfl
  have hother : ∀ e, e ≠ d → (setDriver s d none).device e = s.device e ∧
      (detach s.bound d).owner e = s.bound.owner e := by
    intro e he
    rw [set_driver_device, detach_owner, if_neg he, if_neg he]
    exact ⟨rfl, rfl⟩
  refine ⟨h.frame, h.gone, fun e he => ?_, fun e he => ?_⟩
  · by_cases hed : e = d
    · subst hed
      rw [hself.1, hself.2]
      refine ⟨by simp, r, hr, hdrv, ?_⟩
      rw [set_driver_device, if_pos rfl, hr]
      rfl
    · obtain ⟨howner, r', hr', hrest⟩ := h.released e ((hitems e).mpr ⟨he, hed⟩)
      exact ⟨howner, r', (hother e hed).1 ▸ hr', hrest⟩
  · have hed : e ≠ d := fun h => he (h ▸ hd)
    have hleft := h.left e fun hmem => he ((hitems e).mp hmem).1
    exact ⟨hleft.1.trans (hother e hed).1, hleft.2.trans (hother e hed).2⟩

theorem detach_loop_detached {drv : DrvPtr} {p : DrvPriv} {left : ℕ} {s t : State}
    (h : driverDetachLoop env drv p left s = some t) : Detached drv p s t := by
  induction left generalizing s with
  | zero =>
    simp only [driverDetachLoop] at h
    split_ifs at h with hnil
    obtain rfl := Option.some.inj h
    exact detached_self hnil
  | succ left ih =>
    simp only [driverDetachLoop] at h
    cases hlast : (s.bound.items p).getLast? with
    | none =>
      simp only [hlast, Option.some.injEq] at h
      subst h
      exact detached_self (List.getLast?_eq_none_iff.mp hlast)
    | some d =>
      simp only [hlast, Option.bind_eq_bind, Option.bind_eq_some_iff] at h
      obtain ⟨r, hr, h⟩ := h
      split_ifs at h with hdrv
      obtain ⟨u, hrel, hrest⟩ := Option.bind_eq_some_iff.mp h
      obtain ⟨r', hr', hcases⟩ := release_cases hrel
      obtain rfl := Option.some.inj (hr.symm.trans hr')
      have hd : d ∈ s.bound.items p := List.mem_of_getLast? hlast
      rcases hcases with ⟨hnone, -⟩ | ⟨drv', hdrv', -, rfl⟩
      · exact absurd (hdrv.symm.trans hnone) (by simp)
      · exact detached_cons hr hdrv hd (ih hrest)

end Release

section Unregister

theorem driver_unregister_cases {s t : State} {drv : DrvPtr}
    (h : rs485DriverUnregister env s (some drv) = some t) :
    ((s.driver drv).bus = none ∧ t = s) ∨
      ∃ p u, (s.driver drv).p = some p ∧ s.drvPriv p ≠ none ∧ s.drivers.owner p ≠ none ∧
        Detached drv p { s with drivers := detach s.drivers p } u ∧
        t = { u with drvPriv := Function.update u.drvPriv p none } := by
  simp only [rs485DriverUnregister, driverUnregister, busRemoveDriver] at h
  cases hb : (s.driver drv).bus with
  | none =>
    simp only [hb, Option.some.injEq] at h
    exact Or.inl ⟨rfl, h.symm⟩
  | some b =>
    simp only [hb, Option.bind_eq_bind, Option.bind_eq_some_iff, Option.some.injEq] at h
    obtain ⟨p, hp, drv', hlive, w, hw, u, hu, rfl⟩ := h
    obtain ⟨⟨k, hk⟩, rfl⟩ := (del_eq_some _ _ _).mp hw
    simp only [driverDetach, hp, Option.bind_eq_bind, Option.bind_some] at hu
    exact Or.inr ⟨p, u, hp, by simp [hlive], by simp [hk], detach_loop_detached hu, rfl⟩

end Unregister

end RS485.Operations
