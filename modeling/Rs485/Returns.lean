import Rs485.Unregister

/-!
# Registrations that come back

In every state that can be reached a driver registration comes back, and so does
a request for a device on a bus whose listed drivers all have a private part.
-/

set_option autoImplicit false

namespace RS485.Returns
open RS485.Platform RS485.Records RS485.Mdev RS485.Attached RS485.Registry RS485.Probing
  RS485.Operations RS485.Wiring RS485.Unregister

variable {env : Env} {probe : Probe} {s : State}

section Probe

theorem driver_bound_returns {d : DevPtr} {r : Rs485Device} {drv : DrvPtr} {p : DrvPriv}
    (hu : Unbound s d r) (hp : (s.driver drv).p = some p) (hlive : s.drvPriv p ≠ none) :
    ∃ t, driverBound (setDriver s d (some drv)) d = some t := by
  have hdev : (setDriver s d (some drv)).device d = some (withDriver r (some drv)) := by
    rw [set_driver_device, if_pos rfl, hu.device]
    rfl
  have howner : (setDriver s d (some drv)).bound.owner d = none := hu.owner
  have hp' : ((setDriver s d (some drv)).driver drv).p = some p := hp
  obtain ⟨drv', hdrv'⟩ := Option.ne_none_iff_exists'.mp hlive
  have hlive' : (setDriver s d (some drv)).drvPriv p = some drv' := hdrv'
  simp [driverBound, hdev, howner, hp', hlive', addTail]

/-- Offering a device to a driver with a bus and a private part comes back. -/
theorem probe_returns {d : DevPtr} {r : Rs485Device} {drv : DrvPtr} {p : DrvPriv}
    (hu : Unbound s d r) (hb : (s.driver drv).bus ≠ none) (hp : (s.driver drv).p = some p)
    (hlive : s.drvPriv p ≠ none) : ∃ e t, driverProbeDevice env probe drv s d = some (e, t) := by
  obtain ⟨b, hb⟩ := Option.ne_none_iff_exists'.mp hb
  obtain ⟨u, hbound⟩ := driver_bound_returns hu hp hlive
  simp only [driverProbeDevice, hu.device, hu.registered, hb, Option.bind_eq_bind,
    Option.bind_some, Bool.false_eq_true, if_false]
  split_ifs
  · exact ⟨0, s, rfl⟩
  · simp only [reallyProbe, hbound, Option.bind_eq_bind, Option.bind_some]
    split_ifs
    all_goals exact ⟨_, _, rfl⟩

theorem attach_to_returns (hs : Settled s) {d : DevPtr} {drv : DrvPtr} {p : DrvPriv}
    (hd : s.device d ≠ none) (hb : (s.driver drv).bus ≠ none) (hp : (s.driver drv).p = some p)
    (hlive : s.drvPriv p ≠ none) : ∃ e t, driverAttachTo env probe drv d s = some (e, t) := by
  obtain ⟨r, hr⟩ := Option.ne_none_iff_exists'.mp hd
  simp only [driverAttachTo, hr, Option.bind_eq_bind, Option.bind_some]
  cases hfree : r.dev.driver with
  | some drv' => exact ⟨0, s, rfl⟩
  | none =>
    have hu := settled_unbound hs hr hfree
    obtain ⟨e, t, hprobe⟩ : ∃ e t, driverProbeDevice env probe drv s d = some (e, t) :=
      probe_returns hu hb hp hlive
    exact ⟨0, t, by simp [hprobe]⟩

end Probe

section DriverRegister

theorem swept_live {drv : DrvPtr} {ds : List DevPtr} {t : State} (h : Swept env probe drv ds s t)
    {d : DevPtr} (hd : s.device d ≠ none) : t.device d ≠ none := by
  by_cases ht : d ∈ ds ∧ Taken env probe drv s d
  · rw [(h.taken d ht.1 ht.2).1]
    simpa using hd
  · rw [(h.left d ht).1]
    exact hd

/-- What stays while the devices of a list are offered to a driver. -/
structure Offering (s : State) (k : BusPriv) (u : State) : Prop where
  settled : Settled u
  driver : u.driver = s.driver
  drvPriv : u.drvPriv = s.drvPriv
  live : ∀ d ∈ s.devices.items k, u.device d ≠ none

theorem offering_attach {drv : DrvPtr} {k : BusPriv} {p : DrvPriv}
    (hb : (s.driver drv).bus ≠ none) (hp : (s.driver drv).p = some p) (hlive : s.drvPriv p ≠ none)
    {d : DevPtr} (hd : d ∈ s.devices.items k) {u : State} (hu : Offering s k u) :
    ∃ e t, driverAttachTo env probe drv d u = some (e, t) ∧ (e = 0 → Offering s k t) := by
  obtain ⟨e, t, hattach⟩ : ∃ e t, driverAttachTo env probe drv d u = some (e, t) := by
    rw [← hu.driver] at hb hp
    rw [← hu.drvPriv] at hlive
    exact attach_to_returns hu.settled (hu.live d hd) hb hp hlive
  obtain ⟨-, hswept⟩ := swept_one hu.settled hattach
  have hpriv : t.drvPriv = u.drvPriv := by rw [hswept.frame]
  refine ⟨e, t, hattach, fun _ => ⟨hswept.settled, ?_, hpriv.trans hu.drvPriv, fun d' hd' => ?_⟩⟩
  · exact (swept_driver hswept).trans hu.driver
  · exact swept_live hswept (hu.live d' hd')

theorem driver_attach_returns (hs : Settled s) {drv : DrvPtr} {b : BusPtr} {k : BusPriv}
    {p : DrvPriv} (hb : (s.driver drv).bus = some b) (hk : livePriv s b = some k)
    (hp : (s.driver drv).p = some p) (hlive : s.drvPriv p ≠ none)
    (hdevices : ∀ d ∈ s.devices.items k, s.device d ≠ none) :
    ∃ e t, driverAttach env probe s drv = some (e, t) := by
  have hset : (s.driver drv).bus ≠ none := by simp [hb]
  obtain ⟨e, w, t, hwalk⟩ : ∃ e w t,
      forEach s.devices k none (driverAttachTo env probe drv) s = some (e, w, t) :=
    for_each_returns (fun _ hd _ hu => offering_attach hset hp hlive hd hu)
      ⟨hs, rfl, rfl, hdevices⟩
  exact ⟨e, { t with devices := w }, by simp [driverAttach, hb, busForEachDev, hk, hwalk]⟩

theorem driver_find_returns (hs : Wired s) {b : BusPtr} {k : BusPriv} (hk : livePriv s b = some k)
    (name : CString) : ∃ e t, driverFind env s name (some b) = some (e, t) := by
  have hstep : ∀ p ∈ s.drivers.items k, ∀ u, u = s → ∃ e t, (do
      some (driverMatchName env name (← u.drvPriv p), u)) = some (e, t) ∧ (e = 0 → t = s) := by
    rintro p hp u rfl
    have hlive := (hs.driversOn p k ((u.drivers.mem_iff k p).mp hp)).2
    obtain ⟨drv, hdrv⟩ := Option.ne_none_iff_exists'.mp hlive
    exact ⟨driverMatchName env name drv, u, by simp [hdrv], fun _ => rfl⟩
  obtain ⟨e, w, t, hwalk⟩ := for_each_returns hstep rfl
  simp only [Option.bind_eq_bind] at hwalk
  exact ⟨e, { t with drivers := w }, by simp [driverFind, busForEachDrv, hk, hwalk]⟩

theorem live_priv_standing (hs : Wired s) {b : BusPtr} (hb : b ∈ s.busList) :
    ∃ k, livePriv s b = some k ∧ (s.bus b).p = some k := by
  obtain ⟨k, hk, hpriv⟩ := hs.buses b hb
  exact ⟨k, by simp [livePriv, hk, hpriv], hk⟩

theorem next_priv_free (hs : Wired s) : s.drivers.owner s.nextPriv = none := by
  by_contra hne
  obtain ⟨k, hk⟩ := Option.ne_none_iff_exists'.mp hne
  exact lt_irrefl _ (hs.privFresh _ (hs.driversOn _ k hk).2)

theorem add_driver_returns (hs : Wired s)
    (hplaced : ∀ d k, s.devices.owner d = some k → s.device d ≠ none) (drv : DrvPtr)
    {b : BusPtr} {k : BusPriv} (hk : livePriv s b = some k) (malloc : Bool) :
    ∃ e t, busAddDriver env probe (withBus s drv b) drv malloc = some (e, t) := by
  have hbus : ((withBus s drv b).driver drv).bus = some b := by simp [withBus]
  cases malloc with
  | false => exact ⟨-ENOMEM, withBus s drv b, by simp [busAddDriver, hbus]⟩
  | true =>
    have hset : ((withPriv s drv b).driver drv).bus = some b := by simp [withPriv]
    have hp : ((withPriv s drv b).driver drv).p = some s.nextPriv := by simp [withPriv]
    have hlive : (withPriv s drv b).drvPriv s.nextPriv ≠ none := by simp [withPriv]
    have hdevices : ∀ d ∈ s.devices.items k, (withPriv s drv b).device d ≠ none :=
      fun d hd => hplaced d k ((s.devices.mem_iff k d).mp hd)
    have hsettled : Settled (withPriv s drv b) := hs.settled
    obtain ⟨e, u, hattach⟩ : ∃ e u, driverAttach env probe (withPriv s drv b) drv = some (e, u) :=
      driver_attach_returns hsettled hset hk hp hlive hdevices
    obtain ⟨rfl, k', -, hswept⟩ := driver_attach_cases hsettled hset hattach
    have hku : livePriv u b = some k := by
      rw [hswept.frame]
      exact hk
    have hfree : u.drivers.owner s.nextPriv = none := by
      rw [hswept.frame]
      exact next_priv_free hs
    refine ⟨0, { u with
      drivers := attach u.drivers s.nextPriv k hfree
      log := .registered b drv::u.log }, ?_⟩
    have hfield : (withBus s drv b).nextPriv = s.nextPriv ∧
        (withBus s drv b).drvPriv = s.drvPriv := ⟨rfl, rfl⟩
    simp only [busAddDriver, hbus, if_true, hfield, Option.bind_eq_bind]
    rw [with_priv_eq, hattach]
    simp [hku, addTail, hfree]

/-- Registering a driver always comes back. -/
theorem driver_register_returns (hs : Wired s)
    (hplaced : ∀ d k, s.devices.owner d = some k → s.device d ≠ none) (drv : DrvPtr)
    (name : CString) (malloc : Bool) :
    ∃ e t, rs485DriverRegister env probe s drv name malloc = some (e, t) := by
  cases hb : busNamed s name with
  | none => exact ⟨-ENODEV, s, by simp [rs485DriverRegister, rs485DriverMatchBus, hb]⟩
  | some b =>
    obtain ⟨k, hk, -⟩ := live_priv_standing hs (bus_named_some hb).1
    obtain ⟨e, u, hfind⟩ : ∃ e u,
        driverFind env (withBus s drv b) (env.driver drv).name (some b) = some (e, u) :=
      driver_find_returns (wired_with_bus hs drv b) hk _
    rw [driver_register_on hb, hfind, Option.bind_some]
    split_ifs with hfound
    · exact ⟨-EEXIST, u, rfl⟩
    · obtain ⟨k', -, ⟨-, -, rfl⟩ | ⟨-, rfl, -⟩⟩ := driver_find_cases hfind
      · exact add_driver_returns hs hplaced drv hk malloc
      · exact absurd one_ne_zero hfound

end DriverRegister

section DeviceCreate

/-- Every driver on the list has a private part still. -/
def Whole (s : State) (k : BusPriv) : Prop :=
  ∀ p ∈ s.drivers.items k, ∀ drv, s.drvPriv p = some drv →
    ∃ q, (s.driver drv).p = some q ∧ s.drvPriv q ≠ none

theorem device_attach_returns (hs : Held s) {d : DevPtr} {r : Rs485Device} {b : BusPtr}
    {k : BusPriv} {t : State} (hu : Unbound t d r) (hb : r.dev.bus = some b)
    (hk : livePriv t b = some k) (hdrivers : t.drivers = s.drivers)
    (hdriver : t.driver = s.driver) (hpriv : t.drvPriv = s.drvPriv) (hwhole : Whole s k) :
    ∃ e u, deviceAttach env probe t d = some (e, u) := by
  have hstep : ∀ p ∈ t.drivers.items k, ∀ v, v = t → ∃ e u, (do
      deviceAttachTo env probe d (← v.drvPriv p) v) = some (e, u) ∧ (e = 0 → u = t) := by
    rintro p hp v rfl
    rw [hdrivers] at hp
    have hlive := (hs.wired.driversOn p k ((s.drivers.mem_iff k p).mp hp)).2
    obtain ⟨drv, hdrv⟩ := Option.ne_none_iff_exists'.mp hlive
    obtain ⟨q, hq, hqlive⟩ := hwhole p hp drv hdrv
    have hset := hs.placed p drv hdrv
    rw [← hdriver] at hq hset
    rw [← hpriv] at hqlive hdrv
    obtain ⟨e, u, hprobe⟩ : ∃ e u, driverProbeDevice env probe drv v d = some (e, u) :=
      probe_returns hu hset hq hqlive
    refine ⟨e, u, by simp [hdrv, deviceAttachTo, hprobe], fun he => ?_⟩
    rcases probe_cases hu hprobe with ⟨-, -, rfl⟩ | ⟨-, rfl, -⟩
    · rfl
    · exact absurd he one_ne_zero
  obtain ⟨e, w, u, hwalk⟩ := for_each_returns hstep rfl
  simp only [Option.bind_eq_bind] at hwalk
  exact ⟨e, { u with drivers := w }, by
    simp [deviceAttach, hu.device, hu.driver, hb, busForEachDrv, hk, hwalk]⟩

/-- A request comes back when the drivers on the list of its bus are whole. -/
theorem device_create_returns (hs : Held s)
    (hplaced : ∀ d k, s.devices.owner d = some k → s.device d ≠ none) {info : Rs485DeviceInfo}
    {b : BusPtr} {k : BusPriv} (hb : busNamed s info.matchBus = some b)
    (hk : livePriv s b = some k) (hwhole : Whole s k) (calloc : Bool) :
    ∃ e id t, rs485DeviceCreate env probe s info calloc = some (e, id, t) := by
  have hu : Unbound (withDevice s b info) s.nextDev (newDevice b info (findNextDeviceId s.table)) :=
    with_device_unbound (dead_unbound hs.wired (next_dev_dead hs.wired)) b info
  obtain ⟨e, u, hattach⟩ : ∃ e u,
      deviceAttach env probe (withDevice s b info) s.nextDev = some (e, u) :=
    device_attach_returns hs hu rfl hk rfl rfl rfl hwhole
  obtain ⟨he, k', hk', hoffered⟩ := device_attach_offered hu rfl hattach
  have hku : livePriv u b = some k := (offered_live_priv hoffered b).trans hk
  have hfree : u.devices.owner s.nextDev = none := by
    have hdevices : u.devices = s.devices := by cases hoffered <;> rfl
    rw [hdevices]
    by_contra hne
    obtain ⟨k'', hk''⟩ := Option.ne_none_iff_exists'.mp hne
    exact hplaced s.nextDev k'' hk'' (next_dev_dead hs.wired)
  have hname : (newDevice b info (findNextDeviceId s.table)).dev.initName = none := rfl
  have hid : (newDevice b info (findNextDeviceId s.table)).dev.busId ≠ [] :=
    device_bus_id_ne_nil info
  have hbus : (newDevice b info (findNextDeviceId s.table)).dev.bus = some b := rfl
  have hreg : deviceRegister env probe (withDevice s b info) s.nextDev =
      some (0, { u with devices := attach u.devices s.nextDev k hfree }) := by
    simp [deviceRegister, deviceAdd, hu.device, hname, devSetName, hid, hbus, busAttachDevice,
      hattach, he, hku, addTail, hfree]
  simp only [rs485DeviceCreate, rs485BusMatchByName, hb]
  split_ifs with hcalloc hneg
  · exact ⟨-ENODEV, some (findNextDeviceId s.table), _, rfl⟩
  · refine ⟨0, some (findNextDeviceId s.table), { u with
      devices := attach u.devices s.nextDev k hfree
      deviceList := s.nextDev::u.deviceList }, ?_⟩
    change (deviceRegister env probe (withDevice s b info) s.nextDev).bind _ = _
    rw [hreg]
    rfl
  · exact ⟨-ENOMEM, none, s, rfl⟩

end DeviceCreate

end RS485.Returns
