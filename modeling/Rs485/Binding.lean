import Rs485.Exchange
import Rs485.Identity
import Rs485.Runs

/-!
# Which driver a device gets

A device should get the driver whose name it asks for, and the device record
should name the driver that the message loop will use. The match callback
answers zero to equal names and the bus takes zero for a refusal, so a device
can only ever get a driver it did not ask for; and the record that the message
loop reads is written by no one. Both properties hold over a run exactly when
the run never binds anything, and in the first case never should have.
-/

set_option autoImplicit false

namespace RS485.Binding
open RS485.Platform RS485.Records RS485.Mdev RS485.Attached RS485.Registry RS485.Probing
  RS485.Operations RS485.Wiring RS485.Identity RS485.Runs

variable {env : Env} {probe : Probe}

/-- The driver has no probe callback, or the callback answers zero. -/
def Accepts (env : Env) (probe : Probe) (drv : DrvPtr) (d : DevPtr) : Prop :=
  (env.driver drv).probe = true → probe drv d = 0

section Registrations

/-- A bound device has the driver it asks for. -/
def Sound (env : Env) (s : State) : Prop :=
  ∀ d r drv, s.device d = some r → r.dev.driver = some drv →
    r.info.matchDriver = some (env.driver drv).name

/-- The later of device and driver to arrive finds the other, if the device
asks for the driver and the driver accepts. -/
def Complete (env : Env) (s : State) (t : State) : Registration → Prop
  | .bus _ _ => True
  | .driver drv name malloc probe =>
    ∀ b, rs485DriverMatchBus s name = some b →
      rs485DriverRegister env probe s drv name malloc = some (0, t) →
      ∀ d r, s.device d = some r → r.dev.bus = some b → r.dev.driver = none →
        r.info.matchDriver = some (env.driver drv).name → Accepts env probe drv d →
        ∃ r', t.device d = some r' ∧ r'.dev.driver = some drv
  | .device info calloc probe =>
    ∀ b id, rs485BusMatchByName s info.matchBus = some b →
      rs485DeviceCreate env probe s info calloc = some (0, id, t) →
      ∀ drv, .registered b drv ∈ s.log → info.matchDriver = some (env.driver drv).name →
        Accepts env probe drv s.nextDev →
        ∃ r', t.device s.nextDev = some r' ∧ r'.dev.driver = some drv

def BindsRightly (env : Env) (s : State) (op : Registration) (t : State) : Prop :=
  Sound env t ∧ Complete env s t op

/-- Nobody accepts: not the driver that is registered any unbound device of the
bus, not a listed driver of another name the new device, and not a driver that
was registered with the bus and has the right name either. -/
def Refused (env : Env) (s : State) : Registration → Prop
  | .bus _ _ => True
  | .driver drv name malloc probe =>
    ∀ b k, rs485DriverMatchBus s name = some b → livePriv s b = some k → malloc = true →
      ¬NameOn env s k (env.driver drv).name →
      ∀ d r, s.device d = some r → r.dev.bus = some b → r.dev.driver = none →
        ¬Accepts env probe drv d
  | .device info calloc probe =>
    ∀ b k, rs485BusMatchByName s info.matchBus = some b → livePriv s b = some k →
      calloc = true → 0 ≤ findNextDeviceId s.table →
      (∀ p ∈ s.drivers.items k, ∀ drv, s.drvPriv p = some drv →
        info.matchDriver ≠ some (env.driver drv).name → ¬Accepts env probe drv s.nextDev) ∧
      ∀ drv, .registered b drv ∈ s.log → info.matchDriver = some (env.driver drv).name →
        ¬Accepts env probe drv s.nextDev

variable {s t : State}

theorem sound_same_devices (hg : Sound env s) (h : t.device = s.device) : Sound env t := by
  unfold Sound
  rw [h]
  exact hg

/-- A registration that fails matches nothing. -/
theorem binds_failed (hg : Sound env s) {drv : DrvPtr} {name : CString} {malloc : Bool} {e : ℤ}
    (h : rs485DriverRegister env probe s drv name malloc = some (e, t)) (he : e ≠ 0)
    (hdevice : t.device = s.device) :
    BindsRightly env s (.driver drv name malloc probe) t := by
  refine ⟨sound_same_devices hg hdevice, fun b hb hok => ?_⟩
  have hret := congrArg Prod.fst (Option.some.inj (h.symm.trans hok))
  exact absurd hret he

theorem swept_binds_iff (hs : Wired s) (hg : Sound env s) {drv : DrvPtr} {b : BusPtr}
    {k : BusPriv} (hb : b ∈ s.busList) (hk : livePriv s b = some k)
    (hswept : Swept env probe drv (s.devices.items k) (withPriv s drv b) t) :
    (Sound env t ∧ ∀ d r, s.device d = some r → r.dev.bus = some b → r.dev.driver = none →
        r.info.matchDriver = some (env.driver drv).name → Accepts env probe drv d →
        ∃ r', t.device d = some r' ∧ r'.dev.driver = some drv) ↔
      ∀ d r, s.device d = some r → r.dev.bus = some b → r.dev.driver = none →
        ¬Accepts env probe drv d := by
  have hk' := (live_priv_some hk).1
  constructor
  · rintro ⟨hsound, hcomplete⟩ d r hr hbus hfree hacc
    have hd : d ∈ s.devices.items k := (homed_on hs hr hb hk').mpr hbus
    by_cases hname : r.info.matchDriver = some (env.driver drv).name
    · obtain ⟨r', hr', hdrv⟩ := hcomplete d r hr hbus hfree hname hacc
      have hleft := (hswept.left d fun ⟨_, r₀, hr₀, _, htakes⟩ => by
        obtain rfl := Option.some.inj (hr.symm.trans hr₀)
        exact htakes.1 hname).1
      obtain rfl := Option.some.inj (hr'.symm.trans (hleft.trans hr))
      exact absurd (hdrv.symm.trans hfree) (by simp)
    · have htaken : Taken env probe drv (withPriv s drv b) d := ⟨r, hr, hfree, hname, hacc⟩
      obtain ⟨hdev, -, -⟩ := hswept.taken d hd htaken
      have hr' : t.device d = some (withDriver r (some drv)) := by
        rw [hdev]
        exact congrArg (Option.map (withDriver · (some drv))) hr
      have hmatch := hsound d (withDriver r (some drv)) drv hr' rfl
      exact hname hmatch
  · intro hno
    have hsame : ∀ d, t.device d = s.device d := by
      intro d
      refine (hswept.left d ?_).1
      rintro ⟨hd, r, hr, hfree, htakes⟩
      exact hno d r hr ((homed_on hs hr hb hk').mp hd) hfree htakes.2
    exact ⟨sound_same_devices hg (funext hsame),
      fun d r hr hbus hfree _ hacc => absurd hacc (hno d r hr hbus hfree)⟩

theorem binds_driver_iff (hs : Wired s) (hg : Sound env s) {drv : DrvPtr} {name : CString}
    {malloc : Bool} {e : ℤ} (h : rs485DriverRegister env probe s drv name malloc = some (e, t)) :
    BindsRightly env s (.driver drv name malloc probe) t ↔
      Refused env s (.driver drv name malloc probe) := by
  rcases driver_register_cases hs.settled h with ⟨hnone, he, rfl⟩ | ⟨b, k, hb, hk, hcases⟩
  · refine iff_of_true (binds_failed hg h (by simp [he, ENODEV]) rfl) fun b k hb => ?_
    exact absurd (hnone.symm.trans hb) (by simp)
  · have hbk : ∀ b' k', rs485DriverMatchBus s name = some b' → livePriv s b' = some k' →
        b' = b ∧ k' = k := by
      intro b' k' hb' hk'
      obtain rfl := Option.some.inj (hb.symm.trans hb')
      exact ⟨rfl, Option.some.inj (hk'.symm.trans hk)⟩
    rcases hcases with ⟨hon, he, w, hw, rfl⟩ | ⟨-, hm, he, rfl⟩ |
      ⟨hno, hm, rfl, u, hfree, hswept, rfl⟩
    · refine iff_of_true (binds_failed hg h (by simp [he, EEXIST]) rfl) fun b' k' hb' hk' _ hno => ?_
      obtain ⟨rfl, rfl⟩ := hbk b' k' hb' hk'
      exact absurd hon hno
    · refine iff_of_true (binds_failed hg h (by simp [he, ENOMEM]) rfl) fun _ _ _ _ htrue => ?_
      exact absurd htrue (by simp [hm])
    · have hiff := swept_binds_iff hs hg (bus_named_some hb).1 hk hswept
      constructor
      · rintro ⟨hsound, hcomplete⟩ b' k' hb' hk' - -
        obtain ⟨rfl, rfl⟩ := hbk b' k' hb' hk'
        exact hiff.mp ⟨hsound, hcomplete b' hb h⟩
      · intro hrefused
        obtain ⟨hsound, hcomplete⟩ := hiff.mpr (hrefused b k hb hk hm hno)
        refine ⟨hsound, fun b' hb' _ => ?_⟩
        obtain rfl := Option.some.inj (hb.symm.trans hb')
        exact hcomplete

/-- What becomes of the new device when it is offered to the drivers. -/
theorem offered_binds_iff (hg : Sound env s) {info : Rs485DeviceInfo} {b : BusPtr} {k : BusPriv}
    (h : Offered env probe (withDevice s b info) s.nextDev
      (newDevice b info (findNextDeviceId s.table)) k t) :
    (Sound env t ∧ ∀ drv, .registered b drv ∈ s.log →
        info.matchDriver = some (env.driver drv).name → Accepts env probe drv s.nextDev →
        ∃ r', t.device s.nextDev = some r' ∧ r'.dev.driver = some drv) ↔
      (∀ p ∈ s.drivers.items k, ∀ drv, s.drvPriv p = some drv →
        info.matchDriver ≠ some (env.driver drv).name → ¬Accepts env probe drv s.nextDev) ∧
      ∀ drv, .registered b drv ∈ s.log → info.matchDriver = some (env.driver drv).name →
        ¬Accepts env probe drv s.nextDev := by
  have hnew : (withDevice s b info).device s.nextDev =
      some (newDevice b info (findNextDeviceId s.table)) := by simp [withDevice]
  cases h with
  | refused hno =>
    have hlisted : ∀ p ∈ s.drivers.items k, ∀ drv, s.drvPriv p = some drv →
        info.matchDriver ≠ some (env.driver drv).name → ¬Accepts env probe drv s.nextDev := by
      intro p hp drv hdrv hname hacc
      obtain ⟨drv', hdrv', htakes⟩ := hno p hp
      obtain rfl := Option.some.inj (hdrv.symm.trans hdrv')
      exact htakes ⟨hname, hacc⟩
    have hsound : Sound env (withDevice s b info) := by
      intro d r drv hr hdrv
      by_cases hd : d = s.nextDev
      · subst hd
        obtain rfl := Option.some.inj (hnew.symm.trans hr)
        simp [newDevice] at hdrv
      · exact hg d r drv (by simpa [withDevice, hd] using hr) hdrv
    constructor
    · rintro ⟨-, hcomplete⟩
      refine ⟨hlisted, fun drv hreg hname hacc => ?_⟩
      obtain ⟨r', hr', hdrv⟩ := hcomplete drv hreg hname hacc
      obtain rfl := Option.some.inj (hnew.symm.trans hr')
      simp [newDevice] at hdrv
    · exact fun hrest => ⟨hsound, fun drv hreg hname hacc =>
        absurd hacc (hrest.2 drv hreg hname)⟩
  | taken p drv q w hfree hmem hdrv htakes hq hlive hw =>
    refine iff_of_false ?_ fun hrest => hrest.1 p hmem drv hdrv htakes.1 htakes.2
    rintro ⟨hsound, -⟩
    have hbound : (bindTo (withDevice s b info) s.nextDev drv q hfree).device s.nextDev =
        some (withDriver (newDevice b info (findNextDeviceId s.table)) (some drv)) := by
      rw [bind_to_device, if_pos rfl, hnew]
      rfl
    have hmatch := hsound s.nextDev _ drv hbound rfl
    exact htakes.1 hmatch

theorem binds_device_iff (hs : Wired s) (hg : Sound env s) {info : Rs485DeviceInfo}
    {calloc : Bool} {e : ℤ} {id : Option ℤ}
    (h : rs485DeviceCreate env probe s info calloc = some (e, id, t)) :
    BindsRightly env s (.device info calloc probe) t ↔
      Refused env s (.device info calloc probe) := by
  have hfailed (he : e ≠ 0) (hdevice : t.device = s.device) :
      BindsRightly env s (.device info calloc probe) t := by
    refine ⟨sound_same_devices hg hdevice, fun b id' hb hok => ?_⟩
    have hret := congrArg Prod.fst (Option.some.inj (h.symm.trans hok))
    exact absurd hret he
  rcases device_create_cases (dead_unbound hs (next_dev_dead hs)) h with
    ⟨he, rfl, hwhy⟩ | ⟨he, hneg, rfl⟩ | ⟨rfl, hcalloc, hid, -, b, k, u, hfree, hb, hk, hoff, rfl⟩
  · refine iff_of_true (hfailed he rfl) fun b k hb _ hcalloc => ?_
    rcases hwhy with hnone | hfalse
    · exact absurd (hnone.symm.trans hb) (by simp)
    · exact absurd hcalloc (by simp [hfalse])
  · exact iff_of_true (hfailed he rfl) fun _ _ _ _ _ hge => absurd hneg (not_lt.mpr hge)
  · have hiff := offered_binds_iff hg hoff
    constructor
    · rintro ⟨hsound, hcomplete⟩ b' k' hb' hk' - -
      obtain rfl := Option.some.inj (hb.symm.trans hb')
      obtain rfl := Option.some.inj (hk.symm.trans hk')
      exact hiff.mp ⟨hsound, hcomplete b id hb h⟩
    · intro hrefused
      obtain ⟨hsound, hcomplete⟩ := hiff.mpr (hrefused b k hb hk hcalloc hid)
      refine ⟨hsound, fun b' id' hb' _ => ?_⟩
      obtain rfl := Option.some.inj (hb.symm.trans hb')
      exact hcomplete

theorem binds_rightly_iff (hs : Wired s) (hg : Sound env s) (op : Registration)
    (h : register env s op = some t) : BindsRightly env s op t ↔ Refused env s op := by
  cases op with
  | bus b a =>
    obtain rfl := Option.some.inj h
    have hdevice : (rs485BusRegister env s b a).2.device = s.device := by
      rw [(bus_register_grows s b a).frame]
    exact iff_of_true ⟨sound_same_devices hg hdevice, trivial⟩ trivial
  | driver drv name malloc probe =>
    obtain ⟨e, hreg⟩ := driver_register_step h
    exact binds_driver_iff hs hg hreg
  | device info calloc probe =>
    obtain ⟨e, id, hreg⟩ := device_create_step h
    exact binds_device_iff hs hg hreg

theorem sound_initial : Sound env initial := by
  intro d r drv h
  simp [initial] at h

/-- Drivers and devices are matched rightly all along a run exactly when no
step of it has a pair to match that accepts. -/
theorem binding_exact (env : Env) (ops : List Registration) :
    EveryStep (register env) (BindsRightly env) initial ops ↔
      EveryStep (register env) (fun s op _ => Refused env s op) initial ops :=
  exact_run (BindsRightly env) (fun _ op _ hs h => wired_step hs (.register op) h)
    (fun _ _ _ _ _ _ hok => hok.1) (fun _ op _ hs hg h => binds_rightly_iff hs hg op h) initial
    wired_initial sound_initial ops

/-- A bus and a driver for another kind of curtain than the device's. -/
def foreignDriver : Env where
  bus _ := ⟨some "custom".toList, some "/dev/ttyS1".toList, true, false, false⟩
  driver _ := ⟨"curtain_custom_aoke".toList, true, true, true, true, ⟨3, 300, false⟩⟩

def dooyaInfo : Rs485DeviceInfo :=
  ⟨"custom-/dev/ttyS1".toList, some "curtain_custom_dooya".toList, fun _ => 0⟩

def curtainArrives : List Registration :=
  [.bus (some 0) ⟨0, true, 0⟩, .driver 0 "custom-/dev/ttyS1".toList true fun _ _ => 0,
    .device dooyaInfo true fun _ _ => 0]

theorem curtain_arrives_end : (run (register foreignDriver) initial curtainArrives).map
      (fun t => (t.device 0).map fun r => (r.info.matchDriver, r.driver, r.dev.driver)) =
    some (some (some "curtain_custom_dooya".toList, none, some 0)) := by
  rfl

/-- The device is bound to a driver that it did not ask for. -/
theorem device_gets_foreign_driver :
    ¬EveryStep (register foreignDriver) (BindsRightly foreignDriver) initial curtainArrives := by
  intro h
  obtain ⟨t, ht, hend⟩ := Option.map_eq_some_iff.mp curtain_arrives_end
  obtain ⟨r, hr, hfields⟩ := Option.map_eq_some_iff.mp hend
  simp only [Prod.mk.injEq] at hfields
  obtain ⟨hname, -, hdrv⟩ := hfields
  have hall : EveryState (register foreignDriver) (Sound foreignDriver) initial curtainArrives :=
    ⟨sound_initial, every_step_mono (fun _ _ _ _ hok => hok.1) _ _ h⟩
  have hsound := (every_state_iff _ _ _).mp hall curtainArrives t (List.prefix_refl _) ht
  have hmatch := hsound 0 r 0 hr hdrv
  exact absurd (hname.symm.trans hmatch) (by decide)

end Registrations

section TwoRecords

/-- The device record names the driver that the device is bound to, and then a
message for the device reaches the driver's `get`. -/
structure Agrees (env : Env) (s : State) : Prop where
  records : ∀ d r, s.device d = some r → r.driver = r.dev.driver
  reaches : ∀ d r drv, s.device d = some r → r.dev.driver = some drv →
    (env.driver drv).get = true → ∀ message script, message.deviceId = r.id →
      ∃ made, Exchange.doBusMessage s.table s.device env.driver message script = some made ∧
        ∃ events ∈ made, ∃ ret, .get message ret ∈ events

/-- Some driver takes a device in this step. -/
def Binds (env : Env) (s : State) : Op → Prop
  | .register (.driver drv name malloc probe) =>
    ∃ b k, rs485DriverMatchBus s name = some b ∧ livePriv s b = some k ∧ malloc = true ∧
      ¬NameOn env s k (env.driver drv).name ∧
      ∃ d ∈ s.devices.items k, Taken env probe drv s d
  | .register (.device info calloc probe) =>
    ∃ b k, rs485BusMatchByName s info.matchBus = some b ∧ livePriv s b = some k ∧
      calloc = true ∧ 0 ≤ findNextDeviceId s.table ∧
      ∃ p ∈ s.drivers.items k, ∃ drv, s.drvPriv p = some drv ∧
        Takes env probe (newDevice b info (findNextDeviceId s.table)) drv s.nextDev
  | _ => False

variable {s t : State}

/-- No device is bound. -/
def NoneBound (s : State) : Prop := ∀ d r, s.device d = some r → r.dev.driver = none

theorem agrees_iff (hq : Silent s) : Agrees env s ↔ NoneBound s := by
  constructor
  · intro h d r hr
    exact (h.records d r hr).symm.trans (hq d r hr)
  · intro h
    refine ⟨fun d r hr => (hq d r hr).trans (h d r hr).symm, fun d r drv hr hdrv => ?_⟩
    exact absurd (hdrv.symm.trans (h d r hr)) (by simp)

theorem none_bound_same (hg : NoneBound s) (h : t.device = s.device) : NoneBound t := by
  unfold NoneBound
  rw [h]
  exact hg

theorem none_bound_driver_iff (hs : Wired s) (hg : NoneBound s) {drv : DrvPtr} {name : CString}
    {malloc : Bool} {e : ℤ} (h : rs485DriverRegister env probe s drv name malloc = some (e, t)) :
    NoneBound t ↔ ¬Binds env s (.register (.driver drv name malloc probe)) := by
  rcases driver_register_cases hs.settled h with ⟨hnone, -, rfl⟩ | ⟨b, k, hb, hk, hcases⟩
  · refine iff_of_true hg ?_
    rintro ⟨b, k, hb, -⟩
    exact absurd (hnone.symm.trans hb) (by simp)
  · have hbinds : Binds env s (.register (.driver drv name malloc probe)) ↔ malloc = true ∧
        ¬NameOn env s k (env.driver drv).name ∧
        ∃ d ∈ s.devices.items k, Taken env probe drv s d := by
      constructor
      · rintro ⟨b', k', hb', hk', hrest⟩
        obtain rfl := Option.some.inj (hb.symm.trans hb')
        obtain rfl := Option.some.inj (hk.symm.trans hk')
        exact hrest
      · exact fun hrest => ⟨b, k, hb, hk, hrest⟩
    rw [hbinds]
    rcases hcases with ⟨hon, -, w, hw, rfl⟩ | ⟨-, hm, -, rfl⟩ |
      ⟨hno, hm, -, u, hfree, hswept, rfl⟩
    · exact iff_of_true (none_bound_same hg rfl) fun h => h.2.1 hon
    · exact iff_of_true (none_bound_same hg rfl) fun h => absurd h.1 (by simp [hm])
    · constructor
      · rintro hnone ⟨-, -, d, hd, htaken⟩
        have htaken' : Taken env probe drv (withPriv s drv b) d := htaken
        obtain ⟨hdev, -, -⟩ := hswept.taken d hd htaken'
        obtain ⟨r, hr, -⟩ := htaken'
        rw [hr] at hdev
        have hunbound := hnone d (withDriver r (some drv)) hdev
        simp at hunbound
      · intro hnot d r hr
        have hr' : u.device d = some r := hr
        rw [(hswept.left d fun hd => hnot ⟨hm, hno, d, hd⟩).1] at hr'
        exact hg d r hr'

theorem none_bound_device_iff (hs : Wired s) (hg : NoneBound s) {info : Rs485DeviceInfo}
    {calloc : Bool} {e : ℤ} {id : Option ℤ}
    (h : rs485DeviceCreate env probe s info calloc = some (e, id, t)) :
    NoneBound t ↔ ¬Binds env s (.register (.device info calloc probe)) := by
  rcases device_create_cases (dead_unbound hs (next_dev_dead hs)) h with
    ⟨-, rfl, hwhy⟩ | ⟨-, hneg, rfl⟩ | ⟨-, hcalloc, hid, -, b, k, u, hfree, hb, hk, hoff, rfl⟩
  · refine iff_of_true hg ?_
    rintro ⟨b, k, hb, -, hcalloc, -⟩
    rcases hwhy with hnone | hfalse
    · exact absurd (hnone.symm.trans hb) (by simp)
    · exact absurd hcalloc (by simp [hfalse])
  · refine iff_of_true (none_bound_same hg rfl) ?_
    rintro ⟨b, k, -, -, -, hge, -⟩
    exact absurd hneg (not_lt.mpr hge)
  · have hnew : (withDevice s b info).device s.nextDev =
        some (newDevice b info (findNextDeviceId s.table)) := by simp [withDevice]
    cases hoff with
    | refused hno =>
      refine iff_of_true ?_ ?_
      · intro d r hr
        have hr' : (withDevice s b info).device d = some r := hr
        by_cases hd : d = s.nextDev
        · subst hd
          obtain rfl := Option.some.inj (hnew.symm.trans hr')
          rfl
        · exact hg d r (by simpa [withDevice, hd] using hr')
      · rintro ⟨b', k', hb', hk', -, -, p, hp, drv, hdrv, htakes⟩
        obtain rfl := Option.some.inj (hb.symm.trans hb')
        obtain rfl := Option.some.inj (hk.symm.trans hk')
        obtain ⟨drv', hdrv', hrefuses⟩ := hno p hp
        obtain rfl := Option.some.inj (hdrv.symm.trans hdrv')
        exact hrefuses htakes
    | taken p drv q w hfree' hmem hdrv htakes hq hlive hw =>
      refine iff_of_false ?_ ?_
      · intro hnone
        have hbound : (bindTo (withDevice s b info) s.nextDev drv q hfree').device s.nextDev =
            some (withDriver (newDevice b info (findNextDeviceId s.table)) (some drv)) := by
          rw [bind_to_device, if_pos rfl, hnew]
          rfl
        have hunbound := hnone s.nextDev _ hbound
        simp at hunbound
      · exact fun hno => hno ⟨b, k, hb, hk, hcalloc, hid, p, hmem, drv, hdrv, htakes⟩

theorem none_bound_unregister (hg : NoneBound s) {drv : Option DrvPtr}
    (h : rs485DriverUnregister env s drv = some t) : NoneBound t := by
  cases drv with
  | none =>
    obtain rfl := Option.some.inj h
    exact hg
  | some drv =>
    rcases driver_unregister_cases h with ⟨-, rfl⟩ | ⟨p, u, -, -, -, hdet, rfl⟩
    · exact hg
    · intro d r hr
      have hr' : u.device d = some r := hr
      obtain ⟨r₀, hr₀, rfl | rfl⟩ := detached_source hdet hr'
      · exact hg d r hr₀
      · rfl

theorem none_bound_destroy (hs : Wired s) (hg : NoneBound s) {d : Option DevPtr}
    (h : rs485DeviceDestroy env s d = some t) : NoneBound t := by
  cases d with
  | none =>
    obtain rfl := Option.some.inj h
    exact hg
  | some d =>
    obtain ⟨-, r, -, heq⟩ := destroy_cases hs h
    intro e r' he
    rw [heq] at he
    by_cases hed : e = d
    · subst hed
      simp at he
    · exact hg e r' (by simpa [hed] using he)

/-- A step binds a device exactly when some driver takes one in it. -/
theorem none_bound_step_iff (hs : Wired s) (hg : NoneBound s) (op : Op)
    (h : step env s op = some t) : NoneBound t ↔ ¬Binds env s op := by
  refine step_cases (motive := fun op t => NoneBound t ↔ ¬Binds env s op)
    ?bus ?driver ?device ?unregister ?destroy h
  case bus =>
    intro b a
    have hdevice : (rs485BusRegister env s b a).2.device = s.device := by
      rw [(bus_register_grows s b a).frame]
    exact iff_of_true (none_bound_same hg hdevice) (fun hb => hb)
  case driver => exact fun _ _ _ _ _ _ hreg => none_bound_driver_iff hs hg hreg
  case device => exact fun _ _ _ _ _ _ hreg => none_bound_device_iff hs hg hreg
  case unregister => exact fun _ _ hun => iff_of_true (none_bound_unregister hg hun) (fun hb => hb)
  case destroy => exact fun _ _ hdes => iff_of_true (none_bound_destroy hs hg hdes) (fun hb => hb)

theorem none_bound_initial : NoneBound initial := by
  intro d r h
  simp [initial] at h

/-- The two records agree in every state of a run exactly when the run binds
no device at all. -/
theorem records_exact (env : Env) (ops : List Op) :
    EveryState (step env) (Agrees env) initial ops ↔
      EveryStep (step env) (fun s op _ => ¬Binds env s op) initial ops := by
  have hinv : ∀ s op t, Wired s ∧ Silent s → step env s op = some t → Wired t ∧ Silent t :=
    fun s op t hs h => ⟨wired_step hs.1 op h, silent_moves hs.2 (moves_step hs.1 op h)⟩
  refine exact_states hinv (fun s op t hs hc h => ?_) initial ⟨wired_initial, silent_initial⟩
    ((agrees_iff silent_initial).mpr none_bound_initial) ops
  rw [agrees_iff (hinv s op t hs h).2]
  exact none_bound_step_iff hs.1 ((agrees_iff hs.2).mp hc) op h

/-- The device is bound, and its own record says that it is not. -/
theorem bound_device_unrecorded : ¬EveryState (step foreignDriver) (Agrees foreignDriver) initial
    (curtainArrives.map .register) := by
  intro h
  have hrun : (run (step foreignDriver) initial (curtainArrives.map .register)).map
      (fun t => (t.device 0).map fun r => (r.info.matchDriver, r.driver, r.dev.driver)) =
        some (some (some "curtain_custom_dooya".toList, none, some 0)) := curtain_arrives_end
  obtain ⟨t, ht, hend⟩ := Option.map_eq_some_iff.mp hrun
  obtain ⟨r, hr, hfields⟩ := Option.map_eq_some_iff.mp hend
  simp only [Prod.mk.injEq] at hfields
  obtain ⟨-, hrecord, hdrv⟩ := hfields
  have hagrees := (every_state_iff _ _ _).mp h _ t (List.prefix_refl _) ht
  have hsame := hagrees.records 0 r hr
  exact absurd (hrecord.symm.trans (hsame.trans hdrv)) (by decide)

end TwoRecords

end RS485.Binding
