import Rs485.Returns

/-!
# Names of buses

A bus is found by the name that was made of its own name and its port when it
was registered, while its port alone keeps it apart from the other buses. The
names are cut to the size of their arrays, so a request and a driver get to the
bus they name only for some ports.
-/

set_option autoImplicit false

namespace RS485.Naming
open RS485.Platform RS485.Records RS485.Mdev RS485.Attached RS485.Registry RS485.Probing
  RS485.Operations RS485.Wiring RS485.Unregister RS485.Returns RS485.Runs

variable {env : Env} {probe : Probe}

section Model

inductive Rs485FactoryName where
  | curtainCustomizeDooyaAll
  | curtainCustomizeAokeAll
  | freshairCustomizeLoreleyUnknownGuangzhou
  | airconditionCustomizePanasonnicUnknownShenzhen
  | airconditionBacnetYorkKelongQingdaoBox
  | airconditionModbusYorkJohnsonControlsBox
  | airconditionModbusDaikinDta116a621Box
  | airconditionModbusHitachiVrvAllBox
  | airconditionModbusMistsubishiMacCcs01m
  deriving DecidableEq

structure Rs485DriverInfoTable where
  deviceType : Rs485FactoryName
  busName : CString
  driverName : CString

def customBusStr : CString := "custom".toList

def driverTable : List Rs485DriverInfoTable :=
  [⟨.curtainCustomizeDooyaAll, customBusStr, "curtain_custom_dooya".toList⟩]

/-- The loop does not stop at an entry, so the last one of the type counts. -/
def lastOfType (deviceType : Rs485FactoryName) : Option Rs485DriverInfoTable :=
  driverTable.foldl
    (fun driver entry => if entry.deviceType = deviceType then some entry else driver) none

def getClient (info : Option Rs485DeviceInfo) (busPortName : CString)
    (deviceType : Rs485FactoryName) (mac : Fin 4 → Byte) : ℤ × Option Rs485DeviceInfo :=
  match info with
  | none => (-EINVAL, none)
  | some info =>
    match lastOfType deviceType with
    | none => (-ENODEV, some info)
    | some driver =>
      (0, some { info with
        matchDriver := some driver.driverName
        matchBus := snprintf rs485NameSize (driver.busName++['-']++busPortName)
        mac := mac })

end Model

section Spec

/-- The device is on the device list and on the list of the bus, which is its own. -/
def DeviceOn (s : State) (d : DevPtr) (b : BusPtr) : Prop :=
  d ∈ s.deviceList ∧ (∃ r, s.device d = some r ∧ r.dev.bus = some b) ∧
    ∃ k, (s.bus b).p = some k ∧ d ∈ s.devices.items k

def DriverOn (s : State) (drv : DrvPtr) (b : BusPtr) : Prop :=
  ∃ p k, (s.driver drv).p = some p ∧ (s.bus b).p = some k ∧ p ∈ s.drivers.items k

variable (env : Env) (s : State)

def Customs : Prop := ∀ b ∈ s.busList, (env.bus b).name = some customBusStr

/-- A request that names the port gets its device onto the bus, and a driver that
is registered under the name of the port gets there too, unless the bus has a
driver of this name or there is no memory. -/
structure Reaches (q : CString) (b : BusPtr) : Prop where
  device : ∀ info deviceType mac info', getClient (some info) q deviceType mac = (0, some info') →
    0 ≤ findNextDeviceId s.table → ∀ probe,
      (∀ e id t, rs485DeviceCreate env probe s info' true = some (e, id, t) →
        e = 0 ∧ DeviceOn t s.nextDev b) ∧
      ((∀ k, livePriv s b = some k → Whole s k) →
        ∃ r, rs485DeviceCreate env probe s info' true = some r)
  driver : ∀ drv malloc probe, ∃ e t,
    rs485DriverRegister env probe s drv (customBusStr++['-']++q) malloc = some (e, t) ∧
      (t.driver drv).bus = some b ∧
      (e = 0 ∧ DriverOn t drv b ∨
        e = -EEXIST ∧ (∃ k, livePriv s b = some k ∧ NameOn env s k (env.driver drv).name) ∨
        e = -ENOMEM ∧ malloc = false)

/-- The port is so short that its whole name fits with a character to spare, or
fits, and no bus that was registered later has a port that goes on from it. -/
def Tellable (q : CString) (b : BusPtr) : Prop :=
  q.length < 12 ∨ q.length = 12 ∧ ∃ newer older, s.busList = newer++b::older ∧
    ∀ b' ∈ newer, ∀ port, (env.bus b').portName = some port → ¬q <+: port

end Spec

section Client

theorem get_client_request {info info' : Rs485DeviceInfo} {port : CString}
    {deviceType : Rs485FactoryName} {mac : Fin 4 → Byte}
    (h : getClient (some info) port deviceType mac = (0, some info')) :
    info'.matchBus = snprintf rs485NameSize (customBusStr++['-']++port) := by
  have hbus : ∀ driver, lastOfType deviceType = some driver → driver.busName = customBusStr := by
    intro driver hlast
    simp only [lastOfType, driverTable, List.foldl_cons, List.foldl_nil] at hlast
    split_ifs at hlast
    rw [← Option.some.inj hlast]
  simp only [getClient] at h
  cases hlast : lastOfType deviceType with
  | none => simp [hlast, ENODEV] at h
  | some driver =>
    simp only [hlast, Prod.mk.injEq, Option.some.injEq, true_and] at h
    rw [← h, hbus driver hlast]

end Client

section Names

/-- Twelve characters of the port are left beside the name of the bus. -/
theorem custom_name (port : CString) : snprintf rs485NameSize (customBusStr++['-']++port) =
    customBusStr++['-']++port.take 12 := by
  have hlen : (customBusStr++['-']).length = 7 := rfl
  rw [snprintf, List.take_append, hlen, List.take_of_length_le (by simp [hlen, rs485NameSize])]
  rfl

theorem custom_names_eq (port q : CString) :
    customBusStr++['-']++port = customBusStr++['-']++q ↔ port = q := List.append_right_inj _

variable {s : State}

theorem bus_named_iff (name : CString) (b : BusPtr) :
    busNamed s name = some b ↔ (s.bus b).initName = name ∧
      ∃ newer older, s.busList = newer++b::older ∧ ∀ b' ∈ newer, (s.bus b').initName ≠ name := by
  simp [busNamed, List.find?_eq_some_iff_append]

/-- A listed bus has the name of its port, no other bus has the port, and what is
on the list of a bus is a device. -/
structure Named (env : Env) (s : State) : Prop where
  held : Held s
  names : ∀ b ∈ s.busList, ∃ name port, (env.bus b).name = some name ∧
    (env.bus b).portName = some port ∧
    (s.bus b).initName = snprintf rs485NameSize (name++['-']++port)
  ports : ∀ b ∈ s.busList, ∀ b' ∈ s.busList, (env.bus b).portName = (env.bus b').portName → b = b'
  placed : ∀ d k, s.devices.owner d = some k → s.device d ≠ none

theorem named_initial (env : Env) : Named env initial where
  held := held_initial
  names _ h := by simp [initial] at h
  ports _ h := by simp [initial] at h
  placed _ _ h := by simp [initial, empty] at h

theorem custom_init_name (hs : Named env s) (hc : Customs env s) {b : BusPtr} (hb : b ∈ s.busList)
    {port : CString} (hport : (env.bus b).portName = some port) :
    (s.bus b).initName = customBusStr++['-']++port.take 12 := by
  obtain ⟨name, port', hname, hport', hinit⟩ := hs.names b hb
  obtain rfl := Option.some.inj ((hc b hb).symm.trans hname)
  obtain rfl := Option.some.inj (hport.symm.trans hport')
  rw [hinit, custom_name]

theorem port_of (hs : Named env s) {b : BusPtr} (hb : b ∈ s.busList) :
    ∃ port, (env.bus b).portName = some port := by
  obtain ⟨_, port, -, hport, -⟩ := hs.names b hb
  exact ⟨port, hport⟩

/-- The whole name of a port finds its bus exactly for a port that can be told. -/
theorem whole_name_iff (hs : Named env s) (hc : Customs env s) {b : BusPtr} (hb : b ∈ s.busList)
    {q : CString} (hq : (env.bus b).portName = some q) :
    busNamed s (customBusStr++['-']++q) = some b ↔ Tellable env s q b := by
  rw [bus_named_iff, custom_init_name hs hc hb hq, custom_names_eq, List.take_eq_self_iff]
  have hmem : ∀ newer older, s.busList = newer++b::older → ∀ b' ∈ newer, b' ∈ s.busList := by
    intro newer older hsplit b' hb'
    rw [hsplit]
    exact List.mem_append_left _ hb'
  constructor
  · rintro ⟨hlen, newer, older, hsplit, hother⟩
    by_cases hlt : q.length < 12
    · exact Or.inl hlt
    · have heq : q.length = 12 := by omega
      refine Or.inr ⟨heq, newer, older, hsplit, fun b' hb' port hport hpre => ?_⟩
      apply hother b' hb'
      rw [custom_init_name hs hc (hmem newer older hsplit b' hb') hport, custom_names_eq]
      rw [List.prefix_iff_eq_take, heq] at hpre
      exact hpre.symm
  · rintro (hlt | ⟨heq, newer, older, hsplit, hother⟩)
    · obtain ⟨newer, older, hsplit, hnot⟩ := List.eq_append_cons_of_mem hb
      refine ⟨hlt.le, newer, older, hsplit, fun b' hb' hname => ?_⟩
      have hb'' := hmem newer older hsplit b' hb'
      obtain ⟨port, hport⟩ := port_of hs hb''
      rw [custom_init_name hs hc hb'' hport, custom_names_eq] at hname
      have hport_q : port = q := by
        rw [← hname, List.length_take] at hlt
        rw [← hname, List.take_of_length_le (by omega)]
      obtain rfl := hs.ports b' hb'' b hb (by rw [hport, hq, hport_q])
      exact hnot hb'
    · refine ⟨heq.le, newer, older, hsplit, fun b' hb' hname => ?_⟩
      have hb'' := hmem newer older hsplit b' hb'
      obtain ⟨port, hport⟩ := port_of hs hb''
      rw [custom_init_name hs hc hb'' hport, custom_names_eq] at hname
      exact hother b' hb' port hport (hname ▸ List.take_prefix 12 port)

/-- A port that can be told is not cut in a request. -/
theorem tellable_take {q : CString} {b : BusPtr} (h : Tellable env s q b) : q.take 12 = q := by
  apply List.take_of_length_le
  rcases h with hlt | ⟨heq, -⟩ <;> omega

end Names

section Preserved

variable {s t : State}

theorem bus_start_names (env : Env) (s : State) (b : BusPtr) (a : BusAnswers) :
    (∀ b', ((busStart env s b a).2.bus b').initName = (s.bus b').initName) ∧
      ((busStart env s b a).2.busList = s.busList ∨
        (busStart env s b a).2.busList = b::s.busList) := by
  have hname : ∀ p b', ((Function.update s.bus b { s.bus b with p := p }) b').initName =
      (s.bus b').initName := by
    intro p b'
    by_cases he : b' = b <;> simp [he]
  rcases bus_start_cases env s b a with ⟨-, hend⟩ | ⟨-, -, hend⟩ | ⟨-, -, -, hend⟩ |
    ⟨-, -, -, -, hend⟩ <;> rw [hend]
  · exact ⟨fun _ => rfl, Or.inl rfl⟩
  · exact ⟨fun _ => rfl, Or.inl rfl⟩
  · exact ⟨hname _, Or.inl rfl⟩
  · exact ⟨hname _, Or.inr rfl⟩

/-- Registering a bus names it, and lists it only while its port is free. -/
theorem bus_register_names (env : Env) (s : State) (b : Option BusPtr) (a : BusAnswers) :
    (rs485BusRegister env s b a).2 = s ∨ ∃ b' name port, (env.bus b').name = some name ∧
      (env.bus b').portName = some port ∧
      (∀ b'', ((rs485BusRegister env s b a).2.bus b'').initName =
        if b'' = b' then snprintf rs485NameSize (name++['-']++port) else (s.bus b'').initName) ∧
      ((rs485BusRegister env s b a).2.busList = s.busList ∨
        isRs485BusUsed env s port = false ∧
          (rs485BusRegister env s b a).2.busList = b'::s.busList) := by
  cases b with
  | none => exact Or.inl rfl
  | some b =>
    cases hname : (env.bus b).name with
    | none => exact Or.inl (by simp [rs485BusRegister, hname])
    | some name =>
      cases hport : (env.bus b).portName with
      | none => exact Or.inl (by simp [rs485BusRegister, hname, hport])
      | some port =>
        refine Or.inr ⟨b, name, port, hname, hport, ?_⟩
        obtain ⟨u, hu⟩ : ∃ u, u = withInitName s b (snprintf rs485NameSize (name++['-']++port)) :=
          ⟨_, rfl⟩
        have hinit : ∀ b'', (u.bus b'').initName = if b'' = b
            then snprintf rs485NameSize (name++['-']++port) else (s.bus b'').initName := by
          intro b''
          by_cases he : b'' = b <;> simp [hu, withInitName, he]
        have hlist : u.busList = s.busList := by rw [hu]; rfl
        have hused : isRs485BusUsed env u port = isRs485BusUsed env s port := by rw [hu]; rfl
        simp only [rs485BusRegister, hname, hport, ← hu, hused]
        split_ifs with hfree
        · exact ⟨hinit, Or.inl hlist⟩
        · obtain ⟨hkept, hgrow⟩ := bus_start_names env u b a
          refine ⟨fun b'' => (hkept b'').trans (hinit b''), ?_⟩
          rw [hlist] at hgrow
          exact hgrow.imp_right fun hcons => ⟨Bool.eq_false_of_not_eq_true hfree, hcons⟩

theorem named_bus_register (hs : Named env s) (b : Option BusPtr) (a : BusAnswers) :
    Named env (rs485BusRegister env s b a).2 := by
  have hgrow : BusesGrow s (rs485BusRegister env s b a).2 := bus_register_grows s b a
  have hheld := held_buses_grow hs.held hgrow
  rcases bus_register_names env s b a with hsame | ⟨b', name, port, hname, hport, hinit, hlist⟩
  · rw [hsame]
    exact hs
  · refine ⟨hheld, fun b'' hb'' => ?_, ?_, ?_⟩
    · by_cases he : b'' = b'
      · exact ⟨name, port, he ▸ hname, he ▸ hport, by rw [hinit, if_pos he]⟩
      · have hb : b'' ∈ s.busList := by
          rcases hlist with hl | ⟨-, hl⟩
          · exact hl ▸ hb''
          · exact (List.mem_cons.mp (hl ▸ hb'')).resolve_left he
        rw [hinit, if_neg he]
        exact hs.names b'' hb
    · rcases hlist with hl | ⟨hfree, hl⟩
      · rw [hl]
        exact hs.ports
      · have hother : ∀ c ∈ s.busList, (env.bus c).portName ≠ (env.bus b').portName := by
          intro c hc he
          have hused : isRs485BusUsed env s port = true :=
            List.any_eq_true.mpr ⟨c, hc, by simp [he, hport]⟩
          exact absurd (hused.symm.trans hfree) (by decide)
        rw [hl]
        intro c hc c' hc' he
        rcases List.mem_cons.mp hc with hnew | hold
        · rcases List.mem_cons.mp hc' with hnew' | hold'
          · rw [hnew, hnew']
          · exact absurd (hnew ▸ he.symm) (hother c' hold')
        · rcases List.mem_cons.mp hc' with hnew' | hold'
          · exact absurd (hnew' ▸ he) (hother c hold)
          · exact hs.ports c hold c' hold' he
    · have hdevice : (rs485BusRegister env s b a).2.device = s.device := by rw [hgrow.frame]
      have hdevices : (rs485BusRegister env s b a).2.devices = s.devices := by rw [hgrow.frame]
      rw [hdevice, hdevices]
      exact hs.placed

/-- An operation that leaves the buses alone. -/
theorem named_same (hs : Named env s) (ht : Held t)
    (hbus : t.bus = s.bus ∧ t.busList = s.busList)
    (hplaced : ∀ d k, t.devices.owner d = some k → t.device d ≠ none) : Named env t := by
  refine ⟨ht, ?_, ?_, hplaced⟩
  · rw [hbus.1, hbus.2]
    exact hs.names
  · rw [hbus.2]
    exact hs.ports

theorem named_driver_register (hs : Named env s) {drv : DrvPtr} {name : CString} {malloc : Bool}
    {e : ℤ} (h : rs485DriverRegister env probe s drv name malloc = some (e, t)) :
    Named env t := by
  have ht := held_driver_register hs.held h
  rcases driver_register_cases hs.held.wired.settled h with ⟨-, -, rfl⟩ | ⟨b, k, -, -, hcases⟩
  · exact hs
  · rcases hcases with ⟨-, -, w, -, rfl⟩ | ⟨-, -, -, rfl⟩ | ⟨-, -, -, u, hfree, hswept, rfl⟩
    · exact named_same hs ht ⟨rfl, rfl⟩ hs.placed
    · exact named_same hs ht ⟨rfl, rfl⟩ hs.placed
    · have hbus : u.bus = s.bus ∧ u.busList = s.busList := by
        rw [hswept.frame]
        exact ⟨rfl, rfl⟩
      have hdevices : u.devices = s.devices := by rw [hswept.frame]; rfl
      refine named_same hs ht hbus fun d k hd => ?_
      change u.devices.owner d = some k at hd
      rw [hdevices] at hd
      exact swept_live hswept (hs.placed d k hd)

theorem named_device_create (hs : Named env s) {info : Rs485DeviceInfo} {calloc : Bool} {e : ℤ}
    {id : Option ℤ} (h : rs485DeviceCreate env probe s info calloc = some (e, id, t)) :
    Named env t := by
  have ht := held_device_create hs.held h
  have hunbound := dead_unbound hs.held.wired (next_dev_dead hs.held.wired)
  rcases device_create_cases hunbound h with
    ⟨-, rfl, -⟩ | ⟨-, -, rfl⟩ | ⟨-, -, -, -, b, k, u, hfree, -, -, hoffered, rfl⟩
  · exact hs
  · exact named_same hs ht ⟨rfl, rfl⟩ hs.placed
  · have hbus : u.bus = s.bus ∧ u.busList = s.busList := by cases hoffered <;> exact ⟨rfl, rfl⟩
    have hdevices : u.devices = s.devices := by cases hoffered <;> rfl
    have hdevice := offered_new hoffered
    refine named_same hs ht hbus fun d k' hd => ?_
    show u.device d ≠ none
    by_cases he : d = s.nextDev
    · obtain ⟨r, hr, -⟩ := hdevice.1
      simp [he, hr]
    · rw [attach_owner, if_neg he, hdevices] at hd
      rw [hdevice.2 d he]
      exact hs.placed d k' hd

theorem named_driver_unregister (hs : Named env s) {drv : Option DrvPtr}
    (h : rs485DriverUnregister env s drv = some t) : Named env t := by
  have ht := held_driver_unregister hs.held h
  cases drv with
  | none =>
    obtain rfl := Option.some.inj h
    exact hs
  | some drv =>
    rcases driver_unregister_cases h with ⟨-, rfl⟩ | ⟨p, u, -, -, -, hdet, rfl⟩
    · exact hs
    · have hbus : u.bus = s.bus ∧ u.busList = s.busList := by
        rw [hdet.frame]
        exact ⟨rfl, rfl⟩
      have hdevices : u.devices = s.devices := by rw [hdet.frame]
      refine named_same hs ht hbus fun d k hd => ?_
      change u.devices.owner d = some k at hd
      rw [hdevices] at hd
      show u.device d ≠ none
      by_cases hmem : d ∈ s.bound.items p
      · obtain ⟨-, r, -, -, hr⟩ := hdet.released d hmem
        simp [hr]
      · rw [(hdet.left d hmem).1]
        exact hs.placed d k hd

theorem named_device_destroy (hs : Named env s) {d : Option DevPtr}
    (h : rs485DeviceDestroy env s d = some t) : Named env t := by
  have ht := held_device_destroy hs.held h
  cases d with
  | none =>
    obtain rfl := Option.some.inj h
    exact hs
  | some d =>
    obtain ⟨-, r, -, heq⟩ := destroy_cases hs.held.wired h
    rw [heq] at ht ⊢
    refine named_same hs ht ⟨rfl, rfl⟩ fun e k he => ?_
    change (detach s.devices d).owner e = some k at he
    rw [detach_owner] at he
    split_ifs at he with hed
    simpa [hed] using hs.placed e k he

theorem named_step (hs : Named env s) (op : Op) (h : step env s op = some t) : Named env t := by
  refine step_cases (motive := fun _ t => Named env t) ?bus ?driver ?device ?unregister ?destroy h
  case bus => exact fun b a => named_bus_register hs b a
  case driver => exact fun _ _ _ _ _ _ hreg => named_driver_register hs hreg
  case device => exact fun _ _ _ _ _ _ hreg => named_device_create hs hreg
  case unregister => exact fun _ _ hun => named_driver_unregister hs hun
  case destroy => exact fun _ _ hdes => named_device_destroy hs hdes

end Preserved

section Exactness

variable {s : State}

/-- A request that finds its bus puts the device on it. -/
theorem device_reaches (hs : Named env s) {info : Rs485DeviceInfo} {b : BusPtr}
    (hb : busNamed s info.matchBus = some b) (hid : 0 ≤ findNextDeviceId s.table) {e : ℤ}
    {id : Option ℤ} {t : State} (h : rs485DeviceCreate env probe s info true = some (e, id, t)) :
    e = 0 ∧ DeviceOn t s.nextDev b := by
  have hunbound := dead_unbound hs.held.wired (next_dev_dead hs.held.wired)
  rcases device_create_cases hunbound h with
    ⟨-, -, hnone | hfail⟩ | ⟨-, hneg, -⟩ | ⟨rfl, -, -, -, b', k, u, hfree, hb', hk, hoffered, rfl⟩
  · exact absurd (hnone.symm.trans hb) (by simp)
  · exact absurd hfail (by decide)
  · omega
  · obtain rfl := Option.some.inj (hb.symm.trans hb')
    have hbus : u.bus = s.bus := by cases hoffered <;> rfl
    obtain ⟨⟨r, hr, hrbus⟩, -⟩ := offered_new hoffered
    refine ⟨rfl, List.mem_cons_self, ⟨r, hr, hrbus⟩, k, ?_, ?_⟩
    · exact (congrArg (fun bus => (bus b).p) hbus).trans (live_priv_some hk).1
    · exact (mem_attach u.devices s.nextDev s.nextDev k k hfree).mpr (Or.inr ⟨rfl, rfl⟩)

/-- A registration that finds its bus puts the driver on it. -/
theorem driver_reaches (hs : Named env s) {drv : DrvPtr} {name : CString} {malloc : Bool}
    {b : BusPtr} (hb : busNamed s name = some b) {e : ℤ} {t : State}
    (h : rs485DriverRegister env probe s drv name malloc = some (e, t)) :
    (t.driver drv).bus = some b ∧
      (e = 0 ∧ DriverOn t drv b ∨
        e = -EEXIST ∧ (∃ k, livePriv s b = some k ∧ NameOn env s k (env.driver drv).name) ∨
        e = -ENOMEM ∧ malloc = false) := by
  rcases driver_register_cases hs.held.wired.settled h with ⟨hnone, -, -⟩ | ⟨b', k, hb', hk, hcases⟩
  · exact absurd (hnone.symm.trans hb) (by simp)
  · obtain rfl := Option.some.inj (hb.symm.trans hb')
    have hset : ((withBus s drv b).driver drv).bus = some b := by simp [withBus]
    rcases hcases with ⟨hon, he, w, -, rfl⟩ | ⟨-, hm, he, rfl⟩ | ⟨-, -, he, u, hfree, hswept, rfl⟩
    · exact ⟨hset, Or.inr (Or.inl ⟨he, k, hk, hon⟩)⟩
    · exact ⟨hset, Or.inr (Or.inr ⟨he, hm⟩)⟩
    · have hdriver : u.driver drv = ⟨some b, some s.nextPriv⟩ := by
        rw [swept_driver hswept]
        simp [withPriv]
      have hbus : u.bus = s.bus := by rw [hswept.frame]; rfl
      have hp := congrArg Driver.p hdriver
      refine ⟨congrArg Driver.bus hdriver, Or.inl ⟨he, s.nextPriv, k, hp, ?_, ?_⟩⟩
      · exact (congrArg (fun bus => (bus b).p) hbus).trans (live_priv_some hk).1
      · exact (mem_attach u.drivers s.nextPriv s.nextPriv k k hfree).mpr (Or.inr ⟨rfl, rfl⟩)

theorem reaches_of_found (hs : Named env s) {q : CString} {b : BusPtr} (hcut : q.take 12 = q)
    (hb : busNamed s (customBusStr++['-']++q) = some b) : Reaches env s q b where
  device info deviceType mac info' hclient hid probe := by
    have hmatch : busNamed s info'.matchBus = some b := by
      rw [get_client_request hclient, custom_name, hcut, hb]
    refine ⟨fun e id t h => device_reaches hs hmatch hid h, fun hwhole => ?_⟩
    obtain ⟨k, hk, -⟩ := live_priv_standing hs.held.wired (bus_named_some hb).1
    obtain ⟨e, id, t, h⟩ : ∃ e id t, rs485DeviceCreate env probe s info' true = some (e, id, t) :=
      device_create_returns hs.held hs.placed hmatch hk (hwhole k hk) true
    exact ⟨_, h⟩
  driver drv malloc probe := by
    obtain ⟨e, t, h⟩ : ∃ e t, rs485DriverRegister env probe s drv (customBusStr++['-']++q) malloc =
        some (e, t) := driver_register_returns hs.held.wired hs.placed drv _ malloc
    exact ⟨e, t, h, driver_reaches hs hb h⟩

/-- Already a driver that gets to the bus tells that the whole name finds it. -/
theorem found_of_reaches (hs : Named env s) {q : CString} {b : BusPtr} (h : Reaches env s q b) :
    busNamed s (customBusStr++['-']++q) = some b := by
  obtain ⟨e, t, hreg, hbus, hend⟩ := h.driver 0 false fun _ _ => 0
  cases hb : busNamed s (customBusStr++['-']++q) with
  | none =>
    have he : e = -ENODEV := by
      rcases driver_register_cases hs.held.wired.settled hreg with ⟨-, he, -⟩ | ⟨b', k, hb', -⟩
      · exact he
      · exact absurd (hb.symm.trans hb') (by simp)
    subst he
    simp [ENODEV, EEXIST, ENOMEM] at hend
  | some b' => rw [← hbus, (driver_reaches hs hb hreg).1]

/-- In every state that can be reached a device request and a driver get to the
bus whose port they name, exactly when the port can be told from the others. -/
theorem request_reaches_iff (env : Env) (ops : List Op) :
    EveryState (step env) (fun s => Customs env s → ∀ b ∈ s.busList, ∀ q,
      (env.bus b).portName = some q → (Reaches env s q b ↔ Tellable env s q b)) initial ops := by
  have hnamed : EveryState (step env) (Named env) initial ops :=
    every_state_of_step (fun _ op _ hs h => named_step hs op h) initial (named_initial env) ops
  rw [every_state_iff] at hnamed ⊢
  intro pre s hpre hrun hc b hb q hq
  have hs := hnamed pre s hpre hrun
  rw [← whole_name_iff hs hc hb hq]
  constructor
  · exact found_of_reaches hs
  · intro hfound
    have htell := (whole_name_iff hs hc hb hq).mp hfound
    exact reaches_of_found hs (tellable_take htell) hfound

/-- Two ports of which the second goes on from the first. -/
def usbPorts : Env where
  bus b := ⟨some customBusStr,
    some (if b = 0 then "/dev/ttyUSB1".toList else "/dev/ttyUSB10".toList), true, false, false⟩
  driver _ := ⟨"curtain_custom_dooya".toList, true, true, true, true, ⟨3, 300, false⟩⟩

def bothUsb : List Op :=
  [.register (.bus (some 0) ⟨0, true, 0⟩), .register (.bus (some 1) ⟨0, true, 0⟩)]

theorem both_usb_end : (run (step usbPorts) initial bothUsb).bind (fun s =>
      (getClient (some ⟨[], none, fun _ => 0⟩) "/dev/ttyUSB1".toList .curtainCustomizeDooyaAll
        fun _ => 1).2.bind fun info =>
      (rs485DeviceCreate usbPorts (fun _ _ => 0) s info true).map fun r =>
        (s.busList, findNextDeviceId s.table, r.1, (r.2.2.device 0).map fun d => d.dev.bus)) =
    some ([1, 0], 1, 0, some (some 1)) := by
  rfl

/-- The device that is asked for on the first port is put on the second. -/
theorem request_goes_astray : ¬EveryState (step usbPorts) (fun s => Customs usbPorts s →
      ∀ b ∈ s.busList, ∀ q, (usbPorts.bus b).portName = some q → Reaches usbPorts s q b)
    initial bothUsb := by
  intro h
  obtain ⟨s, hs, hend⟩ := Option.bind_eq_some_iff.mp both_usb_end
  obtain ⟨info, hinfo, hend⟩ := Option.bind_eq_some_iff.mp hend
  obtain ⟨⟨e, id, t⟩, hcreate, hend⟩ := Option.map_eq_some_iff.mp hend
  simp only [Prod.mk.injEq] at hend
  obtain ⟨hlist, hid, -, hdevice⟩ := hend
  have hreach := (every_state_iff _ _ _).mp h bothUsb s (List.prefix_refl _) hs
    (fun b _ => rfl) 0 (by simp [hlist]) "/dev/ttyUSB1".toList rfl
  have hclient : getClient (some ⟨[], none, fun _ => 0⟩) "/dev/ttyUSB1".toList
      .curtainCustomizeDooyaAll (fun _ => 1) = (0, some info) := Prod.ext rfl hinfo
  have hfree : 0 ≤ findNextDeviceId s.table := by omega
  obtain ⟨-, -, ⟨r, hr, hbus⟩, -⟩ :=
    (hreach.device _ _ _ _ hclient hfree fun _ _ => 0).1 e id t hcreate
  have hnext : s.nextDev = 0 := by
    obtain rfl := Option.some.inj hs
    rfl
  rw [hnext] at hr
  simp [hr, hbus] at hdevice

end Exactness

end RS485.Naming
