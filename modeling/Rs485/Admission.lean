import Rs485.Naming
import Rs485.Shutdown

/-!
# Admitting a bus

The steps of `rs485_bus_register` and how those that were made are taken back
when a later one fails. A bus without a thread function is taken back as well,
but with the status of the step before it, which did not fail.
-/

set_option autoImplicit false

namespace RS485.Admission
open RS485.Platform RS485.Records RS485.Attached RS485.Registry RS485.Operations RS485.Naming
  RS485.Runs RS485.Shutdown

variable {env : Env} {probe : Probe}

section Spec

variable (env : Env) (s : State) (bus : Option BusPtr) (a : BusAnswers)

/-- The bus is put on the list, and its thread is started. -/
def Admitted : Prop :=
  ∃ b es, bus = some b ∧ (rs485BusRegister env s bus a).2.busList = b::s.busList ∧
    (rs485BusRegister env s bus a).2.log = es++s.log ∧ .threadStarted b ∈ es

/-- The list and the private parts are as before, no thread is started, and a bus that
was probed is removed afterwards. The log has the latest event first. -/
structure Undone : Prop where
  busList : (rs485BusRegister env s bus a).2.busList = s.busList
  busPriv : (rs485BusRegister env s bus a).2.busPriv = s.busPriv
  effects : ∃ es, (rs485BusRegister env s bus a).2.log = es++s.log ∧
    (∀ b, .threadStarted b ∉ es) ∧
    ∀ b, .busProbed b ∈ es → (env.bus b).remove = true →
      List.Sublist [.busRemoved b, .busProbed b] es

structure AllOrNothing : Prop where
  status : (rs485BusRegister env s bus a).1 = 0 ↔ Admitted env s bus a
  undone : ¬Admitted env s bus a → Undone env s bus a

/-- No step before that of the thread fails. -/
def ReachesThread : Prop :=
  ∃ b name port, bus = some b ∧ (env.bus b).name = some name ∧ (env.bus b).portName = some port ∧
    isRs485BusUsed env s port = false ∧ ((env.bus b).probe = true → a.probe = 0) ∧ a.malloc = true

/-- A bus that gets so far has a function for its thread. -/
def HasThread : Prop :=
  ReachesThread env s bus a → ∀ b, bus = some b → (env.bus b).pthreadFunc = true

def portNames (s : State) : List (Option CString) := s.busList.map fun b => (env.bus b).portName

end Spec

section Exactness

variable {s : State} {bus : Option BusPtr} {a : BusAnswers}

/-- A registration ends before its first step, or is that of a bus with a free port. -/
theorem register_cases (env : Env) (s : State) (bus : Option BusPtr) (a : BusAnswers) :
    (¬ReachesThread env s bus a ∧ ∃ e u, rs485BusRegister env s bus a = (e, u) ∧ e ≠ 0 ∧
        u.busList = s.busList ∧ u.busPriv = s.busPriv ∧ u.log = s.log) ∨
      ∃ b name port u, bus = some b ∧ (env.bus b).name = some name ∧
        (env.bus b).portName = some port ∧ isRs485BusUsed env s port = false ∧
        u.busList = s.busList ∧ u.busPriv = s.busPriv ∧ u.nextBus = s.nextBus ∧ u.log = s.log ∧
        rs485BusRegister env s bus a = busStart env u b a := by
  have hinval : -EINVAL ≠ 0 := by decide
  have hperm : -EPERM ≠ 0 := by decide
  cases bus with
  | none =>
    refine Or.inl ⟨?_, -EINVAL, s, rfl, hinval, rfl, rfl, rfl⟩
    rintro ⟨b, name, port, hb, -⟩
    exact absurd hb (by simp)
  | some b =>
    cases hname : (env.bus b).name with
    | none =>
      refine Or.inl ⟨?_, -EINVAL, s, by simp [rs485BusRegister, hname], hinval, rfl, rfl, rfl⟩
      rintro ⟨b', name, port, hb, hname', -⟩
      obtain rfl := Option.some.inj hb
      exact absurd (hname.symm.trans hname') (by simp)
    | some name =>
      cases hport : (env.bus b).portName with
      | none =>
        refine Or.inl ⟨?_, -EINVAL, s, by simp [rs485BusRegister, hname, hport], hinval, rfl, rfl,
          rfl⟩
        rintro ⟨b', name', port, hb, -, hport', -⟩
        obtain rfl := Option.some.inj hb
        exact absurd (hport.symm.trans hport') (by simp)
      | some port =>
        set u := withInitName s b (snprintf rs485NameSize (name++['-']++port)) with hu
        have hused : isRs485BusUsed env u port = isRs485BusUsed env s port := rfl
        have hopen : rs485BusRegister env s (some b) a =
            if isRs485BusUsed env s port then (-EPERM, u) else busStart env u b a := by
          simp only [rs485BusRegister, hname, hport, ← hu, hused]
        by_cases hfree : isRs485BusUsed env s port = false
        · rw [hfree] at hopen
          exact Or.inr ⟨b, name, port, u, rfl, hname, hport, hfree, rfl, rfl, rfl, rfl, hopen⟩
        · rw [Bool.eq_true_of_not_eq_false hfree] at hopen
          refine Or.inl ⟨?_, -EPERM, u, hopen, hperm, rfl, rfl, rfl⟩
          rintro ⟨b', name', port', hb, -, hport', hfree', -⟩
          obtain rfl := Option.some.inj hb
          obtain rfl := Option.some.inj (hport.symm.trans hport')
          exact hfree hfree'

theorem not_admitted (h : (rs485BusRegister env s bus a).2.busList = s.busList) :
    ¬Admitted env s bus a := by
  rintro ⟨b, es, -, hlist, -⟩
  have hlen := congrArg List.length (h.symm.trans hlist)
  simp at hlen

theorem nothing_of_undone (hret : (rs485BusRegister env s bus a).1 ≠ 0)
    (h : Undone env s bus a) : AllOrNothing env s bus a where
  status := iff_of_false hret (not_admitted h.busList)
  undone _ := h

theorem undone_of_silent (hlist : (rs485BusRegister env s bus a).2.busList = s.busList)
    (hpriv : (rs485BusRegister env s bus a).2.busPriv = s.busPriv)
    (hlog : (rs485BusRegister env s bus a).2.log = s.log) : Undone env s bus a :=
  ⟨hlist, hpriv, [], hlog, by simp, by simp⟩

/-- A bus that was probed, if it has a probe, and then removed. -/
theorem undone_of_removed {b : BusPtr}
    (hlist : (rs485BusRegister env s bus a).2.busList = s.busList)
    (hpriv : (rs485BusRegister env s bus a).2.busPriv = s.busPriv)
    (hlog : (rs485BusRegister env s bus a).2.log = removing env b++(probing env b++s.log)) :
    Undone env s bus a := by
  refine ⟨hlist, hpriv, removing env b++probing env b, by rw [hlog, List.append_assoc], ?_, ?_⟩
  · intro b'
    simp [removing, probing]
  · intro b' hprobed hremove
    obtain ⟨rfl, hprobe⟩ : b' = b ∧ (env.bus b).probe = true := by
      simpa [removing, probing, and_comm] using hprobed
    simp [removing, probing, hremove, hprobe]

theorem has_thread_iff {b : BusPtr} {name port : CString} (hname : (env.bus b).name = some name)
    (hport : (env.bus b).portName = some port) (hfree : isRs485BusUsed env s port = false) :
    HasThread env s (some b) a ↔
      (¬ProbeFails env b a → a.malloc = true → (env.bus b).pthreadFunc = true) := by
  unfold HasThread ReachesThread ProbeFails
  constructor
  · intro h hprobe hmalloc
    refine h ⟨b, name, port, rfl, hname, hport, hfree, ?_, hmalloc⟩ b rfl
    intro hp
    exact not_not.mp fun hne => hprobe ⟨hp, hne⟩
  · rintro h ⟨b', -, -, hb, -, -, -, hprobe, hmalloc⟩ b'' hb''
    obtain rfl := Option.some.inj hb
    obtain rfl := Option.some.inj hb''
    exact h (fun hfails => hfails.2 (hprobe hfails.1)) hmalloc

/-- A registration is all or nothing unless it gets to a thread function that is
not there. -/
theorem all_or_nothing_iff (hfresh : s.busPriv s.nextBus = none) :
    AllOrNothing env s bus a ↔ HasThread env s bus a := by
  rcases register_cases env s bus a with ⟨hnot, e, u, hend, hret, hlist, hpriv, hlog⟩ |
    ⟨b, name, port, u, rfl, hname, hport, hfree, hlist, hpriv, hnext, hlog, hend⟩
  · refine iff_of_true (nothing_of_undone ?_ (undone_of_silent ?_ ?_ ?_)) fun h => absurd h hnot
      <;> rw [hend]
    exacts [hret, hlist, hpriv, hlog]
  · rw [has_thread_iff hname hport hfree]
    rcases bus_start_cases env u b a with ⟨hprobe, hstart⟩ | ⟨-, hmalloc, hstart⟩ |
      ⟨hprobe, hmalloc, hthread, hstart⟩ | ⟨-, -, hfunc, -, hstart⟩ <;> rw [hstart] at hend
    · refine iff_of_true (nothing_of_undone ?_ (undone_of_silent ?_ ?_ ?_)) fun h => absurd hprobe h
        <;> rw [hend]
      exacts [hprobe.2, hlist, hpriv, hlog]
    · refine iff_of_true (nothing_of_undone ?_ (undone_of_removed (b := b) ?_ ?_ ?_)) fun _ h => ?_
      · rw [hend]
        exact (by decide : -ENOMEM ≠ 0)
      · rw [hend, ← hlist]
      · rw [hend, ← hpriv]
      · rw [hend, ← hlog]
      · exact absurd (hmalloc.symm.trans h) (by decide)
    · have hundone : Undone env s (some b) a := by
        apply undone_of_removed (b := b)
        · rw [hend, ← hlist]
          rfl
        · rw [hend, ← hpriv]
          show Function.update u.busPriv u.nextBus none = u.busPriv
          rw [← hfresh, ← hpriv, ← hnext, Function.update_eq_self]
        · rw [hend, ← hlog]
      cases hfunc : (env.bus b).pthreadFunc with
      | false =>
        refine iff_of_false (fun h => ?_) fun h => absurd (h hprobe hmalloc) (by decide)
        have hret : (rs485BusRegister env s (some b) a).1 = 0 := by
          rw [hend, hfunc]
          rfl
        exact not_admitted hundone.busList (h.status.mp hret)
      | true =>
        refine iff_of_true (nothing_of_undone ?_ hundone) fun _ _ => rfl
        rw [hend, hfunc]
        exact hthread.resolve_left (by rw [hfunc]; decide)
    · have hadmitted : Admitted env s (some b) a := by
        refine ⟨b, .threadStarted b::probing env b, rfl, ?_, ?_, List.mem_cons_self⟩
        · rw [hend, ← hlist]
        · rw [hend, ← hlog]
          rfl
      have hret : (rs485BusRegister env s (some b) a).1 = 0 := by rw [hend]
      exact iff_of_true ⟨iff_of_true hret hadmitted, fun h => absurd hadmitted h⟩ fun _ _ => hfunc

end Exactness

section Buses

/-- The fields that speak of buses. -/
def buses (s : State) : (BusPtr → Bus) × List BusPtr × (BusPriv → Option BusPtr) × BusPriv :=
  (s.bus, s.busList, s.busPriv, s.nextBus)

variable {s t : State} {d : DevPtr} {drv : DrvPtr} {e : ℤ}

theorem for_each_drv_buses {bus : Option BusPtr} {fn : DrvPtr → State → Option (ℤ × State)}
    (hfn : ∀ drv s e t, fn drv s = some (e, t) → buses t = buses s)
    (h : busForEachDrv s bus fn = some (e, t)) : buses t = buses s := by
  cases bus with
  | none =>
    obtain ⟨-, rfl⟩ := Prod.mk.inj (Option.some.inj h)
    rfl
  | some b =>
    simp only [busForEachDrv, Option.bind_eq_bind, Option.bind_eq_some_iff, Prod.exists,
      Option.some.injEq, Prod.mk.injEq] at h
    obtain ⟨k, -, e', w, u, hwalk, rfl, rfl⟩ := h
    have hu : buses u = buses s := by
      refine for_each_keeps buses (fun p s e t hp => ?_) hwalk
      obtain ⟨drv, -, hdrv⟩ := Option.bind_eq_some_iff.mp hp
      exact hfn drv s e t hdrv
    exact hu

theorem for_each_dev_buses {bus : Option BusPtr} {fn : DevPtr → State → Option (ℤ × State)}
    (hfn : ∀ d s e t, fn d s = some (e, t) → buses t = buses s)
    (h : busForEachDev s bus fn = some (e, t)) : buses t = buses s := by
  cases bus with
  | none =>
    obtain ⟨-, rfl⟩ := Prod.mk.inj (Option.some.inj h)
    rfl
  | some b =>
    simp only [busForEachDev, Option.bind_eq_bind, Option.bind_eq_some_iff, Prod.exists,
      Option.some.injEq, Prod.mk.injEq] at h
    obtain ⟨k, -, e', w, u, hwalk, rfl, rfl⟩ := h
    have hu : buses u = buses s := for_each_keeps buses hfn hwalk
    exact hu

theorem driver_bound_buses (h : driverBound s d = some t) : buses t = buses s := by
  simp only [driverBound, Option.bind_eq_bind, Option.bind_eq_some_iff] at h
  obtain ⟨r, -, h⟩ := h
  split_ifs at h
  · obtain rfl := Option.some.inj h
    rfl
  · simp only [Option.bind_eq_some_iff, Option.some.injEq] at h
    obtain ⟨drv, -, p, -, q, -, w, -, rfl⟩ := h
    rfl

theorem really_probe_buses (h : reallyProbe env probe s d drv = some (e, t)) :
    buses t = buses s := by
  unfold reallyProbe at h
  generalize (if (env.driver drv).probe then probe drv d else 0) = ret at h
  by_cases hret : ret = 0
  · simp only [hret, ne_eq, not_true_eq_false, if_false, Option.bind_eq_bind,
      Option.bind_eq_some_iff, Option.some.injEq, Prod.mk.injEq] at h
    obtain ⟨u, hu, -, rfl⟩ := h
    have hbound := driver_bound_buses hu
    exact hbound
  · simp only [hret, ne_eq, not_false_eq_true, if_true, Option.some.injEq, Prod.mk.injEq] at h
    rw [← h.2]
    rfl

theorem probe_device_buses (h : driverProbeDevice env probe drv s d = some (e, t)) :
    buses t = buses s := by
  simp only [driverProbeDevice, Option.bind_eq_bind, Option.bind_eq_some_iff] at h
  obtain ⟨r, -, h⟩ := h
  split_ifs at h
  · obtain ⟨-, rfl⟩ := Prod.mk.inj (Option.some.inj h)
    rfl
  · obtain ⟨b, -, h⟩ := Option.bind_eq_some_iff.mp h
    obtain ⟨-, rfl⟩ := Prod.mk.inj (Option.some.inj h)
    rfl
  · obtain ⟨b, -, h⟩ := Option.bind_eq_some_iff.mp h
    exact really_probe_buses h

theorem attach_to_buses (h : driverAttachTo env probe drv d s = some (e, t)) :
    buses t = buses s := by
  simp only [driverAttachTo, Option.bind_eq_bind, Option.bind_eq_some_iff] at h
  obtain ⟨r, -, h⟩ := h
  split at h
  · obtain ⟨-, rfl⟩ := Prod.mk.inj (Option.some.inj h)
    rfl
  · simp only [Option.bind_eq_some_iff, Prod.exists, Option.some.injEq, Prod.mk.injEq] at h
    obtain ⟨e', u, hu, -, rfl⟩ := h
    exact probe_device_buses hu

theorem device_attach_buses (h : deviceAttach env probe s d = some (e, t)) :
    buses t = buses s := by
  simp only [deviceAttach, Option.bind_eq_bind, Option.bind_eq_some_iff] at h
  obtain ⟨r, -, h⟩ := h
  split at h
  · simp only [Option.bind_eq_some_iff, Option.some.injEq, Prod.mk.injEq] at h
    obtain ⟨u, hu, -, rfl⟩ := h
    exact driver_bound_buses hu
  · exact for_each_drv_buses (fun drv s e t hdrv => probe_device_buses hdrv) h

theorem attach_device_buses (h : busAttachDevice env probe s d = some t) : buses t = buses s := by
  simp only [busAttachDevice, Option.bind_eq_bind, Option.bind_eq_some_iff] at h
  obtain ⟨r, -, h⟩ := h
  split at h
  · obtain rfl := Option.some.inj h
    rfl
  · simp only [Option.bind_eq_some_iff, Prod.exists] at h
    obtain ⟨ret, u, hattach, h⟩ := h
    have hu := device_attach_buses hattach
    split_ifs at h
    · simp only [Option.bind_eq_some_iff, Option.some.injEq] at h
      obtain ⟨k, -, w, -, rfl⟩ := h
      exact hu
    · obtain rfl := Option.some.inj h
      exact hu

theorem add_driver_buses {malloc : Bool} (h : busAddDriver env probe s drv malloc = some (e, t)) :
    buses t = buses s := by
  simp only [busAddDriver] at h
  split at h
  · obtain ⟨-, rfl⟩ := Prod.mk.inj (Option.some.inj h)
    rfl
  · cases malloc with
    | false =>
      obtain ⟨-, rfl⟩ := Prod.mk.inj (Option.some.inj h)
      rfl
    | true =>
      simp only [if_true, Option.bind_eq_bind, Option.bind_eq_some_iff, Prod.exists] at h
      obtain ⟨e', u, hattach, h⟩ := h
      have hu := for_each_dev_buses (fun d s e t hd => attach_to_buses hd) hattach
      split_ifs at h
      · obtain ⟨-, rfl⟩ := Prod.mk.inj (Option.some.inj h)
        exact hu
      · simp only [Option.bind_eq_some_iff, Option.some.injEq, Prod.mk.injEq] at h
        obtain ⟨k, -, w, -, -, rfl⟩ := h
        exact hu

theorem driver_register_buses {name : CString} {malloc : Bool}
    (h : rs485DriverRegister env probe s drv name malloc = some (e, t)) : buses t = buses s := by
  simp only [rs485DriverRegister] at h
  split at h
  · obtain ⟨-, rfl⟩ := Prod.mk.inj (Option.some.inj h)
    rfl
  · simp only [driverRegister, driverFind, Option.bind_eq_bind, Option.bind_eq_some_iff,
      Prod.exists] at h
    obtain ⟨found, u, hfind, h⟩ := h
    have hu := for_each_drv_buses (fun p s e t hp => by
      obtain ⟨-, rfl⟩ := Prod.mk.inj (Option.some.inj hp)
      rfl) hfind
    split_ifs at h
    · obtain ⟨-, rfl⟩ := Prod.mk.inj (Option.some.inj h)
      exact hu
    · exact (add_driver_buses h).trans hu

theorem set_name_buses (s : State) (d : DevPtr) (initName : Option CString) :
    buses (devSetName s d initName) = buses s := by
  cases initName <;> rfl

theorem device_add_buses (h : deviceAdd env probe s d = some (e, t)) : buses t = buses s := by
  simp only [deviceAdd, Option.bind_eq_bind, Option.bind_eq_some_iff] at h
  obtain ⟨r, -, r', -, h⟩ := h
  split_ifs at h
  · obtain ⟨-, rfl⟩ := Prod.mk.inj (Option.some.inj h)
    exact set_name_buses _ _ _
  · simp only [Option.bind_eq_some_iff, Option.some.injEq, Prod.mk.injEq] at h
    obtain ⟨u, hu, -, rfl⟩ := h
    exact (attach_device_buses hu).trans (set_name_buses _ _ _)

theorem device_create_buses {info : Rs485DeviceInfo} {calloc : Bool} {id : Option ℤ}
    (h : rs485DeviceCreate env probe s info calloc = some (e, id, t)) : buses t = buses s := by
  simp only [rs485DeviceCreate] at h
  split at h
  · simp only [Option.some.injEq, Prod.mk.injEq] at h
    rw [h.2.2]
  · cases calloc with
    | false =>
      simp only [Bool.false_eq_true, if_false, Option.some.injEq, Prod.mk.injEq] at h
      rw [h.2.2]
    | true =>
      simp only [if_true] at h
      split_ifs at h
      · simp only [Option.some.injEq, Prod.mk.injEq] at h
        rw [← h.2.2]
        rfl
      · simp only [Option.bind_eq_bind, Option.bind_eq_some_iff, Prod.exists] at h
        obtain ⟨retval, u, hadd, h⟩ := h
        have hu := device_add_buses hadd
        split_ifs at h <;>
        · simp only [Option.some.injEq, Prod.mk.injEq] at h
          rw [← h.2.2]
          exact hu

theorem driver_unregister_buses {drv : Option DrvPtr}
    (h : rs485DriverUnregister env s drv = some t) : buses t = buses s := by
  cases drv with
  | none =>
    obtain rfl := Option.some.inj h
    rfl
  | some drv =>
    rcases driver_unregister_cases h with ⟨-, rfl⟩ | ⟨p, u, -, -, -, hdet, rfl⟩
    · rfl
    · show buses u = buses s
      rw [hdet.frame]
      rfl

theorem device_destroy_buses {d : Option DevPtr} (h : rs485DeviceDestroy env s d = some t) :
    buses t = buses s := by
  cases d with
  | none =>
    obtain rfl := Option.some.inj h
    rfl
  | some d =>
    simp only [rs485DeviceDestroy] at h
    split_ifs at h
    simp only [deviceUnregister, deviceDel, busRemoveDevice, Option.bind_eq_bind,
      Option.bind_eq_some_iff, Option.some.injEq] at h
    obtain ⟨r, -, u, ⟨v, ⟨r', -, h⟩, rfl⟩, rfl⟩ := h
    show buses v = buses s
    split at h
    · obtain rfl := Option.some.inj h
      rfl
    · obtain ⟨w, -, hrel⟩ := Option.bind_eq_some_iff.mp h
      obtain ⟨r'', -, ⟨-, rfl⟩ | ⟨drv, -, -, rfl⟩⟩ := release_cases hrel
      · rfl
      · rfl

end Buses

section Reachable

variable {s t : State}

/-- The ports of the buses differ, and the next private part is a new one. -/
structure Sited (env : Env) (s : State) : Prop where
  ports : (portNames env s).Nodup
  fresh : ∀ k, s.busPriv k ≠ none → k < s.nextBus

theorem sited_initial (env : Env) : Sited env initial where
  ports := List.nodup_nil
  fresh _ h := by simp [initial] at h

theorem sited_next (hs : Sited env s) : s.busPriv s.nextBus = none := by
  by_contra hne
  exact lt_irrefl _ (hs.fresh _ hne)

theorem sited_same (hs : Sited env s) (h : buses t = buses s) : Sited env t := by
  simp only [buses, Prod.mk.injEq] at h
  obtain ⟨-, hlist, hpriv, hnext⟩ := h
  constructor
  · rw [portNames, hlist]
    exact hs.ports
  · rw [hpriv, hnext]
    exact hs.fresh

theorem sited_bus_register (hs : Sited env s) (bus : Option BusPtr) (a : BusAnswers) :
    Sited env (rs485BusRegister env s bus a).2 := by
  have hgrow : BusesGrow s (rs485BusRegister env s bus a).2 := bus_register_grows s bus a
  have hfresh : ∀ k, (rs485BusRegister env s bus a).2.busPriv k ≠ none →
      k < (rs485BusRegister env s bus a).2.nextBus := by
    intro k hk
    by_cases he : k = s.nextBus
    · subst he
      rcases hgrow.next.2 with hsame | hlt
      · exact absurd (hsame.trans (sited_next hs)) hk
      · exact hlt
    · exact lt_of_lt_of_le (hs.fresh k (hgrow.privs k he ▸ hk)) hgrow.next.1
  rcases bus_register_names env s bus a with hsame | ⟨b, name, port, -, hport, -, hlist⟩
  · rw [hsame]
    exact hs
  · rcases hlist with hl | ⟨hfree, hl⟩
    · refine ⟨?_, hfresh⟩
      rw [portNames, hl]
      exact hs.ports
    · have hother : (env.bus b).portName ∉ portNames env s := by
        intro hmem
        obtain ⟨c, hc, he⟩ := List.mem_map.mp hmem
        have hused : isRs485BusUsed env s port = true :=
          List.any_eq_true.mpr ⟨c, hc, by simp [he, hport]⟩
        exact absurd (hused.symm.trans hfree) (by decide)
      refine ⟨?_, hfresh⟩
      rw [portNames, hl]
      exact List.nodup_cons.mpr ⟨hother, hs.ports⟩

theorem sited_shrunk (hs : Sited env s) (hlist : t.busList.Sublist s.busList)
    (hpriv : ∀ k, t.busPriv k ≠ none → s.busPriv k ≠ none) (hnext : t.nextBus = s.nextBus) :
    Sited env t where
  ports := hs.ports.sublist (hlist.map _)
  fresh k hk := by
    rw [hnext]
    exact hs.fresh k (hpriv k hk)

theorem unregister_priv (s : State) (b : BusPtr) (k : BusPriv)
    (h : (busUnregister s b).busPriv k ≠ none) : s.busPriv k ≠ none := by
  unfold busUnregister at h
  split at h
  · exact h
  · next k' _ =>
    by_cases he : k = k'
    · simp [he] at h
    · simpa [he] using h

theorem sited_bus_unregister (hs : Sited env s) {bus : Option BusPtr}
    (h : rs485BusUnregister env s bus = some t) : Sited env t := by
  cases bus with
  | none =>
    obtain rfl := Option.some.inj h
    exact hs
  | some b =>
    simp only [rs485BusUnregister] at h
    split_ifs at h
    obtain rfl := Option.some.inj h
    have hshown (u : State) : (busRemove env u b).busList = u.busList ∧
        (busRemove env u b).busPriv = u.busPriv := by
      rw [bus_remove_eq]
      exact ⟨rfl, rfl⟩
    have hrest : ∀ u : State, (busUnregister u b).busList = u.busList ∧
        (busRemove env u b).nextBus = u.nextBus ∧ (busUnregister u b).nextBus = u.nextBus := by
      intro u
      unfold busUnregister busRemove
      refine ⟨?_, ?_, ?_⟩
      · split <;> rfl
      · split_ifs <;> rfl
      · split <;> rfl
    refine sited_shrunk hs ?_ (fun k hk => ?_) ?_
    · rw [(hshown _).1, (hrest _).1]
      exact List.erase_sublist
    · rw [(hshown _).2] at hk
      have hold := unregister_priv _ b k hk
      exact hold
    · rw [(hrest _).2.1, (hrest _).2.2]

theorem sited_bus_exit (hs : Sited env s) {bus : Option BusPtr} {e : ℤ}
    (h : busExitcalls env s bus = some (e, t)) : Sited env t := by
  simp only [busExitcalls, Option.bind_eq_bind, Option.bind_eq_some_iff, Prod.exists] at h
  obtain ⟨retval, u, hexit, h⟩ := h
  have hsame : t = u := by
    split_ifs at h <;> exact (Prod.mk.inj (Option.some.inj h)).2.symm
  subst hsame
  cases bus with
  | none =>
    obtain ⟨-, rfl⟩ := Prod.mk.inj (Option.some.inj hexit)
    exact hs
  | some b =>
    simp only [customExit, Option.bind_eq_bind, Option.bind_eq_some_iff] at hexit
    obtain ⟨name, -, hexit⟩ := hexit
    split_ifs at hexit
    · obtain ⟨-, rfl⟩ := Prod.mk.inj (Option.some.inj hexit)
      exact hs
    · obtain ⟨v, hv, hend⟩ := Option.bind_eq_some_iff.mp hexit
      obtain ⟨-, rfl⟩ := Prod.mk.inj (Option.some.inj hend)
      exact sited_shrunk (sited_bus_unregister hs hv) (List.Sublist.refl _) (fun _ hk => hk) rfl

theorem sited_call (c : Call) (hs : Sited env s) (h : call env s c = some t) : Sited env t := by
  cases c with
  | core op =>
    refine step_cases (motive := fun _ t => Sited env t) ?bus ?driver ?device ?unregister ?destroy h
    case bus => exact fun b a => sited_bus_register hs b a
    case driver => exact fun _ _ _ _ _ _ hreg => sited_same hs (driver_register_buses hreg)
    case device => exact fun _ _ _ _ _ _ hreg => sited_same hs (device_create_buses hreg)
    case unregister => exact fun _ _ hun => sited_same hs (driver_unregister_buses hun)
    case destroy => exact fun _ _ hdes => sited_same hs (device_destroy_buses hdes)
  | busUnregister b => exact sited_bus_unregister hs h
  | busExit b =>
    obtain ⟨⟨e, u⟩, hexit, hu⟩ := Option.bind_eq_some_iff.mp h
    obtain rfl := Option.some.inj hu
    exact sited_bus_exit hs hexit

end Reachable

/-- In every state that can be reached the ports of the buses differ, and any
registration of a bus is all or nothing if and only if the bus has a function
for its thread, or does not get that far. -/
theorem admission_iff (env : Env) (calls : List Call) :
    EveryState (call env) (fun s => (portNames env s).Nodup ∧ ∀ bus a,
      (AllOrNothing env s bus a ↔ HasThread env s bus a)) initial calls := by
  have hsited : EveryState (call env) (Sited env) initial calls :=
    every_state_of_step (fun _ c _ hs h => sited_call c hs h) initial (sited_initial env) calls
  rw [every_state_iff] at hsited ⊢
  intro pre s hpre hrun
  have hs := hsited pre s hpre hrun
  exact ⟨hs.ports, fun bus a => all_or_nothing_iff (sited_next hs)⟩

/-- A bus like the one of `custom.c` without its `pthread_func`. -/
def threadless : Env where
  bus _ := ⟨some customBusStr, some "/dev/ttyUSB1".toList, false, true, true⟩
  driver _ := ⟨"curtain_custom_dooya".toList, true, true, true, true, ⟨3, 300, false⟩⟩

/-- The registration reports success, with no bus on the list. -/
theorem success_without_thread :
    (rs485BusRegister threadless initial (some 0) ⟨0, true, 0⟩).1 = 0 ∧
      (rs485BusRegister threadless initial (some 0) ⟨0, true, 0⟩).2.busList = [] ∧
      ¬AllOrNothing threadless initial (some 0) ⟨0, true, 0⟩ := by
  have hret : (rs485BusRegister threadless initial (some 0) ⟨0, true, 0⟩).1 = 0 := rfl
  have hlist : (rs485BusRegister threadless initial (some 0) ⟨0, true, 0⟩).2.busList = [] := rfl
  exact ⟨hret, hlist, fun h => not_admitted hlist (h.status.mp hret)⟩

end RS485.Admission
