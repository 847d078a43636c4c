import Rs485.Wiring

/-!
# Which device holds which id

A device keeps its id as long as it lives, the table names it under that id and
under no other, and the core never touches the driver that the message loop
looks for in the record. A new device takes an id that no live device holds.
-/

set_option autoImplicit false

namespace RS485.Identity
open RS485.Platform RS485.Records RS485.Mdev RS485.Attached RS485.Registry RS485.Probing
  RS485.Operations RS485.Wiring

variable {env : Env} {probe : Probe}

/-- What the message loop reads of a device record. -/
def face (r : Rs485Device) : ℤ × Option DrvPtr := (r.id, r.driver)

def SameFace (s t : State) (d : DevPtr) : Prop := (t.device d).map face = (s.device d).map face

theorem same_face_some {s t : State} {d : DevPtr} (h : SameFace s t d) {r' : Rs485Device}
    (hr : t.device d = some r') : ∃ r, s.device d = some r ∧ r'.id = r.id ∧ r'.driver = r.driver := by
  unfold SameFace at h
  rw [hr] at h
  obtain ⟨r, hr, hface⟩ := Option.map_eq_some_iff.mp h.symm
  simp only [face, Prod.mk.injEq] at hface
  exact ⟨r, hr, hface.1.symm, hface.2.symm⟩

/-- What a step does to the ids and to the records the message loop reads. -/
inductive Moves (s t : State) : Op → Prop
  | still (op : Op) (faces : ∀ d, SameFace s t d) (table : t.table = s.table)
      (next : t.nextDev = s.nextDev) : Moves s t op
  | full (op : Op) (faces : ∀ d, SameFace s t d)
      (table : t.table = store s.table (-EPERM) (some s.nextDev))
      (next : t.nextDev = s.nextDev+1) : Moves s t op
  | created (op : Op) (id : ℤ) (hid : IsId id) (free : s.table.cell id = none)
      (new : (t.device s.nextDev).map face = some (id, none))
      (faces : ∀ d, d ≠ s.nextDev → SameFace s t d)
      (table : t.table = store s.table id (some s.nextDev))
      (next : t.nextDev = s.nextDev+1) : Moves s t op
  | destroyed (d : DevPtr) (r : Rs485Device) (old : s.device d = some r)
      (gone : t.device d = none) (faces : ∀ e, e ≠ d → SameFace s t e)
      (table : t.table = freeDeviceId s.table r.id) (next : t.nextDev = s.nextDev) :
      Moves s t (.deviceDestroy (some d))

variable {s t : State}

theorem moves_self (s : State) (op : Op) : Moves s s op := .still op (fun _ => rfl) rfl rfl

theorem swept_same_face {drv : DrvPtr} {ds : List DevPtr} (h : Swept env probe drv ds s t)
    (d : DevPtr) : SameFace s t d := by
  unfold SameFace
  by_cases hd : d ∈ ds ∧ Taken env probe drv s d
  · rw [(h.taken d hd.1 hd.2).1, Option.map_map]
    rfl
  · rw [(h.left d hd).1]

theorem detached_same_face {drv : DrvPtr} {p : DrvPriv} (h : Detached drv p s t) (d : DevPtr) :
    SameFace s t d := by
  unfold SameFace
  by_cases hd : d ∈ s.bound.items p
  · obtain ⟨-, r, hr, -, ht⟩ := h.released d hd
    rw [hr, ht]
    rfl
  · rw [(h.left d hd).1]

theorem offered_same_face {d : DevPtr} {r : Rs485Device} {k : BusPriv}
    (h : Offered env probe s d r k t) (e : DevPtr) : SameFace s t e := by
  cases h with
  | refused _ => rfl
  | taken p drv q w hfree hmem hdrv htakes hq hlive hw =>
    show ((bindTo s d drv q hfree).device e).map face = (s.device e).map face
    rw [bind_to_device]
    split_ifs with he
    · rw [he, Option.map_map]
      rfl
    · rfl

theorem moves_driver_register (hs : Wired s) {drv : DrvPtr} {name : CString} {malloc : Bool}
    {e : ℤ} (op : Op) (h : rs485DriverRegister env probe s drv name malloc = some (e, t)) :
    Moves s t op := by
  rcases driver_register_cases hs.settled h with ⟨-, -, rfl⟩ | ⟨b, k, -, -, hcases⟩
  · exact moves_self _ op
  · rcases hcases with ⟨-, -, w, -, rfl⟩ | ⟨-, -, -, rfl⟩ | ⟨-, -, -, u, hfree, hswept, rfl⟩
    · exact .still op (fun _ => rfl) rfl rfl
    · exact .still op (fun _ => rfl) rfl rfl
    · have htable : u.table = s.table := by rw [hswept.frame]; rfl
      have hnext : u.nextDev = s.nextDev := by rw [hswept.frame]; rfl
      exact .still op (fun d => swept_same_face hswept d) htable hnext

theorem moves_device_create (hs : Wired s) {info : Rs485DeviceInfo} {calloc : Bool} {e : ℤ}
    {id : Option ℤ} (op : Op) (h : rs485DeviceCreate env probe s info calloc = some (e, id, t)) :
    Moves s t op := by
  rcases device_create_cases (dead_unbound hs (next_dev_dead hs)) h with
    ⟨-, rfl, -⟩ | ⟨-, hneg, rfl⟩ | ⟨-, -, hge, -, b, k, u, hfree, -, -, hoffered, rfl⟩
  · exact moves_self _ op
  · rcases find_next_spec s.table with ⟨hid, -⟩ | ⟨herr, -⟩
    · have := hid.1
      omega
    · exact .full op (fun _ => rfl) (herr ▸ rfl) rfl
  · rcases find_next_spec s.table with ⟨hid, hcell, -⟩ | ⟨herr, -⟩
    swap
    · exact absurd (herr ▸ hge) (by decide)
    have hface (d : DevPtr) : (u.device d).map face = ((withDevice s b info).device d).map face :=
      offered_same_face hoffered d
    have htable : u.table = store s.table (findNextDeviceId s.table) (some s.nextDev) := by
      cases hoffered <;> rfl
    have hnext : u.nextDev = s.nextDev+1 := by cases hoffered <;> rfl
    refine .created op _ hid hcell ?_ (fun d hd => ?_) htable hnext
    · exact (hface s.nextDev).trans (by simp [withDevice, newDevice, face])
    · exact (hface d).trans (by simp [withDevice, hd])

theorem moves_driver_unregister {drv : Option DrvPtr} (op : Op)
    (h : rs485DriverUnregister env s drv = some t) : Moves s t op := by
  cases drv with
  | none =>
    obtain rfl := Option.some.inj h
    exact moves_self s op
  | some drv =>
    rcases driver_unregister_cases h with ⟨-, rfl⟩ | ⟨p, u, -, -, -, hdet, rfl⟩
    · exact moves_self _ op
    · have htable : u.table = s.table := by rw [hdet.frame]
      have hnext : u.nextDev = s.nextDev := by rw [hdet.frame]
      exact .still op (fun d => detached_same_face hdet d) htable hnext

theorem moves_device_destroy (hs : Wired s) {d : Option DevPtr}
    (h : rs485DeviceDestroy env s d = some t) : Moves s t (.deviceDestroy d) := by
  cases d with
  | none =>
    obtain rfl := Option.some.inj h
    exact moves_self s _
  | some d =>
    obtain ⟨-, r, hr, ht⟩ := destroy_cases hs h
    rw [ht]
    exact .destroyed d r hr (by simp) (fun e he => by simp [SameFace, he]) rfl rfl

theorem moves_step (hs : Wired s) (op : Op) (h : step env s op = some t) : Moves s t op := by
  refine step_cases (motive := fun op t => Moves s t op) ?bus ?driver ?device ?unregister ?destroy h
  case bus =>
    intro b a
    have hgrow : BusesGrow s (rs485BusRegister env s b a).2 := bus_register_grows s b a
    have hframe := hgrow.frame
    exact .still _ (fun d => by rw [hframe]; rfl) (by rw [hframe]) (by rw [hframe])
  case driver => exact fun _ _ _ _ _ _ hreg => moves_driver_register hs _ hreg
  case device => exact fun _ _ _ _ _ _ hreg => moves_device_create hs _ hreg
  case unregister => exact fun _ _ hun => moves_driver_unregister _ hun
  case destroy => exact fun _ _ hdes => moves_device_destroy hs hdes

/-- A device that lives after a step lived before it with the same face, or it is new. -/
theorem moves_source {op : Op} (h : Moves s t op) (d : DevPtr) (r' : Rs485Device)
    (hr : t.device d = some r') :
    (∃ r, s.device d = some r ∧ r'.id = r.id ∧ r'.driver = r.driver) ∨
      d = s.nextDev ∧ r'.driver = none := by
  cases h with
  | still _ faces _ _ => exact Or.inl (same_face_some (faces d) hr)
  | full _ faces _ _ => exact Or.inl (same_face_some (faces d) hr)
  | created _ id _ _ new faces _ _ =>
    by_cases hd : d = s.nextDev
    · subst hd
      rw [hr] at new
      exact Or.inr ⟨rfl, congrArg Prod.snd (Option.some.inj new)⟩
    · exact Or.inl (same_face_some (faces d hd) hr)
  | destroyed d' r _ gone faces _ _ =>
    by_cases hd : d = d'
    · subst hd
      exact absurd (gone.symm.trans hr) (by simp)
    · exact Or.inl (same_face_some (faces d hd) hr)

theorem moves_next {op : Op} (h : Moves s t op) : s.nextDev ≤ t.nextDev := by
  cases h with
  | still _ _ _ next => exact next.ge
  | full _ _ _ next => exact next ▸ Nat.le_succ _
  | created _ _ _ _ _ _ _ next => exact next ▸ Nat.le_succ _
  | destroyed _ _ _ _ _ _ next => exact next.ge

section Record

/-- No device record names a driver. -/
def Silent (s : State) : Prop := ∀ d r, s.device d = some r → r.driver = none

theorem silent_initial : Silent initial := by
  intro d r h
  simp [initial] at h

theorem silent_moves {op : Op} (hq : Silent s) (h : Moves s t op) : Silent t := by
  intro d r' hr'
  rcases moves_source h d r' hr' with ⟨r, hr, -, hdrv⟩ | ⟨-, hnone⟩
  · exact hdrv.trans (hq d r hr)
  · exact hnone

end Record

section Table

/-- The table names every live device under its id and under no other. What it
names besides are devices that are gone. -/
structure Tabled (s : State) : Prop where
  holds : ∀ d r, s.device d = some r → IsId r.id ∧ s.table.cell r.id = some d
  names : ∀ i d r, s.table.cell i = some d → s.device d = some r → r.id = i
  old : ∀ i d, s.table.cell i = some d → d < s.nextDev

theorem tabled_initial : Tabled initial where
  holds _ _ h := by simp [initial] at h
  names _ _ _ h := by simp [initial, emptyTable] at h
  old _ _ h := by simp [initial, emptyTable] at h

theorem tabled_still (hc : Tabled s) (faces : ∀ d, SameFace s t d) (htable : t.table = s.table)
    (hnext : t.nextDev = s.nextDev) : Tabled t := by
  refine ⟨fun d r' hr' => ?_, fun i d r' hi hr' => ?_, ?_⟩
  · obtain ⟨r, hr, hid, -⟩ := same_face_some (faces d) hr'
    rw [hid, htable]
    exact hc.holds d r hr
  · obtain ⟨r, hr, hid, -⟩ := same_face_some (faces d) hr'
    rw [hid]
    exact hc.names i d r (htable ▸ hi) hr
  · rw [htable, hnext]
    exact hc.old

theorem negative_not_id {i : ℤ} (h : IsId i) : i ≠ -EPERM := by
  have := h.1
  have : EPERM = 1 := rfl
  omega

theorem next_dev_unnamed (hc : Tabled s) {i : ℤ} : s.table.cell i ≠ some s.nextDev :=
  fun h => lt_irrefl _ (hc.old i _ h)

theorem stored_cell {id : ℤ} (htable : t.table = store s.table id (some s.nextDev)) (i : ℤ) :
    t.table.cell i = if i = id then some s.nextDev else s.table.cell i := by
  rw [htable]
  exact Function.update_apply _ _ _ _

/-- What the table holds came before the next device. -/
theorem stored_old (hc : Tabled s) {id : ℤ}
    (htable : t.table = store s.table id (some s.nextDev)) (hnext : t.nextDev = s.nextDev+1)
    (i : ℤ) (d : DevPtr) (hi : t.table.cell i = some d) : d < t.nextDev := by
  rw [hnext]
  rw [stored_cell htable] at hi
  split_ifs at hi with he
  · obtain rfl := Option.some.inj hi
    exact Nat.lt_succ_self _
  · exact Nat.lt_succ_of_lt (hc.old i d hi)

/-- A device without a record is written to the slot before the table. -/
theorem tabled_full (hs : Wired s) (hc : Tabled s) (faces : ∀ d, SameFace s t d)
    (htable : t.table = store s.table (-EPERM) (some s.nextDev))
    (hnext : t.nextDev = s.nextDev+1) : Tabled t := by
  have hcell := stored_cell htable
  refine ⟨fun d r' hr' => ?_, fun i d r' hi hr' => ?_, stored_old hc htable hnext⟩
  · obtain ⟨r, hr, hid, -⟩ := same_face_some (faces d) hr'
    obtain ⟨hisid, hheld⟩ := hc.holds d r hr
    rw [hid, hcell, if_neg (negative_not_id hisid)]
    exact ⟨hisid, hheld⟩
  · obtain ⟨r, hr, hid, -⟩ := same_face_some (faces d) hr'
    rw [hcell] at hi
    split_ifs at hi with he
    · obtain rfl := Option.some.inj hi
      exact absurd ((next_dev_dead hs).symm.trans hr) (by simp)
    · exact hid.trans (hc.names i d r hi hr)

theorem tabled_created (hc : Tabled s) {id : ℤ} (hid : IsId id) (hfree : s.table.cell id = none)
    (new : (t.device s.nextDev).map face = some (id, none))
    (faces : ∀ d, d ≠ s.nextDev → SameFace s t d)
    (htable : t.table = store s.table id (some s.nextDev)) (hnext : t.nextDev = s.nextDev+1) :
    Tabled t := by
  have hcell := stored_cell htable
  have hnew : ∀ r, t.device s.nextDev = some r → r.id = id := by
    intro r hr
    rw [hr] at new
    exact congrArg Prod.fst (Option.some.inj new)
  refine ⟨fun d r' hr' => ?_, fun i d r' hi hr' => ?_, stored_old hc htable hnext⟩
  · by_cases hd : d = s.nextDev
    · subst hd
      rw [hnew r' hr', hcell, if_pos rfl]
      exact ⟨hid, rfl⟩
    · obtain ⟨r, hr, hsame, -⟩ := same_face_some (faces d hd) hr'
      obtain ⟨hisid, hheld⟩ := hc.holds d r hr
      have hne : r.id ≠ id := by
        rintro rfl
        exact absurd (hheld.symm.trans hfree) (by simp)
      rw [hsame, hcell, if_neg hne]
      exact ⟨hisid, hheld⟩
  · rw [hcell] at hi
    split_ifs at hi with he
    · obtain rfl := Option.some.inj hi
      exact (hnew r' hr').trans he.symm
    · have hd : d ≠ s.nextDev := by
        rintro rfl
        exact next_dev_unnamed hc hi
      obtain ⟨r, hr, hsame, -⟩ := same_face_some (faces d hd) hr'
      exact hsame.trans (hc.names i d r hi hr)

theorem tabled_destroyed (hc : Tabled s) {d : DevPtr} {r : Rs485Device}
    (hr : s.device d = some r) (hgone : t.device d = none) (faces : ∀ e, e ≠ d → SameFace s t e)
    (htable : t.table = freeDeviceId s.table r.id) (hnext : t.nextDev = s.nextDev) : Tabled t := by
  obtain ⟨hisid, hheld⟩ := hc.holds d r hr
  have hcell (i : ℤ) : t.table.cell i = if i = r.id then none else s.table.cell i := by
    rw [htable, freeDeviceId, if_pos (check_id_of_id hisid)]
    exact Function.update_apply _ _ _ _
  have hother : ∀ e r', t.device e = some r' → e ≠ d := by
    rintro e r' hr' rfl
    exact absurd (hgone.symm.trans hr') (by simp)
  refine ⟨fun e r' hr' => ?_, fun i e r' hi hr' => ?_, fun i e hi => ?_⟩
  · have he := hother e r' hr'
    obtain ⟨r₀, hr₀, hsame, -⟩ := same_face_some (faces e he) hr'
    obtain ⟨hisid', hheld'⟩ := hc.holds e r₀ hr₀
    have hne : r₀.id ≠ r.id := by
      intro hid
      rw [hid] at hheld'
      exact he (Option.some.inj (hheld'.symm.trans hheld))
    rw [hsame, hcell, if_neg hne]
    exact ⟨hisid', hheld'⟩
  · obtain ⟨r₀, hr₀, hsame, -⟩ := same_face_some (faces e (hother e r' hr')) hr'
    rw [hcell] at hi
    split_ifs at hi
    exact hsame.trans (hc.names i e r₀ hi hr₀)
  · rw [hnext]
    rw [hcell] at hi
    split_ifs at hi
    exact hc.old i e hi

theorem tabled_moves (hs : Wired s) (hc : Tabled s) {op : Op} (h : Moves s t op) : Tabled t := by
  cases h with
  | still _ faces table next => exact tabled_still hc faces table next
  | full _ faces table next => exact tabled_full hs hc faces table next
  | created _ id hid free new faces table next => exact tabled_created hc hid free new faces table next
  | destroyed d r old gone faces table next => exact tabled_destroyed hc old gone faces table next

end Table

end RS485.Identity
