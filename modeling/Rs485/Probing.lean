import Rs485.Registry

/-!
# What probing does

A driver takes a device that it is not named for and whose probe it does not
refuse. Probing a device binds it or leaves everything as it was, a device that
is attached goes to the first driver of the bus that takes it, and a driver
that is attached binds every unbound device of the bus that it takes.
-/

set_option autoImplicit false

namespace RS485.Probing
open RS485.Platform RS485.Records RS485.Attached RS485.Registry

@[simp] theorem withDriver_driver (r : Rs485Device) (drv : Option DrvPtr) :
    (withDriver r drv).dev.driver = drv := rfl

theorem set_driver_device (s : State) (d e : DevPtr) (drv : Option DrvPtr) :
    (setDriver s d drv).device e =
      if e = d then (s.device d).map (withDriver · drv) else s.device e := by
  simp [setDriver, Function.update_apply]

/-- A probe that fails puts the null pointer back. -/
theorem set_driver_back (s : State) (d : DevPtr) (r : Rs485Device) (drv : Option DrvPtr)
    (hr : s.device d = some r) (hfree : r.dev.driver = none) :
    setDriver (setDriver s d drv) d none = s := by
  have hdev : (setDriver (setDriver s d drv) d none).device = s.device := by
    ext1 e
    by_cases he : e = d
    · subst he
      rw [set_driver_device, if_pos rfl, set_driver_device, if_pos rfl, hr, ← hfree]
      rfl
    · rw [set_driver_device, if_neg he, set_driver_device, if_neg he]
  calc setDriver (setDriver s d drv) d none
      = { s with device := (setDriver (setDriver s d drv) d none).device } := rfl
    _ = s := by rw [hdev]

/-- What binding the device to the driver changes. -/
def bindTo (s : State) (d : DevPtr) (drv : DrvPtr) (p : DrvPriv) (h : s.bound.owner d = none) :
    State :=
  { setDriver s d (some drv) with bound := attach s.bound d p h }

theorem bind_to_device (s : State) (d e : DevPtr) (drv : DrvPtr) (p : DrvPriv)
    (h : s.bound.owner d = none) : (bindTo s d drv p h).device e =
      if e = d then (s.device d).map (withDriver · (some drv)) else s.device e :=
  set_driver_device s d e (some drv)

theorem bind_to_owner (s : State) (d e : DevPtr) (drv : DrvPtr) (p : DrvPriv)
    (h : s.bound.owner d = none) :
    (bindTo s d drv p h).bound.owner e = if e = d then some p else s.bound.owner e :=
  attach_owner s.bound d e p h

section Probe

variable (env : Env) (probe : Probe)

/-- The match callback answers zero to equal names, and zero means no match. -/
def Takes (r : Rs485Device) (drv : DrvPtr) (d : DevPtr) : Prop :=
  r.info.matchDriver ≠ some (env.driver drv).name ∧
    ((env.driver drv).probe = true → probe drv d = 0)

theorem device_match_iff (r : Rs485Device) (drv : DrvPtr) :
    rs485DeviceMatch env r drv = 0 ↔ r.info.matchDriver = some (env.driver drv).name := by
  unfold rs485DeviceMatch
  cases r.info.matchDriver with
  | none => simp [EINVAL]
  | some name => by_cases h : name = (env.driver drv).name <;> simp [h, ENODEV]

/-- A device no driver was found for yet. -/
structure Unbound (s : State) (d : DevPtr) (r : Rs485Device) : Prop where
  device : s.device d = some r
  driver : r.dev.driver = none
  registered : r.dev.isDriverRegister = false
  owner : s.bound.owner d = none

variable {env probe}

theorem driver_bound_cases {s t : State} {d : DevPtr} {r : Rs485Device} {drv : DrvPtr}
    (hu : Unbound s d r) (h : driverBound (setDriver s d (some drv)) d = some t) :
    ∃ p, (s.driver drv).p = some p ∧ s.drvPriv p ≠ none ∧ t = bindTo s d drv p hu.owner := by
  have hdev : (setDriver s d (some drv)).device d = some (withDriver r (some drv)) := by
    rw [set_driver_device, if_pos rfl, hu.device]
    rfl
  have howner : (setDriver s d (some drv)).bound.owner d = none := hu.owner
  simp only [driverBound, hdev, howner, Option.bind_eq_bind, Option.bind_some, ne_eq,
    not_true_eq_false, if_false, withDriver_driver, Option.bind_eq_some_iff] at h
  obtain ⟨p, hp, drv', hlive, w, hw, ht⟩ := h
  obtain ⟨hfree, rfl⟩ := (addTail_eq_some _ _ _ _).mp hw
  refine ⟨p, hp, fun hnone => ?_, (Option.some.inj ht).symm⟩
  exact absurd (hlive.symm.trans hnone) (by simp)

theorem probe_cases {s t : State} {d : DevPtr} {r : Rs485Device} {drv : DrvPtr} {e : ℤ}
    (hu : Unbound s d r) (h : driverProbeDevice env probe drv s d = some (e, t)) :
    (¬Takes env probe r drv d ∧ e = 0 ∧ t = s) ∨
      (Takes env probe r drv d ∧ e = 1 ∧ ∃ p, (s.driver drv).p = some p ∧ s.drvPriv p ≠ none ∧
        t = bindTo s d drv p hu.owner) := by
  simp only [driverProbeDevice, hu.device, hu.registered, Option.bind_eq_bind, Option.bind_some,
    Bool.false_eq_true, if_false, Option.bind_eq_some_iff] at h
  obtain ⟨b, -, h⟩ := h
  by_cases hm : rs485DeviceMatch env r drv = 0
  · have hname := (device_match_iff env r drv).mp hm
    simp only [hm, if_true, Option.some.injEq, Prod.mk.injEq] at h
    exact Or.inl ⟨fun ht => ht.1 hname, h.1.symm, h.2.symm⟩
  · have hname := fun hn => hm ((device_match_iff env r drv).mpr hn)
    simp only [hm, if_false, reallyProbe, Option.bind_eq_bind] at h
    by_cases hp : (env.driver drv).probe = true ∧ probe drv d ≠ 0
    · simp only [hp.1, if_true, hp.2, ne_eq, not_false_eq_true, Option.some.injEq,
        Prod.mk.injEq] at h
      refine Or.inl ⟨fun ht => hp.2 (ht.2 hp.1), h.1.symm, ?_⟩
      rw [← h.2, set_driver_back s d r _ hu.device hu.driver]
    · have hret : (if (env.driver drv).probe then probe drv d else 0) = 0 := by
        split_ifs with hc
        · exact not_not.mp fun hne => hp ⟨hc, hne⟩
        · rfl
      simp only [hret, ne_eq, not_true_eq_false, if_false, Option.bind_eq_some_iff,
        Option.some.injEq, Prod.mk.injEq] at h
      obtain ⟨u, hu', h1, rfl⟩ := h
      have htakes : Takes env probe r drv d := ⟨hname, fun hc => not_not.mp fun hne => hp ⟨hc, hne⟩⟩
      exact Or.inr ⟨htakes, h1.symm, driver_bound_cases hu hu'⟩

/-- The first driver on the list that takes the device gets it. -/
theorem device_walk_cases {s t : State} {d : DevPtr} {r : Rs485Device} (hu : Unbound s d r)
    {ps : List DrvPriv} {e : ℤ} {cur : Option DrvPriv}
    (h : visit (fun p s => do deviceAttachTo env probe d (← s.drvPriv p) s) ps s =
      some (e, cur, t)) :
    (e = 0 ∧ cur = none ∧ t = s ∧
        ∀ p ∈ ps, ∃ drv, s.drvPriv p = some drv ∧ ¬Takes env probe r drv d) ∨
      (e = 1 ∧ ∃ pre p post drv q, ps = pre++p::post ∧ cur = post.head? ∧ s.drvPriv p = some drv ∧
        Takes env probe r drv d ∧ (s.driver drv).p = some q ∧ s.drvPriv q ≠ none ∧
        t = bindTo s d drv q hu.owner) := by
  induction ps with
  | nil =>
    simp only [visit, Option.some.injEq, Prod.mk.injEq] at h
    exact Or.inl ⟨h.1.symm, h.2.1.symm, h.2.2.symm, by simp⟩
  | cons p ps ih =>
    simp only [visit, Option.bind_eq_bind, Option.bind_eq_some_iff, Prod.exists,
      deviceAttachTo] at h
    obtain ⟨e', s', ⟨drv, hdrv, hprobe⟩, h⟩ := h
    rcases probe_cases hu hprobe with ⟨hno, rfl, rfl⟩ | ⟨hyes, rfl, q, hq, hlive, rfl⟩
    · simp only [if_true] at h
      rcases ih h with ⟨he, hc, ht, hall⟩ | ⟨he, pre, p', post, drv', q, hsplit, hrest⟩
      · refine Or.inl ⟨he, hc, ht, fun p' hp' => ?_⟩
        rcases List.mem_cons.mp hp' with rfl | hp'
        · exact ⟨drv, hdrv, hno⟩
        · exact hall p' hp'
      · exact Or.inr ⟨he, p::pre, p', post, drv', q, by rw [hsplit]; rfl, hrest⟩
    · simp only [one_ne_zero, if_false, Option.some.injEq, Prod.mk.injEq] at h
      exact Or.inr ⟨h.1.symm, [], p, ps, drv, q, rfl, h.2.1.symm, hdrv, hyes, hq, hlive,
        h.2.2.symm⟩

/-- The unbound devices that the driver takes. -/
def Taken (env : Env) (probe : Probe) (drv : DrvPtr) (s : State) (d : DevPtr) : Prop :=
  ∃ r, s.device d = some r ∧ r.dev.driver = none ∧ Takes env probe r drv d

/-- An unbound device is on no driver's list. -/
def Settled (s : State) : Prop :=
  ∀ d r, s.device d = some r →
    r.dev.isDriverRegister = false ∧ (r.dev.driver = none → s.bound.owner d = none)

theorem settled_unbound {s : State} (hs : Settled s) {d : DevPtr} {r : Rs485Device}
    (hr : s.device d = some r) (hfree : r.dev.driver = none) : Unbound s d r :=
  ⟨hr, hfree, (hs d r hr).1, (hs d r hr).2 hfree⟩

theorem bind_to_settled {s : State} (hs : Settled s) {d : DevPtr} {r : Rs485Device}
    (hu : Unbound s d r) (drv : DrvPtr) (p : DrvPriv) : Settled (bindTo s d drv p hu.owner) := by
  intro e r' hr'
  rw [bind_to_device] at hr'
  rw [bind_to_owner]
  by_cases he : e = d
  · subst he
    rw [if_pos rfl, hu.device] at hr'
    obtain rfl := Option.some.inj hr'
    exact ⟨hu.registered, fun hnone => by simp at hnone⟩
  · rw [if_neg he] at hr'
    rw [if_neg he]
    exact hs e r' hr'

/-- The state after a driver was offered the devices of a list. -/
structure Swept (env : Env) (probe : Probe) (drv : DrvPtr) (ds : List DevPtr) (s t : State) :
    Prop where
  settled : Settled t
  frame : t = { s with device := t.device, bound := t.bound }
  live : ∀ d ∈ ds, s.device d ≠ none
  taken : ∀ d ∈ ds, Taken env probe drv s d →
    t.device d = (s.device d).map (withDriver · (some drv)) ∧
      t.bound.owner d = (s.driver drv).p ∧ (s.driver drv).p ≠ none
  left : ∀ d, ¬(d ∈ ds ∧ Taken env probe drv s d) →
    t.device d = s.device d ∧ t.bound.owner d = s.bound.owner d

theorem taken_congr {s s' : State} {d : DevPtr} {drv : DrvPtr} (h : s'.device d = s.device d) :
    Taken env probe drv s' d ↔ Taken env probe drv s d := by
  unfold Taken
  rw [h]

theorem swept_driver {drv : DrvPtr} {ds : List DevPtr} {s t : State}
    (h : Swept env probe drv ds s t) : t.driver = s.driver := by
  have hdriver := congrArg State.driver h.frame
  exact hdriver

theorem swept_none {drv : DrvPtr} {ds : List DevPtr} {s : State} (hs : Settled s)
    (hlive : ∀ d ∈ ds, s.device d ≠ none) (hno : ∀ d ∈ ds, ¬Taken env probe drv s d) :
    Swept env probe drv ds s s where
  settled := hs
  frame := rfl
  live := hlive
  taken d hd ht := absurd ht (hno d hd)
  left _ _ := ⟨rfl, rfl⟩

theorem swept_bind {s : State} {drv : DrvPtr} {p : DrvPriv} (hs : Settled s) {d : DevPtr}
    {r : Rs485Device} (hu : Unbound s d r) (htakes : Takes env probe r drv d)
    (hp : (s.driver drv).p = some p) : Swept env probe drv [d] s (bindTo s d drv p hu.owner) := by
  have htaken : Taken env probe drv s d := ⟨r, hu.device, hu.driver, htakes⟩
  refine ⟨bind_to_settled hs hu drv p, rfl, by simp [hu.device], fun e he _ => ?_, fun e he => ?_⟩
  · obtain rfl := List.mem_singleton.mp he
    rw [bind_to_device, bind_to_owner, if_pos rfl, if_pos rfl, hp]
    exact ⟨rfl, rfl, by simp⟩
  · have hne : e ≠ d := fun h => he ⟨List.mem_singleton.mpr h, h ▸ htaken⟩
    rw [bind_to_device, bind_to_owner, if_neg hne, if_neg hne]
    exact ⟨rfl, rfl⟩

theorem swept_one {s t : State} {drv : DrvPtr} (hs : Settled s) {d : DevPtr} {e : ℤ}
    (h : driverAttachTo env probe drv d s = some (e, t)) :
    e = 0 ∧ Swept env probe drv [d] s t := by
  simp only [driverAttachTo, Option.bind_eq_bind, Option.bind_eq_some_iff] at h
  obtain ⟨r, hr, h⟩ := h
  have hlive : ∀ d' ∈ [d], s.device d' ≠ none := by simp [hr]
  cases hfree : r.dev.driver with
  | some drv' =>
    simp only [hfree, Option.some.injEq, Prod.mk.injEq] at h
    obtain ⟨he, rfl⟩ := h
    refine ⟨he.symm, swept_none hs hlive ?_⟩
    rintro d' hd' ⟨r', hr', hfree', -⟩
    obtain rfl := List.mem_singleton.mp hd'
    simp_all
  | none =>
    have hu := settled_unbound hs hr hfree
    simp only [hfree, Option.bind_eq_some_iff, Prod.exists, Option.some.injEq,
      Prod.mk.injEq] at h
    obtain ⟨ret, u, hprobe, he, rfl⟩ := h
    refine ⟨he.symm, ?_⟩
    rcases probe_cases hu hprobe with ⟨hno, -, rfl⟩ | ⟨hyes, -, p, hp, -, rfl⟩
    · refine swept_none hs hlive fun d' hd' ⟨r', hr', _, htakes⟩ => ?_
      obtain rfl := List.mem_singleton.mp hd'
      obtain rfl := Option.some.inj (hr.symm.trans hr')
      exact hno htakes
    · exact swept_bind hs hu hyes hp

theorem swept_cons {s u t : State} {drv : DrvPtr} {d : DevPtr} {ds : List DevPtr}
    (hnot : d ∉ ds) (h₁ : Swept env probe drv [d] s u) (h₂ : Swept env probe drv ds u t) :
    Swept env probe drv (d::ds) s t := by
  have hsame : ∀ e ∈ ds, u.device e = s.device e ∧ u.bound.owner e = s.bound.owner e := by
    intro e he
    refine h₁.left e fun hmem => ?_
    exact hnot (List.mem_singleton.mp hmem.1 ▸ he)
  have hd := h₂.left d fun hmem => hnot hmem.1
  refine ⟨h₂.settled, ?_, fun e he => ?_, fun e he ht => ?_, fun e he => ?_⟩
  · calc t = { u with device := t.device, bound := t.bound } := h₂.frame
      _ = { s with device := t.device, bound := t.bound } := by rw [h₁.frame]
  · rcases List.mem_cons.mp he with rfl | he
    · exact h₁.live e (List.mem_singleton_self e)
    · exact (hsame e he).1 ▸ h₂.live e he
  · rcases List.mem_cons.mp he with rfl | he
    · rw [hd.1, hd.2]
      exact h₁.taken e (List.mem_singleton_self e) ht
    · have := h₂.taken e he ((taken_congr (hsame e he).1).mpr ht)
      rwa [(hsame e he).1, swept_driver h₁] at this
  · by_cases hmem : e ∈ ds
    · have hno : ¬(e ∈ ds ∧ Taken env probe drv u e) := fun hu =>
        he ⟨List.mem_cons_of_mem d hmem, (taken_congr (hsame e hmem).1).mp hu.2⟩
      rw [(h₂.left e hno).1, (h₂.left e hno).2]
      exact hsame e hmem
    · rw [(h₂.left e fun h => hmem h.1).1, (h₂.left e fun h => hmem h.1).2]
      refine h₁.left e fun h => he ⟨?_, h.2⟩
      rw [List.mem_singleton.mp h.1]
      exact List.mem_cons_self

/-- A driver that is attached gets every unbound device of the list that it takes. -/
theorem driver_walk_swept {s t : State} {drv : DrvPtr} (hs : Settled s) {ds : List DevPtr}
    (hd : ds.Nodup) {e : ℤ} {cur : Option DevPtr}
    (h : visit (driverAttachTo env probe drv) ds s = some (e, cur, t)) :
    e = 0 ∧ cur = none ∧ Swept env probe drv ds s t := by
  induction ds generalizing s with
  | nil =>
    simp only [visit, Option.some.injEq, Prod.mk.injEq] at h
    obtain ⟨he, hc, rfl⟩ := h
    exact ⟨he.symm, hc.symm, swept_none hs (by simp) (by simp)⟩
  | cons d ds ih =>
    obtain ⟨hnot, hd'⟩ := List.nodup_cons.mp hd
    simp only [visit, Option.bind_eq_bind, Option.bind_eq_some_iff, Prod.exists] at h
    obtain ⟨e', u, hone, h⟩ := h
    obtain ⟨rfl, hu⟩ := swept_one hs hone
    obtain ⟨he, hc, ht⟩ := ih hu.settled hd' (by simpa using h)
    exact ⟨he, hc, swept_cons hnot hu ht⟩

end Probe

end RS485.Probing
