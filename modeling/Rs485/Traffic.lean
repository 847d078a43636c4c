import Rs485.Exchange
import Rs485.Identity
import Rs485.Queue

/-!
# Commands on their way to a device

The queues of the custom stacks over the registry of devices. A queued message
carries only the number of its device, which is looked up when the handler gets
to it. As the table gives the lowest free number to a new device, a message can
outlive its device and find another one there. The record of that one names no
driver, which no code ever stores, so the message is dropped. Were drivers
stored, a message could still not miss its device while that lives.
-/

set_option autoImplicit false

namespace RS485.Traffic
open RS485.Records RS485.Mdev RS485.Registry RS485.Wiring RS485.Identity RS485.Runs

structure System where
  core : State
  /-- the stack of each bus of the custom protocol -/
  stack : BusPtr → Queue.Stack
  /-- the messages inserted so far, each with the live device it named then -/
  named : List (BusPtr × Queue.Entry × DevPtr)

def start : System := ⟨initial, fun _ => Queue.start, []⟩

/-- The live device that an id names. -/
def holder (s : State) (id : ℤ) : Option DevPtr := do
  let d ← getDeviceById s.table id
  let _ ← s.device d
  some d

/-- What a step of a stack adds to the messages inserted. -/
def naming (s : System) (b : BusPtr) : Queue.Op → List (BusPtr × Queue.Entry × DevPtr)
  | .write (some data) len calloc =>
    if (Queue.customBusWrite (s.stack b) (some data) len calloc).1 = 0 then
      (holder s.core data.deviceId).toList.map fun d => (b, ⟨(s.stack b).next, data⟩, d)
    else []
  | _ => []

def withRecord (s : State) (d : DevPtr) (r : Rs485Device) (drv : Option DrvPtr) : State :=
  { s with device := Function.update s.device d (some { r with driver := drv }) }

inductive Op where
  | core (op : Registry.Op)
  | queue (b : BusPtr) (op : Queue.Op)
  /-- the handler's call of `do_bus_message`, some time between the pick and the removal -/
  | message (b : BusPtr) (script : ℕ → Exchange.Answers)
  /-- A driver is stored in a record. No code does this: the only writes of the field
  are compiled out. -/
  | record (d : DevPtr) (drv : Option DrvPtr)

def step (env : Env) (s : System) : Op → Option System
  | .core op => do
    let core ← Registry.step env s.core op
    some { s with core := core }
  | .queue b op => do
    let stack ← Queue.step (s.stack b) op
    some { s with stack := Function.update s.stack b stack, named := naming s b op++s.named }
  | .message b script =>
    match (s.stack b).handler with
    | .handling (some node) =>
      if node ∈ (s.stack b).freed then none
      else do
        let _ ← Exchange.doBusMessage s.core.table s.core.device env.driver node.data script
        some s
    | _ => none
  | .record d drv => do
    let r ← s.core.device d
    some { s with core := withRecord s.core d r drv }

/-- The steps that the code makes. -/
def codeStep (env : Env) (s : System) : Op → Option System
  | .record _ _ => none
  | op => step env s op

/-- `do_bus_message` found this device, and made these attempts with its driver. -/
def ServedBy (env : Env) (s : State) (message : WriteDevice) (script : ℕ → Exchange.Answers)
    (made : List (List Exchange.Event)) (d : DevPtr) : Prop :=
  getDeviceById s.table message.deviceId = some d ∧ ∃ r drv, s.device d = some r ∧
    r.driver = some drv ∧
    made = (Exchange.exchange (env.driver drv) r.deviceData message script).state.done

/-- A message is dropped, or served by a device that stands in this relation to
the one it named. -/
def Arrives (env : Env) (right : State → DevPtr → DevPtr → Prop) (s : System) (op : Op)
    (_ : System) : Prop :=
  match op with
  | .message b script => ∀ node d made, (s.stack b).handler = .handling (some node) →
      (b, node, d) ∈ s.named →
      Exchange.doBusMessage s.core.table s.core.device env.driver node.data script = some made →
      made = [] ∨ ∃ e, ServedBy env s.core node.data script made e ∧ right s.core d e
  | _ => True

/-- The device itself. -/
def Same (_ : State) (d e : DevPtr) : Prop := e = d

/-- The device itself, or a later one once it is gone. -/
def SameOrHeir (s : State) (d e : DevPtr) : Prop := e = d ∨ s.device d = none ∧ d < e

theorem do_bus_message_cases {env : Env} {s : State} {message : WriteDevice}
    {script : ℕ → Exchange.Answers} {made : List (List Exchange.Event)}
    (h : Exchange.doBusMessage s.table s.device env.driver message script = some made) :
    made = [] ∨ ∃ d, ServedBy env s message script made d := by
  unfold Exchange.doBusMessage at h
  cases hd : getDeviceById s.table message.deviceId with
  | none =>
    simp only [hd, Option.some.injEq] at h
    exact Or.inl h.symm
  | some d =>
    simp only [hd, Option.bind_eq_bind, Option.bind_eq_some_iff] at h
    obtain ⟨r, hr, h⟩ := h
    cases hdrv : r.driver with
    | none =>
      simp only [hdrv, Option.some.injEq] at h
      exact Or.inl h.symm
    | some drv =>
      simp only [hdrv, Option.some.injEq] at h
      exact Or.inr ⟨d, hd, r, drv, hr, hdrv, h.symm⟩

/-- A message names a device that holds its id while it lives, and no device
older than that ever gets the id. -/
structure Named (s : State) (message : WriteDevice) (d : DevPtr) : Prop where
  past : d < s.nextDev
  same : ∀ r, s.device d = some r → r.id = message.deviceId
  later : ∀ e r, s.device e = some r → r.id = message.deviceId → d ≤ e

structure Traced (s : System) : Prop where
  wired : Wired s.core
  tabled : Tabled s.core
  named : ∀ b node d, (b, node, d) ∈ s.named → Named s.core node.data d

theorem traced_start : Traced start where
  wired := wired_initial
  tabled := tabled_initial
  named _ _ _ h := by simp [start] at h

variable {env : Env}

theorem by_id_cell {m : Memory} {id : ℤ} {d : DevPtr} (h : getDeviceById m id = some d) :
    m.cell id = some d := by
  unfold getDeviceById at h
  split_ifs at h
  exact h

theorem holder_named {s : State} (hs : Wired s) (hc : Tabled s) {message : WriteDevice}
    {d : DevPtr} (h : holder s message.deviceId = some d) : Named s message d := by
  simp only [holder, Option.bind_eq_bind, Option.bind_eq_some_iff, Option.some.injEq] at h
  obtain ⟨d', hd, r, hr, rfl⟩ := h
  have hcell := by_id_cell hd
  refine ⟨hs.devFresh d' (by simp [hr]), fun r' hr' => hc.names _ d' r' hcell hr', ?_⟩
  intro e r' hr' hid
  obtain ⟨-, hheld⟩ := hc.holds e r' hr'
  rw [hid, hcell] at hheld
  exact (Option.some.inj hheld).le

theorem named_moves {s t : State} {message : WriteDevice} {d : DevPtr} {op : Registry.Op}
    (h : Named s message d) (hm : Moves s t op) : Named t message d := by
  refine ⟨lt_of_lt_of_le h.past (moves_next hm), fun r' hr' => ?_, fun e r' hr' hid => ?_⟩
  · rcases moves_source hm d r' hr' with ⟨r, hr, hsame, -⟩ | ⟨rfl, -⟩
    · exact hsame.trans (h.same r hr)
    · exact absurd h.past (lt_irrefl _)
  · rcases moves_source hm e r' hr' with ⟨r, hr, hsame, -⟩ | ⟨rfl, -⟩
    · exact h.later e r hr (hsame.symm.trans hid)
    · exact h.past.le

section Record

variable {s : State} {d : DevPtr} {r : Rs485Device}

theorem record_source (hr : s.device d = some r) (drv : Option DrvPtr) {e : DevPtr}
    {r' : Rs485Device} (h : (withRecord s d r drv).device e = some r') :
    ∃ r₀, s.device e = some r₀ ∧ r'.id = r₀.id ∧ r'.dev = r₀.dev := by
  by_cases he : e = d
  · subst he
    obtain rfl : { r with driver := drv } = r' := by simpa [withRecord] using h
    exact ⟨r, hr, rfl, rfl⟩
  · exact ⟨r', by simpa [withRecord, he] using h, rfl, rfl⟩

theorem wired_record (hs : Wired s) (hr : s.device d = some r) (drv : Option DrvPtr) :
    Wired (withRecord s d r drv) := by
  refine { hs with settled := ?_, bound := ?_, devFresh := ?_, homed := ?_ }
  · intro e r' he
    obtain ⟨r₀, hr₀, -, hdev⟩ := record_source hr drv he
    rw [hdev]
    exact hs.settled e r₀ hr₀
  · intro e p he
    obtain ⟨r₀, drv₀, hr₀, hrest⟩ := hs.bound e p he
    by_cases hd : e = d
    · subst hd
      obtain rfl := Option.some.inj (hr.symm.trans hr₀)
      exact ⟨{ r with driver := drv }, drv₀, by simp [withRecord], hrest⟩
    · exact ⟨r₀, drv₀, by simp [withRecord, hd, hr₀], hrest⟩
  · intro e he
    obtain ⟨r', hr'⟩ := Option.ne_none_iff_exists'.mp he
    obtain ⟨r₀, hr₀, -⟩ := record_source hr drv hr'
    exact hs.devFresh e (by simp [hr₀])
  · intro e r' he
    obtain ⟨r₀, hr₀, -, hdev⟩ := record_source hr drv he
    rw [hdev]
    exact hs.homed e r₀ hr₀

theorem tabled_record (hc : Tabled s) (hr : s.device d = some r) (drv : Option DrvPtr) :
    Tabled (withRecord s d r drv) := by
  refine { hc with holds := ?_, names := ?_ }
  · intro e r' he
    obtain ⟨r₀, hr₀, hid, -⟩ := record_source hr drv he
    rw [hid]
    exact hc.holds e r₀ hr₀
  · intro i e r' hi he
    obtain ⟨r₀, hr₀, hid, -⟩ := record_source hr drv he
    exact hid.trans (hc.names i e r₀ hi hr₀)

theorem named_record {message : WriteDevice} {d' : DevPtr} (h : Named s message d')
    (hr : s.device d = some r) (drv : Option DrvPtr) : Named (withRecord s d r drv) message d' := by
  refine { h with same := ?_, later := ?_ }
  · intro r' hr'
    obtain ⟨r₀, hr₀, hid, -⟩ := record_source hr drv hr'
    exact hid.trans (h.same r₀ hr₀)
  · intro e r' hr' hid'
    obtain ⟨r₀, hr₀, hid, -⟩ := record_source hr drv hr'
    exact h.later e r₀ hr₀ (hid.symm.trans hid')

end Record

section Traced

variable {s t : System}

theorem naming_named (h : Traced s) {b b' : BusPtr} {op : Queue.Op} {node : Queue.Entry}
    {d : DevPtr} (hmem : (b', node, d) ∈ naming s b op) : Named s.core node.data d := by
  unfold naming at hmem
  split at hmem
  · next data len calloc =>
    split_ifs at hmem
    · obtain ⟨d', hd, heq⟩ := List.mem_map.mp hmem
      simp only [Prod.mk.injEq] at heq
      obtain ⟨-, rfl, rfl⟩ := heq
      exact holder_named h.wired h.tabled (Option.mem_toList.mp hd)
    · simp at hmem
  · simp at hmem

theorem traced_step (h : Traced s) (op : Op) (ht : step env s op = some t) : Traced t := by
  cases op with
  | core op =>
    obtain ⟨core, hcore, hrest⟩ := Option.bind_eq_some_iff.mp ht
    obtain rfl := Option.some.inj hrest
    have hm := moves_step h.wired op hcore
    exact ⟨wired_step h.wired op hcore, tabled_moves h.wired h.tabled hm,
      fun b node d hmem => named_moves (h.named b node d hmem) hm⟩
  | queue b op =>
    obtain ⟨stack, -, hrest⟩ := Option.bind_eq_some_iff.mp ht
    obtain rfl := Option.some.inj hrest
    refine ⟨h.wired, h.tabled, fun b' node d hmem => ?_⟩
    rcases List.mem_append.mp hmem with hnew | hold
    · exact naming_named h hnew
    · exact h.named b' node d hold
  | message b script =>
    simp only [step] at ht
    split at ht
    · split_ifs at ht
      obtain ⟨made, -, hrest⟩ := Option.bind_eq_some_iff.mp ht
      obtain rfl := Option.some.inj hrest
      exact h
    · simp at ht
  | record d drv =>
    obtain ⟨r, hr, hrest⟩ := Option.bind_eq_some_iff.mp ht
    obtain rfl := Option.some.inj hrest
    exact ⟨wired_record h.wired hr drv, tabled_record h.tabled hr drv,
      fun b node d' hmem => named_record (h.named b node d' hmem) hr drv⟩

theorem arrives_of_traced (h : Traced s) (op : Op) (t : System) :
    Arrives env SameOrHeir s op t := by
  cases op with
  | core op => trivial
  | queue b op => trivial
  | record d drv => trivial
  | message b script =>
    intro node d made _ hmem hmade
    have hnamed := h.named b node d hmem
    rcases do_bus_message_cases hmade with hnil | ⟨e, hserved⟩
    · exact Or.inl hnil
    · refine Or.inr ⟨e, hserved, ?_⟩
      obtain ⟨hbyid, r, drv, hr, -, -⟩ := hserved
      have hcell := by_id_cell hbyid
      have hle := hnamed.later e r hr (h.tabled.names _ e r hcell hr)
      by_cases he : e = d
      · exact Or.inl he
      · -- a live device would still be the one that the table names
        refine Or.inr ⟨?_, lt_of_le_of_ne hle (Ne.symm he)⟩
        by_contra hlive
        obtain ⟨r', hr'⟩ := Option.ne_none_iff_exists'.mp hlive
        obtain ⟨-, hheld⟩ := h.tabled.holds d r' hr'
        rw [hnamed.same r' hr', hcell] at hheld
        exact he (Option.some.inj hheld)

theorem code_is_step (s : System) (op : Op) (t : System) (h : codeStep env s op = some t) :
    step env s op = some t := by
  cases op with
  | record d drv => simp [codeStep] at h
  | _ => exact h

/-- The steps of the code store no driver in a record. -/
theorem silent_code (h : Traced s) (hq : Silent s.core) (op : Op)
    (ht : codeStep env s op = some t) : Silent t.core := by
  cases op with
  | core op =>
    obtain ⟨core, hcore, hrest⟩ := Option.bind_eq_some_iff.mp ht
    obtain rfl := Option.some.inj hrest
    exact silent_moves hq (moves_step h.wired op hcore)
  | queue b op =>
    obtain ⟨stack, -, hrest⟩ := Option.bind_eq_some_iff.mp ht
    obtain rfl := Option.some.inj hrest
    exact hq
  | message b script =>
    simp only [codeStep, step] at ht
    split at ht
    · split_ifs at ht
      obtain ⟨made, -, hrest⟩ := Option.bind_eq_some_iff.mp ht
      obtain rfl := Option.some.inj hrest
      exact hq
    · simp at ht
  | record d drv => simp [codeStep] at ht

theorem arrives_of_silent (hq : Silent s.core) (op : Op) (t : System) :
    Arrives env Same s op t := by
  cases op with
  | core op => trivial
  | queue b op => trivial
  | record d drv => trivial
  | message b script =>
    intro node d made _ _ hmade
    rcases do_bus_message_cases hmade with hnil | ⟨e, -, r, drv, hr, hdrv, -⟩
    · exact Or.inl hnil
    · exact absurd (hdrv.symm.trans (hq e r hr)) (by simp)

/-- In every interleaving a message is dropped or served by the device that it named.
Even if drivers were stored in the records, it would be dropped or served by that
device or, once that one is gone, by a later one that was given its id. -/
theorem messages_reach_device (env : Env) (ops : List Op) :
    EveryStep (codeStep env) (Arrives env Same) start ops ∧
      EveryStep (step env) (Arrives env SameOrHeir) start ops := by
  constructor
  · have hall : EveryState (codeStep env) (fun s => Traced s ∧ Silent s.core) start ops := by
      refine every_state_of_step (fun s op t h ht => ?_) start ⟨traced_start, silent_initial⟩ ops
      exact ⟨traced_step h.1 op (code_is_step s op t ht), silent_code h.1 h.2 op ht⟩
    exact every_step_of_states (fun s op t h _ => arrives_of_silent h.2 op t) _ _ hall
  · have hall : EveryState (step env) Traced start ops :=
      every_state_of_step (fun s op t h ht => traced_step h op ht) start traced_start ops
    exact every_step_of_states (fun s op t h _ => arrives_of_traced h op t) _ _ hall

end Traced

end RS485.Traffic
