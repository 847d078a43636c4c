import Rs485.Atomic
import Rs485.Ringbuf

/-!
# The two sides of the ring buffer

`ringbuf_put_front` must not be used if producer and consumer are separate processes;
the other calls may. Here the producer and the consumer go through the calls access by
access: a step is one load or one store of what the other side can see, and the steps
of the sides come in any order.
-/

set_option autoImplicit false

namespace RS485.RingbufSides
open RS485.Records RS485.Blocks RS485.Circular RS485.Runs RS485.Atomic RS485.Ringbuf

section Code

inductive Side where
  | producer
  | consumer
  deriving DecidableEq

/-- Where a side is in a call. -/
inductive Place where
  | idle
  | called (op : Op)
  /-- in `ringbuf_count`, between the loads of the counters -/
  | headLoaded (op : Op) (head : BitVec 32)
  /-- behind the test of the count -/
  | counted (op : Op)
  /-- in the loop over the bytes of the element at `offset`, with those loaded so far -/
  | copying (op : Op) (offset : BitVec 32) (bytes : List Byte)
  deriving DecidableEq

structure System where
  buf : RingBuffer
  place : Side → Place
  trace : List (Observed Side Op Answer)

/-- The calls of the sides. The calls for the free element are those of `ringbuf_put`
in two parts, and are left to the callers of one process. -/
def Side.makes : Side → Op → Bool
  | _, .count | _, .full | _, .empty => true
  | .producer, .put _ => true
  | .consumer, .peek | .consumer, .pop _ => true
  | _, _ => false

/-- The answer of a call that needs no element, with what `ringbuf_count` has given. -/
def countAnswer (elementCount count : BitVec 32) : Op → Option Answer
  | .count => some (.count count)
  | .full => some (.status (count = elementCount))
  | .empty => some (.status (count = 0))
  | .peek => if count = 0 then some (.element none) else none
  | .pop _ => if count = 0 then some (.popped false none) else none
  | .put _ | .putFront _ | .fill _ => if count = elementCount then some (.status false) else none

namespace System

variable (s : System)

def goTo (side : Side) (place : Place) : System :=
  { s with place := Function.update s.place side place }

def answer (side : Side) (op : Op) (answer : Answer) : System :=
  { s with place := Function.update s.place side .idle,
           trace := s.trace++[.answered side op answer] }

end System

/-- The loops over the bytes of an element, and the end of the call. The bytes are
`volatile`, and so each is an access of its own. -/
def copy (s : System) (side : Side) (op : Op) (offset : BitVec 32) (bytes : List Byte) :
    Option System :=
  let i := bytes.length
  match op with
  | .put (some data) =>
    if i < s.buf.elementSize.toNat then do
      let byte ← data[i]?
      let buffer ← store s.buf.buffer (offset.toNat + i) [byte]
      some ({ s with buf := { s.buf with buffer := buffer } }.goTo side
        (.copying op offset (bytes++[byte])))
    else some ({ s with buf := { s.buf with head := s.buf.head+1 } }.answer side op (.status true))
  | .pop out =>
    if out ∧ i < s.buf.elementSize.toNat then do
      let byte ← load s.buf.buffer (offset.toNat + i) 1
      some (s.goTo side (.copying op offset (bytes++byte)))
    else some ({ s with buf := { s.buf with tail := s.buf.tail+1 } }.answer side op
      (.popped true (if out then some bytes else none)))
  | .peek =>
    -- the caller reads the element through the pointer
    if i < s.buf.elementSize.toNat then do
      let byte ← load s.buf.buffer (offset.toNat + i) 1
      some (s.goTo side (.copying op offset (bytes++byte)))
    else some (s.answer side op (.element (some bytes)))
  | _ => some s

/-- The next access of the side. -/
def access (s : System) (side : Side) : Option System :=
  match s.place side with
  | .idle => some s
  | .called (.put none) => some (s.answer side (.put none) (.status false))
  | .called op => some (s.goTo side (.headLoaded op s.buf.head))
  | .headLoaded op head =>
    match countAnswer s.buf.elementCount (head-s.buf.tail) op with
    | some answer => some (s.answer side op answer)
    | none => some (s.goTo side (.counted op))
  | .counted op =>
    let counter := match side with
      | .producer => s.buf.head
      | .consumer => s.buf.tail
    some (s.goTo side (.copying op (s.buf.element counter) []))
  | .copying op offset bytes => copy s side op offset bytes

inductive Act where
  | call (side : Side) (op : Op)
  | go (side : Side)

/-- A side that is in a call makes no other. -/
def act (s : System) : Act → Option System
  | .call side op =>
    if s.place side = .idle then
      some { s with place := Function.update s.place side (.called op),
                    trace := s.trace++[.called side op] }
    else some s
  | .go side => access s side

/-- The sides make their own calls, and with elements of the right size. -/
def Act.Legal (size : ℕ) : Act → Prop
  | .call side op => side.makes op = true ∧ op.Fits size
  | .go _ => True

def System.init (b : RingBuffer) : System := ⟨b, fun _ => .idle, []⟩

end Code

section Sides

/-- The calls that a side can have begun. -/
structure Made (side : Side) (size : ℕ) (op : Op) : Prop where
  makes : side.makes op = true
  fits : op.Fits size

/-- The place of the producer, and what its clients know of it. -/
inductive ProducerAt (size count : ℕ) (b : RingBuffer) (xs : List (List Byte)) :
    Place → Phase Op Answer → Prop where
  | idle : ProducerAt size count b xs .idle .idle
  | called (op : Op) (hop : Made .producer size op) :
    ProducerAt size count b xs (.called op) (.waiting op)
  | headLoaded (op : Op) (hop : Made .producer size op) (hnull : op ≠ .put none) :
    ProducerAt size count b xs (.headLoaded op b.head) (.waiting op)
  | counted (data : List Byte) (hdata : data.length = size) (hroom : xs.length < count) :
    ProducerAt size count b xs (.counted (.put (some data))) (.waiting (.put (some data)))
  | copying (data bytes : List Byte) (hdata : data.length = size) (hroom : xs.length < count)
    (hdone : bytes = data.take bytes.length)
    (hcell : (slot size b.buffer (b.head.toNat % count)).take bytes.length = bytes) :
    ProducerAt size count b xs (.copying (.put (some data)) (b.element b.head) bytes)
      (.waiting (.put (some data)))

/-- The call has had its effect when the count decides its answer. -/
def settled (op : Op) : Option Answer → Phase Op Answer
  | some answer => .done op answer
  | none => .waiting op

/-- The place of the consumer. When it has loaded `head`, more elements may have come. -/
inductive ConsumerAt (size : ℕ) (b : RingBuffer) (xs : List (List Byte)) :
    Place → Phase Op Answer → Prop where
  | idle : ConsumerAt size b xs .idle .idle
  | called (op : Op) (hop : Made .consumer size op) :
    ConsumerAt size b xs (.called op) (.waiting op)
  | headLoaded (op : Op) (hop : Made .consumer size op) (n : ℕ) (hn : n ≤ xs.length) :
    ConsumerAt size b xs (.headLoaded op (b.tail + BitVec.ofNat 32 n))
      (settled op (countAnswer b.elementCount (BitVec.ofNat 32 n) op))
  | counted (op : Op) (hop : op = .peek ∨ ∃ out, op = .pop out) (hsome : xs ≠ []) :
    ConsumerAt size b xs (.counted op) (.waiting op)
  | copying (op : Op) (hop : op = .peek ∨ ∃ out, op = .pop out) (x bytes : List Byte)
    (hx : xs.head? = some x) (hlength : x.length = size) (hdone : bytes = x.take bytes.length) :
    ConsumerAt size b xs (.copying op (b.element b.tail) bytes) (.waiting op)

/-- The system and the atomic queue with two ends. -/
structure Matches (size count : BitVec 32) (s : System)
    (o : Object (List (List Byte)) Side Op Answer) : Prop where
  stores : Stores size count s.buf o.state
  producer : ProducerAt size.toNat count.toNat s.buf o.state (s.place .producer) (o.phase .producer)
  consumer : ConsumerAt size.toNat s.buf o.state (s.place .consumer) (o.phase .consumer)
  trace : s.trace = o.trace

variable {size count : BitVec 32} {s : System} {o : Object (List (List Byte)) Side Op Answer}
  {b : RingBuffer} {xs : List (List Byte)}

/-- A call whose answer the count decides is answered by the queue in this way. -/
theorem count_decides (hle : xs.length ≤ count.toNat) {op : Op} {answer : Answer}
    (h : countAnswer count (BitVec.ofNat 32 xs.length) op = some answer) :
    dequeCall count.toNat xs op = (answer, xs) := by
  have hlt := count.isLt
  have htoNat : (BitVec.ofNat 32 xs.length).toNat = xs.length := by
    rw [BitVec.toNat_ofNat, Nat.mod_eq_of_lt (by omega)]
  have hfull : BitVec.ofNat 32 xs.length = count ↔ xs.length = count.toNat := by
    rw [← BitVec.toNat_inj, htoNat]
  have hempty : BitVec.ofNat 32 xs.length = 0 ↔ xs = [] := by
    rw [← BitVec.toNat_inj, htoNat, ← List.length_eq_zero_iff]
    rfl
  cases op with
  | count =>
    obtain rfl := Option.some.inj h
    rfl
  | full =>
    obtain rfl := Option.some.inj h
    simp only [dequeCall, hfull]
  | empty =>
    obtain rfl := Option.some.inj h
    simp only [dequeCall, hempty, List.length_eq_zero_iff]
  | peek | pop out =>
    simp only [countAnswer, hempty] at h
    split_ifs at h with hnil
    obtain rfl := Option.some.inj h
    simp [dequeCall, hnil]
  | put data | putFront data =>
    simp only [countAnswer, hfull] at h
    split_ifs at h with heq
    obtain rfl := Option.some.inj h
    cases data <;> simp [dequeCall, heq]
  | fill data =>
    simp only [countAnswer, hfull] at h
    split_ifs at h with heq
    obtain rfl := Option.some.inj h
    simp [dequeCall, heq]

theorem consumer_frame {place : Place} {phase : Phase Op Answer}
    (h : ConsumerAt size.toNat b xs place phase) (buffer : List Byte) (head : BitVec 32)
    (more : List (List Byte)) :
    ConsumerAt size.toNat { b with buffer := buffer, head := head } (xs++more) place phase := by
  cases h with
  | idle => exact .idle
  | called op hop => exact .called op hop
  | headLoaded op hop n hn =>
    exact .headLoaded op hop n (by rw [List.length_append]; omega)
  | counted op hop hsome => exact .counted op hop (by simp [hsome])
  | copying op hop x bytes hx hlength hdone =>
    exact .copying op hop x bytes (by simp [hx]) hlength hdone

theorem producer_frame {place : Place} {phase : Phase Op Answer} {x : List Byte}
    (h : ProducerAt size.toNat count.toNat b (x::xs) place phase) (tail : BitVec 32) :
    ProducerAt size.toNat count.toNat { b with tail := tail } xs place phase := by
  cases h with
  | idle => exact .idle
  | called op hop => exact .called op hop
  | headLoaded op hop hnull => exact .headLoaded op hop hnull
  | counted data hdata hroom => exact .counted data hdata (Nat.lt_of_succ_lt hroom)
  | copying data bytes hdata hroom hdone hcell =>
    exact .copying data bytes hdata (Nat.lt_of_succ_lt hroom) hdone hcell

theorem producer_moves {b' : RingBuffer} {xs' : List (List Byte)}
    {place : Place} {phase : Phase Op Answer} {trace : List (Observed Side Op Answer)}
    (hstores : Stores size count b' xs')
    (hproducer : ProducerAt size.toNat count.toNat b' xs' place phase)
    (hconsumer : ConsumerAt size.toNat b' xs' (s.place .consumer) (o.phase .consumer)) :
    Matches size count ⟨b', Function.update s.place .producer place, trace⟩
      ⟨xs', Function.update o.phase .producer phase, trace⟩ := by
  refine ⟨hstores, ?_, ?_, rfl⟩
  · simpa only [Function.update_self] using hproducer
  · have hne : Side.consumer ≠ Side.producer := by decide
    simpa only [Function.update_of_ne hne] using hconsumer

theorem consumer_moves {b' : RingBuffer} {xs' : List (List Byte)}
    {place : Place} {phase : Phase Op Answer} {trace : List (Observed Side Op Answer)}
    (hstores : Stores size count b' xs')
    (hproducer : ProducerAt size.toNat count.toNat b' xs' (s.place .producer) (o.phase .producer))
    (hconsumer : ConsumerAt size.toNat b' xs' place phase) :
    Matches size count ⟨b', Function.update s.place .consumer place, trace⟩
      ⟨xs', Function.update o.phase .consumer phase, trace⟩ := by
  refine ⟨hstores, ?_, ?_, rfl⟩
  · have hne : Side.producer ≠ Side.consumer := by decide
    simpa only [Function.update_of_ne hne] using hproducer
  · simpa only [Function.update_self] using hconsumer

end Sides

section Accesses

variable {size count : BitVec 32} {s : System} {o : Object (List (List Byte)) Side Op Answer}

/-- The step returns, and the atomic queue can move to where it leads. -/
def Advances (size count : BitVec 32) (next : Option System)
    (o : Object (List (List Byte)) Side Op Answer) : Prop :=
  ∃ t, next = some t ∧
    ∃ moves o', run (move (dequeCall count.toNat)) o moves = some o' ∧ Matches size count t o'

/-- The atomic queue does not move. -/
theorem stays {t : System} (h : Matches size count t o) : Advances size count (some t) o :=
  ⟨t, rfl, [], o, rfl, h⟩

/-- No phase changes when the side goes on in its call. -/
theorem same_phase (side : Side) : Function.update o.phase side (o.phase side) = o.phase :=
  Function.update_eq_self side o.phase

theorem producer_goes_on (h : Matches size count s o) {buffer : List Byte} {place : Place}
    (hstores : Stores size count { s.buf with buffer := buffer } o.state)
    (hproducer : ProducerAt size.toNat count.toNat { s.buf with buffer := buffer } o.state place
      (o.phase .producer)) :
    Advances size count
      (some ({ s with buf := { s.buf with buffer := buffer } }.goTo .producer place)) o := by
  refine stays ?_
  have hconsumer := consumer_frame h.consumer buffer s.buf.head []
  rw [List.append_nil] at hconsumer
  rw [System.goTo, h.trace]
  have hmoves := @producer_moves _ _ s o _ _ _ _ o.trace hstores hproducer hconsumer
  rw [same_phase] at hmoves
  exact hmoves

theorem producer_answers (h : Matches size count s o) {op : Op}
    (hphase : o.phase .producer = .waiting op) {buf : RingBuffer}
    (hstores : Stores size count buf (dequeCall count.toNat o.state op).2)
    (hconsumer : ConsumerAt size.toNat buf (dequeCall count.toNat o.state op).2
      (s.place .consumer) (o.phase .consumer)) :
    Advances size count (some ({ s with buf := buf }.answer .producer op
      (dequeCall count.toNat o.state op).1)) o := by
  refine ⟨_, rfl, _, _, effect_answer_moves hphase, ?_⟩
  rw [System.answer, h.trace]
  exact producer_moves hstores .idle hconsumer

theorem consumer_goes_on (h : Matches size count s o) {place : Place}
    (hconsumer : ConsumerAt size.toNat s.buf o.state place (o.phase .consumer)) :
    Advances size count (some (s.goTo .consumer place)) o := by
  refine stays ?_
  rw [System.goTo, h.trace]
  have hmoves := @consumer_moves _ _ s o _ _ _ _ o.trace h.stores h.producer hconsumer
  rw [same_phase] at hmoves
  exact hmoves

theorem consumer_answers (h : Matches size count s o) {op : Op}
    (hphase : o.phase .consumer = .waiting op) {buf : RingBuffer}
    (hstores : Stores size count buf (dequeCall count.toNat o.state op).2)
    (hproducer : ProducerAt size.toNat count.toNat buf (dequeCall count.toNat o.state op).2
      (s.place .producer) (o.phase .producer)) :
    Advances size count (some ({ s with buf := buf }.answer .consumer op
      (dequeCall count.toNat o.state op).1)) o := by
  refine ⟨_, rfl, _, _, effect_answer_moves hphase, ?_⟩
  rw [System.answer, h.trace]
  exact consumer_moves hstores hproducer .idle

/-- The answer that `head` has decided is given when `tail` is loaded too. -/
theorem consumer_returns (h : Matches size count s o) {op : Op} {answer : Answer}
    (hphase : o.phase .consumer = .done op answer) :
    Advances size count (some (s.answer .consumer op answer)) o := by
  refine ⟨_, rfl, _, _, answer_moves hphase, ?_⟩
  rw [System.answer, h.trace]
  exact consumer_moves h.stores h.producer .idle

/-- The consumer's load of `head` is where the count has its effect. -/
theorem consumer_loads_head (h : Matches size count s o) {op : Op}
    (hphase : o.phase .consumer = .waiting op) (hop : Made .consumer size.toNat op) :
    Advances size count (some (s.goTo .consumer (.headLoaded op s.buf.head))) o := by
  have hat : ConsumerAt size.toNat s.buf o.state
      (.headLoaded op (s.buf.tail + BitVec.ofNat 32 o.state.length)) _ :=
    .headLoaded op hop o.state.length le_rfl
  rw [← h.stores.holds.head, h.stores.elementCount] at hat
  cases hanswer : countAnswer count (BitVec.ofNat 32 o.state.length) op with
  | none =>
    rw [hanswer] at hat
    refine consumer_goes_on h ?_
    rw [hphase]
    exact hat
  | some answer =>
    rw [hanswer] at hat
    have hcall := count_decides h.stores.holds.length hanswer
    refine ⟨_, rfl, _, _, effect_moves hphase, ?_⟩
    rw [System.goTo, h.trace, hcall]
    exact consumer_moves h.stores h.producer hat

theorem access_called {side : Side} {op : Op} (hplace : s.place side = .called op)
    (hnull : op ≠ .put none) :
    access s side = some (s.goTo side (.headLoaded op s.buf.head)) := by
  cases op with
  | put data =>
    cases data with
    | none => exact absurd rfl hnull
    | some data => simp only [access, hplace]
  | _ => simp only [access, hplace]

/-- The count leaves a put of the producer open only if there is room. -/
theorem put_has_room {xs : List (List Byte)} {op : Op} (hop : Made .producer size.toNat op)
    (hnull : op ≠ .put none) (hle : xs.length ≤ count.toNat)
    (h : countAnswer count (BitVec.ofNat 32 xs.length) op = none) :
    ∃ data, op = .put (some data) ∧ data.length = size.toNat ∧ xs.length < count.toNat := by
  cases op with
  | put data =>
    cases data with
    | none => exact absurd rfl hnull
    | some data =>
      simp only [countAnswer] at h
      split_ifs at h with heq
      refine ⟨data, rfl, hop.fits data rfl, lt_of_le_of_ne hle fun hlength => heq ?_⟩
      rw [hlength, BitVec.ofNat_toNat, BitVec.setWidth_eq]
  | peek | pop | putFront | fill => exact absurd hop.makes (by simp [Side.makes])
  | count | full | empty => exact nomatch h

/-- The loop of `ringbuf_put` stores one byte of the free element. -/
theorem put_byte (hfits : count.toNat * size.toNat ≤ 2 ^ 32) (hw : count.toNat ∣ 2 ^ 32)
    (h : Matches size count s o) {data bytes : List Byte}
    (hphase : o.phase .producer = .waiting (.put (some data))) (hdata : data.length = size.toNat)
    (hroom : o.state.length < count.toNat) (hdone : bytes = data.take bytes.length)
    (hcell : (slot size.toNat s.buf.buffer (s.buf.head.toNat % count.toNat)).take bytes.length =
      bytes) (hi : bytes.length < size.toNat) :
    Advances size count
      (copy s .producer (.put (some data)) (s.buf.element s.buf.head) bytes) o := by
  have hcount : 0 < count.toNat := by omega
  have hlt := Nat.mod_lt s.buf.head.toNat hcount
  have hget : data[bytes.length]? = some data[bytes.length] :=
    List.getElem?_eq_getElem (by omega)
  obtain ⟨buffer, hstore, hlength, hslot, hothers⟩ :=
    store_cell h.stores.length hlt hi data[bytes.length]
  rw [← element_offset hfits h.stores.toShaped hcount] at hstore
  have hcopy : copy s .producer (.put (some data)) (s.buf.element s.buf.head) bytes =
      some ({ s with buf := { s.buf with buffer := buffer } }.goTo .producer
        (.copying (.put (some data)) (s.buf.element s.buf.head)
          (bytes++[data[bytes.length]]))) := by
    rw [copy, h.stores.elementSize, if_pos hi, hget]
    simp only [Option.bind_eq_bind, Option.bind_some, hstore]
  rw [hcopy]
  have htake : bytes++[data[bytes.length]] = data.take (bytes++[data[bytes.length]]).length := by
    rw [List.length_append, List.length_singleton, List.take_add_one, ← hdone, hget]
    rfl
  refine producer_goes_on h ⟨⟨h.stores.elementSize, h.stores.elementCount,
    hlength.trans h.stores.length⟩, ?_⟩ ?_
  · exact holds_free hw h.stores.holds hroom fun k _ hk => hothers k hk
  · rw [hphase]
    refine .copying data _ hdata hroom htake ?_
    have hslotLength := slot_length h.stores.length hlt
    rw [hslot, List.length_append, List.length_singleton, List.take_add_one,
      List.take_set_of_le le_rfl, hcell, List.getElem?_set_self (by omega)]
    rfl

/-- When all bytes are stored, the element is the queue's as soon as `head` has moved. -/
theorem put_ends (hw : count.toNat ∣ 2 ^ 32) (h : Matches size count s o) {data bytes : List Byte}
    (hphase : o.phase .producer = .waiting (.put (some data))) (hdata : data.length = size.toNat)
    (hroom : o.state.length < count.toNat) (hdone : bytes = data.take bytes.length)
    (hcell : (slot size.toNat s.buf.buffer (s.buf.head.toNat % count.toNat)).take bytes.length =
      bytes) (hi : ¬ bytes.length < size.toNat) :
    Advances size count
      (copy s .producer (.put (some data)) (s.buf.element s.buf.head) bytes) o := by
  have hlt := Nat.mod_lt s.buf.head.toNat (show 0 < count.toNat by omega)
  have hslotLength := slot_length h.stores.length hlt
  have hslot : slot size.toNat s.buf.buffer (s.buf.head.toNat % count.toNat) = data := by
    rw [List.take_of_length_le (by omega)] at hcell hdone
    exact hcell.trans hdone
  have hcall : dequeCall count.toNat o.state (.put (some data)) =
      (.status true, o.state++[data]) := by
    simp only [dequeCall, if_neg hroom.ne]
  have hanswers := @producer_answers _ _ _ _ h _ hphase { s.buf with head := s.buf.head+1 }
  rw [hcall] at hanswers
  have hcopy : copy s .producer (.put (some data)) (s.buf.element s.buf.head) bytes =
      some ({ s with buf := { s.buf with head := s.buf.head+1 } }.answer .producer
        (.put (some data)) (.status true)) := by
    rw [copy, h.stores.elementSize, if_neg hi]
  rw [hcopy]
  refine hanswers ⟨⟨h.stores.elementSize, h.stores.elementCount, h.stores.length⟩, ?_⟩ ?_
  · exact holds_put hw h.stores.holds hroom hslot fun _ _ _ => rfl
  · exact consumer_frame h.consumer s.buf.buffer _ [data]

/-- The count leaves a call of the consumer open only if there is an element. -/
theorem take_has_element {n : ℕ} {op : Op} (hop : Made .consumer size.toNat op)
    (h : countAnswer count (BitVec.ofNat 32 n) op = none) :
    (op = .peek ∨ ∃ out, op = .pop out) ∧ n ≠ 0 := by
  cases op with
  | peek =>
    refine ⟨Or.inl rfl, fun hzero => ?_⟩
    simp [countAnswer, hzero] at h
  | pop out =>
    refine ⟨Or.inr ⟨out, rfl⟩, fun hzero => ?_⟩
    simp [countAnswer, hzero] at h
  | put | putFront | fill => exact absurd hop.makes (by simp [Side.makes])
  | count | full | empty => exact nomatch h

/-- The front element is in the place that the consumer's counter points to. -/
theorem front_slot (h : Matches size count s o) {x : List Byte} (hx : o.state.head? = some x) :
    0 < count.toNat ∧ slot size.toNat s.buf.buffer (s.buf.tail.toNat % count.toNat) = x := by
  obtain ⟨rest, hstate⟩ := List.head?_eq_some_iff.mp hx
  have hholds := h.stores.holds
  rw [hstate] at hholds
  have hle := hholds.length
  rw [List.length_cons] at hle
  exact ⟨by omega, (holds_pop hholds).1⟩

theorem front_length {x : List Byte} (h : Matches size count s o) (hx : o.state.head? = some x) :
    x.length = size.toNat := by
  obtain ⟨hcount, hslot⟩ := front_slot h hx
  rw [← hslot]
  exact slot_length h.stores.length (Nat.mod_lt _ hcount)

theorem take_byte (h : Matches size count s o) {op : Op}
    (hphase : o.phase .consumer = .waiting op) (hop : op = .peek ∨ ∃ out, op = .pop out)
    {x bytes : List Byte} (hx : o.state.head? = some x) (hlength : x.length = size.toNat)
    (hdone : bytes = x.take bytes.length) (hi : bytes.length < size.toNat) :
    Advances size count
      (some (s.goTo .consumer (.copying op (s.buf.element s.buf.tail)
        (bytes++x[bytes.length]?.toList)))) o := by
  refine consumer_goes_on h ?_
  rw [hphase]
  refine .copying op hop x _ hx hlength ?_
  have hget : x[bytes.length]? = some x[bytes.length] := List.getElem?_eq_getElem (by omega)
  rw [hget, Option.toList_some, List.length_append, List.length_singleton, List.take_add_one,
    ← hdone, hget, Option.toList_some]

theorem pop_ends (h : Matches size count s o) {out : Bool}
    (hphase : o.phase .consumer = .waiting (.pop out)) {x bytes : List Byte}
    (hx : o.state.head? = some x) (hbytes : out = true → bytes = x) :
    Advances size count (some ({ s with buf := { s.buf with tail := s.buf.tail+1 } }.answer
      .consumer (.pop out) (.popped true (if out then some bytes else none)))) o := by
  obtain ⟨rest, hstate⟩ := List.head?_eq_some_iff.mp hx
  have hcall : dequeCall count.toNat o.state (.pop out) =
      (.popped true (if out then some bytes else none), rest) := by
    cases out with
    | false => simp [dequeCall, hstate]
    | true => simp [dequeCall, hstate, hbytes rfl]
  have hanswers := @consumer_answers _ _ _ _ h _ hphase { s.buf with tail := s.buf.tail+1 }
  rw [hcall] at hanswers
  have hstores := h.stores
  have hproducer := h.producer
  rw [hstate] at hstores hproducer
  exact hanswers (pop_stores hstores) (producer_frame hproducer _)

theorem peek_ends (h : Matches size count s o) (hphase : o.phase .consumer = .waiting .peek)
    {x : List Byte} (hx : o.state.head? = some x) :
    Advances size count (some (s.answer .consumer .peek (.element (some x)))) o := by
  have hcall : dequeCall count.toNat o.state .peek = (.element (some x), o.state) := by
    rw [dequeCall, hx]
  have hanswers := @consumer_answers _ _ _ _ h _ hphase s.buf
  rw [hcall] at hanswers
  exact hanswers h.stores h.producer

variable (hfits : count.toNat * size.toNat ≤ 2 ^ 32)
include hfits

/-- The loops of `ringbuf_pop` and of the reader load one byte of the front element. -/
theorem load_front {x : List Byte} {i : ℕ} (h : Matches size count s o)
    (hx : o.state.head? = some x) (hi : i < size.toNat) :
    load s.buf.buffer ((s.buf.element s.buf.tail).toNat + i) 1 = some x[i]?.toList := by
  obtain ⟨hcount, hslot⟩ := front_slot h hx
  rw [element_offset hfits h.stores.toShaped hcount,
    load_cell h.stores.length (Nat.mod_lt _ hcount) hi, hslot]

theorem consumer_copies (h : Matches size count s o) {op : Op}
    (hphase : o.phase .consumer = .waiting op) (hop : op = .peek ∨ ∃ out, op = .pop out)
    {x bytes : List Byte} (hx : o.state.head? = some x) (hlength : x.length = size.toNat)
    (hdone : bytes = x.take bytes.length) :
    Advances size count (copy s .consumer op (s.buf.element s.buf.tail) bytes) o := by
  have hwhole : ¬ bytes.length < size.toNat → bytes = x := fun hi => by
    rwa [List.take_of_length_le (by omega)] at hdone
  rcases hop with rfl | ⟨out, rfl⟩
  · rw [copy, h.stores.elementSize]
    split_ifs with hi
    · rw [load_front hfits h hx hi]
      exact take_byte h hphase (Or.inl rfl) hx hlength hdone hi
    · rw [hwhole hi]
      exact peek_ends h hphase hx
  · by_cases hi : out = true ∧ bytes.length < size.toNat
    · rw [copy, h.stores.elementSize, if_pos hi, load_front hfits h hx hi.2]
      exact take_byte h hphase (Or.inr ⟨out, rfl⟩) hx hlength hdone hi.2
    · rw [copy, h.stores.elementSize, if_neg hi]
      exact pop_ends h hphase hx fun hout => hwhole fun hlt => hi ⟨hout, hlt⟩

theorem consumer_access (h : Matches size count s o) :
    Advances size count (access s .consumer) o := by
  have hat := h.consumer
  generalize hplace : s.place .consumer = place at hat
  generalize hphase : o.phase .consumer = phase at hat
  cases hat with
  | idle =>
    rw [access, hplace]
    exact stays h
  | called op hop =>
    have hnull : op ≠ .put none := by
      rintro rfl
      exact absurd hop.makes (by decide)
    rw [access_called hplace hnull]
    exact consumer_loads_head h hphase hop
  | headLoaded op hop n hn =>
    have hcount : s.buf.tail + BitVec.ofNat 32 n-s.buf.tail = BitVec.ofNat 32 n := by
      rw [BitVec.add_comm, BitVec.add_sub_cancel]
    simp only [access, hplace, hcount]
    cases hanswer : countAnswer s.buf.elementCount (BitVec.ofNat 32 n) op with
    | none =>
      obtain ⟨htakes, hzero⟩ := take_has_element hop hanswer
      refine consumer_goes_on h ?_
      rw [hphase, hanswer]
      exact .counted op htakes (List.ne_nil_of_length_pos (by omega))
    | some answer =>
      rw [hanswer] at hphase
      exact consumer_returns h hphase
  | counted op hop hsome =>
    simp only [access, hplace]
    obtain ⟨x, hx⟩ := Option.isSome_iff_exists.mp (List.isSome_head?.mpr hsome)
    refine consumer_goes_on h ?_
    rw [hphase]
    exact .copying op hop x [] hx (front_length h hx) rfl
  | copying op hop x bytes hx hlength hdone =>
    simp only [access, hplace]
    exact consumer_copies hfits h hphase hop hx hlength hdone

variable (hw : count.toNat ∣ 2 ^ 32)
include hw

theorem producer_access (h : Matches size count s o) :
    Advances size count (access s .producer) o := by
  have hat := h.producer
  generalize hplace : s.place .producer = place at hat
  generalize hphase : o.phase .producer = phase at hat
  cases hat with
  | idle =>
    rw [access, hplace]
    exact stays h
  | called op hop =>
    by_cases hnull : op = .put none
    · subst hnull
      simp only [access, hplace]
      exact producer_answers h hphase h.stores h.consumer
    · rw [access_called hplace hnull]
      refine producer_goes_on h h.stores ?_
      rw [hphase]
      exact .headLoaded op hop hnull
  | headLoaded op hop hnull =>
    simp only [access, hplace]
    have hcount : s.buf.head-s.buf.tail = BitVec.ofNat 32 o.state.length :=
      count_answer h.stores
    rw [hcount, h.stores.elementCount]
    cases hanswer : countAnswer count (BitVec.ofNat 32 o.state.length) op with
    | none =>
      obtain ⟨data, rfl, hdata, hroom⟩ := put_has_room hop hnull h.stores.holds.length hanswer
      refine producer_goes_on h h.stores ?_
      rw [hphase]
      exact .counted data hdata hroom
    | some answer =>
      have hcall := count_decides h.stores.holds.length hanswer
      have hanswers := @producer_answers _ _ _ _ h _ hphase s.buf
      rw [hcall] at hanswers
      exact hanswers h.stores h.consumer
  | counted data hdata hroom =>
    simp only [access, hplace]
    refine producer_goes_on h h.stores ?_
    rw [hphase]
    exact .copying data [] hdata hroom rfl rfl
  | copying data bytes hdata hroom hdone hcell =>
    simp only [access, hplace]
    by_cases hi : bytes.length < size.toNat
    · exact put_byte hfits hw h hphase hdata hroom hdone hcell hi
    · exact put_ends hw h hphase hdata hroom hdone hcell hi

theorem act_advances (h : Matches size count s o) {a : Act} (ha : a.Legal size.toNat) :
    Advances size count (act s a) o := by
  cases a with
  | go side =>
    cases side with
    | producer => exact producer_access hfits hw h
    | consumer => exact consumer_access hfits h
  | call side op =>
    rw [act]
    split_ifs with hidle
    · obtain ⟨hmakes, hop⟩ := ha
      cases side with
      | producer =>
        have hat := h.producer
        rw [hidle] at hat
        generalize hphase : o.phase .producer = phase at hat
        cases hat
        refine ⟨_, rfl, _, _, call_moves op hphase, ?_⟩
        rw [h.trace]
        exact producer_moves h.stores (.called op ⟨hmakes, hop⟩) h.consumer
      | consumer =>
        have hat := h.consumer
        rw [hidle] at hat
        generalize hphase : o.phase .consumer = phase at hat
        cases hat
        refine ⟨_, rfl, _, _, call_moves op hphase, ?_⟩
        rw [h.trace]
        exact consumer_moves h.stores h.producer (.called op ⟨hmakes, hop⟩)
    · exact stays h

end Accesses

/-- Whatever the order of the accesses, no access is outside of the buffer, and the sides
see a queue that takes their calls one after the other. -/
theorem sides_atomic {size count : BitVec 32} {buffer : List Byte}
    (hlength : buffer.length = count.toNat * size.toNat)
    (hfits : count.toNat * size.toNat ≤ 2 ^ 32) (hpower : ∃ k, count.toNat = 2 ^ k)
    (acts : List Act) (hacts : ∀ a ∈ acts, a.Legal size.toNat) :
    ∃ t, run act (.init (ringbufInit buffer size count)) acts = some t ∧
      Seen (dequeCall count.toNat) [] t.trace := by
  have hw := dvd_iff_power_of_two.mpr hpower
  have hinit : Matches size count (.init (ringbufInit buffer size count)) (start []) :=
    ⟨init_stores hlength, .idle, .idle, rfl⟩
  have hall : Allowed act (fun _ a => a.Legal size.toNat)
    (.init (ringbufInit buffer size count)) acts := allowed_of_forall hacts
  have hstep (s : System) (o : Object (List (List Byte)) Side Op Answer) (a : Act)
      (h : Matches size count s o) (ha : a.Legal size.toNat) :
      Advances size count (act s a) o := act_advances hfits hw h ha
  obtain ⟨t, hrun, moves, o, hmoves, hmatches⟩ := run_matches hstep hinit hall
  exact ⟨t, hrun, moves, o, hmoves, hmatches.trace.symm⟩

/-- A put and a pop whose accesses alternate. -/
theorem alternating_atomic :
    ∃ t, run act (.init (ringbufInit [0, 0] 1 2))
        (.call .producer (.put (some [7]))::.call .consumer (.pop true)::
          (List.replicate 6 [.go .producer, .go .consumer]).flatten) = some t ∧
      Seen (dequeCall 2) [] t.trace := by
  refine sides_atomic rfl (by decide) ⟨1, rfl⟩ _ (List.forall_mem_cons.mpr ⟨?_,
    List.forall_mem_cons.mpr ⟨?_, fun a ha => ?_⟩⟩)
  · exact ⟨rfl, fun data hdata => Option.some.inj hdata ▸ rfl⟩
  · exact ⟨rfl, fun data hdata => nomatch hdata⟩
  · simp only [List.mem_flatten, List.mem_replicate] at ha
    obtain ⟨_, ⟨-, rfl⟩, ha⟩ := ha
    rcases List.mem_pair.mp ha with rfl | rfl <;> trivial

end RS485.RingbufSides
