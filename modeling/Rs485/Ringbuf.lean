import Rs485.Blocks
import Rs485.Circular
import Rs485.Records
import Rs485.Runs

/-!
# The ring buffer

`ringbuf.c`, a queue in a block of memory the caller provides, open at both ends. Two
counters of type `unsigned int` run through the elements of the block, in both
directions. A pointer to an element is its offset.
-/

set_option autoImplicit false

namespace RS485.Ringbuf
open RS485.Records RS485.Blocks RS485.Circular RS485.Runs

section Code

/-- `struct ring_buffer_t` -/
structure RingBuffer where
  buffer : List Byte
  elementSize : BitVec 32
  elementCount : BitVec 32
  head : BitVec 32
  tail : BitVec 32
  deriving DecidableEq

variable (b : RingBuffer)

def ringbufCount : BitVec 32 := b.head-b.tail

def ringbufFull : Bool := ringbufCount b = b.elementCount

def ringbufEmpty : Bool := ringbufCount b = 0

/-- `b->buffer + (counter % b->element_count) * b->element_size` -/
def RingBuffer.element (counter : BitVec 32) : BitVec 32 :=
  counter % b.elementCount * b.elementSize

def ringbufPeek : Option (BitVec 32) :=
  if ringbufEmpty b then none else some (b.element b.tail)

/-- The element is copied out if the caller passes a place for it. -/
def ringbufPop (out : Bool) : Option ((Bool × Option (List Byte)) × RingBuffer) :=
  if ringbufEmpty b then some ((false, none), b)
  else do
    let data ← if out then (load b.buffer (b.element b.tail).toNat b.elementSize.toNat).map some
      else some none
    some ((true, data), { b with tail := b.tail+1 })

def ringbufPut (dataElement : Option (List Byte)) : Option (Bool × RingBuffer) :=
  match dataElement with
  | none => some (false, b)
  | some data =>
    if ringbufFull b then some (false, b)
    else do
      let value ← load data 0 b.elementSize.toNat
      let buffer ← store b.buffer (b.element b.head).toNat value
      some (true, { b with buffer := buffer, head := b.head+1 })

def ringbufPutFront (dataElement : Option (List Byte)) : Option (Bool × RingBuffer) :=
  match dataElement with
  | none => some (false, b)
  | some data =>
    if ringbufFull b then some (false, b)
    else do
      let b := { b with tail := b.tail-1 }
      let value ← load data 0 b.elementSize.toNat
      let buffer ← store b.buffer (b.element b.tail).toNat value
      some (true, { b with buffer := buffer })

def ringbufDataPeek : Option (BitVec 32) :=
  if ringbufFull b then none else some (b.element b.head)

/-- `none` is a pointer that is not into the buffer. -/
def ringbufDataPut (dataElement : Option (BitVec 32)) : Bool × RingBuffer :=
  if ringbufFull b then (false, b)
  else if some (b.element b.head) = dataElement then (true, { b with head := b.head+1 })
  else (false, b)

def ringbufInit (buffer : List Byte) (elementSize elementCount : BitVec 32) : RingBuffer :=
  ⟨buffer, elementSize, elementCount, 0, 0⟩

/-- The caller fills the element that `ringbuf_data_peek` has given, and then adds it. -/
def fillAndPut (data : List Byte) : Option (Bool × RingBuffer) :=
  match ringbufDataPeek b with
  | none => some (false, b)
  | some pointer => do
    let buffer ← store b.buffer pointer.toNat data
    some (ringbufDataPut { b with buffer := buffer } (some pointer))

inductive Op where
  | count
  | full
  | empty
  | peek
  | pop (out : Bool)
  | put (dataElement : Option (List Byte))
  | putFront (dataElement : Option (List Byte))
  | fill (data : List Byte)
  deriving DecidableEq

inductive Answer where
  | count (n : BitVec 32)
  | status (ok : Bool)
  | element (data : Option (List Byte))
  | popped (ok : Bool) (data : Option (List Byte))
  deriving DecidableEq

def call : Op → Option (Answer × RingBuffer)
  | .count => some (.count (ringbufCount b), b)
  | .full => some (.status (ringbufFull b), b)
  | .empty => some (.status (ringbufEmpty b), b)
  | .peek =>
    match ringbufPeek b with
    | none => some (.element none, b)
    | some pointer => (load b.buffer pointer.toNat b.elementSize.toNat).map fun data =>
      (.element (some data), b)
  | .pop out => (ringbufPop b out).map fun r => (.popped r.1.1 r.1.2, r.2)
  | .put data => (ringbufPut b data).map fun r => (.status r.1, r.2)
  | .putFront data => (ringbufPutFront b data).map fun r => (.status r.1, r.2)
  | .fill data => (fillAndPut b data).map fun r => (.status r.1, r.2)

/-- One call, with the answers given so far. -/
def step (s : RingBuffer × List Answer) (op : Op) : Option (RingBuffer × List Answer) := do
  let (answer, b) ← call s.1 op
  some (b, s.2++[answer])

end Code

section Deque

/-- The call on a queue with two ends that holds up to `c` elements. -/
def dequeCall (c : ℕ) (xs : List (List Byte)) : Op → Answer × List (List Byte)
  | .count => (.count (BitVec.ofNat 32 xs.length), xs)
  | .full => (.status (xs.length = c), xs)
  | .empty => (.status (xs.length = 0), xs)
  | .peek => (.element xs.head?, xs)
  | .pop out => (.popped (xs.length ≠ 0) (if out then xs.head? else none), xs.tail)
  | .put none | .putFront none => (.status false, xs)
  | .put (some x) | .fill x => if xs.length = c then (.status false, xs) else (.status true, xs++[x])
  | .putFront (some x) => if xs.length = c then (.status false, xs) else (.status true, x::xs)

def dequeStep (c : ℕ) (s : List (List Byte) × List Answer) (op : Op) :
    List (List Byte) × List Answer :=
  let (answer, xs) := dequeCall c s.1 op
  (xs, s.2++[answer])

/-- The queue still has the element that was put in front. -/
theorem deque_front (c : ℕ) (x y : List Byte) (n : ℕ) (xs : List (List Byte))
    (answers : List Answer) :
    ∃ before, ((List.replicate n (Op.put (some y))++[Op.peek]).foldl (dequeStep c)
      (x::xs, answers)).2 = before++[.element (some x)] := by
  induction n generalizing xs answers with
  | zero => exact ⟨answers, rfl⟩
  | succ n ih =>
    rw [List.replicate_succ, List.cons_append, List.foldl_cons]
    by_cases hfull : (x::xs).length = c
    · have hstep : dequeStep c (x::xs, answers) (.put (some y)) =
          (x::xs, answers++[.status false]) := by simp only [dequeStep, dequeCall, hfull, if_true]
      rw [hstep]
      exact ih xs _
    · have hstep : dequeStep c (x::xs, answers) (.put (some y)) =
          (x::(xs++[y]), answers++[.status true]) := by
        simp only [dequeStep, dequeCall, hfull, if_false, List.cons_append]
      rw [hstep]
      exact ih (xs++[y]) _

/-- The bytes the caller passes, if any. -/
def Op.data : Op → Option (List Byte)
  | .put data | .putFront data => data
  | .fill data => some data
  | _ => none

/-- The caller passes elements of the size of the buffer's. -/
def Op.Fits (size : ℕ) (op : Op) : Prop := ∀ data, op.data = some data → data.length = size

/-- All calls return, and with the answers of the queue. -/
def BehavesAsDeque (b : RingBuffer) : Prop :=
  ∀ ops : List Op, (∀ op ∈ ops, op.Fits b.elementSize.toNat) →
    ∃ b', run step (b, []) ops =
      some (b', (ops.foldl (dequeStep b.elementCount.toNat) ([], [])).2)

end Deque

section Storing

/-- The block has the length of the elements. -/
structure Shaped (size count : BitVec 32) (b : RingBuffer) : Prop where
  elementSize : b.elementSize = size
  elementCount : b.elementCount = count
  length : b.buffer.length = count.toNat * size.toNat

/-- The buffer stores the elements, the oldest first. -/
structure Stores (size count : BitVec 32) (b : RingBuffer) (xs : List (List Byte)) : Prop
    extends Shaped size count b where
  holds : Holds count.toNat (slot size.toNat b.buffer) b.head b.tail xs

variable {size count : BitVec 32} {b : RingBuffer} {xs : List (List Byte)}

theorem element_offset (hfits : count.toNat * size.toNat ≤ 2 ^ 32) (hb : Shaped size count b)
    (hcount : 0 < count.toNat) (counter : BitVec 32) :
    (b.element counter).toNat = counter.toNat % count.toNat * size.toNat := by
  rw [RingBuffer.element, hb.elementSize, hb.elementCount, BitVec.toNat_mul, BitVec.toNat_umod]
  apply Nat.mod_eq_of_lt
  have hlt := Nat.mod_lt counter.toNat hcount
  rcases Nat.eq_zero_or_pos size.toNat with hzero | hpos
  · rw [hzero, Nat.mul_zero]
    positivity
  · exact (Nat.mul_lt_mul_of_pos_right hlt hpos).trans_le hfits

theorem count_eq (hb : Stores size count b xs) : (ringbufCount b).toNat = xs.length :=
  holds_count hb.holds count.isLt

theorem full_eq (hb : Stores size count b xs) :
    ringbufFull b = decide (xs.length = count.toNat) := by
  rw [ringbufFull, hb.elementCount, decide_eq_decide, ← BitVec.toNat_inj, count_eq hb]

theorem empty_eq (hb : Stores size count b xs) : ringbufEmpty b = decide (xs.length = 0) := by
  rw [ringbufEmpty, decide_eq_decide, ← BitVec.toNat_inj, count_eq hb]
  rfl

theorem load_element (hfits : count.toNat * size.toNat ≤ 2 ^ 32) (hb : Shaped size count b)
    (hcount : 0 < count.toNat) (counter : BitVec 32) :
    load b.buffer (b.element counter).toNat b.elementSize.toNat =
      some (slot size.toNat b.buffer (counter.toNat % count.toNat)) := by
  rw [element_offset hfits hb hcount, hb.elementSize]
  exact load_slot hb.length (Nat.mod_lt _ hcount)

theorem store_element (hfits : count.toNat * size.toNat ≤ 2 ^ 32) (hb : Shaped size count b)
    (hcount : 0 < count.toNat) (counter : BitVec 32) {x : List Byte} (hx : x.length = size.toNat) :
    ∃ buffer, store b.buffer (b.element counter).toNat x = some buffer ∧
      buffer.length = count.toNat * size.toNat ∧
      slot size.toNat buffer (counter.toNat % count.toNat) = x ∧
      ∀ k < count.toNat, k ≠ counter.toNat % count.toNat →
        slot size.toNat buffer k = slot size.toNat b.buffer k := by
  have hlt := Nat.mod_lt counter.toNat hcount
  rw [element_offset hfits hb hcount]
  obtain ⟨buffer, hstore, hlength, hslots⟩ := store_slot hb.length hlt hx
  refine ⟨buffer, hstore, hlength.trans hb.length, ?_, fun k hk hne => ?_⟩
  · rw [hslots _ hlt, if_pos rfl]
  · rw [hslots k hk, if_neg hne]

/-- The front element is where the pointer from `ringbuf_peek` is to. -/
theorem front_element (hfits : count.toNat * size.toNat ≤ 2 ^ 32) {x : List Byte}
    (hb : Stores size count b (x::xs)) :
    load b.buffer (b.element b.tail).toNat b.elementSize.toNat = some x := by
  have hlength := hb.holds.length
  rw [List.length_cons] at hlength
  rw [load_element hfits hb.toShaped (by omega), (holds_pop hb.holds).1]

theorem pop_stores {x : List Byte} (hb : Stores size count b (x::xs)) :
    Stores size count { b with tail := b.tail+1 } xs :=
  ⟨⟨hb.elementSize, hb.elementCount, hb.length⟩, (holds_pop hb.holds).2⟩

theorem load_whole {x : List Byte} {n : ℕ} (hx : x.length = n) : load x 0 n = some x := by
  rw [load, if_pos (by omega), List.drop_zero, ← hx, List.take_length]

theorem room (hb : Stores size count b xs) (hfull : ringbufFull b = false) :
    xs.length < count.toNat := by
  have hle := hb.holds.length
  rw [full_eq hb, decide_eq_false_iff_not] at hfull
  omega

/-- To fill the free element in place is to put a copy of the data. -/
theorem fill_is_put {data : List Byte} (hdata : data.length = b.elementSize.toNat) :
    fillAndPut b data = ringbufPut b (some data) := by
  unfold fillAndPut ringbufPut ringbufDataPeek
  cases hfull : ringbufFull b with
  | true => rfl
  | false =>
    simp only [Bool.false_eq_true, if_false, load_whole hdata, Option.bind_eq_bind,
      Option.bind_some]
    refine Option.bind_congr fun buffer _ => ?_
    have hsame : ringbufFull { b with buffer := buffer } = false := hfull
    rw [ringbufDataPut, hsame]
    exact congrArg some ((if_neg Bool.false_ne_true).trans (if_pos rfl))

section Powers

variable (hfits : count.toNat * size.toNat ≤ 2 ^ 32) (hw : count.toNat ∣ 2 ^ 32)
  {x : List Byte} (hx : x.length = size.toNat)
include hfits hw hx

theorem put_stores (hb : Stores size count b xs) (hfull : ringbufFull b = false) :
    ∃ b', ringbufPut b (some x) = some (true, b') ∧ Stores size count b' (xs++[x]) := by
  have hroom := room hb hfull
  obtain ⟨buffer, hstore, hlength, hcell, hsame⟩ :=
    store_element hfits hb.toShaped (by omega) b.head hx
  refine ⟨{ b with buffer := buffer, head := b.head+1 }, ?_,
    ⟨hb.elementSize, hb.elementCount, hlength⟩, holds_put hw hb.holds hroom hcell hsame⟩
  have hload : load x 0 b.elementSize.toNat = some x := load_whole (by rw [hx, hb.elementSize])
  simp [ringbufPut, hfull, hload, hstore]

theorem put_front_stores (hb : Stores size count b xs) (hfull : ringbufFull b = false) :
    ∃ b', ringbufPutFront b (some x) = some (true, b') ∧ Stores size count b' (x::xs) := by
  have hroom := room hb hfull
  obtain ⟨buffer, hstore, hlength, hcell, hsame⟩ :=
    store_element hfits hb.toShaped (by omega) (b.tail-1) hx
  refine ⟨{ b with buffer := buffer, tail := b.tail-1 }, ?_,
    ⟨hb.elementSize, hb.elementCount, hlength⟩, holds_put_front hw hb.holds hroom hcell hsame⟩
  have hload : load x 0 b.elementSize.toNat = some x := load_whole (by rw [hx, hb.elementSize])
  rw [RingBuffer.element] at hstore
  simp only [ringbufPutFront, RingBuffer.element, hfull, Bool.false_eq_true, if_false, hload,
    hstore, Option.bind_eq_bind, Option.bind_some]

end Powers

/-- The buffer stores the elements of the queue, and the answers have been the same. -/
def Follows (size count : BitVec 32) (s : RingBuffer × List Answer)
    (a : List (List Byte) × List Answer) : Prop := Stores size count s.1 a.1 ∧ s.2 = a.2

end Storing

section Calls

variable {size count : BitVec 32} {b : RingBuffer} {xs : List (List Byte)}

theorem count_answer (hb : Stores size count b xs) :
    ringbufCount b = BitVec.ofNat 32 xs.length := by
  rw [← count_eq hb, BitVec.ofNat_toNat, BitVec.setWidth_eq]

theorem pop_deque (hfits : count.toNat * size.toNat ≤ 2 ^ 32) (hb : Stores size count b xs)
    (out : Bool) :
    ∃ b', ringbufPop b out =
      some ((decide (xs.length ≠ 0), if out then xs.head? else none), b') ∧
      Stores size count b' xs.tail := by
  cases xs with
  | nil =>
    have hempty : ringbufEmpty b = true := by rw [empty_eq hb]; rfl
    refine ⟨b, ?_, hb⟩
    cases out <;> simp [ringbufPop, hempty]
  | cons x xs =>
    have hempty : ringbufEmpty b = false := by rw [empty_eq hb]; rfl
    refine ⟨_, ?_, pop_stores hb⟩
    cases out <;> simp [ringbufPop, hempty, front_element hfits hb]

theorem peek_deque (hfits : count.toNat * size.toNat ≤ 2 ^ 32) (hb : Stores size count b xs) :
    call b .peek = some (.element xs.head?, b) := by
  cases xs with
  | nil =>
    have hempty : ringbufEmpty b = true := by rw [empty_eq hb]; rfl
    simp [call, ringbufPeek, hempty]
  | cons x xs =>
    have hempty : ringbufEmpty b = false := by rw [empty_eq hb]; rfl
    simp [call, ringbufPeek, hempty, front_element hfits hb]

variable (hfits : count.toNat * size.toNat ≤ 2 ^ 32) (hw : count = 0 ∨ count.toNat ∣ 2 ^ 32)
include hfits hw

theorem put_deque (hb : Stores size count b xs) {x : List Byte} (hx : x.length = size.toNat) :
    ∃ b', call b (.put (some x)) = some ((dequeCall count.toNat xs (.put (some x))).1, b') ∧
      Stores size count b' (dequeCall count.toNat xs (.put (some x))).2 := by
  cases hfull : ringbufFull b with
  | true =>
    have hlength : xs.length = count.toNat := by simpa [full_eq hb] using hfull
    refine ⟨b, ?_, ?_⟩
    · simp [call, ringbufPut, hfull, dequeCall, hlength]
    · simpa [dequeCall, hlength] using hb
  | false =>
    have hroom := room hb hfull
    have hpower : count.toNat ∣ 2 ^ 32 := hw.resolve_left fun hzero => by simp [hzero] at hroom
    obtain ⟨b', hput, hstores⟩ := put_stores hfits hpower hx hb hfull
    refine ⟨b', ?_, ?_⟩
    · simp [call, hput, dequeCall, hroom.ne]
    · simpa [dequeCall, hroom.ne] using hstores

theorem put_front_deque (hb : Stores size count b xs) {x : List Byte}
    (hx : x.length = size.toNat) :
    ∃ b', call b (.putFront (some x)) =
        some ((dequeCall count.toNat xs (.putFront (some x))).1, b') ∧
      Stores size count b' (dequeCall count.toNat xs (.putFront (some x))).2 := by
  cases hfull : ringbufFull b with
  | true =>
    have hlength : xs.length = count.toNat := by simpa [full_eq hb] using hfull
    refine ⟨b, ?_, ?_⟩
    · simp [call, ringbufPutFront, hfull, dequeCall, hlength]
    · simpa [dequeCall, hlength] using hb
  | false =>
    have hroom := room hb hfull
    have hpower : count.toNat ∣ 2 ^ 32 := hw.resolve_left fun hzero => by simp [hzero] at hroom
    obtain ⟨b', hput, hstores⟩ := put_front_stores hfits hpower hx hb hfull
    refine ⟨b', ?_, ?_⟩
    · simp [call, hput, dequeCall, hroom.ne]
    · simpa [dequeCall, hroom.ne] using hstores

theorem call_deque (hb : Stores size count b xs) {op : Op} (hop : op.Fits size.toNat) :
    ∃ b', call b op = some ((dequeCall count.toNat xs op).1, b') ∧
      Stores size count b' (dequeCall count.toNat xs op).2 := by
  cases op with
  | count => exact ⟨b, by rw [call, count_answer hb]; rfl, hb⟩
  | full => exact ⟨b, by rw [call, full_eq hb]; rfl, hb⟩
  | empty => exact ⟨b, by rw [call, empty_eq hb]; rfl, hb⟩
  | peek => exact ⟨b, peek_deque hfits hb, hb⟩
  | pop out =>
    obtain ⟨b', hpop, hstores⟩ := pop_deque hfits hb out
    exact ⟨b', by rw [call, hpop]; rfl, hstores⟩
  | put data =>
    cases data with
    | none => exact ⟨b, rfl, hb⟩
    | some x => exact put_deque hfits hw hb (hop x rfl)
  | putFront data =>
    cases data with
    | none => exact ⟨b, rfl, hb⟩
    | some x => exact put_front_deque hfits hw hb (hop x rfl)
  | fill data =>
    have hdata : data.length = size.toNat := hop data rfl
    have hcall : call b (.fill data) = call b (.put (some data)) := by
      rw [call, call, fill_is_put (by rw [hdata, hb.elementSize])]
    rw [hcall]
    exact put_deque hfits hw hb hdata

theorem step_follows (s : RingBuffer × List Answer) (a : List (List Byte) × List Answer) (op : Op)
    (hs : Follows size count s a) (hop : op.Fits size.toNat) :
    ∃ s', step s op = some s' ∧ Follows size count s' (dequeStep count.toNat a op) := by
  obtain ⟨b', hcall, hstores⟩ := call_deque hfits hw hs.1 hop
  refine ⟨(b', s.2++[(dequeCall count.toNat a.1 op).1]), by simp [step, hcall], hstores, ?_⟩
  rw [hs.2, dequeStep]

end Calls

section Overwriting

/-- An element put in front, and `k` elements `y` put behind it. -/
structure PutBehind (size count : BitVec 32) (y : List Byte) (k : ℕ) (b : RingBuffer) : Prop
    extends Shaped size count b where
  head : b.head = BitVec.ofNat 32 k
  tail : b.tail = -1
  cells : ∀ j < k, slot size.toNat b.buffer j = y

variable {size count : BitVec 32} {b : RingBuffer} {y : List Byte} {k : ℕ}

theorem dvd_iff_power_of_two : count.toNat ∣ 2 ^ 32 ↔ ∃ k, count.toNat = 2 ^ k := by
  rw [Nat.dvd_prime_pow Nat.prime_two]
  constructor
  · rintro ⟨k, -, hk⟩
    exact ⟨k, hk⟩
  · rintro ⟨k, hk⟩
    have hlt : 2 ^ k < 2 ^ 32 := hk ▸ count.isLt
    exact ⟨k, ((Nat.pow_lt_pow_iff_right (by omega)).mp hlt).le, hk⟩

/-- The cell in front of the first one is not the last one. -/
theorem cell_in_front (hcount : 0 < count.toNat) (hw : ¬ count.toNat ∣ 2 ^ 32) :
    (-1 : BitVec 32).toNat % count.toNat < count.toNat - 1 := by
  have hmod := Nat.mod_lt (2 ^ 32 - 1) hcount
  refine lt_of_le_of_ne (Nat.le_pred_of_lt hmod) fun heq => hw ?_
  have hdiv := Nat.div_add_mod (2 ^ 32 - 1) count.toNat
  refine ⟨(2 ^ 32 - 1) / count.toNat + 1, ?_⟩
  have heq' : (2 ^ 32 - 1) % count.toNat = count.toNat - 1 := heq
  rw [Nat.mul_add, Nat.mul_one]
  omega

variable (hfits : count.toNat * size.toNat ≤ 2 ^ 32)
include hfits

theorem put_in_front {buffer x : List Byte} (hlength : buffer.length = count.toNat * size.toNat)
    (hcount : count ≠ 0) (hx : x.length = size.toNat) (y : List Byte) :
    ∃ b', ringbufPutFront (ringbufInit buffer size count) (some x) = some (true, b') ∧
      PutBehind size count y 0 b' := by
  have hpos : 0 < count.toNat := Nat.pos_of_ne_zero fun hzero =>
    hcount (BitVec.toNat_inj.mp hzero)
  have hinit : Shaped size count (ringbufInit buffer size count) := ⟨rfl, rfl, hlength⟩
  obtain ⟨buffer', hstore, hlength', -, -⟩ := store_element hfits hinit hpos (0-1) hx
  refine ⟨⟨buffer', size, count, 0, 0-1⟩, ?_, ⟨rfl, rfl, hlength'⟩, rfl, rfl, fun j hj => by omega⟩
  have hfull : ringbufFull (ringbufInit buffer size count) = false := by
    rw [ringbufFull, decide_eq_false_iff_not]
    exact fun heq => hcount (heq.symm.trans (BitVec.sub_self 0))
  have hload : load x 0 size.toNat = some x := load_whole hx
  rw [RingBuffer.element] at hstore
  simp only [ringbufInit] at hstore hfull ⊢
  simp only [ringbufPutFront, RingBuffer.element, hfull, Bool.false_eq_true, if_false, hload,
    hstore, Option.bind_eq_bind, Option.bind_some]

theorem put_behind (hy : y.length = size.toNat) (hb : PutBehind size count y k b)
    (hk : k + 1 < count.toNat) :
    ∃ b', ringbufPut b (some y) = some (true, b') ∧ PutBehind size count y (k + 1) b' := by
  have hlt := count.isLt
  have hhead : b.head.toNat % count.toNat = k := by
    rw [hb.head, BitVec.toNat_ofNat, Nat.mod_eq_of_lt (by omega), Nat.mod_eq_of_lt (by omega)]
  obtain ⟨buffer, hstore, hlength, hcell, hsame⟩ :=
    store_element hfits hb.toShaped (by omega) b.head hy
  rw [hhead] at hcell hsame
  refine ⟨{ b with buffer := buffer, head := b.head+1 }, ?_,
    ⟨hb.elementSize, hb.elementCount, hlength⟩, ?_, hb.tail, fun j hj => ?_⟩
  · have hfull : ringbufFull b = false := by
      rw [ringbufFull, hb.elementCount, ringbufCount, hb.head, hb.tail, decide_eq_false_iff_not]
      intro heq
      have hcount := congrArg BitVec.toNat heq
      rw [BitVec.toNat_sub, BitVec.toNat_ofNat] at hcount
      have hone : (-1 : BitVec 32).toNat = 2 ^ 32 - 1 := rfl
      omega
    have hload : load y 0 b.elementSize.toNat = some y := load_whole (by rw [hy, hb.elementSize])
    simp [ringbufPut, hfull, hload, hstore]
  · rw [hb.head, BitVec.ofNat_add]
    rfl
  · by_cases heq : j = k
    · exact heq ▸ hcell
    · exact (hsame j (by omega) heq).trans (hb.cells j (by omega))

/-- The elements behind the first one reach its cell, and overwrite it. -/
theorem run_put_behind (hw : ¬ count.toNat ∣ 2 ^ 32) (hcount : 0 < count.toNat)
    (hy : y.length = size.toNat) (n : ℕ) (hk : k + n + 1 = count.toNat)
    (hb : PutBehind size count y k b) (answers : List Answer) :
    ∃ b' before, run step (b, answers) (List.replicate n (.put (some y))++[.peek]) =
      some (b', before++[.element (some y)]) := by
  induction n generalizing k b answers with
  | zero =>
    have hempty : ringbufEmpty b = false := by
      rw [ringbufEmpty, ringbufCount, hb.head, hb.tail, decide_eq_false_iff_not]
      intro heq
      have hcount := congrArg BitVec.toNat heq
      rw [BitVec.toNat_sub, BitVec.toNat_ofNat] at hcount
      have hone : (-1 : BitVec 32).toNat = 2 ^ 32 - 1 := rfl
      have hlt := count.isLt
      simp at hcount
      omega
    have hfront := load_element hfits hb.toShaped hcount b.tail
    have hover : slot size.toNat b.buffer (b.tail.toNat % count.toNat) = y := by
      have hlt := cell_in_front hcount hw
      rw [hb.tail]
      exact hb.cells _ (by omega)
    refine ⟨b, answers, ?_⟩
    simp [run, step, call, ringbufPeek, hempty, hfront, hover]
  | succ n ih =>
    obtain ⟨b', hput, hbehind⟩ := put_behind hfits hy hb (by omega)
    obtain ⟨b'', before, hrun⟩ := ih (by omega) hbehind (answers++[.status true])
    refine ⟨b'', before, ?_⟩
    rw [List.replicate_succ, List.cons_append, run, step, call, hput]
    exact hrun

end Overwriting

section Exactness

variable {size count : BitVec 32} {buffer : List Byte}

theorem init_stores (hlength : buffer.length = count.toNat * size.toNat) :
    Stores size count (ringbufInit buffer size count) [] :=
  ⟨⟨rfl, rfl, hlength⟩, holds_empty⟩

theorem run_deque (hlength : buffer.length = count.toNat * size.toNat)
    (hfits : count.toNat * size.toNat ≤ 2 ^ 32) (hw : count = 0 ∨ count.toNat ∣ 2 ^ 32) :
    BehavesAsDeque (ringbufInit buffer size count) := by
  intro ops hops
  have hinit : Follows size count (ringbufInit buffer size count, []) ([], []) :=
    ⟨init_stores hlength, rfl⟩
  have hall : Allowed step (fun _ op => op.Fits size.toNat) (ringbufInit buffer size count, []) ops :=
    allowed_of_forall hops
  obtain ⟨⟨b', answers⟩, hrun, -, hanswers⟩ :=
    run_simulates (step_follows hfits hw) hinit hall
  exact ⟨b', by rw [hrun]; exact congrArg some (congrArg _ hanswers)⟩

/-- The front element of the other counts is lost when the buffer is filled behind it. -/
theorem not_deque (hlength : buffer.length = count.toNat * size.toNat)
    (hfits : count.toNat * size.toNat ≤ 2 ^ 32) (hsize : size ≠ 0) (hcount : count ≠ 0)
    (hw : ¬ count.toNat ∣ 2 ^ 32) : ¬ BehavesAsDeque (ringbufInit buffer size count) := by
  intro h
  let x : List Byte := List.replicate size.toNat 0
  let y : List Byte := List.replicate size.toNat 1
  have hx : x.length = size.toNat := List.length_replicate
  have hy : y.length = size.toNat := List.length_replicate
  have hpos : 0 < count.toNat := Nat.pos_of_ne_zero fun hzero =>
    hcount (BitVec.toNat_inj.mp hzero)
  let ops : List Op := .putFront (some x)::(List.replicate (count.toNat-1) (.put (some y))++[.peek])
  obtain ⟨b, hfront, hbehind⟩ := put_in_front hfits hlength hcount hx y
  obtain ⟨b', before, hcode⟩ :=
    run_put_behind hfits hw hpos hy (count.toNat-1) (by omega) hbehind [.status true]
  obtain ⟨before', hqueue⟩ := deque_front count.toNat x y (count.toNat-1) [] [.status true]
  have hfits : ∀ op ∈ ops, op.Fits size.toNat := by
    intro op hop data hdata
    simp only [ops, List.mem_cons, List.mem_append, List.mem_replicate, List.not_mem_nil,
      or_false] at hop
    rcases hop with rfl | ⟨-, rfl⟩ | rfl
    · exact Option.some.inj hdata ▸ hx
    · exact Option.some.inj hdata ▸ hy
    · exact nomatch hdata
  obtain ⟨b'', hrun⟩ := h ops hfits
  have hcode' : run step (ringbufInit buffer size count, []) ops =
      some (b', before++[.element (some y)]) := by
    rw [← hcode, run, step, call, hfront]
    rfl
  have hqueue' : (ops.foldl (dequeStep count.toNat) ([], [])).2 =
      before'++[.element (some x)] := by
    rw [← hqueue, List.foldl_cons, dequeStep, dequeCall, if_neg (by simpa using hpos.ne)]
    rfl
  rw [hcode', Option.some.injEq, Prod.mk.injEq] at hrun
  have hlast := hrun.2.trans hqueue'
  have hsame : y = x := by simpa using (List.append_inj' hlast rfl).2
  have hzero : size.toNat ≠ 0 := fun hzero => hsize (BitVec.toNat_inj.mp hzero)
  have hbyte := (List.replicate_right_inj hzero).mp hsame
  exact absurd hbyte (by decide)

/-- Any sequence of calls on either end, also when the counters wrap. -/
theorem deque_iff_power_of_two (hlength : buffer.length = count.toNat * size.toNat)
    (hfits : count.toNat * size.toNat ≤ 2 ^ 32) (hsize : size ≠ 0) :
    BehavesAsDeque (ringbufInit buffer size count) ↔ count = 0 ∨ ∃ k, count.toNat = 2 ^ k := by
  rw [← dvd_iff_power_of_two]
  refine ⟨fun h => ?_, run_deque hlength hfits⟩
  by_contra hnot
  rw [not_or] at hnot
  exact not_deque hlength hfits hsize hnot.1 hnot.2 h

theorem four_places_three_places :
    BehavesAsDeque (ringbufInit (List.replicate 8 0) 2 4) ∧
      ¬ BehavesAsDeque (ringbufInit (List.replicate 6 0) 2 3) := by
  refine ⟨(deque_iff_power_of_two rfl (by decide) (by decide)).mpr (Or.inr ⟨2, rfl⟩), fun h => ?_⟩
  rcases (deque_iff_power_of_two rfl (by decide) (by decide)).mp h with hzero | ⟨k, hk⟩
  · exact absurd hzero (by decide)
  · have hdvd : (3 : BitVec 32).toNat ∣ 2 ^ 32 := dvd_iff_power_of_two.mpr ⟨k, hk⟩
    exact absurd hdvd (by decide)

end Exactness

end RS485.Ringbuf
