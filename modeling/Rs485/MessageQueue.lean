import Rs485.Runs
import Rs485.Tickets

/-!
# The message queue

`message_queue.c`: threads send each other messages, which stay where they are. The
free messages and the messages of the queue are kept in two rings of pointers. Each
ring gives tickets to those who put a pointer in, and to those who take one out, and
counts the pointers. Any number of threads go through the calls, access by access, in
any order.
-/

set_option autoImplicit false

namespace RS485.MessageQueue
open RS485.Runs

section Code

variable (T B : Type*)

/-- `allocator` with `freelist`, and `queue` with `queue_data` -/
inductive Part where
  | allocator
  | queue
  deriving DecidableEq

/-- `puts` and `takers` record who has had which ticket, and no call reads them. -/
structure Ring where
  /-- `freelist` / `queue_data` -/
  slots : ℕ → Option B
  /-- `free_blocks` / `entries` -/
  count : ℤ
  /-- `allocpos` / `readpos` -/
  takePos : BitVec 32
  /-- `freepos` / `writepos` -/
  putPos : BitVec 32
  blockedReaders : BitVec 32
  sem : ℕ
  puts : List B
  takers : List T

/-- `message_queue_message_free` and `message_queue_write`, access by access -/
inductive PutAt where
  | fetchPos
  | loadSlot (pos : BitVec 32)
  | storeSlot (pos : BitVec 32)
  | addCount
  | loadBlocked
  | subBlocked
  | post
  deriving DecidableEq

/-- `message_queue_message_alloc` and `message_queue_tryread`, also within the calls
that block -/
inductive TakeAt where
  | subCount
  | fetchPos
  | loadSlot (pos : BitVec 32)
  | storeSlot (pos : BitVec 32) (rv : B)
  | addCount
  | addBlocked
  | subBlocked (rv : B)
  | wait
  deriving DecidableEq

/-- Which attempt it is: the only one, or in a call that blocks the one before or behind
the increment of `blocked_readers`. -/
inductive Mode where
  | once
  | first
  | second
  deriving DecidableEq

inductive Phase where
  | idle
  | put (part : Part) (message : B) (at_ : PutAt)
  | take (part : Part) (mode : Mode) (at_ : TakeAt B)
  deriving DecidableEq

/-- `held` are the messages a thread may use, and `received` are those it has taken. -/
structure System where
  maxDepth : BitVec 32
  ring : Part → Ring T B
  phase : T → Phase B
  held : T → List B
  received : Part → T → List B

end Code

section Steps

variable {T B : Type*} [DecidableEq T] [DecidableEq B]

/-- Where a put goes on, if it does not return. -/
def putPhase (part : Part) (message : B) : Option PutAt → Phase B
  | none => .idle
  | some at_ => .put part message at_

def putStep (maxDepth : BitVec 32) (r : Ring T B) (message : B) : PutAt → Ring T B × Option PutAt
  | .fetchPos =>
    ({ r with putPos := r.putPos+1, puts := r.puts++[message] },
      some (.loadSlot (r.putPos % maxDepth)))
  | .loadSlot pos =>
    -- `usleep (10)` and another look while there is a message
    (r, some (if (r.slots pos.toNat).isSome then .loadSlot pos else .storeSlot pos))
  | .storeSlot pos =>
    ({ r with slots := Function.update r.slots pos.toNat (some message) }, some .addCount)
  | .addCount => ({ r with count := r.count+1 }, some .loadBlocked)
  | .loadBlocked => (r, if r.blockedReaders = 0 then none else some .subBlocked)
  | .subBlocked => ({ r with blockedReaders := r.blockedReaders-1 }, some .post)
  | .post => ({ r with sem := r.sem+1 }, none)

inductive Outcome (B : Type*) where
  | goes (mode : Mode) (at_ : TakeAt B)
  | returns (rv : Option B)

def Outcome.phase (part : Part) : Outcome B → Phase B
  | .goes mode at_ => .take part mode at_
  | .returns _ => .idle

/-- The messages the caller gets. -/
def Outcome.messages : Outcome B → List B
  | .goes _ _ => []
  | .returns rv => rv.toList

/-- The attempt has got a message. -/
def gotten (rv : B) : Mode → Outcome B
  | .once | .first => .returns (some rv)
  | .second => .goes .second (.subBlocked rv)

/-- The attempt has got none. -/
def failed : Mode → Outcome B
  | .once => .returns none
  | .first => .goes .first .addBlocked
  | .second => .goes .second .wait

def takeStep (maxDepth : BitVec 32) (t : T) (r : Ring T B) (mode : Mode) :
    TakeAt B → Ring T B × Outcome B
  | .subCount =>
    ({ r with count := r.count-1 }, .goes mode (if 0 < r.count then .fetchPos else .addCount))
  | .fetchPos =>
    ({ r with takePos := r.takePos+1, takers := r.takers++[t] },
      .goes mode (.loadSlot (r.takePos % maxDepth)))
  | .loadSlot pos =>
    match r.slots pos.toNat with
    | none => (r, .goes mode (.loadSlot pos))
    | some rv => (r, .goes mode (.storeSlot pos rv))
  | .storeSlot pos rv => ({ r with slots := Function.update r.slots pos.toNat none }, gotten rv mode)
  | .addCount => ({ r with count := r.count+1 }, failed mode)
  | .addBlocked => ({ r with blockedReaders := r.blockedReaders+1 }, .goes .second .subCount)
  | .subBlocked rv => ({ r with blockedReaders := r.blockedReaders-1 }, .returns (some rv))
  | .wait =>
    -- `sem_wait` does not return while the value is zero, or it returns `EINTR` and is called again
    if r.sem = 0 then (r, .goes mode .wait) else ({ r with sem := r.sem-1 }, .goes .first .subCount)

namespace System

variable (s : System T B) (t : T)

/-- The next access of the thread. -/
def go : System T B :=
  match s.phase t with
  | .idle => s
  | .put part message at_ =>
    let (r, next) := putStep s.maxDepth (s.ring part) message at_
    { s with ring := Function.update s.ring part r,
             phase := Function.update s.phase t (putPhase part message next) }
  | .take part mode at_ =>
    let (r, outcome) := takeStep s.maxDepth t (s.ring part) mode at_
    { s with ring := Function.update s.ring part r,
             phase := Function.update s.phase t (outcome.phase part),
             held := Function.update s.held t (s.held t++outcome.messages),
             received := Function.update s.received part
               (Function.update (s.received part) t (s.received part t++outcome.messages)) }

end System

inductive Call (B : Type*) where
  | put (part : Part) (message : B)
  | take (part : Part) (blocking : Bool)

def messageQueueMessageAlloc : Call B := .take .allocator false
def messageQueueMessageAllocBlocking : Call B := .take .allocator true
def messageQueueMessageFree (message : B) : Call B := .put .allocator message
def messageQueueWrite (message : B) : Call B := .put .queue message
def messageQueueTryread : Call B := .take .queue false
def messageQueueRead : Call B := .take .queue true

inductive Act (T B : Type*) where
  | call (t : T) (call : Call B)
  | go (t : T)

/-- A thread that is in a call makes no other, and passes on only messages it holds. -/
def act (s : System T B) : Act T B → System T B
  | .call t c =>
    match s.phase t, c with
    | .idle, .put part message =>
      if message ∈ s.held t then
        { s with phase := Function.update s.phase t (.put part message .fetchPos),
                 held := Function.update s.held t ((s.held t).erase message) }
      else s
    | .idle, .take part blocking =>
      { s with phase := Function.update s.phase t
                 (.take part (if blocking then .first else .once) .subCount) }
    | _, _ => s
  | .go t => s.go t

end Steps

section Init

variable {T B : Type*}

/-- `size` with the rest up to a multiple of `sizeof (union padding)` -/
def padSize (size : BitVec 32) : BitVec 32 :=
  if size % 8 ≠ 0 then size + (8-size % 8) else size

def roundToPow2 (x : BitVec 32) : BitVec 32 :=
  let x := x-1
  let x := x ||| x >>> 1
  let x := x ||| x >>> 2
  let x := x ||| x >>> 4
  let x := x ||| x >>> 8
  let x := x ||| x >>> 16
  x+1

/-- What `malloc` is asked for: for the messages, and for the pointers of the free list. -/
def memorySize (messageSize maxDepth : BitVec 32) : BitVec 32 :=
  padSize messageSize * roundToPow2 maxDepth

def freelistSize (maxDepth : BitVec 32) : BitVec 32 := 4 * roundToPow2 maxDepth

def freelist (memory messageSize maxDepth : BitVec 32) : List (BitVec 32) :=
  (List.range (roundToPow2 maxDepth).toNat).map fun i =>
    memory + padSize messageSize * BitVec.ofNat 32 i

/-- The queue when `message_queue_init` has returned 0, with the messages of its free list. -/
def start (maxDepth : BitVec 32) (messages : List B) : System T B where
  maxDepth := maxDepth
  ring
    | .allocator => ⟨fun i => messages[i]?, maxDepth.toNat, 0, 0, 0, 0, messages, []⟩
    | .queue => ⟨fun _ => none, 0, 0, 0, 0, 0, [], []⟩
  phase _ := .idle
  held _ := []
  received _ _ := []

def messageQueueInit (memory messageSize maxDepth : BitVec 32) : System T (BitVec 32) :=
  start (roundToPow2 maxDepth) (freelist memory messageSize maxDepth)

theorem smear_step {w n : ℕ} {x y : BitVec w}
    (h : ∀ i, y.getLsbD i = true ↔ ∃ j, i ≤ j ∧ j < i + n ∧ x.getLsbD j = true) (i : ℕ) :
    (y ||| y >>> n).getLsbD i = true ↔ ∃ j, i ≤ j ∧ j < i + (n + n) ∧ x.getLsbD j = true := by
  rw [BitVec.getLsbD_or, BitVec.getLsbD_ushiftRight, Bool.or_eq_true, h, h]
  constructor
  · rintro (⟨j, hle, hlt, hj⟩ | ⟨j, hle, hlt, hj⟩)
    · exact ⟨j, hle, by omega, hj⟩
    · exact ⟨j, by omega, by omega, hj⟩
  · rintro ⟨j, hle, hlt, hj⟩
    by_cases hnear : j < i + n
    · exact Or.inl ⟨j, hle, hnear, hj⟩
    · exact Or.inr ⟨j, by omega, by omega, hj⟩

/-- The shifts set every bit below the highest one. -/
theorem smeared {x : BitVec 32} (hpos : 0 < x.toNat) :
    (roundToPow2 x-1).toNat = 2 ^ Nat.clog 2 x.toNat-1 := by
  have hpred : (x-1).toNat = x.toNat-1 := by
    rw [BitVec.toNat_sub]
    simp
    omega
  have hstart (i : ℕ) : (x-1).getLsbD i = true ↔
      ∃ j, i ≤ j ∧ j < i + 1 ∧ (x-1).getLsbD j = true := by
    constructor
    · exact fun h => ⟨i, le_rfl, Nat.lt_succ_self i, h⟩
    · rintro ⟨j, hle, hlt, hj⟩
      obtain rfl : j = i := by omega
      exact hj
  have hbits := smear_step (smear_step (smear_step (smear_step (smear_step hstart))))
  rw [roundToPow2, BitVec.add_sub_cancel]
  apply Nat.eq_of_testBit_eq
  intro i
  rw [Nat.testBit_two_pow_sub_one, BitVec.testBit_toNat, Bool.eq_iff_iff, decide_eq_true_iff,
    ← not_le, Nat.clog_le_iff_le_pow (by decide)]
  refine (hbits i).trans ⟨?_, fun hlt => ?_⟩
  · rintro ⟨j, hij, -, hj⟩
    rw [← BitVec.testBit_toNat] at hj
    have hge := Nat.ge_two_pow_of_testBit hj
    have hmono : 2 ^ i ≤ 2 ^ j := Nat.pow_le_pow_right (by decide) hij
    omega
  · obtain ⟨j, hij, hj⟩ := Nat.exists_ge_and_testBit_of_ge_two_pow
      (show 2 ^ i ≤ (x-1).toNat by omega)
    rw [BitVec.testBit_toNat] at hj
    have hj32 : j < 32 := BitVec.lt_of_getLsbD hj
    exact ⟨j, hij, by omega, hj⟩

/-- The messages of a queue: the least power of two not below the depth, and none for a
depth of 0, or where the power is no value of 32 bits. -/
def messages (maxDepth : BitVec 32) : ℕ :=
  if maxDepth = 0 then 0 else 2 ^ Nat.clog 2 maxDepth.toNat % 2 ^ 32

theorem round_to_pow2 (x : BitVec 32) : (roundToPow2 x).toNat = messages x := by
  unfold messages
  split_ifs with hzero
  · rw [hzero]
    rfl
  · have hpos : 0 < x.toNat := Nat.pos_of_ne_zero fun h => hzero (BitVec.toNat_inj.mp h)
    have hone : 1 ≤ 2 ^ Nat.clog 2 x.toNat := Nat.one_le_two_pow
    have hadd : 2 ^ Nat.clog 2 x.toNat-1 + (1 : BitVec 32).toNat = 2 ^ Nat.clog 2 x.toNat := by
      change 2 ^ Nat.clog 2 x.toNat-1 + 1 = _
      omega
    calc (roundToPow2 x).toNat = (roundToPow2 x-1 + 1).toNat := by rw [BitVec.sub_add_cancel]
      _ = 2 ^ Nat.clog 2 x.toNat % 2 ^ 32 := by rw [BitVec.toNat_add, smeared hpos, hadd]

theorem round_pow2 {x : BitVec 32} (hpos : 0 < x.toNat) (hle : x.toNat ≤ 2 ^ 31) :
    (roundToPow2 x).toNat = 2 ^ Nat.clog 2 x.toNat := by
  have hclog : Nat.clog 2 x.toNat ≤ 31 := Nat.clog_le_of_le_pow hle
  have hpow : 2 ^ Nat.clog 2 x.toNat ≤ 2 ^ 31 := Nat.pow_le_pow_right (by decide) hclog
  have hne : x ≠ 0 := by
    rintro rfl
    exact absurd hpos (by decide)
  rw [round_to_pow2, messages, if_neg hne, Nat.mod_eq_of_lt (by omega)]

theorem freelist_length (memory messageSize maxDepth : BitVec 32) :
    (freelist memory messageSize maxDepth).length = (roundToPow2 maxDepth).toNat := by
  rw [freelist, List.length_map, List.length_range]

/-- The messages lie in the memory, one behind the other, and the pointers to them in
that of the free list. -/
structure LaidOut (memory messageSize maxDepth : BitVec 32) : Prop where
  inside : ∀ p ∈ freelist memory messageSize maxDepth,
    (p-memory).toNat + (padSize messageSize).toNat ≤ (memorySize messageSize maxDepth).toNat
  aligned : ∀ p ∈ freelist memory messageSize maxDepth, 8 ∣ (p-memory).toNat
  apart : (freelist memory messageSize maxDepth).Pairwise fun p q =>
    (p-memory).toNat + (padSize messageSize).toNat ≤ (q-memory).toNat
  pointers : 4 * (freelist memory messageSize maxDepth).length ≤ (freelistSize maxDepth).toNat

theorem message_offset {memory size : BitVec 32} {i : ℕ} (hfits : size.toNat * i < 2 ^ 32) :
    (memory + size * BitVec.ofNat 32 i-memory).toNat = size.toNat * i := by
  rw [BitVec.add_comm, BitVec.add_sub_cancel, BitVec.toNat_mul, BitVec.toNat_ofNat, Nat.mul_mod,
    Nat.mod_mod, ← Nat.mul_mod, Nat.mod_eq_of_lt hfits]

section Sizes

variable {memory messageSize maxDepth : BitVec 32}

/-- The multiple of 8 may wrap round as well. -/
theorem pad_size_wraps (size : BitVec 32) :
    (padSize size).toNat = (size.toNat + 7) / 8 * 8 % 2 ^ 32 := by
  have hmod : (size % 8).toNat = size.toNat % 8 := BitVec.toNat_umod
  have hlt := size.isLt
  unfold padSize
  split_ifs with hrest
  · have hne : (size % 8).toNat ≠ 0 := fun hzero => hrest (BitVec.toNat_inj.mp hzero)
    rw [BitVec.toNat_add, BitVec.toNat_sub, hmod]
    have height : (8 : BitVec 32).toNat = 8 := rfl
    omega
  · have hzero : size.toNat % 8 = 0 := by
      rw [← hmod, not_not.mp hrest]
      rfl
    omega

theorem pad_size (h : messageSize.toNat < 2 ^ 31) :
    (padSize messageSize).toNat = (messageSize.toNat + 7) / 8 * 8 := by
  rw [pad_size_wraps, Nat.mod_eq_of_lt (by omega)]

theorem pad_size_dvd (size : BitVec 32) : 8 ∣ (padSize size).toNat := by
  rw [pad_size_wraps]
  omega

theorem freelist_offset (hfits : (padSize messageSize).toNat * messages maxDepth < 2 ^ 32)
    {i : ℕ} (hi : i < messages maxDepth) :
    (memory + padSize messageSize * BitVec.ofNat 32 i-memory).toNat =
      (padSize messageSize).toNat * i :=
  message_offset ((Nat.mul_le_mul_left _ hi.le).trans_lt hfits)

theorem freelist_apart (hfits : (padSize messageSize).toNat * messages maxDepth < 2 ^ 32) :
    (freelist memory messageSize maxDepth).Pairwise fun p q =>
      (p-memory).toNat + (padSize messageSize).toNat ≤ (q-memory).toNat := by
  rw [freelist, List.pairwise_map, round_to_pow2]
  refine List.Pairwise.imp_of_mem (fun {i j} hi hj hlt => ?_) List.pairwise_lt_range
  rw [List.mem_range] at hi hj
  rw [freelist_offset hfits hi, freelist_offset hfits hj, ← Nat.mul_succ]
  exact Nat.mul_le_mul_left _ hlt

theorem freelist_nodup (hfits : (padSize messageSize).toNat * messages maxDepth < 2 ^ 32)
    (hsize : 0 < (padSize messageSize).toNat) : (freelist memory messageSize maxDepth).Nodup :=
  (freelist_apart hfits).imp fun {p q} hpq heq => by
    rw [heq] at hpq
    omega

theorem freelist_inside (hfits : (padSize messageSize).toNat * messages maxDepth < 2 ^ 32)
    {p : BitVec 32} (hp : p ∈ freelist memory messageSize maxDepth) :
    (p-memory).toNat + (padSize messageSize).toNat ≤ (memorySize messageSize maxDepth).toNat ∧
      8 ∣ (p-memory).toNat := by
  obtain ⟨i, hi, rfl⟩ := List.mem_map.mp hp
  rw [List.mem_range, round_to_pow2] at hi
  rw [freelist_offset hfits hi, memorySize, BitVec.toNat_mul, round_to_pow2,
    Nat.mod_eq_of_lt hfits, ← Nat.mul_succ]
  exact ⟨Nat.mul_le_mul_left _ hi, (pad_size_dvd messageSize).mul_right i⟩

/-- Where the product of the sizes wraps round, a message reaches over the end. -/
theorem fits_of_inside (hinside : ∀ p ∈ freelist memory messageSize maxDepth,
    (p-memory).toNat + (padSize messageSize).toNat ≤ (memorySize messageSize maxDepth).toNat) :
    (padSize messageSize).toNat * messages maxDepth < 2 ^ 32 := by
  by_contra hwraps
  have hallocated := (memorySize messageSize maxDepth).isLt
  have hsize : 0 < (padSize messageSize).toNat := Nat.pos_of_ne_zero fun hzero => by
    rw [hzero, Nat.zero_mul] at hwraps
    exact hwraps (by decide)
  -- the last message that begins inside does not end there
  let i := (memorySize messageSize maxDepth).toNat / (padSize messageSize).toNat
  have hbegins : (padSize messageSize).toNat * i ≤ (memorySize messageSize maxDepth).toNat :=
    Nat.mul_div_le _ _
  have hends : (memorySize messageSize maxDepth).toNat < (padSize messageSize).toNat * (i + 1) :=
    Nat.lt_mul_div_succ _ hsize
  have hi : i < messages maxDepth := by
    by_contra hge
    have hmul := Nat.mul_le_mul_left (padSize messageSize).toNat (not_lt.mp hge)
    omega
  have hlast := hinside (memory + padSize messageSize * BitVec.ofNat 32 i)
    (List.mem_map.mpr ⟨i, List.mem_range.mpr (by rwa [round_to_pow2]), rfl⟩)
  rw [message_offset (by omega), ← Nat.mul_add_one] at hlast
  omega

theorem pointers_fit_iff : 4 * (freelist memory messageSize maxDepth).length ≤
    (freelistSize maxDepth).toNat ↔ 4 * messages maxDepth < 2 ^ 32 := by
  have hfour : (4 : BitVec 32).toNat = 4 := rfl
  rw [freelist_length, freelistSize, BitVec.toNat_mul, round_to_pow2, hfour]
  omega

/-- The memory is as large as the messages, and as the pointers, when the products of the
sizes do not wrap. -/
theorem laid_out_iff : LaidOut memory messageSize maxDepth ↔
    (padSize messageSize).toNat * messages maxDepth < 2 ^ 32 ∧ 4 * messages maxDepth < 2 ^ 32 := by
  constructor
  · exact fun h => ⟨fits_of_inside h.inside, pointers_fit_iff.mp h.pointers⟩
  · rintro ⟨hfits, hpointers⟩
    exact ⟨fun p hp => (freelist_inside hfits hp).1, fun p hp => (freelist_inside hfits hp).2,
      freelist_apart hfits, pointers_fit_iff.mpr hpointers⟩

end Sizes

/-- What `message_queue_init` makes of its sizes. -/
theorem init_lays_out (memory : BitVec 32) {messageSize : BitVec 32}
    (hsize : messageSize.toNat < 2 ^ 31) (maxDepth : BitVec 32) :
    (freelist memory messageSize maxDepth).length = messages maxDepth ∧
      (LaidOut memory messageSize maxDepth ↔
        (messageSize.toNat + 7) / 8 * 8 * messages maxDepth < 2 ^ 32 ∧
          4 * messages maxDepth < 2 ^ 32) := by
  refine ⟨(freelist_length memory messageSize maxDepth).trans (round_to_pow2 maxDepth), ?_⟩
  rw [laid_out_iff, pad_size hsize]

theorem hundred_bytes_laid_out :
    (freelist 0x10000 100 6).length = 8 ∧ LaidOut 0x10000 100 6 := by
  have hclog : messages 6 = 8 := by decide
  obtain ⟨hlength, hlaid⟩ := @init_lays_out 0x10000 100 (by decide) 6
  rw [hclog] at hlength hlaid
  exact ⟨hlength, hlaid.mpr (by decide)⟩

end Init

end RS485.MessageQueue
