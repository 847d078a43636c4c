import Rs485.Circular

/-!
# The work queue of a stack

The workers of the general, the modbus and the BACnet stack run one loop around what each
of them does with a handle. They wait for a semaphore, look into a ring buffer whether the
wait has failed or not, process the oldest handle where it lies, and only then pop it. The
service that puts handles into the buffer and posts the semaphore is not in the repository,
and may be any that keeps to what the two calls promise. Each step is one access to what
both threads can see, or one pass of a worker's own loop, and the steps of the two come in
any order.
-/

set_option autoImplicit false

namespace RS485.WorkQueue
open RS485.Circular

section Code

/-- `RING_BUFFER`, with the elements where the block has them. Its calls are those of
`ringbuf.c`. -/
structure Ring (H : Type) where
  cells : ℕ → H
  elementCount : BitVec 32
  head : BitVec 32
  tail : BitVec 32

variable {S I W H : Type}

namespace Ring

variable (b : Ring H)

def cell (counter : BitVec 32) : ℕ := counter.toNat % b.elementCount.toNat

def count : BitVec 32 := b.head-b.tail

def empty : Bool := b.count = 0

def full : Bool := b.count = b.elementCount

def store (cell : ℕ) (h : H) : Ring H := { b with cells := Function.update b.cells cell h }

/-- The handle that a step has put behind the others, if the head has gone on. -/
def added (b' : Ring H) : List H :=
  if b'.head = b.head then [] else [b'.cells (b'.cell b.head)]

end Ring

/-- What a worker does with a handle: once before its loop, and in each pass. The flag
asks for another pass. -/
structure Body (W H : Type) where
  enter : W → H → W × H
  pass : W → H → (W × H) × Bool

/-- The service. A step goes from what it keeps and from what it is asked for to what it
keeps, the ring and the semaphore. -/
structure Producer (S I H : Type) where
  start : S
  step : S → I → Ring H → ℕ → S × Ring H × ℕ

inductive Place where
  | waiting
  /-- `sem_wait` has returned -/
  | woken
  /-- behind the test for an empty queue -/
  | tested
  | peeked (cell : ℕ)
  | processing (cell : ℕ)
  /-- in `Ringbuf_Pop` -/
  | popping
  | advancing
  deriving DecidableEq

structure System (S W H : Type) where
  queue : Ring H
  sem : ℕ
  service : S
  place : Place
  /-- what the worker keeps from one handle to the next, and what it has sent -/
  world : W
  /-- the handles that the queue has had room for, oldest first -/
  accepted : List H
  /-- the handles as the worker has found them, oldest first -/
  taken : List H

def serviceStep (p : Producer S I H) (i : I) (s : System S W H) : System S W H :=
  let (service, queue, sem) := p.step s.service i s.queue s.sem
  { s with
    queue := queue
    sem := sem
    service := service
    accepted := s.accepted++s.queue.added queue }

/-- The two tests that find nothing lead back to the wait. -/
def workerStep (body : Body W H) (s : System S W H) : System S W H :=
  match s.place with
  | .waiting => s
  | .woken => { s with place := if s.queue.empty then .waiting else .tested }
  | .tested =>
    if s.queue.empty then { s with place := .waiting }
    else
      let cell := s.queue.cell s.queue.tail
      { s with place := .peeked cell, taken := s.taken++[s.queue.cells cell] }
  | .peeked cell =>
    let (world, h) := body.enter s.world (s.queue.cells cell)
    { s with queue := s.queue.store cell h, world := world, place := .processing cell }
  | .processing cell =>
    let ((world, h), goesOn) := body.pass s.world (s.queue.cells cell)
    { s with
      queue := s.queue.store cell h
      world := world
      place := if goesOn then .processing cell else .popping }
  -- the handle is copied to itself
  | .popping => { s with place := if s.queue.empty then .waiting else .advancing }
  | .advancing => { s with queue := { s.queue with tail := s.queue.tail+1 }, place := .waiting }

inductive Act (I : Type) where
  | serve (i : I)
  | wait (ok : Bool)
  | work

/-- A step that is not possible where it is tried leaves everything as it is. -/
def act (body : Body W H) (p : Producer S I H) (s : System S W H) : Act I → System S W H
  | .serve i => serviceStep p i s
  | .wait ok =>
    match s.place, ok, s.sem with
    | .waiting, true, sem+1 => { s with sem := sem, place := .woken }
    | .waiting, false, _ => { s with place := .woken }
    | _, _, _ => s
  | .work => workerStep body s

/-- `Ringbuf_Init`, and a worker that has come to its wait. -/
def System.init (p : Producer S I H) (cells : ℕ → H) (elementCount : BitVec 32) (w : W) :
    System S W H :=
  ⟨⟨cells, elementCount, 0, 0⟩, 0, p.start, .waiting, w, [], []⟩

end Code

section Service

variable {S I H : Type}

/-- The ring has these handles, oldest first. -/
structure Ring.Contains (b : Ring H) (count : BitVec 32) (hs : List H) : Prop where
  elementCount : b.elementCount = count
  holds : Holds count.toNat b.cells b.head b.tail hs

/-- What the service is expected to do. `knows` is what it has learnt of the ring and goes
by, and `due` are the posts it has yet to make. -/
structure Producer.Documented (p : Producer S I H) (count : BitVec 32) (knows : S → Ring H → Prop)
    (due : S → ℕ) : Prop where
  start : ∀ cells, knows p.start ⟨cells, count, 0, 0⟩
  /-- `Ringbuf_Put` adds a handle behind the others if there is room, and leaves them as
  they are; `sem_post` follows -/
  puts : ∀ s i b sem hs, knows s b → b.Contains count hs → ∃ added : Option H,
    knows (p.step s i b sem).1 (p.step s i b sem).2.1 ∧ (p.step s i b sem).2.1.tail = b.tail ∧
      (p.step s i b sem).2.1.Contains count (hs++added.toList) ∧
      sem + due s + added.toList.length ≤ (p.step s i b sem).2.2 + due (p.step s i b sem).1
  /-- the oldest handle is the worker's to change -/
  edited : ∀ s b h hs k, knows s b → b.Contains count (h::hs) → knows s (b.store (b.cell b.tail) k)
  /-- producer and consumer may be separate processes -/
  popped : ∀ s b h hs, knows s b → b.Contains count (h::hs) → knows s { b with tail := b.tail+1 }

variable {count : BitVec 32} {b b' : Ring H} {hs : List H}

/-- A thread in the calls of `ringbuf.c`: in `ringbuf_put`, and then in `sem_post`. -/
inductive Put (H : Type) where
  | idle
  | testing (h : H)
  | storing (h : H)
  | advancing (h : H)
  | posting

inductive Request (H : Type) where
  | put (h : H)
  | go
  /-- a post by another thread -/
  | post

def putStep (s : Put H) (b : Ring H) (sem : ℕ) : Put H × Ring H × ℕ :=
  match s with
  | .idle => (.idle, b, sem)
  | .testing h => (if b.full then .idle else .storing h, b, sem)
  | .storing h => (.advancing h, b.store (b.cell b.head) h, sem)
  | .advancing _ => (.posting, { b with head := b.head+1 }, sem)
  | .posting => (.idle, b, sem+1)

/-- A request in the middle of a put is not heard. -/
def ringbufPut : Producer (Put H) (Request H) H where
  start := .idle
  step s i b sem :=
    match i with
    | .put h =>
      match s with
      | .idle => (.testing h, b, sem)
      | _ => (s, b, sem)
    | .go => putStep s b sem
    | .post => (s, b, sem+1)

def Put.due : Put H → ℕ
  | .posting => 1
  | _ => 0

end Service

section Serving

variable {W H : Type} (body : Body W H)

/-- A pass after which there is another. -/
def Body.Goes (a b : W × H) : Prop := body.pass a.1 a.2 = (b, true)

/-- The passes over the handle come to an end. -/
def Body.Serves (w : W) (h : H) (w' : W) : Prop :=
  ∃ a h', Relation.ReflTransGen body.Goes (body.enter w h) a ∧
    body.pass a.1 a.2 = ((w', h'), false)

/-- The handles are served one after the other, and by nobody else. -/
def Body.ServesAll : W → List H → W → Prop
  | w, [], w' => w = w'
  | w, h::hs, w' => ∃ v, body.Serves w h v ∧ Body.ServesAll v hs w'

variable {body}

end Serving

section Invariant

variable {S I W H : Type} (body : Body W H) (w : W)

/-- Where the worker is, and the handle in its hands if there is one. -/
inductive WorkerAt (cell : ℕ) : Place → W → List H → Option H → Prop where
  | waiting (world : W) (taken : List H) (hall : body.ServesAll w taken world) :
    WorkerAt cell .waiting world taken none
  | woken (world : W) (taken : List H) (hall : body.ServesAll w taken world) :
    WorkerAt cell .woken world taken none
  | tested (world : W) (taken : List H) (hall : body.ServesAll w taken world) :
    WorkerAt cell .tested world taken none
  | peeked (world : W) (taken : List H) (h : H) (hall : body.ServesAll w taken world) :
    WorkerAt cell (.peeked cell) world (taken++[h]) (some h)
  | processing (v world : W) (taken : List H) (h front : H) (hall : body.ServesAll w taken v)
    (hgoes : Relation.ReflTransGen body.Goes (body.enter v h) (world, front)) :
    WorkerAt cell (.processing cell) world (taken++[h]) (some front)
  | popping (world : W) (taken : List H) (front : H) (hall : body.ServesAll w taken world) :
    WorkerAt cell .popping world taken (some front)
  | advancing (world : W) (taken : List H) (front : H) (hall : body.ServesAll w taken world) :
    WorkerAt cell .advancing world taken (some front)

/-- A worker that is awake looks after one handle without another post. -/
def Place.awake : Place → ℕ
  | .waiting => 0
  | _ => 1

/-- The queue holds the handle in the worker's hands, and behind it what waits. -/
structure Inv (count : BitVec 32) (knows : S → Ring H → Prop) (due : S → ℕ) (s : System S W H)
    (front : Option H) (rest : List H) : Prop where
  contains : s.queue.Contains count (front.toList++rest)
  worker : WorkerAt body w (s.queue.cell s.queue.tail) s.place s.world s.taken front
  seen : s.place = .tested → rest ≠ []
  knows : knows s.service s.queue
  accepted : s.accepted = s.taken++rest
  covered : (front.toList++rest).length ≤ s.sem + due s.service + s.place.awake

variable {body w} {p : Producer S I H} {count : BitVec 32} {knows : S → Ring H → Prop}
  {due : S → ℕ} {s : System S W H} {front : Option H} {rest : List H}

section Steps

variable (hp : p.Documented count knows due)
include hp

variable (hw : count.toNat ∣ 2 ^ 32)
include hw

end Steps

end Invariant

section Delivery

variable {S I W H : Type}

/-- The worker has a handle in its hands that it has not done with. -/
def Place.busy : Place → Bool
  | .peeked _ | .processing _ => true
  | _ => false

/-- The handles are taken once each and in the order in which the queue has accepted them,
and a worker that sleeps leaves none behind. -/
structure Delivers (serve : W → H → W) (due : S → ℕ) (w : W) (s : System S W H) : Prop where
  inOrder : s.taken <+: s.accepted
  served : s.place.busy = false → s.world = s.taken.foldl serve w
  drained : s.place = .waiting → s.sem = 0 → due s.service = 0 → s.taken = s.accepted

variable {body : Body W H} {w : W} {p : Producer S I H} {count : BitVec 32}
  {knows : S → Ring H → Prop} {due : S → ℕ}

end Delivery

end RS485.WorkQueue
