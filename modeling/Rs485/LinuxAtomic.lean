import Rs485.Atomic
import Rs485.ByteOrder

/-!
# Atomic operations made of one exchange

`linux-atomic.c`. The kernel compares and exchanges a whole word; the functions make
from it the operations of the compiler on words, half-words and bytes. Any number of
threads are in the functions. A step is one access to the memory, and the accesses come
in any order.
-/

set_option autoImplicit false

namespace RS485.LinuxAtomic
open RS485.ByteOrder RS485.Runs RS485.Atomic

section Code

/-- `INF_OP`, with the `PFX_OP` in front of it -/
inductive InfOp where
  | add
  | sub
  | or
  | and
  | xor
  | nand
  deriving DecidableEq

def InfOp.apply {n : ℕ} : InfOp → BitVec n → BitVec n → BitVec n
  | .add, x, y => x+y
  | .sub, x, y => x-y
  | .or, x, y => x ||| y
  | .and, x, y => x &&& y
  | .xor, x, y => x ^^^ y
  | .nand, x, y => ~~~(x &&& y)

/-- `RETURN`: the functions `__sync_fetch_and_<op>` give back the old value, and
`__sync_<op>_and_fetch` the new one. -/
inductive Return where
  | oldval
  | newval
  deriving DecidableEq

def Return.of {α : Type*} : Return → α → α → α
  | .oldval, x, _ => x
  | .newval, _, y => y

inductive Op where
  | sync (ret : Return) (op : InfOp) (w : Width) (ptr : BitVec 32) (val : BitVec w.bits)
  | valCompareAndSwap (w : Width) (ptr : BitVec 32) (oldval newval : BitVec w.bits)
  | boolCompareAndSwap (w : Width) (ptr : BitVec 32) (oldval newval : BitVec w.bits)
  | lockTestAndSet (w : Width) (ptr : BitVec 32) (val : BitVec w.bits)
  | lockRelease (w : Width) (ptr : BitVec 32)
  | synchronize
  deriving DecidableEq

inductive Answer where
  | value (v : BitVec 32)
  | status (ok : Bool)
  | done
  deriving DecidableEq

/-- What a loop does with the word it has loaded: it ends, or it tries to exchange the
word and ends if it can. -/
inductive Pass where
  | returns (answer : Answer)
  | exchanges (newval : BitVec 32) (answer : Answer)
  deriving DecidableEq

def invertMask : Endian → Width → BitVec 32
  | .little, _ => 0
  | .big, .one => 24
  | .big, .two => 16
  -- the functions for a word have no mask
  | .big, .four => 0

def mask : Width → BitVec 32
  | .one => 0xff
  | .two => 0xffff
  | .four => 0xffffffff

def shiftOf (e : Endian) (w : Width) (ptr : BitVec 32) : BitVec 32 :=
  ((ptr &&& 3) <<< 3) ^^^ invertMask e w

def maskOf (e : Endian) (w : Width) (ptr : BitVec 32) : BitVec 32 := mask w <<< shiftOf e w ptr

def fetchAndOpWord (op : InfOp) (val tmp : BitVec 32) : Pass :=
  .exchanges (op.apply tmp val) (.value tmp)

def opAndFetchWord (op : InfOp) (val tmp : BitVec 32) : Pass :=
  .exchanges (op.apply tmp val) (.value (op.apply tmp val))

def syncValCompareAndSwap4 (oldval newval actualOldval : BitVec 32) : Pass :=
  if oldval ≠ actualOldval then .returns (.value actualOldval)
  else .exchanges newval (.value oldval)

def syncLockTestAndSet4 (val oldval : BitVec 32) : Pass := .exchanges val (.value oldval)

section Subwords

variable (e : Endian) (w : Width) (ptr : BitVec 32)

def subwordSyncOp (ret : Return) (op : InfOp) (val : BitVec w.bits) (oldval : BitVec 32) : Pass :=
  let shift := shiftOf e w ptr
  let mask := maskOf e w ptr
  let newval := (op.apply ((oldval &&& mask) >>> shift) (val.setWidth 32) <<< shift) &&& mask
  let newval := newval ||| (oldval &&& ~~~mask)
  .exchanges newval (.value ((ret.of oldval newval &&& mask) >>> shift))

def subwordValCas (oldval newval : BitVec w.bits) (actualOldval : BitVec 32) : Pass :=
  let shift := shiftOf e w ptr
  let mask := maskOf e w ptr
  if (actualOldval &&& mask) >>> shift ≠ oldval.setWidth 32 then
    .returns (.value ((actualOldval &&& mask) >>> shift))
  else
    .exchanges ((actualOldval &&& ~~~mask) ||| ((newval.setWidth 32 <<< shift) &&& mask))
      (.value (oldval.setWidth 32))

/-- The answer of `SUBWORD_BOOL_CAS`, from that of `SUBWORD_VAL_CAS`. -/
def swapped (oldval : BitVec w.bits) : Answer → Answer
  | .value actualOldval => .status (oldval = actualOldval.setWidth w.bits)
  | answer => answer

def subwordBoolCas (oldval newval : BitVec w.bits) (actualOldval : BitVec 32) : Pass :=
  match subwordValCas e w ptr oldval newval actualOldval with
  | .returns answer => .returns (swapped w oldval answer)
  | .exchanges newval answer => .exchanges newval (swapped w oldval answer)

def subwordTestAndSet (val : BitVec w.bits) (oldval : BitVec 32) : Pass :=
  let shift := shiftOf e w ptr
  let mask := maskOf e w ptr
  .exchanges ((oldval &&& ~~~mask) ||| ((val.setWidth 32 <<< shift) &&& mask))
    (.value ((oldval &&& mask) >>> shift))

end Subwords

/-- The word an operation of the width works on. -/
def target : Width → BitVec 32 → BitVec 32
  | .four, ptr => ptr
  | .one, ptr => wordPtr ptr
  | .two, ptr => wordPtr ptr

section Loops

variable (e : Endian)

def syncOp (ret : Return) (op : InfOp) : (w : Width) → BitVec 32 → BitVec w.bits → BitVec 32 → Pass
  | .four, _, val, tmp =>
    match ret with
    | .oldval => fetchAndOpWord op val tmp
    | .newval => opAndFetchWord op val tmp
  | .one, ptr, val, word => subwordSyncOp e .one ptr ret op val word
  | .two, ptr, val, word => subwordSyncOp e .two ptr ret op val word

def syncValCompareAndSwap :
    (w : Width) → BitVec 32 → BitVec w.bits → BitVec w.bits → BitVec 32 → Pass
  | .four, _, oldval, newval, word => syncValCompareAndSwap4 oldval newval word
  | .one, ptr, oldval, newval, word => subwordValCas e .one ptr oldval newval word
  | .two, ptr, oldval, newval, word => subwordValCas e .two ptr oldval newval word

def syncLockTestAndSet : (w : Width) → BitVec 32 → BitVec w.bits → BitVec 32 → Pass
  | .four, _, val, word => syncLockTestAndSet4 val word
  | .one, ptr, val, word => subwordTestAndSet e .one ptr val word
  | .two, ptr, val, word => subwordTestAndSet e .two ptr val word

/-- The loop of the function that has one, and its word. -/
def loop : Op → Option (BitVec 32 × (BitVec 32 → Pass))
  | .sync ret op w ptr val => some (target w ptr, syncOp e ret op w ptr val)
  | .valCompareAndSwap w ptr oldval newval =>
    some (target w ptr, syncValCompareAndSwap e w ptr oldval newval)
  | .boolCompareAndSwap w ptr oldval newval =>
    match w with
    | .four => none
    | .one => some (target .one ptr, subwordBoolCas e .one ptr oldval newval)
    | .two => some (target .two ptr, subwordBoolCas e .two ptr oldval newval)
  | .lockTestAndSet w ptr val => some (target w ptr, syncLockTestAndSet e w ptr val)
  | .lockRelease _ _ => none
  | .synchronize => none

end Loops

/-- Where a thread is in a function. -/
inductive Place where
  | idle
  | called (op : Op)
  /-- between the load of the word and its exchange -/
  | loaded (op : Op) (word : BitVec 32)
  deriving DecidableEq

structure System (T : Type*) where
  memory : BitVec 32 → BitVec 32
  place : T → Place
  trace : List (Observed T Op Answer)

section Steps

variable {T : Type*} [DecidableEq T]

namespace System

variable (s : System T)

def goTo (t : T) (place : Place) : System T := { s with place := Function.update s.place t place }

def answer (t : T) (op : Op) (answer : Answer) : System T :=
  { s with place := Function.update s.place t .idle, trace := s.trace++[.answered t op answer] }

def write (ptr word : BitVec 32) : System T :=
  { s with memory := Function.update s.memory ptr word }

/-- `__kernel_cmpxchg` changes the word if it is the old one, and fails if not. -/
def syncBoolCompareAndSwap4 (t : T) (op : Op) (ptr oldval newval : BitVec 32) : System T :=
  if s.memory ptr = oldval then (s.write ptr newval).answer t op (.status true)
  else s.answer t op (.status false)

/-- The functions without a loop. -/
def once (e : Endian) (t : T) (op : Op) : System T :=
  match op with
  | .boolCompareAndSwap w ptr oldval newval =>
    s.syncBoolCompareAndSwap4 t (.boolCompareAndSwap w ptr oldval newval) ptr
      (oldval.setWidth 32) (newval.setWidth 32)
  | .lockRelease w ptr =>
    (s.write (wordPtr ptr) (put e w ptr 0 (s.memory (wordPtr ptr)))).answer t
      (.lockRelease w ptr) .done
  | op => s.answer t op .done

/-- The next access of the thread. -/
def go (e : Endian) (t : T) : System T :=
  match s.place t with
  | .idle => s
  | .called op =>
    match loop e op with
    | none => s.once e t op
    | some (ptr, pass) =>
      match pass (s.memory ptr) with
      | .returns answer => s.answer t op answer
      | .exchanges _ _ => s.goTo t (.loaded op (s.memory ptr))
  | .loaded op word =>
    match loop e op with
    | none => s
    | some (ptr, pass) =>
      match pass word with
      | .returns _ => s
      | .exchanges newval answer =>
        if s.memory ptr = word then (s.write ptr newval).answer t op answer
        else s.goTo t (.called op)

end System

inductive Act (T : Type*) where
  | call (t : T) (op : Op)
  | go (t : T)
  deriving DecidableEq

/-- A thread that is in a call makes no other. -/
def act (e : Endian) (s : System T) : Act T → System T
  | .call t op =>
    if s.place t = .idle then
      { s with place := Function.update s.place t (.called op), trace := s.trace++[.called t op] }
    else s
  | .go t => s.go e t

def System.init (memory : BitVec 32 → BitVec 32) : System T := ⟨memory, fun _ => .idle, []⟩

end Steps

end Code

section Memory

variable {e : Endian} {words : BitVec 32 → BitVec 32}

def Op.Aligned : Op → Prop
  | .sync _ _ w ptr _ => ByteOrder.Aligned w ptr
  | .valCompareAndSwap w ptr _ _ => ByteOrder.Aligned w ptr
  | .boolCompareAndSwap w ptr _ _ => ByteOrder.Aligned w ptr
  | .lockTestAndSet w ptr _ => ByteOrder.Aligned w ptr
  | .lockRelease w ptr => ByteOrder.Aligned w ptr
  | .synchronize => True

/-- What the operation is on a memory of bytes, as a whole. -/
def call (e : Endian) (m : Memory) : Op → Answer × Memory
  | .sync ret op w ptr val =>
    let oldval := value e w m ptr
    let newval := op.apply oldval val
    (.value ((ret.of oldval newval).setWidth 32), store e w m ptr newval)
  | .valCompareAndSwap w ptr oldval newval =>
    let actualOldval := value e w m ptr
    (.value (actualOldval.setWidth 32),
      if actualOldval = oldval then store e w m ptr newval else m)
  | .boolCompareAndSwap w ptr oldval newval =>
    if value e w m ptr = oldval then (.status true, store e w m ptr newval)
    else (.status false, m)
  | .lockTestAndSet w ptr val => (.value ((value e w m ptr).setWidth 32), store e w m ptr val)
  | .lockRelease w ptr => (.done, store e w m ptr 0)
  | .synchronize => (.done, m)

/-- The pass does what the operation does, if the word is still the one that was loaded. -/
def Does (e : Endian) (words : BitVec 32 → BitVec 32) (ptr : BitVec 32) (op : Op) (p : Pass) :
    Prop :=
  match p with
  | .returns answer => call e (bytesOf e words) op = (answer, bytesOf e words)
  | .exchanges newval answer =>
    call e (bytesOf e words) op = (answer, bytesOf e (Function.update words ptr newval))

section Passes

variable {w : Width} {p : BitVec 32}

theorem shift_of_eq (h : ByteOrder.Aligned w p) : (shiftOf e w p).toNat = shift e w p := by
  have hmod : p.toNat % w.bytes = 0 := h
  have hand : p &&& 3 = BitVec.ofNat 32 (p.toNat % 4) := by
    apply BitVec.eq_of_toNat_eq
    rw [BitVec.toNat_and, BitVec.toNat_ofNat]
    have hthree : (3 : BitVec 32).toNat = 2 ^ 2-1 := rfl
    rw [hthree, Nat.and_two_pow_sub_one_eq_mod]
    omega
  have hfour : p.toNat % 4 = 0 ∨ p.toNat % 4 = 1 ∨ p.toNat % 4 = 2 ∨ p.toNat % 4 = 3 := by omega
  rw [shiftOf, hand]
  have hbytes : p.toNat % 4 % w.bytes = 0 := by
    rcases width_cases w with hw | hw | hw <;> rw [hw] at hmod ⊢ <;> omega
  rcases hfour with hk | hk | hk | hk <;> rw [hk] at hbytes ⊢ <;> cases w <;> cases e <;>
    simp_all [shift, invertMask, Width.bytes]

theorem mask_of_eq (h : ByteOrder.Aligned w p) : maskOf e w p = field e w p := by
  have hones : mask w = (BitVec.allOnes w.bits).setWidth 32 := by cases w <;> decide
  rw [maskOf, field, hones, BitVec.shiftLeft_eq', shift_of_eq h]

theorem value_back (w : Width) (v : BitVec w.bits) : (v.setWidth 32).setWidth w.bits = v := by
  have hle : w.bits ≤ 32 := by cases w <;> decide
  rw [BitVec.setWidth_setWidth_of_le v hle, BitVec.setWidth_eq]

theorem value_inj {w : Width} {v v' : BitVec w.bits} : v.setWidth 32 = v'.setWidth 32 ↔ v = v' := by
  refine ⟨fun h => ?_, fun h => by rw [h]⟩
  rw [← value_back w v, h, value_back]

/-- The operation on the part of the word, and on the value. -/
theorem apply_low (op : InfOp) (x y : BitVec w.bits) :
    (op.apply (x.setWidth 32) (y.setWidth 32)).setWidth w.bits = op.apply x y := by
  have hle : w.bits ≤ 32 := by cases w <;> decide
  cases op with
  | add => simp only [InfOp.apply, BitVec.setWidth_add _ _ hle, value_back]
  | sub =>
    have hsum := BitVec.setWidth_add (x.setWidth 32-y.setWidth 32) (y.setWidth 32) hle
    rw [BitVec.sub_add_cancel, value_back, value_back] at hsum
    exact eq_sub_of_add_eq hsum.symm
  | or => simp only [InfOp.apply, BitVec.setWidth_or, value_back]
  | and => simp only [InfOp.apply, BitVec.setWidth_and, value_back]
  | xor => simp only [InfOp.apply, BitVec.setWidth_xor, value_back]
  | nand => simp only [InfOp.apply, BitVec.setWidth_not hle, BitVec.setWidth_and, value_back]

theorem word_value (h : ByteOrder.Aligned w p) :
    (words (wordPtr p) &&& maskOf e w p) >>> shiftOf e w p =
      (value e w (bytesOf e words) p).setWidth 32 := by
  rw [BitVec.ushiftRight_eq', shift_of_eq h, mask_of_eq h, masked_value h, value_field h]

theorem code_put (h : ByteOrder.Aligned w p) (x word : BitVec 32) :
    ((x <<< shiftOf e w p) &&& maskOf e w p) ||| (word &&& ~~~maskOf e w p) =
      put e w p (x.setWidth w.bits) word := by
  rw [BitVec.shiftLeft_eq', shift_of_eq h, mask_of_eq h, masked_code]

theorem put_word_value (h : ByteOrder.Aligned w p) (v : BitVec w.bits) (word : BitVec 32) :
    (put e w p v word &&& maskOf e w p) >>> shiftOf e w p = v.setWidth 32 := by
  rw [BitVec.ushiftRight_eq', shift_of_eq h, mask_of_eq h, masked_value h, put_value h]

theorem subword_sync_does (h : ByteOrder.Aligned w p) (ret : Return) (op : InfOp)
    (val : BitVec w.bits) : Does e words (wordPtr p) (.sync ret op w p val)
      (subwordSyncOp e w p ret op val (words (wordPtr p))) := by
  simp only [Does, subwordSyncOp, call, word_value h, code_put h, apply_low, put_bytes h]
  cases ret with
  | oldval => rw [Return.of, Return.of, word_value h]
  | newval => rw [Return.of, Return.of, put_word_value h]

theorem subword_cas_does (h : ByteOrder.Aligned w p) (oldval newval : BitVec w.bits) :
    Does e words (wordPtr p) (.valCompareAndSwap w p oldval newval)
      (subwordValCas e w p oldval newval (words (wordPtr p))) := by
  simp only [subwordValCas, word_value h, ne_eq, value_inj]
  split_ifs with hsame
  · rw [Does, call, hsame, if_pos rfl, BitVec.or_comm, code_put h, value_back, put_bytes h]
  · rw [Does, call, if_neg hsame]

theorem subword_set_does (h : ByteOrder.Aligned w p) (val : BitVec w.bits) :
    Does e words (wordPtr p) (.lockTestAndSet w p val)
      (subwordTestAndSet e w p val (words (wordPtr p))) := by
  simp only [Does, subwordTestAndSet, call, word_value h, BitVec.or_comm _ (_ &&& maskOf e w p),
    code_put h, value_back, put_bytes h]

theorem subword_swap_does (h : ByteOrder.Aligned w p) (oldval newval : BitVec w.bits) :
    Does e words (wordPtr p) (.boolCompareAndSwap w p oldval newval)
      (subwordBoolCas e w p oldval newval (words (wordPtr p))) := by
  simp only [subwordBoolCas, subwordValCas, word_value h, ne_eq, value_inj]
  by_cases hsame : value e w (bytesOf e words) p = oldval
  · simp only [hsame, not_true_eq_false, if_false]
    rw [Does, call, if_pos hsame, BitVec.or_comm, code_put h, value_back, put_bytes h, swapped,
      value_back, decide_eq_true rfl]
  · simp only [hsame, not_false_eq_true, if_true]
    rw [Does, call, if_neg hsame, swapped, value_back, decide_eq_false (Ne.symm hsame)]

theorem sync_does (h : ByteOrder.Aligned w p) (ret : Return) (op : InfOp) (val : BitVec w.bits) :
    Does e words (target w p) (.sync ret op w p val)
      (syncOp e ret op w p val (words (target w p))) := by
  cases w with
  | one => exact subword_sync_does h ret op val
  | two => exact subword_sync_does h ret op val
  | four =>
    have hvalue := @value_word e p words h
    have hbytes := @word_bytes e p words h (op.apply (words p) val)
    have hcall : call e (bytesOf e words) (.sync ret op .four p val) =
        (.value (ret.of (words p) (op.apply (words p) val)),
          bytesOf e (Function.update words p (op.apply (words p) val))) := by
      rw [hbytes]
      simp only [call, hvalue]
      exact congrArg (fun v => (Answer.value v, _)) (BitVec.setWidth_eq _)
    cases ret with
    | oldval => exact hcall
    | newval => exact hcall

theorem cas_does (h : ByteOrder.Aligned w p) (oldval newval : BitVec w.bits) :
    Does e words (target w p) (.valCompareAndSwap w p oldval newval)
      (syncValCompareAndSwap e w p oldval newval (words (target w p))) := by
  cases w with
  | one => exact subword_cas_does h oldval newval
  | two => exact subword_cas_does h oldval newval
  | four =>
    have hvalue := @value_word e p words h
    have hbytes := @word_bytes e p words h newval
    by_cases hsame : words p = oldval
    · have hpass : syncValCompareAndSwap e .four p oldval newval (words p) =
          .exchanges newval (.value oldval) := if_neg (not_not.mpr hsame.symm)
      have hcall : call e (bytesOf e words) (.valCompareAndSwap .four p oldval newval) =
          (.value oldval, bytesOf e (Function.update words p newval)) := by
        rw [hbytes]
        simp only [call, hvalue.trans hsame, if_true]
        exact congrArg (fun v => (Answer.value v, _)) (BitVec.setWidth_eq _)
      rw [target, hpass]
      exact hcall
    · have hpass : syncValCompareAndSwap e .four p oldval newval (words p) =
          .returns (.value (words p)) := if_pos (Ne.symm hsame)
      have hcall : call e (bytesOf e words) (.valCompareAndSwap .four p oldval newval) =
          (.value (words p), bytesOf e words) := by
        have hdiffers : value e .four (bytesOf e words) p ≠ oldval := fun hv =>
          hsame (hvalue.symm.trans hv)
        simp only [call, if_neg hdiffers, hvalue]
        exact congrArg (fun v => (Answer.value v, _)) (BitVec.setWidth_eq _)
      rw [target, hpass]
      exact hcall

theorem set_does (h : ByteOrder.Aligned w p) (val : BitVec w.bits) :
    Does e words (target w p) (.lockTestAndSet w p val)
      (syncLockTestAndSet e w p val (words (target w p))) := by
  cases w with
  | one => exact subword_set_does h val
  | two => exact subword_set_does h val
  | four =>
    have hvalue := @value_word e p words h
    have hcall : call e (bytesOf e words) (.lockTestAndSet .four p val) =
        (.value (words p), bytesOf e (Function.update words p val)) := by
      rw [@word_bytes e p words h val]
      simp only [call, hvalue]
      exact congrArg (fun v => (Answer.value v, _)) (BitVec.setWidth_eq _)
    exact hcall

end Passes

/-- One pass over a word that stays as it is does what the operation does. -/
theorem loop_does {op : Op} (h : op.Aligned) {ptr : BitVec 32} {pass : BitVec 32 → Pass}
    (hloop : loop e op = some (ptr, pass)) : Does e words ptr op (pass (words ptr)) := by
  cases op with
  | sync ret op w p val =>
    obtain ⟨rfl, rfl⟩ := Prod.mk.inj (Option.some.inj hloop)
    exact sync_does h ret op val
  | valCompareAndSwap w p oldval newval =>
    obtain ⟨rfl, rfl⟩ := Prod.mk.inj (Option.some.inj hloop)
    exact cas_does h oldval newval
  | boolCompareAndSwap w p oldval newval =>
    cases w with
    | one =>
      obtain ⟨rfl, rfl⟩ := Prod.mk.inj (Option.some.inj hloop)
      exact subword_swap_does h oldval newval
    | two =>
      obtain ⟨rfl, rfl⟩ := Prod.mk.inj (Option.some.inj hloop)
      exact subword_swap_does h oldval newval
    | four => exact absurd hloop (by simp [loop])
  | lockTestAndSet w p val =>
    obtain ⟨rfl, rfl⟩ := Prod.mk.inj (Option.some.inj hloop)
    exact set_does h val
  | lockRelease w p => exact absurd hloop (by simp [loop])
  | synchronize => exact absurd hloop (by simp [loop])

theorem once_does {T : Type*} [DecidableEq T] {op : Op} (h : op.Aligned) (hloop : loop e op = none)
    (s : System T) (t : T) : ∃ words answer, s.once e t op =
      ({ s with memory := words } : System T).answer t op answer ∧
        call e (bytesOf e s.memory) op = (answer, bytesOf e words) := by
  cases op with
  | boolCompareAndSwap w p oldval newval =>
    cases w with
    | one => exact absurd hloop (by simp [loop])
    | two => exact absurd hloop (by simp [loop])
    | four =>
      have hvalue := @value_word e p s.memory h
      have hbytes := @word_bytes e p s.memory h newval
      have hold : oldval.setWidth 32 = oldval := BitVec.setWidth_eq _
      have hnew : newval.setWidth 32 = newval := BitVec.setWidth_eq _
      by_cases hsame : s.memory p = oldval
      · refine ⟨_, .status true, if_pos (hsame.trans hold.symm), ?_⟩
        rw [call, if_pos (hvalue.trans hsame), ← hbytes]
        exact congrArg (fun v => (_, bytesOf e (Function.update s.memory p v))) hnew.symm
      · refine ⟨s.memory, .status false, if_neg fun heq => hsame (heq.trans hold), ?_⟩
        rw [call, if_neg fun hv => hsame (hvalue.symm.trans hv)]
  | lockRelease w p => exact ⟨_, .done, rfl, by rw [call, put_bytes h]⟩
  | synchronize => exact ⟨s.memory, .done, rfl, rfl⟩
  | sync ret op w p val => exact absurd hloop (by simp [loop])
  | valCompareAndSwap w p oldval newval => exact absurd hloop (by simp [loop])
  | lockTestAndSet w p val => exact absurd hloop (by simp [loop])

end Memory

section Runs

variable {T : Type*} {e : Endian}

def Act.Aligned : Act T → Prop
  | .call _ op => op.Aligned
  | .go _ => True

/-- The place of a thread, and what its client knows of it. -/
inductive At : Place → Phase Op Answer → Prop where
  | idle : At .idle .idle
  | called (op : Op) (h : op.Aligned) : At (.called op) (.waiting op)
  | loaded (op : Op) (word : BitVec 32) (h : op.Aligned) : At (.loaded op word) (.waiting op)

structure Matches (e : Endian) (s : System T) (o : Object Memory T Op Answer) : Prop where
  state : o.state = bytesOf e s.memory
  threads : ∀ t, At (s.place t) (o.phase t)
  trace : o.trace = s.trace

variable [DecidableEq T] {s : System T} {o : Object Memory T Op Answer} {t : T} {op : Op}

/-- The object goes some moves further, or none. -/
def Advances (e : Endian) (s : System T) (o : Object Memory T Op Answer) : Prop :=
  ∃ moves o', run (move (call e)) o moves = some o' ∧ Matches e s o'

theorem at_update {place : T → Place} {phase : T → Phase Op Answer}
    (h : ∀ u, At (place u) (phase u)) {x : Place} {y : Phase Op Answer} (hat : At x y) (u : T) :
    At (Function.update place t x u) (Function.update phase t y u) := by
  by_cases hu : u = t
  · rw [hu, Function.update_self, Function.update_self]
    exact hat
  · rw [Function.update_of_ne hu, Function.update_of_ne hu]
    exact h u

theorem stays (h : Matches e s o) {place : Place} (hat : At place (o.phase t)) :
    Advances e (s.goTo t place) o := by
  have hthreads := @at_update T _ t _ _ h.threads _ _ hat
  rw [Function.update_eq_self] at hthreads
  exact ⟨[], o, rfl, h.state, hthreads, h.trace⟩

theorem answers (h : Matches e s o) (hphase : o.phase t = .waiting op)
    {words : BitVec 32 → BitVec 32} {answer : Answer}
    (hcall : call e (bytesOf e s.memory) op = (answer, bytesOf e words)) :
    Advances e (({ s with memory := words } : System T).answer t op answer) o := by
  rw [← h.state] at hcall
  refine ⟨_, _, effect_answer_moves hphase, ?_, at_update h.threads .idle, ?_⟩
  · rw [hcall]
    rfl
  · rw [hcall, h.trace]
    rfl

theorem go_advances (h : Matches e s o) (t : T) : Advances e (s.go e t) o := by
  have hat := h.threads t
  generalize hplace : s.place t = place at hat
  generalize hphase : o.phase t = phase at hat
  have hself : Advances e s o := ⟨[], o, rfl, h⟩
  cases hat with
  | idle =>
    rw [System.go, hplace]
    exact hself
  | called op hop =>
    cases hloop : loop e op with
    | none =>
      obtain ⟨words, answer, honce, hcall⟩ := once_does hop hloop s t
      simp only [System.go, hplace, hloop, honce]
      exact answers h hphase hcall
    | some looping =>
      obtain ⟨ptr, pass⟩ := looping
      have hdoes := @loop_does e s.memory op hop ptr pass hloop
      simp only [System.go, hplace, hloop]
      cases hpass : pass (s.memory ptr) with
      | returns answer =>
        rw [hpass] at hdoes
        exact answers h hphase hdoes
      | exchanges newval answer =>
        refine stays h ?_
        rw [hphase]
        exact .loaded op _ hop
  | loaded op word hop =>
    cases hloop : loop e op with
    | none =>
      simp only [System.go, hplace, hloop]
      exact hself
    | some looping =>
      obtain ⟨ptr, pass⟩ := looping
      have hdoes := @loop_does e s.memory op hop ptr pass hloop
      simp only [System.go, hplace, hloop]
      cases hpass : pass word with
      | returns answer => exact hself
      | exchanges newval answer =>
        simp only
        split_ifs with hword
        · -- the word is the one of the load, and nobody has seen that it was not in between
          rw [hword, hpass] at hdoes
          exact answers h hphase hdoes
        · refine stays h ?_
          rw [hphase]
          exact .called op hop

theorem act_advances (h : Matches e s o) {a : Act T} (ha : a.Aligned) :
    Advances e (act e s a) o := by
  cases a with
  | go t => exact go_advances h t
  | call t op =>
    rw [act]
    split_ifs with hidle
    · have hat := h.threads t
      rw [hidle] at hat
      generalize hphase : o.phase t = phase at hat
      cases hat
      exact ⟨_, _, call_moves op hphase, h.state, at_update h.threads (.called op ha),
        by rw [h.trace]⟩
    · exact ⟨[], o, rfl, h⟩

/-- Whatever the order of the accesses, the threads see a memory of bytes that takes their
operations one after the other, also operations of different widths on one word. -/
theorem operations_atomic (e : Endian) (memory : BitVec 32 → BitVec 32) (acts : List (Act T))
    (hacts : ∀ a ∈ acts, a.Aligned) :
    Seen (call e) (bytesOf e memory) (acts.foldl (act e) (.init memory)).trace := by
  have hinit : Matches e (.init memory : System T) (start (bytesOf e memory)) :=
    ⟨rfl, fun _ => .idle, rfl⟩
  have hall : Allowed (fun s a => some (act e s a)) (fun _ a => a.Aligned) (.init memory) acts :=
    allowed_of_forall hacts
  have hstep (s : System T) (o : Object Memory T Op Answer) (a : Act T) (h : Matches e s o)
      (ha : a.Aligned) : ∃ t, some (act e s a) = some t ∧ Advances e t o :=
    ⟨_, rfl, act_advances h ha⟩
  obtain ⟨s, hrun, moves, o, hmoves, hmatches⟩ := run_matches hstep hinit hall
  rw [run_total] at hrun
  obtain rfl := Option.some.inj hrun
  exact ⟨moves, o, hmoves, hmatches.trace⟩

/-- A byte and the half-word it lies in, in the order of a big endian machine. -/
theorem byte_in_half_word :
    Seen (call .big) (bytesOf .big fun _ => 0) ([.call true (.sync .newval .add .one 0x1001 7),
      .call false (.valCompareAndSwap .two 0x1000 0 0x100), .go true, .go false, .go true,
      .go false, .go false].foldl (act .big) (.init fun _ => 0)).trace :=
  operations_atomic .big _ _ (by simp [Act.Aligned, Op.Aligned, ByteOrder.Aligned, Width.bytes])

section Progress

/-- How many calls have returned to such threads. -/
def returned (who : T → Bool) (s : System T) : ℕ := s.trace.countP fun
  | .called _ _ => false
  | .answered u _ _ => who u

/-- How many steps the thread can go without its answer, if nothing else happens. -/
inductive Credit (e : Endian) (t : T) (s : System T) : ℕ → Prop where
  | called (op : Op) (hplace : s.place t = .called op) : Credit e t s 1
  | fresh (op : Op) (ptr word newval : BitVec 32) (pass : BitVec 32 → Pass) (answer : Answer)
      (hplace : s.place t = .loaded op word) (hloop : loop e op = some (ptr, pass))
      (hpass : pass word = .exchanges newval answer) (hword : s.memory ptr = word) : Credit e t s 0
  | stale (op : Op) (ptr word newval : BitVec 32) (pass : BitVec 32 → Pass) (answer : Answer)
      (hplace : s.place t = .loaded op word) (hloop : loop e op = some (ptr, pass))
      (hpass : pass word = .exchanges newval answer) (hword : s.memory ptr ≠ word) : Credit e t s 2

theorem once_answers (e : Endian) (s : System T) (t : T) (op : Op) : ∃ words answer,
    s.once e t op = ({ s with memory := words } : System T).answer t op answer := by
  cases op with
  | boolCompareAndSwap w ptr oldval newval =>
    by_cases hsame : s.memory ptr = oldval.setWidth 32
    · exact ⟨_, .status true, if_pos hsame⟩
    · exact ⟨s.memory, .status false, if_neg hsame⟩
  | lockRelease w ptr => exact ⟨_, .done, rfl⟩
  | synchronize => exact ⟨s.memory, .done, rfl⟩
  | sync ret op w p val => exact ⟨s.memory, .done, rfl⟩
  | valCompareAndSwap w p oldval newval => exact ⟨s.memory, .done, rfl⟩
  | lockTestAndSet w p val => exact ⟨s.memory, .done, rfl⟩

/-- A step changes the place of the thread and nothing else, or it ends the call. -/
theorem go_cases (e : Endian) (s : System T) (t : T) : (∃ place, s.go e t = s.goTo t place) ∨
    ∃ op words answer, s.go e t = ({ s with memory := words } : System T).answer t op answer := by
  have hself : s = s.goTo t (s.place t) := by rw [System.goTo, Function.update_eq_self]
  cases hplace : s.place t with
  | idle =>
    rw [System.go, hplace]
    exact Or.inl ⟨_, hself⟩
  | called op =>
    cases hloop : loop e op with
    | none =>
      obtain ⟨words, answer, honce⟩ := once_answers e s t op
      simp only [System.go, hplace, hloop]
      exact Or.inr ⟨op, words, answer, honce⟩
    | some looping =>
      simp only [System.go, hplace, hloop]
      cases looping.2 (s.memory looping.1) with
      | returns answer => exact Or.inr ⟨op, s.memory, answer, rfl⟩
      | exchanges newval answer => exact Or.inl ⟨_, rfl⟩
  | loaded op word =>
    cases hloop : loop e op with
    | none =>
      simp only [System.go, hplace, hloop]
      exact Or.inl ⟨_, hself⟩
    | some looping =>
      simp only [System.go, hplace, hloop]
      cases looping.2 word with
      | returns answer => exact Or.inl ⟨_, hself⟩
      | exchanges newval answer =>
        simp only
        split_ifs
        · exact Or.inr ⟨op, _, answer, rfl⟩
        · exact Or.inl ⟨_, rfl⟩

theorem returned_answer (who : T → Bool) (s : System T) (t : T) (op : Op) (answer : Answer) :
    returned who (s.answer t op answer) = returned who s + if who t then 1 else 0 := by
  rw [returned, System.answer, List.countP_append, List.countP_singleton]
  rfl

theorem returned_call (who : T → Bool) (s : System T) (t : T) (op : Op) :
    returned who (act e s (.call t op)) = returned who s := by
  rw [act]
  split_ifs
  · rw [returned, List.countP_append, List.countP_singleton]
    rfl
  · rfl

theorem returned_mono (who : T → Bool) (s : System T) (a : Act T) :
    returned who s ≤ returned who (act e s a) := by
  cases a with
  | call t op => exact (returned_call who s t op).ge
  | go t =>
    rcases go_cases e s t with ⟨place, hgo⟩ | ⟨op, words, answer, hgo⟩
    · rw [act, hgo]
      exact le_refl _
    · rw [act, hgo, returned_answer]
      exact Nat.le_add_right _ _

theorem returned_later (who : T → Bool) (s : System T) (acts : List (Act T)) :
    returned who s ≤ returned who (acts.foldl (act e) s) := by
  induction acts generalizing s with
  | nil => exact le_refl _
  | cons a acts ih => exact (returned_mono who s a).trans (ih _)

theorem answer_returns (words : BitVec 32 → BitVec 32) (op : Op) (answer : Answer) :
    returned (· = t) s <
      returned (· = t) (({ s with memory := words } : System T).answer t op answer) := by
  rw [returned_answer, decide_eq_true rfl]
  exact Nat.lt_succ_self _

/-- The call of the thread ends, or it has one step less to go. -/
theorem own_step {c : ℕ} (h : Credit e t s c) :
    returned (· = t) s < returned (· = t) (s.go e t) ∨ ∃ c', Credit e t (s.go e t) c' ∧ c' < c := by
  cases h with
  | called op hplace =>
    cases hloop : loop e op with
    | none =>
      obtain ⟨words, answer, honce⟩ := once_answers e s t op
      simp only [System.go, hplace, hloop, honce]
      exact Or.inl (answer_returns words op answer)
    | some looping =>
      simp only [System.go, hplace, hloop]
      cases hpass : looping.2 (s.memory looping.1) with
      | returns answer => exact Or.inl (answer_returns s.memory op answer)
      | exchanges newval answer =>
        have hplace' : (s.goTo t (.loaded op (s.memory looping.1))).place t =
          .loaded op (s.memory looping.1) := Function.update_self ..
        exact Or.inr ⟨0, .fresh op _ _ newval _ answer hplace' hloop hpass rfl, Nat.zero_lt_one⟩
  | fresh op ptr word newval pass answer hplace hloop hpass hword =>
    simp only [System.go, hplace, hloop, hpass, hword, if_true]
    exact Or.inl (answer_returns _ op answer)
  | stale op ptr word newval pass answer hplace hloop hpass hword =>
    simp only [System.go, hplace, hloop, hpass, hword, if_false]
    exact Or.inr ⟨1, .called op (Function.update_self ..), Nat.one_lt_two⟩

omit [DecidableEq T] in
/-- What others do to the memory can cost the thread one pass. -/
theorem credit_changed {c : ℕ} (h : Credit e t s c) {s' : System T}
    (hplace' : s'.place t = s.place t) : ∃ c', Credit e t s' c' ∧ c' ≤ 2 := by
  cases h with
  | called op hplace => exact ⟨1, .called op (hplace'.trans hplace), by decide⟩
  | fresh op ptr word newval pass answer hplace hloop hpass hword =>
    by_cases hnow : s'.memory ptr = word
    · exact ⟨0, .fresh op ptr word newval pass answer (hplace'.trans hplace) hloop hpass hnow,
        Nat.zero_le _⟩
    · exact ⟨2, .stale op ptr word newval pass answer (hplace'.trans hplace) hloop hpass hnow,
        le_refl _⟩
  | stale op ptr word newval pass answer hplace hloop hpass hword =>
    by_cases hnow : s'.memory ptr = word
    · exact ⟨0, .fresh op ptr word newval pass answer (hplace'.trans hplace) hloop hpass hnow,
        Nat.zero_le _⟩
    · exact ⟨2, .stale op ptr word newval pass answer (hplace'.trans hplace) hloop hpass hnow,
        le_refl _⟩

omit [DecidableEq T] in
theorem credit_same {c : ℕ} (h : Credit e t s c) {s' : System T}
    (hplace' : s'.place t = s.place t) (hmemory : s'.memory = s.memory) : Credit e t s' c := by
  cases h with
  | called op hplace => exact .called op (hplace'.trans hplace)
  | fresh op ptr word newval pass answer hplace hloop hpass hword =>
    exact .fresh op ptr word newval pass answer (hplace'.trans hplace) hloop hpass
      ((congrFun hmemory ptr).trans hword)
  | stale op ptr word newval pass answer hplace hloop hpass hword =>
    exact .stale op ptr word newval pass answer (hplace'.trans hplace) hloop hpass
      (fun heq => hword ((congrFun hmemory ptr).symm.trans heq))

theorem credit_call {c : ℕ} (h : Credit e t s c) (u : T) (op : Op) :
    Credit e t (act e s (.call u op)) c := by
  rw [act]
  split_ifs with hidle
  · have hu : t ≠ u := by
      rintro rfl
      cases h <;> simp_all
    exact credit_same h (Function.update_of_ne hu ..) rfl
  · exact h

/-- Another thread costs steps only when a call of its own ends. -/
theorem other_step {c : ℕ} (h : Credit e t s c) {u : T} (hu : u ≠ t) :
    ∃ c', Credit e t (s.go e u) c' ∧
      c' + 2*returned (· ≠ t) s ≤ c + 2*returned (· ≠ t) (s.go e u) := by
  rcases go_cases e s u with ⟨place, hgo⟩ | ⟨op, words, answer, hgo⟩
  · rw [hgo]
    exact ⟨c, credit_same h (Function.update_of_ne hu.symm ..) rfl, le_refl _⟩
  · rw [hgo, returned_answer, decide_eq_true hu, if_pos rfl]
    have hplace : (({ s with memory := words } : System T).answer u op answer).place t =
      s.place t := Function.update_of_ne hu.symm ..
    obtain ⟨c', hcredit, hc'⟩ := credit_changed h hplace
    refine ⟨c', hcredit, ?_⟩
    have hsame : returned (· ≠ t) ({ s with memory := words } : System T) =
      returned (· ≠ t) s := rfl
    rw [hsame]
    omega

/-- Every two steps of the thread end a call of another, but for the last. -/
theorem steps_bounded {c : ℕ} (h : Credit e t s c) (acts : List (Act T)) :
    returned (· = t) s < returned (· = t) (acts.foldl (act e) s) ∨
      acts.count (.go t) + 2*returned (· ≠ t) s ≤
        c + 2*returned (· ≠ t) (acts.foldl (act e) s) := by
  induction acts generalizing s c with
  | nil => exact Or.inr (by simp)
  | cons a acts ih =>
    have hothers := returned_mono (e := e) (· ≠ t) s a
    cases a with
    | call u op =>
      have hown := returned_call (e := e) (· = t) s u op
      have hcount : (Act.call u op::acts).count (.go t) = acts.count (.go t) :=
        List.count_cons_of_ne (by simp)
      rcases ih (credit_call h u op) with hreturned | hbound
      · exact Or.inl (hown ▸ hreturned)
      · right
        rw [hcount, List.foldl_cons]
        omega
    | go u =>
      by_cases hu : u = t
      · subst hu
        have hcount : (Act.go u::acts).count (.go u) = acts.count (.go u) + 1 :=
          List.count_cons_self
        rcases own_step h with hreturned | ⟨c', hcredit, hc'⟩
        · exact Or.inl (hreturned.trans_le (returned_later _ _ acts))
        · rcases ih hcredit with hlater | hbound
          · exact Or.inl ((returned_mono _ s (.go u)).trans_lt hlater)
          · right
            rw [hcount, List.foldl_cons]
            rw [act] at hothers
            rw [act]
            omega
      · have hcount : (Act.go u::acts).count (.go t) = acts.count (.go t) :=
          List.count_cons_of_ne (by simpa using hu)
        obtain ⟨c', hcredit, hc'⟩ := other_step h hu
        rcases ih hcredit with hlater | hbound
        · exact Or.inl ((returned_mono _ s (.go u)).trans_lt hlater)
        · right
          rw [hcount, List.foldl_cons]
          rw [act]
          omega

/-- The loops are lock-free: while at most `n` calls of the others end, a call ends within
`2*n + 2` steps of its own. -/
theorem call_returns (e : Endian) {s : System T} {t : T} {op : Op} (hplace : s.place t = .called op)
    (acts : List (Act T)) {n : ℕ}
    (hothers : returned (· ≠ t) (acts.foldl (act e) s) ≤ returned (· ≠ t) s + n)
    (hsteps : 2*n + 2 ≤ acts.count (.go t)) :
    returned (· = t) s < returned (· = t) (acts.foldl (act e) s) := by
  rcases steps_bounded (.called op hplace) acts with hreturned | hbound
  · exact hreturned
  · omega

/-- Two threads add to one byte. -/
def adders : System Bool :=
  [.call true (.sync .oldval .add .one 5 1), .call false (.sync .newval .add .one 5 2)].foldl
    (act .little) (.init fun _ => 0)

def crossing : List (Act Bool) := [.go true, .go false, .go false, .go true, .go true, .go true]

theorem crossing_returns :
    returned (· = true) adders < returned (· = true) (crossing.foldl (act .little) adders) :=
  @call_returns Bool _ .little adders true _ rfl crossing 1 (by decide +kernel) (by decide)

end Progress

end Runs

end RS485.LinuxAtomic
