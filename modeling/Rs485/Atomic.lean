import Rs485.Runs

/-!
# Atomic objects

An object that takes each call as a whole. Between the call and the answer there is
one moment at which the call has its effect. What the clients see are their calls and
answers, in the order of time; an implementation is atomic when its clients see
nothing that the clients of the atomic object could not have seen.
-/

set_option autoImplicit false

namespace RS485.Atomic
open RS485.Runs

section Objects

variable {A C Op Answer : Type*}

inductive Observed (C Op Answer : Type*) where
  | called (client : C) (op : Op)
  | answered (client : C) (op : Op) (answer : Answer)
  deriving DecidableEq

/-- Where a client is. -/
inductive Phase (Op Answer : Type*) where
  | idle
  | waiting (op : Op)
  | done (op : Op) (answer : Answer)
  deriving DecidableEq

structure Object (A C Op Answer : Type*) where
  state : A
  phase : C → Phase Op Answer
  trace : List (Observed C Op Answer)

inductive Move (C Op : Type*) where
  | call (client : C) (op : Op)
  | effect (client : C)
  | answer (client : C)

def start (a : A) : Object A C Op Answer := ⟨a, fun _ => .idle, []⟩

variable [DecidableEq C] (spec : A → Op → Answer × A)

def move (o : Object A C Op Answer) : Move C Op → Option (Object A C Op Answer)
  | .call client op =>
    match o.phase client with
    | .idle => some { o with phase := Function.update o.phase client (.waiting op),
                             trace := o.trace++[.called client op] }
    | _ => none
  | .effect client =>
    match o.phase client with
    | .waiting op => some { o with state := (spec o.state op).2,
                                   phase := Function.update o.phase client
                                     (.done op (spec o.state op).1) }
    | _ => none
  | .answer client =>
    match o.phase client with
    | .done op answer => some { o with phase := Function.update o.phase client .idle,
                                       trace := o.trace++[.answered client op answer] }
    | _ => none

/-- The clients of the atomic object can see this. -/
def Seen (a : A) (trace : List (Observed C Op Answer)) : Prop :=
  ∃ moves o, run (move spec) (start a) moves = some o ∧ o.trace = trace

end Objects

section Moves

variable {A C Op Answer : Type*} [DecidableEq C] {spec : A → Op → Answer × A}
  {o : Object A C Op Answer} {client : C} {op : Op} {answer : Answer}

theorem call_moves (op : Op) (h : o.phase client = .idle) :
    run (move spec) o [.call client op] =
      some ⟨o.state, Function.update o.phase client (.waiting op),
        o.trace++[.called client op]⟩ := by
  simp [run, move, h]

theorem effect_moves (h : o.phase client = .waiting op) :
    run (move spec) o [.effect client] =
      some ⟨(spec o.state op).2, Function.update o.phase client (.done op (spec o.state op).1),
        o.trace⟩ := by
  simp [run, move, h]

theorem answer_moves (h : o.phase client = .done op answer) :
    run (move spec) o [.answer client] =
      some ⟨o.state, Function.update o.phase client .idle,
        o.trace++[.answered client op answer]⟩ := by
  simp [run, move, h]

/-- The call has its effect and is answered at once. -/
theorem effect_answer_moves (h : o.phase client = .waiting op) :
    run (move spec) o [.effect client, .answer client] =
      some ⟨(spec o.state op).2, Function.update o.phase client .idle,
        o.trace++[.answered client op (spec o.state op).1]⟩ := by
  simp [run, move, h]

end Moves

end RS485.Atomic
