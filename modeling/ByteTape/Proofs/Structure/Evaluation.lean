import ByteTape.Proofs.Structure.Block
import ByteTape.Tape
import Mathlib.Algebra.GroupWithZero.Nat

/-! What trees of instructions mean, without a program counter. A loop runs its body as long
as the current cell is not zero. -/

namespace ByteTape

structure Store where
  tape : Tape
  input : List UInt8
  output : List UInt8
  deriving DecidableEq

/-- What a primitive instruction does. The end of the input is read as zero. -/
def Primitive.apply (store : Store) : Primitive → Except MoveError Store
  | right => store.tape.moveRight.map fun tape => { store with tape }
  | left => store.tape.moveLeft.map fun tape => { store with tape }
  | increment => .ok { store with tape := store.tape.increment }
  | decrement => .ok { store with tape := store.tape.decrement }
  | output => .ok { store with output := store.output ++ [store.tape.current] }
  | input =>
    .ok ⟨store.tape.setCurrent (store.input.headD 0), store.input.tail, store.output⟩

/-- How a block comes to an end: behind its last instruction, or at the primitive instruction
with that index in its code, which is refused. The steps are those taken before. -/
inductive Outcome where
  | finished (store : Store) (steps : Nat)
  | faulted (store : Store) (steps index : Nat) (refused : MoveError)
  deriving DecidableEq

namespace Outcome

/-- The outcome when that many steps and instructions come first. -/
def later (steps size : Nat) : Outcome → Outcome
  | finished store taken => finished store (steps + taken)
  | faulted store taken index refused => faulted store (steps + taken) (size + index) refused

def turns : Outcome → Nat
  | finished _ steps => steps
  | faulted _ steps _ _ => steps + 1

@[simp] theorem turns_later (steps size : Nat) (outcome : Outcome) :
    (outcome.later steps size).turns = steps + outcome.turns := by
  cases outcome with
  | finished store taken => rfl
  | faulted store taken index refused => rfl

theorem later_zero (outcome : Outcome) : outcome.later 0 0 = outcome := by
  cases outcome <;> simp [later]

theorem later_later (outcome : Outcome) (steps size more further : Nat) :
    (outcome.later steps size).later more further =
      outcome.later (more + steps) (further + size) := by
  cases outcome <;> simp [later, Nat.add_assoc]

end Outcome

/-- The big-step semantics. To enter or to skip a loop is one step, and so is to come to the
end of its body, where it is decided whether there is another round. -/
inductive Evaluates : Block → Store → Outcome → Prop where
  | done (store : Store) : Evaluates .done store (.finished store 0)
  | primitive {first : Primitive} {rest : Block} {store next : Store} {outcome : Outcome}
      (applied : first.apply store = .ok next) (onward : Evaluates rest next outcome) :
      Evaluates (.primitive first rest) store (outcome.later 1 1)
  | refused {first : Primitive} {rest : Block} {store : Store} {refused : MoveError}
      (applied : first.apply store = .error refused) :
      Evaluates (.primitive first rest) store (.faulted store 0 0 refused)
  | skip {body rest : Block} {store : Store} {outcome : Outcome}
      (zero : store.tape.current = 0) (behind : Evaluates rest store outcome) :
      Evaluates (.loop body rest) store (outcome.later 1 (body.size + 2))
  | round {body rest : Block} {store next : Store} {steps : Nat} {outcome : Outcome}
      (nonzero : store.tape.current ≠ 0) (once : Evaluates body store (.finished next steps))
      (again : Evaluates (.loop body rest) next outcome) :
      Evaluates (.loop body rest) store (outcome.later (steps + 1) 0)
  | broken {body rest : Block} {store last : Store} {steps index : Nat} {refused : MoveError}
      (nonzero : store.tape.current ≠ 0)
      (once : Evaluates body store (.faulted last steps index refused)) :
      Evaluates (.loop body rest) store (.faulted last (steps + 1) (index + 1) refused)

def EndsWithin (block : Block) (store : Store) (turns : Nat) : Prop :=
  ∃ outcome, Evaluates block store outcome ∧ outcome.turns ≤ turns

theorem EndsWithin.later {block rest : Block} {store next : Store}
    {steps size turns total : Nat}
    (before : ∀ {outcome}, Evaluates rest next outcome →
      Evaluates block store (outcome.later steps size))
    (fits : steps + turns ≤ total) (ends : EndsWithin rest next turns) :
    EndsWithin block store total := by
  obtain ⟨outcome, evaluates, within⟩ := ends
  refine ⟨_, before evaluates, ?_⟩
  rw [Outcome.turns_later]
  omega

/-- Rounds of a loop, with the steps that the body takes in each. -/
inductive Rounds (body : Block) : Store → List Nat → Store → Prop where
  | done {store : Store} (zero : store.tape.current = 0) : Rounds body store [] store
  | round {store next last : Store} {steps : Nat} {more : List Nat}
      (nonzero : store.tape.current ≠ 0) (once : Evaluates body store (.finished next steps))
      (again : Rounds body next more last) : Rounds body store (steps :: more) last

namespace Evaluates

theorem unique {block : Block} {store : Store} {outcome other : Outcome}
    (evaluates : Evaluates block store outcome) (again : Evaluates block store other) :
    outcome = other := by
  induction evaluates generalizing other with
  | done store =>
    cases again
    rfl
  | primitive applied _ ih =>
    cases again with
    | primitive applied' onward =>
      cases applied.symm.trans applied'
      rw [ih onward]
    | refused applied' => cases applied.symm.trans applied'
  | refused applied =>
    cases again with
    | primitive applied' _ => cases applied.symm.trans applied'
    | refused applied' =>
      cases applied.symm.trans applied'
      rfl
  | skip zero _ ih =>
    cases again with
    | skip _ behind => rw [ih behind]
    | round nonzero => exact absurd zero nonzero
    | broken nonzero => exact absurd zero nonzero
  | round nonzero _ _ ihOnce ihAgain =>
    cases again with
    | skip zero => exact absurd zero nonzero
    | round _ once again =>
      cases ihOnce once
      rw [ihAgain again]
    | broken _ once => cases ihOnce once
  | broken nonzero _ ih =>
    cases again with
    | skip zero => exact absurd zero nonzero
    | round _ once _ => cases ih once
    | broken _ once =>
      cases ih once
      rfl

theorem turns_loop {body rest : Block} {store : Store} {outcome : Outcome}
    (evaluates : Evaluates (.loop body rest) store outcome) :
    ∃ more, outcome.turns = more + 1 := by
  cases evaluates with
  | skip => exact ⟨_, by rw [Outcome.turns_later, Nat.add_comm]⟩
  | round => exact ⟨_, by rw [Outcome.turns_later, Nat.add_right_comm]⟩
  | broken => exact ⟨_, rfl⟩

private theorem rounds_of_finished {body rest : Block} {store last : Store} {steps : Nat}
    (evaluates : Evaluates (.loop body rest) store (.finished last steps)) :
    ∃ rounds middle taken, Rounds body store rounds middle ∧
      Evaluates rest middle (.finished last taken) ∧
      steps = 1 + (rounds.map (· + 1)).sum + taken := by
  generalize whole : Block.loop body rest = block at evaluates
  generalize ended : Outcome.finished last steps = outcome at evaluates
  induction evaluates generalizing steps with
  | done | primitive | refused => cases whole
  | broken => cases ended
  | @skip _ _ _ outcome zero behind =>
    cases whole
    cases outcome with
    | faulted => cases ended
    | finished middle taken =>
      cases ended
      exact ⟨[], _, taken, .done zero, behind, rfl⟩
  | @round _ _ _ _ spent outcome nonzero once again _ ih =>
    cases whole
    cases outcome with
    | faulted => cases ended
    | finished middle taken =>
      cases ended
      obtain ⟨rounds, middle, taken, more, behind, rfl⟩ := ih rfl rfl
      refine ⟨spent :: rounds, middle, taken, .round nonzero once more, behind, ?_⟩
      rw [List.map_cons, List.sum_cons]
      omega

private theorem finished_of_rounds {body rest : Block} {store middle last : Store}
    {rounds : List Nat} {taken : Nat} (turns : Rounds body store rounds middle)
    (behind : Evaluates rest middle (.finished last taken)) :
    Evaluates (.loop body rest) store
      (.finished last (1 + (rounds.map (· + 1)).sum + taken)) := by
  induction turns with
  | done zero => exact .skip zero behind
  | @round _ _ _ steps more nonzero once _ ih =>
    have cost : 1 + ((steps :: more).map (· + 1)).sum + taken =
        steps + 1 + (1 + (more.map (· + 1)).sum + taken) := by
      rw [List.map_cons, List.sum_cons]
      omega
    rw [cost]
    exact .round nonzero once (ih behind)

/-- A loop costs one step, and in each round one step more than its body. -/
theorem loop_finished_iff {body rest : Block} {store last : Store} {steps : Nat} :
    Evaluates (.loop body rest) store (.finished last steps) ↔
      ∃ rounds middle taken, Rounds body store rounds middle ∧
        Evaluates rest middle (.finished last taken) ∧
        steps = 1 + (rounds.map (· + 1)).sum + taken := by
  constructor
  · intro evaluates
    exact rounds_of_finished evaluates
  · rintro ⟨rounds, middle, taken, turns, behind, cost⟩
    rw [cost]
    exact finished_of_rounds turns behind

end Evaluates
end ByteTape
