import ByteTape.Device.Buffer
import ByteTape.Proofs.Machine.Steps
import ByteTape.Proofs.Structure.Evaluation

/-! Flat runs of trees. Where the code of a block stands in a program, a run through it does
what the tree means, in as many turns as that takes; and a run that leaves it has done so. -/

namespace ByteTape
open Brackets

namespace Store

def buffer (store : Store) : Buffer := ⟨store.input, store.output.toArray⟩

def standing (store : Store) (width : Option Nat) (pc steps : Nat) : Progress Buffer :=
  .running ⟨store.tape, pc, store.output.foldl Column.advance (.start width), steps,
    store.output.length⟩ ⟨store.buffer, false⟩

end Store

namespace Outcome

def result (program : Program) : Outcome → Except Fault Report
  | finished store steps => .ok ⟨.completed, steps, store.output.length, store.tape⟩
  | faulted _ _ index refused => .error (.ofMove index (program.location? index) refused)

def store : Outcome → Store
  | finished store _ => store
  | faulted store _ _ _ => store

/-- Where the outcome of a block at `pc` of that size leaves a run. -/
def progress (program : Program) (width : Option Nat) (pc size steps : Nat) :
    Outcome → Progress Buffer
  | finished store taken => store.standing width (pc + size) (steps + taken)
  | faulted store _ index refused =>
    .ended (.error (.ofMove (pc + index) (program.location? (pc + index)) refused))
      ⟨store.buffer, false⟩

private theorem progress_later (program : Program) (width : Option Nat)
    (pc size steps more first : Nat)
    (outcome : Outcome) :
    (outcome.later more first).progress program width pc (first + size) steps =
      outcome.progress program width (pc + first) size (steps + more) := by
  cases outcome with
  | finished store taken => simp only [later, progress, Nat.add_assoc]
  | faulted store taken index refused => simp only [later, progress, Nat.add_assoc]

end Outcome

namespace Block

def StandsAt (block : Block) (program : Program) (pc : Nat) : Prop :=
  block.code <+: program.instructions.drop pc

variable {program : Program} {pc : Nat}

private theorem get?_of_drop {instruction : Instruction} {rest : List Instruction}
    (split : program.instructions.drop pc = instruction :: rest) :
    program.get? pc = some instruction ∧ program.instructions.drop (pc + 1) = rest := by
  constructor
  · rw [Program.get?_eq_getElem?, ← List.head?_drop, split, List.head?_cons]
  · rw [← List.drop_drop, split, List.drop_one, List.tail_cons]

theorem StandsAt.primitive {first : Primitive} {rest : Block}
    (stands : (primitive first rest).StandsAt program pc) :
    program.get? pc = some first.instruction ∧ rest.StandsAt program (pc + 1) := by
  obtain ⟨more, split⟩ := stands
  obtain ⟨here, behind⟩ := get?_of_drop split.symm
  exact ⟨here, more, behind.symm⟩

theorem StandsAt.loop {body rest : Block} (stands : (loop body rest).StandsAt program pc) :
    Paired program.instructions pc (pc + 1 + body.size) ∧ body.StandsAt program (pc + 1) ∧
      rest.StandsAt program (pc + (body.size + 2)) := by
  obtain ⟨more, split⟩ := stands
  simp only [code, List.cons_append, List.append_assoc] at split
  obtain ⟨opens, inside⟩ := get?_of_drop split.symm
  have behind : program.instructions.drop (pc + 1 + body.size) =
      .loopEnd :: (rest.code ++ more) := by
    rw [← List.drop_drop, inside, size, List.drop_left]
  obtain ⟨closes, after⟩ := get?_of_drop behind
  rw [Program.get?_eq_getElem?] at opens closes
  refine ⟨⟨opens, closes, by omega, ?_⟩, ⟨_, inside.symm⟩, more, ?_⟩
  · rw [List.drop_take, inside, Nat.add_sub_cancel_left, size, List.take_left]
    exact body.nested
  · rw [← after]
    congr 1
    omega

end Block

namespace Machine

def inMemory (program : Program) (strategy : JumpStrategy) : Machine Buffer :=
  ⟨program, .ofProgram strategy program, Buffer.device, none⟩

variable {program : Program} {strategy : JumpStrategy} {width : Option Nat} {pc steps : Nat}

private theorem observe_inMemory (program : Program) (strategy : JumpStrategy)
    (view : MachineView) (world : World Buffer) :
    (inMemory program strategy).observe view world = world := rfl

private theorem resume_primitive {first : Primitive}
    (here : program.get? pc = some first.instruction)
    (store : Store) :
    (inMemory program strategy).resume (store.standing width pc steps) =
      match first.apply store with
      | .ok next => next.standing width (pc + 1) (steps + 1)
      | .error refused =>
        .ended (.error (.ofMove pc (program.location? pc) refused)) ⟨store.buffer, false⟩ := by
  rw [Store.standing, resume, advance_execute here rfl, observe_inMemory]
  cases first with
  | right =>
    simp only [Primitive.instruction, execute, Primitive.apply]
    cases store.tape.moveRight with
    | error refused => rfl
    | ok tape => rfl
  | left =>
    simp only [Primitive.instruction, execute, Primitive.apply]
    cases store.tape.moveLeft with
    | error refused => rfl
    | ok tape => rfl
  | increment | decrement => rfl
  | output =>
    simp [Primitive.instruction, Primitive.apply, execute, World.write, World.call, inMemory,
      Buffer.device, Reply.quiet, concluded, RunState.wrote, Store.standing, Store.buffer,
      Buffer.write]
  | input =>
    obtain ⟨tape, input, output⟩ := store
    cases input with
    | nil => rfl
    | cons byte rest => rfl

/-- Both brackets of a loop lead to the same place, which only depends on the current cell. -/
private theorem resume_bracket {start stop : Nat} (pair : Paired program.instructions start stop)
    (here : pc = start ∨ pc = stop) (store : Store) :
    (inMemory program strategy).resume (store.standing width pc steps) =
      store.standing width (if store.tape.current = 0 then stop + 1 else start + 1)
        (steps + 1) := by
  rw [Store.standing, resume]
  rcases here with rfl | rfl
  · have opens := pair.opens
    rw [← Program.get?_eq_getElem?] at opens
    have jump := (closing?_eq_some_iff pair.opens stop).mpr pair
    rw [advance_execute opens rfl, observe_inMemory]
    by_cases zero : store.tape.current = 0
    · simp only [execute, inMemory, Jumps.closing?_ofProgram _ opens, jump, if_pos zero]
      rfl
    · simp only [execute, if_neg zero]
      rfl
  · have closes := pair.closes
    rw [← Program.get?_eq_getElem?] at closes
    have jump := (opening?_eq_some_iff pair.closes start).mpr pair
    rw [advance_execute closes rfl, observe_inMemory]
    by_cases zero : store.tape.current = 0
    · simp only [execute, if_pos zero]
      rfl
    · simp only [execute, inMemory, Jumps.opening?_ofProgram _ closes, jump, if_neg zero]
      rfl

/-- A loop that is entered again at its end goes on as if it had been entered at its start. -/
private theorem after_again {start stop : Nat} (pair : Paired program.instructions start stop)
    (store : Store) (more : Nat) :
    (inMemory program strategy).after (store.standing width stop steps) (more + 1) =
      (inMemory program strategy).after (store.standing width start steps) (more + 1) := by
  rw [after_succ, after_succ, resume_bracket pair (.inl rfl), resume_bracket pair (.inr rfl)]

/-- A run through a block does what the block means, turn by turn. -/
theorem after_of_evaluates {block : Block} {store : Store} {outcome : Outcome}
    (evaluates : Evaluates block store outcome) (stands : block.StandsAt program pc) :
    (inMemory program strategy).after (store.standing width pc steps) outcome.turns =
      outcome.progress program width pc block.size steps := by
  induction evaluates generalizing pc steps with
  | done store => rfl
  | @primitive first rest store next outcome applied _ ih =>
    obtain ⟨here, behind⟩ := stands.primitive
    rw [Outcome.turns_later, Nat.add_comm, after_succ, resume_primitive here, applied, ih behind,
      Block.size_primitive, Nat.add_comm rest.size, Outcome.progress_later]
  | @refused first rest store refused applied =>
    obtain ⟨here, -⟩ := stands.primitive
    rw [Outcome.turns, after_succ, resume_primitive here, applied]
    rfl
  | @skip body rest store outcome zero _ ih =>
    obtain ⟨pair, -, behind⟩ := stands.loop
    rw [Outcome.turns_later, Nat.add_comm, after_succ, resume_bracket pair (.inl rfl), if_pos zero,
      Block.size_loop, Outcome.progress_later, ← ih behind]
    congr 2
    omega
  | @round body rest store next taken outcome nonzero _ again ihOnce ihAgain =>
    obtain ⟨pair, inside, -⟩ := stands.loop
    have enter : (inMemory program strategy).resume (store.standing width pc steps) =
        store.standing width (pc + 1) (steps + 1) := by
      rw [resume_bracket pair (.inl rfl), if_neg nonzero]
    have once : (inMemory program strategy).after (store.standing width (pc + 1) (steps + 1))
        taken = next.standing width (pc + 1 + body.size) (steps + 1 + taken) := ihOnce inside
    -- From the end of the body a run goes where it would go from the start of the loop.
    have loop : (inMemory program strategy).after
        (next.standing width (pc + 1 + body.size) (steps + 1 + taken)) outcome.turns =
        outcome.progress program width pc (Block.loop body rest).size (steps + 1 + taken) := by
      obtain ⟨more, turns⟩ := again.turns_loop
      rw [turns, after_again pair, ← turns]
      exact ihAgain stands
    have total : steps + (taken + 1) = steps + 1 + taken := by omega
    have shift := outcome.progress_later program width pc (Block.loop body rest).size steps
      (taken + 1) 0
    rw [Nat.zero_add, total] at shift
    rw [Outcome.turns_later, after_add, after_succ, enter, once, loop]
    exact shift.symm
  | @broken body rest store last taken index refused nonzero _ ih =>
    obtain ⟨pair, inside, -⟩ := stands.loop
    rw [Outcome.turns, after_succ, resume_bracket pair (.inl rfl), if_neg nonzero]
    apply (ih inside).trans
    simp only [Outcome.progress, Nat.add_assoc, Nat.add_comm 1 index]

private theorem endsWithin_or_running (turns : Nat) (block : Block) (store : Store) (pc steps : Nat)
    (stands : block.StandsAt program pc) :
    EndsWithin block store turns ∨
      ∃ state world, (inMemory program strategy).after (store.standing width pc steps) turns =
        .running state world := by
  induction turns using Nat.strong_induction_on generalizing block store pc steps with
  | _ turns ih =>
  cases turns with
  | zero => exact .inr ⟨_, _, rfl⟩
  | succ turns =>
    rw [after_succ]
    cases block with
    | done => exact .inl ⟨_, .done store, Nat.zero_le _⟩
    | primitive first rest =>
      obtain ⟨here, behind⟩ := stands.primitive
      rw [resume_primitive here]
      cases applied : first.apply store with
      | error refused => exact .inl ⟨_, .refused applied, Nat.le_add_left 1 turns⟩
      | ok next =>
        have later := ih turns (by omega) rest next (pc + 1) (steps + 1) behind
        apply later.imp_left
        apply EndsWithin.later (.primitive applied)
        omega
    | loop body rest =>
      obtain ⟨pair, inside, behind⟩ := stands.loop
      rw [resume_bracket pair (.inl rfl)]
      by_cases zero : store.tape.current = 0
      · have place : pc + 1 + body.size + 1 = pc + (body.size + 2) := by omega
        have later := ih turns (by omega) rest store _ (steps + 1) behind
        rw [if_pos zero, place]
        apply later.imp_left
        apply EndsWithin.later (.skip zero)
        omega
      · rw [if_neg zero]
        rcases ih turns (by omega) body store (pc + 1) (steps + 1) inside with
          ⟨outcome, evaluates, within⟩ | running
        · cases outcome with
          | faulted last taken index refused =>
            exact .inl ⟨_, .broken zero evaluates, Nat.succ_le_succ within⟩
          | finished next taken =>
            obtain ⟨more, rfl⟩ := Nat.exists_eq_add_of_le within
            have once : (inMemory program strategy).after
                (store.standing width (pc + 1) (steps + 1)) taken =
                next.standing width (pc + 1 + body.size) (steps + 1 + taken) :=
              after_of_evaluates evaluates inside
            -- The same loop is met again, with fewer turns left.
            have again := ih more (by omega) (.loop body rest) next pc (steps + 1 + taken) stands
            rw [Outcome.turns, after_add, once]
            cases more with
            | zero => exact .inr ⟨_, _, rfl⟩
            | succ more =>
              rw [after_again pair]
              apply again.imp_left
              apply EndsWithin.later (.round zero evaluates)
              omega
        · exact .inr running

private theorem ends_of_evaluates (strategy : JumpStrategy) (width : Option Nat) {block : Block}
    (whole : block.code = program.instructions)
    {store : Store} {outcome : Outcome} (evaluates : Evaluates block store outcome) :
    ∃ turns, (inMemory program strategy).after (store.standing width 0 0) turns =
      .ended (outcome.result program) ⟨outcome.store.buffer, false⟩ := by
  have stands : block.StandsAt program 0 := ⟨[], by rw [List.append_nil, List.drop_zero, whole]⟩
  have ran : (inMemory program strategy).after (store.standing width 0 0) outcome.turns =
      outcome.progress program width 0 block.size 0 := after_of_evaluates evaluates stands
  cases outcome with
  | faulted last taken index refused =>
    rw [Outcome.progress, Nat.zero_add] at ran
    exact ⟨_, ran⟩
  | finished last taken =>
    have past : program.get? block.size = none := by
      rw [Program.get?_eq_none_iff, ← Program.length_instructions, ← whole, Block.size]
    rw [Outcome.progress, Nat.zero_add, Nat.zero_add] at ran
    refine ⟨taken + 1, ?_⟩
    rw [after, show Machine.after _ _ taken = _ from ran]
    exact advance_past past _

/-- The run of a tree's code ends just as the tree says, and only if it does. -/
theorem ends_iff_evaluates (strategy : JumpStrategy) (width : Option Nat) {block : Block}
    (whole : block.code = program.instructions)
    (store : Store) (result : Except Fault Report) (world : World Buffer) :
    (∃ turns, (inMemory program strategy).after (store.standing width 0 0) turns =
      .ended result world) ↔
    ∃ outcome, Evaluates block store outcome ∧ result = outcome.result program ∧
      world = ⟨outcome.store.buffer, false⟩ := by
  have stands : block.StandsAt program 0 := ⟨[], by rw [List.append_nil, List.drop_zero, whole]⟩
  constructor
  · rintro ⟨turns, ended⟩
    rcases endsWithin_or_running turns block store 0 0 stands with
      ⟨outcome, evaluates, -⟩ | ⟨state, other, running⟩
    · obtain ⟨other, same⟩ := ends_of_evaluates strategy width whole evaluates
      have equal := eq_of_ended ended same
      exact ⟨outcome, evaluates, equal⟩
    · rw [ended] at running
      cases running
  · rintro ⟨outcome, evaluates, same, outside⟩
    rw [same, outside]
    exact ends_of_evaluates strategy width whole evaluates

end Machine
end ByteTape
