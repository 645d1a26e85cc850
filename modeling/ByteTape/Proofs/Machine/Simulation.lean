import ByteTape.Proofs.Machine.Turns

/-! Runs of two machines side by side. Machines that read the same program, and are answered
alike by what is outside, stay together turn by turn and come to the same end. -/

namespace ByteTape

variable {σ τ : Type}

/-- Two states that are the same but for their columns, which only have this in common. -/
structure RunState.Agrees (columns : Column → Column → Prop) (state aside : RunState) : Prop where
  tape : state.tape = aside.tape
  pc : state.pc = aside.pc
  column : columns state.column aside.column
  steps : state.steps = aside.steps
  outputBytes : state.outputBytes = aside.outputBytes

namespace RunState.Agrees
variable {columns : Column → Column → Prop} {state aside : RunState}

theorem eq (agrees : Agrees Eq state aside) : state = aside := by
  obtain ⟨tape, pc, column, steps, outputBytes⟩ := state
  obtain ⟨rfl, rfl, rfl, rfl, rfl⟩ := agrees
  rfl

private theorem report (agrees : state.Agrees columns aside) (ending : Ending) :
    state.report ending = aside.report ending := by
  rw [RunState.report, RunState.report, agrees.tape, agrees.steps, agrees.outputBytes]

private theorem next (agrees : state.Agrees columns aside) (change : Tape → Tape) :
    (state.next change).Agrees columns (aside.next change) :=
  ⟨congrArg change agrees.tape, congrArg (· + 1) agrees.pc, agrees.column,
    congrArg (· + 1) agrees.steps, agrees.outputBytes⟩

private theorem withTape (agrees : state.Agrees columns aside) (tape : Tape) :
    (state.withTape tape).Agrees columns (aside.withTape tape) :=
  ⟨rfl, congrArg (· + 1) agrees.pc, agrees.column, congrArg (· + 1) agrees.steps,
    agrees.outputBytes⟩

private theorem jump (agrees : state.Agrees columns aside) (target : Nat) :
    (state.jump target).Agrees columns (aside.jump target) :=
  ⟨agrees.tape, rfl, agrees.column, congrArg (· + 1) agrees.steps, agrees.outputBytes⟩

private theorem wrote (agrees : state.Agrees columns aside) (byte : UInt8)
    (advance : ∀ byte column other, columns column other →
      columns (column.advance byte) (other.advance byte)) :
    (state.wrote byte).Agrees columns (aside.wrote byte) :=
  ⟨agrees.tape, congrArg (· + 1) agrees.pc, advance byte _ _ agrees.column,
    congrArg (· + 1) agrees.steps, congrArg (· + 1) agrees.outputBytes⟩

end RunState.Agrees

namespace Machine

/-- What it takes for two machines to stay together, as long as their worlds are similar. -/
structure Simulation (machine : Machine σ) (other : Machine τ)
    (columns : Column → Column → Prop) (similar : World σ → World τ → Prop) : Prop where
  get? : ∀ index, machine.program.get? index = other.program.get? index
  location? : ∀ index, machine.program.location? index = other.program.location? index
  closing? : ∀ index, machine.program.get? index = some .loopStart →
    machine.jumps.closing? index = other.jumps.closing? index
  opening? : ∀ index, machine.program.get? index = some .loopEnd →
    machine.jumps.opening? index = other.jumps.opening? index
  advance : ∀ byte column aside, columns column aside →
    columns (column.advance byte) (aside.advance byte)
  observe : ∀ instruction state aside world beside, RunState.Agrees columns state aside →
    similar world beside →
    similar (machine.observe (state.view instruction) world)
      (other.observe (aside.view instruction) beside)
  read : ∀ world beside, similar world beside →
    (world.read machine.device).1 = (beside.read other.device).1 ∧
      similar (world.read machine.device).2 (beside.read other.device).2
  write : ∀ byte world beside, similar world beside →
    (world.write machine.device byte).1 = (beside.write other.device byte).1 ∧
      similar (world.write machine.device byte).2 (beside.write other.device byte).2

/-- Two runs stand at the same place, in similar worlds. -/
inductive Together (columns : Column → Column → Prop) (similar : World σ → World τ → Prop) :
    Progress σ → Progress τ → Prop where
  | running {state aside : RunState} {world : World σ} {beside : World τ}
      (agrees : state.Agrees columns aside) (worlds : similar world beside) :
      Together columns similar (.running state world) (.running aside beside)
  | ended (result : Except Fault Report) {world : World σ} {beside : World τ}
      (worlds : similar world beside) :
      Together columns similar (.ended result world) (.ended result beside)

section
variable {machine : Machine σ} {other : Machine τ} {columns : Column → Column → Prop}
  {similar : World σ → World τ → Prop} {state aside : RunState} {world : World σ}
  {beside : World τ}

theorem Together.worlds {left : Progress σ} {right : Progress τ}
    (together : Together columns similar left right) : similar left.world right.world := by
  cases together with
  | running _ worlds => exact worlds
  | ended _ worlds => exact worlds

theorem Together.eq {left right : Progress σ} (together : Together Eq Eq left right) :
    left = right := by
  cases together with
  | running agrees worlds => rw [agrees.eq, worlds]
  | ended result worlds => rw [worlds]

private theorem settle_together (simulation : Simulation machine other columns similar)
    (agrees : state.Agrees columns aside) (worlds : similar world beside)
    (moved : Except MoveError Tape) :
    Together columns similar (concluded (machine.settle state moved, world))
      (concluded (other.settle aside moved, beside)) := by
  cases moved with
  | error refused =>
    rw [settle, settle, agrees.pc, simulation.location?]
    exact .ended _ worlds
  | ok tape => exact .running (agrees.withTape tape) worlds

private theorem land_together (simulation : Simulation machine other columns similar)
    (agrees : state.Agrees columns aside) (worlds : similar world beside)
    (partner : Option Nat) :
    Together columns similar (concluded (machine.land state partner, world))
      (concluded (other.land aside partner, beside)) := by
  cases partner with
  | none =>
    rw [land, land, agrees.pc, simulation.location?]
    exact .ended _ worlds
  | some target => exact .running (agrees.jump target) worlds

theorem execute_together (simulation : Simulation machine other columns similar)
    (agrees : state.Agrees columns aside) (worlds : similar world beside)
    {instruction : Instruction} (here : machine.program.get? aside.pc = some instruction) :
    Together columns similar (concluded (machine.execute state world instruction))
      (concluded (other.execute aside beside instruction)) := by
  cases instruction with
  | right | left =>
    simp only [execute, agrees.tape]
    exact settle_together simulation agrees worlds _
  | increment | decrement => exact .running (agrees.next _) worlds
  | output =>
    obtain ⟨same, later⟩ := simulation.write aside.tape.current world beside worlds
    simp only [execute, agrees.tape, agrees.pc]
    generalize world.write machine.device aside.tape.current = left at same later
    generalize beside.write other.device aside.tape.current = right at same later
    obtain ⟨answer, world⟩ := left
    obtain ⟨_, beside⟩ := right
    cases same
    cases answer with
    | error reason => exact .ended _ later
    | ok => exact .running (agrees.wrote _ simulation.advance) later
  | input =>
    obtain ⟨same, later⟩ := simulation.read world beside worlds
    simp only [execute, agrees.pc]
    generalize world.read machine.device = left at same later
    generalize beside.read other.device = right at same later
    obtain ⟨answer, world⟩ := left
    obtain ⟨_, beside⟩ := right
    cases same
    cases answer with
    | error reason => exact .ended _ later
    | ok byte => exact .running (agrees.next _) later
  | loopStart =>
    simp only [execute, agrees.tape, agrees.pc, simulation.closing? _ here]
    split
    · exact land_together simulation agrees worlds _
    · exact .running (agrees.next id) worlds
  | loopEnd =>
    simp only [execute, agrees.tape, agrees.pc, simulation.opening? _ here]
    split
    · exact .running (agrees.next id) worlds
    · exact land_together simulation agrees worlds _

theorem resume_together (simulation : Simulation machine other columns similar)
    {left : Progress σ} {right : Progress τ} (together : Together columns similar left right)
    (asked : left.world.stopped = right.world.stopped) :
    Together columns similar (machine.resume left) (other.resume right) := by
  cases together with
  | ended result worlds => exact .ended result worlds
  | @running state aside world beside agrees worlds =>
    change world.stopped = beside.stopped at asked
    have same := simulation.get? aside.pc
    rw [resume, resume]
    cases here : machine.program.get? aside.pc with
    | none =>
      rw [advance_past (agrees.pc ▸ here), advance_past (same.symm.trans here), agrees.report]
      exact .ended _ worlds
    | some instruction =>
      cases stopped : beside.stopped with
      | true =>
        rw [advance_stopped (agrees.pc ▸ here) (asked.trans stopped),
          advance_stopped (same.symm.trans here) stopped, agrees.report]
        exact .ended _ worlds
      | false =>
        rw [advance_execute (agrees.pc ▸ here) (asked.trans stopped),
          advance_execute (same.symm.trans here) stopped]
        have shown := simulation.observe instruction state aside world beside agrees worlds
        exact execute_together simulation agrees shown here

theorem after_together (simulation : Simulation machine other columns similar)
    (asked : ∀ world beside, similar world beside → world.stopped = beside.stopped)
    {left : Progress σ} {right : Progress τ} (together : Together columns similar left right)
    (turns : Nat) :
    Together columns similar (machine.after left turns) (other.after right turns) := by
  apply after_related (Together columns similar) _ together
  intro left right together
  apply resume_together simulation together
  exact asked _ _ together.worlds

end

end Machine
end ByteTape
