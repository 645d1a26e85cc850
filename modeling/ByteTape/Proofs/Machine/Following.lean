import ByteTape.Proofs.Machine.Rules
import ByteTape.Proofs.Machine.Simulation

/-! Runs that follow another one. Two machines may be answered alike only for as long as nothing
happens to the first; until then the second goes through the same states, and if the first has
come to its end by itself, the second has come to the same end. -/

namespace ByteTape

variable {σ τ : Type}

def Progress.LetDown (progress : Progress σ) : Prop :=
  ∃ pc reason world, progress = .ended (.error (.device pc reason)) world

namespace Machine

/-- The turn with which a run ends by itself calls nobody but the observer, and the observer only
if an instruction breaks off. -/
theorem ended_of_advance {machine : Machine σ} {strategy : JumpStrategy}
    (resolved : machine.jumps = .ofProgram strategy machine.program) {state : RunState}
    {world later : World σ} {result : Except Fault Report}
    (advanced : machine.advance state world = .ended result later)
    (answered : ¬ (Progress.ended result later).LetDown) :
    (∃ report, result = .ok report ∧ later = world) ∨
      ∃ fault instruction, result = .error fault ∧
        machine.program.get? state.pc = some instruction ∧
        Breaks machine.program state [] fault ∧
        later = machine.observe (state.view instruction) world := by
  have turn := turn_advance resolved state world
  rw [advanced] at turn
  cases turn with
  | completed | stopped => exact .inl ⟨_, rfl, rfl⟩
  | @breaks instruction calls fault _ here going rule answers =>
    refine .inr ⟨fault, instruction, rfl, here, ?_⟩
    cases rule with
    | output | input => exact absurd ⟨_, _, _, rfl⟩ answered
    | right there last => exact ⟨.right there last, answers.eq_of_nothing⟩
    | left there first => exact ⟨.left there first, answers.eq_of_nothing⟩
    | skip there zero unpaired => exact ⟨.skip there zero unpaired, answers.eq_of_nothing⟩
    | again there nonzero unpaired => exact ⟨.again there nonzero unpaired, answers.eq_of_nothing⟩

/-- What it takes for the second machine to follow the first, as long as the world of the first is
fine. What the devices answer is the same where the end of the input is taken for zero. -/
structure Follows (machine : Machine σ) (other : Machine τ)
    (similar : World σ → World τ → Prop) (fine : World σ → Prop) : Prop where
  program : machine.program = other.program
  jumps : machine.jumps = other.jumps
  before : ∀ progress, fine (machine.resume progress).world → fine progress.world
  stopped : ∀ world beside, similar world beside → fine world → world.stopped = beside.stopped
  observe : ∀ view world beside, similar world beside →
    similar (machine.observe view world) (other.observe view beside)
  read : ∀ world beside answer later, similar world beside →
    world.read machine.device = (.ok answer, later) → fine later →
    ∃ reply aside, beside.read other.device = (.ok reply, aside) ∧
      reply.getD 0 = answer.getD 0 ∧ similar later aside
  write : ∀ byte world beside later, similar world beside →
    world.write machine.device byte = (.ok (), later) → fine later →
    ∃ aside, beside.write other.device byte = (.ok (), aside) ∧ similar later aside

section
variable {machine : Machine σ} {other : Machine τ} {similar : World σ → World τ → Prop}
  {fine : World σ → Prop} {state : RunState} {world : World σ} {beside : World τ}

private theorem together_concluded (worlds : similar world beside)
    (result : Except Fault RunState) :
    Together Eq similar (concluded (result, world)) (concluded (result, beside)) := by
  cases result with
  | error fault => exact .ended _ worlds
  | ok state => exact .running ⟨rfl, rfl, rfl, rfl, rfl⟩ worlds

theorem concluded_output (machine : Machine σ) (state : RunState) (world : World σ) :
    concluded (machine.execute state world .output) =
      match world.write machine.device state.tape.current with
      | (.ok (), later) => .running (state.wrote state.tape.current) later
      | (.error reason, later) => .ended (.error (.device state.pc reason)) later := by
  rw [execute]
  rcases world.write machine.device state.tape.current with ⟨_ | _, later⟩ <;> rfl

theorem concluded_input (machine : Machine σ) (state : RunState) (world : World σ) :
    concluded (machine.execute state world .input) =
      match world.read machine.device with
      | (.ok byte, later) => .running (state.next (·.setCurrent (byte.getD 0))) later
      | (.error reason, later) => .ended (.error (.device state.pc reason)) later := by
  rw [execute]
  rcases world.read machine.device with ⟨_ | _, later⟩ <;> rfl

private theorem execute_follows (follows : Follows machine other similar fine)
    (worlds : similar world beside) (instruction : Instruction)
    (well : fine (concluded (machine.execute state world instruction)).world)
    (answered : ¬ (concluded (machine.execute state world instruction)).LetDown) :
    Together Eq similar (concluded (machine.execute state world instruction))
      (concluded (other.execute state beside instruction)) := by
  have settled (moved : Except MoveError Tape) :
      machine.settle state moved = other.settle state moved := by
    cases moved with
    | error refused => rw [settle, settle, follows.program]
    | ok tape => rfl
  have landed (partner : Option Nat) : machine.land state partner = other.land state partner := by
    cases partner with
    | none => rw [land, land, follows.program]
    | some target => rfl
  cases instruction with
  | right | left =>
    rw [execute, execute, settled]
    exact together_concluded worlds _
  | increment | decrement => exact together_concluded worlds _
  | output =>
    rcases called : world.write machine.device state.tape.current with ⟨reason | ⟨⟩, later⟩
    · rw [concluded_output, called] at answered
      exact absurd ⟨_, _, _, rfl⟩ answered
    · rw [concluded_output, called] at well ⊢
      obtain ⟨aside, same, after⟩ := follows.write _ _ _ _ worlds called well
      rw [concluded_output, same]
      exact together_concluded after (.ok _)
  | input =>
    rcases called : world.read machine.device with ⟨reason | answer, later⟩
    · rw [concluded_input, called] at answered
      exact absurd ⟨_, _, _, rfl⟩ answered
    · rw [concluded_input, called] at well ⊢
      obtain ⟨reply, aside, same, zero, after⟩ := follows.read _ _ _ _ worlds called well
      rw [concluded_input, same]
      simp only [zero]
      exact together_concluded after (.ok _)
  | loopStart =>
    rw [execute, execute, follows.jumps, landed]
    split
    · exact together_concluded worlds _
    · exact together_concluded worlds _
  | loopEnd =>
    rw [execute, execute, follows.jumps, landed]
    split
    · exact together_concluded worlds _
    · exact together_concluded worlds _

private theorem resume_follows (follows : Follows machine other similar fine) {left : Progress σ}
    {right : Progress τ} (together : Together Eq similar left right)
    (well : fine (machine.resume left).world) (answered : ¬ (machine.resume left).LetDown) :
    Together Eq similar (machine.resume left) (other.resume right) := by
  have before := follows.before left well
  cases together with
  | ended result worlds => exact .ended result worlds
  | @running state aside world beside agrees worlds =>
    cases agrees.eq
    have asked : world.stopped = beside.stopped := follows.stopped _ _ worlds before
    rw [resume] at well answered ⊢
    rw [resume]
    cases here : machine.program.get? state.pc with
    | none =>
      rw [advance_past here, advance_past (follows.program ▸ here)]
      exact .ended _ worlds
    | some instruction =>
      have there : other.program.get? state.pc = some instruction := follows.program ▸ here
      cases stopped : beside.stopped with
      | true =>
        rw [advance_stopped here (asked.trans stopped), advance_stopped there stopped]
        exact .ended _ worlds
      | false =>
        rw [advance_execute here (asked.trans stopped)] at well answered ⊢
        rw [advance_execute there stopped]
        exact execute_follows follows (follows.observe _ _ _ worlds) instruction well answered

/-- A run that follows another one stands where that stands, as long as that is fine and has not
been let down. -/
theorem after_follows (follows : Follows machine other similar fine) {left : Progress σ}
    {right : Progress τ} (initially : Together Eq similar left right) (turns : Nat)
    (well : fine (machine.after left turns).world)
    (answered : ¬ (machine.after left turns).LetDown) :
    Together Eq similar (machine.after left turns) (other.after right turns) := by
  induction turns with
  | zero => exact initially
  | succ turns ih =>
    have before : ¬ (machine.after left turns).LetDown := by
      rintro ⟨pc, reason, world, ended⟩
      exact answered ⟨pc, reason, world, after_of_ended ended (Nat.le_succ turns)⟩
    exact resume_follows follows (ih (follows.before _ well) before) well answered

theorem Together.of_ended {columns : Column → Column → Prop} {result : Except Fault Report}
    {right : Progress τ} (together : Together columns similar (.ended result world) right) :
    ∃ beside, right = .ended result beside ∧ similar world beside := by
  cases together with
  | ended _ worlds => exact ⟨_, rfl, worlds⟩

end

end Machine
end ByteTape
