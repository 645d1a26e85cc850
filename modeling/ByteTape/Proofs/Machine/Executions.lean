import ByteTape.Proofs.Machine.Trace

/-! Instructions one after the other. What a run has come to, and all that it has asked of the
device on the way, is what the rules say of the instructions that it has executed. -/

namespace ByteTape

variable {σ : Type}

/-- Instructions that have taken effect, with the calls that they have made in this order. -/
inductive Performs (program : Program) (start : RunState) : List Event → RunState → Prop where
  | nothing : Performs program start [] start
  | more {calls more : List Event} {state next : RunState}
      (before : Performs program start calls state) (rule : Executes program state more next) :
      Performs program start (calls ++ more) next

def Event.taken? : Event → Option UInt8
  | .wrote byte (.ok _) => some byte
  | _ => none

def written (calls : List Event) : List UInt8 := calls.filterMap Event.taken?

@[simp] theorem written_append (calls more : List Event) :
    written (calls ++ more) = written calls ++ written more := List.filterMap_append

@[simp] theorem written_wrote (byte : UInt8) : written [.wrote byte (.ok ())] = [byte] := rfl

@[simp] theorem written_read (answer : Except String (Option UInt8)) :
    written [.read answer] = [] := rfl

theorem Executes.column {program : Program} {state next : RunState} {calls : List Event}
    (executes : Executes program state calls next) :
    next.column = (written calls).foldl Column.advance state.column := by
  cases executes <;> rfl

/-- The column is where the bytes written so far have led. -/
theorem Performs.column {program : Program} {start state : RunState} {calls : List Event}
    (performs : Performs program start calls state) :
    state.column = (written calls).foldl Column.advance start.column := by
  induction performs with
  | nothing => rfl
  | more before rule ih =>
    rw [rule.column, ih, written_append, List.foldl_append]

namespace Engine
variable {engine : Engine} {program : Program} {device : Device σ}
  {observer : Option (Observer σ)} {outside : σ} {state : RunState}

theorem performs_of_reaches {world : World (Traced σ)}
    (reaches : engine.Reaches program device.traced (observer.map Observer.traced)
      (.start outside) state world) :
    Performs program (.start engine.config engine.valid) world.outside.calls state := by
  obtain ⟨turns, ran⟩ := reaches
  induction turns generalizing state world with
  | zero =>
    cases ran
    exact .nothing
  | succ turns ih =>
    obtain ⟨before, earlier, instruction, calls, ran, -, executes, answers⟩ := executes_of_after ran
    rw [calls_of_answers answers]
    exact .more (ih ran) executes

end Engine
end ByteTape
