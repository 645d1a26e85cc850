import ByteTape.Proofs.Device.Conservation
import ByteTape.Proofs.Machine.Following
import ByteTape.Proofs.Machine.Observation

/-! Runs on longer and shorter supplies of input. Bytes that are queued behind the last one read make
no difference, and neither do zeros that are queued where the input would have ended. -/

namespace ByteTape

def Event.isRead : Event → Bool
  | .read _ => true
  | _ => false

variable {σ τ : Type}

namespace Traced

def reads (traced : Traced σ) : Nat := traced.calls.countP Event.isRead

def add (traced : Traced σ) (event : Event) (outside : σ) : Traced σ :=
  ⟨outside, traced.events ++ [event]⟩

theorem reads_add (traced : Traced σ) (event : Event) (outside : σ) :
    (traced.add event outside).reads = traced.reads + if event.isRead then 1 else 0 := by
  cases event <;> simp [add, reads, calls, Event.isRead, Event.isObserved]

private theorem reads_le_add (traced : Traced σ) (event : Event) (outside : σ) :
    traced.reads ≤ (traced.add event outside).reads := by
  rw [reads_add]
  apply Nat.le_add_right

theorem views_add (traced : Traced σ) (event : Event) (outside : σ) :
    (traced.add event outside).views = traced.views ++ event.view?.toList := by
  cases event <;> simp [add, views, Event.view?]

end Traced

def Progress.finished? (engine : Engine) (progress : Progress σ) : Option (Finished σ) :=
  progress.outcome?.map fun (result, world) =>
    ⟨result, world.outside, { engine with stopRequested := world.stopped }⟩

private theorem Engine.reads_le_resume (engine : Engine) (program : Program) (device : Device σ)
    (observer : Option (Observer σ)) (progress : Progress (Traced σ)) :
    progress.world.outside.reads ≤ ((engine.machine program device.traced
      (observer.map Observer.traced)).resume progress).world.outside.reads := by
  apply Machine.outside_resume fun seen : Traced σ => progress.world.outside.reads ≤ seen.reads
  · intro view world before
    apply Nat.le_trans before
    rw [Traced.reads, Traced.reads, Traced.calls, Traced.calls, machine_traced,
      Machine.events_observe, List.filter_append, List.countP_append]
    apply Nat.le_add_right
  · intro world before
    exact Nat.le_trans before (Traced.reads_le_add ..)
  · intro byte world before
    exact Nat.le_trans before (Traced.reads_le_add ..)
  · apply Nat.le_refl

/-- Somebody who stands by while bytes are read and written. He is told of every byte that the
program gets or gives, keeps what he likes, and may ask for a stop; he does not see the queue. -/
structure Bystander (τ : Type) where
  read : UInt8 → Bool → τ → Reply Unit τ
  write : UInt8 → Bool → τ → Reply Unit τ

namespace Buffer

def attended (bystander : Bystander τ) : Device (Buffer × τ) where
  read stopped outside :=
    let reply := bystander.read (outside.1.read.1.getD 0) stopped outside.2
    ⟨.ok outside.1.read.1, (outside.1.read.2, reply.outside), reply.raised⟩
  write byte stopped outside :=
    let reply := bystander.write byte stopped outside.2
    ⟨.ok (), (outside.1.write byte, reply.outside), reply.raised⟩

theorem serves_attended (bystander : Bystander τ) (observer : Option (Observer τ)) :
    Serves Prod.fst (attended bystander) (observer.map Observer.beside) where
  read stopped outside := ⟨rfl, rfl⟩
  write byte stopped outside := ⟨rfl, rfl⟩
  observe watch same view outside := by
    obtain ⟨inner, -, rfl⟩ := Option.map_eq_some_iff.mp same
    rfl

section
variable {buffer : σ → Buffer} {device : Device σ} {observer : Option (Observer σ)}

/-- A buffer is asked for a byte by each instruction that reads, and by nothing else. -/
private theorem reads_after (serves : Serves buffer device observer) (engine : Engine)
    (program : Program)
    (outside : σ) (turns : Nat) :
    let run := engine.machine program device.traced (observer.map Observer.traced)
    let start := engine.start (Traced.start outside)
    (run.after start turns).world.outside.reads = (readings (run.record start turns)).length := by
  intro run start
  obtain ⟨count, state, world, ran, record, calls, -⟩ :=
    exists_running serves engine program outside turns
  rw [Traced.reads, calls, record]
  refine Engine.record_invariant
    (fun record _ world => world.outside.reads = (readings record).length) rfl ?_ ran
  intro record before world instruction calls state later count asks answers
  have counted : later.outside.reads = world.outside.reads + calls.countP Event.isRead := by
    rw [Traced.reads, Engine.calls_of_answers answers, List.countP_append]
    rfl
  rw [counted, readings_append, List.length_append, ← count]
  cases asks with
  | output | input => rfl
  | nothing _ deaf => rw [readings_other _ _ deaf]; rfl

private theorem answered_after (serves : Serves buffer device observer) (engine : Engine)
    (program : Program) (outside : σ) (turns : Nat) :
    ¬ ((engine.machine program device.traced (observer.map Observer.traced)).after
      (engine.start (Traced.start outside)) turns).LetDown := by
  rintro ⟨pc, reason, world, ended⟩
  obtain ⟨count, last, earlier, -, -, advanced⟩ := Machine.ended_of_after ended
  exact (calls_of_ended serves advanced).2.2 pc reason rfl

end

section
variable (bystander : Bystander τ) (world : World (Traced (Buffer × τ)))

private theorem read_attended :
    let called := world.outside.outside.1.read
    let reply := bystander.read (called.1.getD 0) world.stopped world.outside.outside.2
    world.read (attended bystander).traced = (.ok called.1,
      ⟨world.outside.add (.read (.ok called.1)) (called.2, reply.outside),
        world.stopped || reply.raised⟩) := rfl

private theorem write_attended (byte : UInt8) :
    let reply := bystander.write byte world.stopped world.outside.outside.2
    world.write (attended bystander).traced byte = (.ok (),
      ⟨world.outside.add (.wrote byte (.ok ()))
        (world.outside.outside.1.write byte, reply.outside), world.stopped || reply.raised⟩) := rfl

end

/-- Two runs of which the same is seen, one on `few` and one on `few` with `more` behind it. -/
structure Outlasts (few more : List UInt8) (world beside : World (Traced (Buffer × τ))) : Prop where
  reads : world.outside.reads = beside.outside.reads
  left : world.outside.outside.1.input = few.drop world.outside.reads
  behind : beside.outside.outside.1.input = (few ++ more).drop world.outside.reads
  output : world.outside.outside.1.output = beside.outside.outside.1.output
  memory : world.outside.outside.2 = beside.outside.outside.2
  views : world.outside.views = beside.outside.views
  stopped : world.stopped = beside.stopped

/-- So far the run has not gone beyond its own input, or behind that there is nothing but zeros. -/
def Within (few more : List UInt8) (world : World (Traced (Buffer × τ))) : Prop :=
  world.outside.reads ≤ few.length ∨ ∀ byte ∈ more, byte = 0

private theorem getD_append {few more : List UInt8} {index : Nat}
    (within : index < few.length ∨ ∀ byte ∈ more, byte = 0) :
    (few ++ more)[index]?.getD 0 = few[index]?.getD 0 := by
  rcases Nat.lt_or_ge index few.length with inside | beyond
  · rw [List.getElem?_append_left inside]
  · rw [List.getElem?_append_right beyond, List.getElem?_eq_none beyond]
    cases found : more[index - few.length]? with
    | none => rfl
    | some byte =>
      exact within.resolve_left (Nat.not_lt_of_ge beyond) byte (List.mem_of_getElem? found)

section
variable {bystander : Bystander τ} {observer : Option (Observer τ)} {engine : Engine}
  {program : Program} {few more : List UInt8}

private theorem outlasts_start (few more : List UInt8) (memory : τ) :
    Outlasts few more ⟨Traced.start (.ofInput few, memory), false⟩
      ⟨Traced.start (.ofInput (few ++ more), memory), false⟩ :=
  ⟨rfl, rfl, rfl, rfl, rfl, rfl, rfl⟩

private theorem Outlasts.add {world beside : World (Traced (Buffer × τ))}
    (outlasts : Outlasts few more world beside) {event other : Event} {first second : Buffer}
    {memory : τ} {stopped : Bool} (reads : event.isRead = other.isRead)
    (views : event.view? = other.view?)
    (left : first.input = few.drop (world.outside.reads + if event.isRead then 1 else 0))
    (behind : second.input = (few ++ more).drop
      (world.outside.reads + if event.isRead then 1 else 0))
    (output : first.output = second.output) :
    Outlasts few more ⟨world.outside.add event (first, memory), stopped⟩
      ⟨beside.outside.add other (second, memory), stopped⟩ where
  reads := by rw [Traced.reads_add, Traced.reads_add, outlasts.reads, reads]
  left := by rw [Traced.reads_add]; exact left
  behind := by rw [Traced.reads_add]; exact behind
  output := output
  memory := rfl
  views := by rw [Traced.views_add, Traced.views_add, outlasts.views, views]
  stopped := rfl

private theorem observe_outlasts {view : MachineView} {world beside : World (Traced (Buffer × τ))}
    (outlasts : Outlasts few more world beside) :
    let run := engine.machine program (attended bystander).traced
      ((observer.map Observer.beside).map Observer.traced)
    Outlasts few more (run.observe view world) (run.observe view beside) := by
  intro run
  have seen : (run.observe view world = world ∧ run.observe view beside = beside) ∨
      ∃ watch : Observer τ, ∀ world, run.observe view world =
        ⟨world.outside.add (.observed view)
          (world.outside.outside.1, (watch view world.outside.outside.2).outside),
          world.stopped || (watch view world.outside.outside.2).raised⟩ := by
    simp only [run, Machine.observe, Engine.machine, Machine.ofProgram]
    cases engine.config.display with
    | false => exact .inl ⟨rfl, rfl⟩
    | true =>
      cases observer with
      | none => exact .inl ⟨rfl, rfl⟩
      | some watch => exact .inr ⟨watch, fun _ => rfl⟩
  obtain ⟨same, alike⟩ | ⟨watch, shown⟩ := seen
  · rw [same, alike]
    exact outlasts
  · rw [shown, shown, outlasts.memory, outlasts.stopped]
    exact outlasts.add rfl rfl outlasts.left outlasts.behind outlasts.output

private theorem read_outlasts {world beside : World (Traced (Buffer × τ))}
    (outlasts : Outlasts few more world beside)
    (within : world.outside.reads < few.length ∨ ∀ byte ∈ more, byte = 0) :
    (beside.outside.outside.1.read.1).getD 0 = (world.outside.outside.1.read.1).getD 0 ∧
      Outlasts few more (world.read (attended bystander).traced).2
        (beside.read (attended bystander).traced).2 := by
  obtain ⟨given, left, kept⟩ := Buffer.read_drop _ outlasts.left
  obtain ⟨handed, behind, unchanged⟩ := Buffer.read_drop _ outlasts.behind
  have zero : (beside.outside.outside.1.read.1).getD 0 =
      (world.outside.outside.1.read.1).getD 0 := by
    rw [given, handed]
    exact getD_append within
  refine ⟨zero, ?_⟩
  rw [read_attended, read_attended, zero, outlasts.memory, outlasts.stopped]
  exact outlasts.add rfl rfl left behind (kept.trans (outlasts.output.trans unchanged.symm))

private theorem write_outlasts {world beside : World (Traced (Buffer × τ))}
    (outlasts : Outlasts few more world beside) (byte : UInt8) :
    Outlasts few more (world.write (attended bystander).traced byte).2
      (beside.write (attended bystander).traced byte).2 := by
  rw [write_attended, write_attended, outlasts.memory, outlasts.stopped]
  exact outlasts.add rfl rfl outlasts.left outlasts.behind
    (congrArg (Array.push · byte) outlasts.output)

private theorem follows_attended (engine : Engine) (program : Program) (bystander : Bystander τ)
    (observer : Option (Observer τ)) (few more : List UInt8) :
    let run := engine.machine program (attended bystander).traced
      ((observer.map Observer.beside).map Observer.traced)
    Machine.Follows run run (Outlasts few more) (Within few more) where
  program := rfl
  jumps := rfl
  before progress := by
    apply Or.imp_left
    apply Nat.le_trans
    apply engine.reads_le_resume
  stopped _ _ outlasts _ := outlasts.stopped
  observe _ _ _ := observe_outlasts
  read world beside answer later outlasts called within := by
    obtain ⟨same, rfl⟩ := Prod.mk.inj ((read_attended bystander world).symm.trans called)
    cases same
    -- After the read the run is still within, so the byte it got was not beyond that either.
    have inside : world.outside.reads < few.length ∨ ∀ byte ∈ more, byte = 0 := by
      rw [Within, Traced.reads_add] at within
      exact within
    obtain ⟨zero, after⟩ := read_outlasts outlasts inside
    exact ⟨_, _, rfl, zero, after⟩
  write byte world beside later outlasts called _ := by
    obtain ⟨-, rfl⟩ := Prod.mk.inj ((write_attended bystander world byte).symm.trans called)
    exact ⟨_, rfl, write_outlasts outlasts byte⟩

/-- All that can be told of a run that has ended, but for what is left of its input. -/
structure Outcome (τ : Type) where
  result : Except Fault Report
  output : Array UInt8
  memory : τ
  views : List MachineView
  engine : Engine

def Outcome.of (finished : Finished (Traced (Buffer × τ))) : Outcome τ where
  result := finished.result
  output := finished.outside.outside.1.output
  memory := finished.outside.outside.2
  views := finished.outside.views
  engine := finished.engine

def leftBehind (finished : Finished (Traced (Buffer × τ))) : List UInt8 :=
  finished.outside.outside.1.input

/-- As long as a run whose input is `few` stays within that, the run that has `more` behind it is
where the first one is. -/
private theorem together_of_within (engine : Engine) (program : Program) (bystander : Bystander τ)
    (observer : Option (Observer τ)) (memory : τ) {turns : Nat} :
    let run := engine.machine program (attended bystander).traced
      ((observer.map Observer.beside).map Observer.traced)
    let moment (input : List UInt8) :=
      run.after (engine.start (.start (ofInput input, memory))) turns
    Within few more (moment few).world →
      Machine.Together Eq (Outlasts few more) (moment few) (moment (few ++ more)) := by
  intro run moment within
  apply Machine.after_follows (follows_attended ..) _ turns within
  · apply answered_after (serves_attended ..)
  · exact .running ⟨rfl, rfl, rfl, rfl, rfl⟩ (outlasts_start ..)

section
variable {left right : Progress (Traced (Buffer × τ))}

private theorem outcome_of_together (engine : Engine)
    (together : Machine.Together Eq (Outlasts few more) left right) :
    (right.finished? engine).map Outcome.of = (left.finished? engine).map Outcome.of := by
  cases together with
  | running => rfl
  | ended result outlasts =>
    simp only [Progress.finished?, Progress.outcome?, Option.map_some, Outcome.of, outlasts.output,
      outlasts.memory, outlasts.views, outlasts.stopped]

private theorem leftBehind_of_together (engine : Engine)
    (together : Machine.Together Eq (Outlasts few more) left right)
    (within : left.world.outside.reads ≤ few.length) :
    (right.finished? engine).map leftBehind =
      (left.finished? engine).map fun finished => leftBehind finished ++ more := by
  cases together with
  | running => rfl
  | ended result outlasts =>
    simp only [Progress.finished?, Progress.outcome?, Option.map_some, leftBehind, outlasts.left,
      outlasts.behind]
    exact congrArg some (List.drop_append_of_le_length within)

end

/-- The input of a run counts only as it is read. A run that asks for no more bytes than it is
given goes on as it is when bytes are queued behind those, and leaves them all behind. When
the bytes behind are zeros the same is seen of the run, whatever it asks for, since zero is what it
reads at the end of the input. -/
theorem input_counts_only_as_it_is_read (engine : Engine) (program : Program)
    (bystander : Bystander τ) (observer : Option (Observer τ)) (input : List UInt8) (memory : τ) :
    let device := (attended bystander).traced
    let watch := (observer.map Observer.beside).map Observer.traced
    let run := engine.machine program device watch
    let start (input : List UInt8) := Traced.start (ofInput input, memory)
    let moment (input : List UInt8) := run.after (engine.start (start input))
    let asked (input : List UInt8) (turns : Nat) :=
      (readings (run.record (engine.start (start input)) turns)).length
    let returned (input : List UInt8) (fuel : Nat) :=
      engine.runProgram fuel program device watch (start input)
    (∀ more turns, asked input turns ≤ input.length →
      Machine.Together Eq (Outlasts input more) (moment input turns)
        (moment (input ++ more) turns) ∧
      asked (input ++ more) turns = asked input turns ∧
      (returned (input ++ more) turns).map Outcome.of = (returned input turns).map Outcome.of ∧
      (returned (input ++ more) turns).map leftBehind =
        (returned input turns).map fun finished => leftBehind finished ++ more) ∧
    ∀ count turns,
      let zeros := List.replicate count 0
      let consumed := delivered (moment (input ++ zeros) turns).world.outside.calls
      Machine.Together Eq (Outlasts input zeros) (moment input turns)
        (moment (input ++ zeros) turns) ∧
      asked (input ++ zeros) turns = asked input turns ∧
      (returned (input ++ zeros) turns).map Outcome.of = (returned input turns).map Outcome.of ∧
      consumed = (input ++ zeros).take (asked input turns) ∧
      consumed.length = min (asked input turns) (input.length + count) := by
  intro device watch run start moment asked returned
  have serves := serves_attended bystander observer
  have counted (input : List UInt8) (turns : Nat) :
      (moment input turns).world.outside.reads = asked input turns :=
    reads_after serves engine program _ turns
  have asked_of_together {more : List UInt8} {turns : Nat}
      (together : Machine.Together Eq (Outlasts input more) (moment input turns)
        (moment (input ++ more) turns)) : asked (input ++ more) turns = asked input turns := by
    rw [← counted, ← counted, together.worlds.reads]
  have outcome_of {more : List UInt8} {turns : Nat}
      (together : Machine.Together Eq (Outlasts input more) (moment input turns)
        (moment (input ++ more) turns)) :
      (returned (input ++ more) turns).map Outcome.of = (returned input turns).map Outcome.of := by
    simp only [returned, Engine.runProgram_eq]
    exact outcome_of_together engine together
  refine ⟨?_, ?_⟩
  · intro more turns within
    have inside : (moment input turns).world.outside.reads ≤ input.length := by
      rw [counted]
      exact within
    have together : Machine.Together Eq (Outlasts input more) (moment input turns)
        (moment (input ++ more) turns) := together_of_within _ _ _ _ _ (.inl inside)
    refine ⟨together, asked_of_together together, outcome_of together, ?_⟩
    simp only [returned, Engine.runProgram_eq]
    exact leftBehind_of_together engine together inside
  · intro count turns zeros consumed
    have within : Within input zeros (moment input turns).world :=
      .inr fun byte => List.eq_of_mem_replicate
    have together : Machine.Together Eq (Outlasts input zeros) (moment input turns)
        (moment (input ++ zeros) turns) := together_of_within _ _ _ _ _ within
    have same := asked_of_together together
    have taken : consumed = (input ++ zeros).take (asked input turns) := by
      rw [← same]
      exact (accounts_after serves engine program _ turns).consumed
    refine ⟨together, same, outcome_of together, taken, ?_⟩
    rw [taken, List.length_take, List.length_append, List.length_replicate]

end

theorem input_counts_only_as_it_is_read_echo :
    let engine : Engine := ⟨.ofMemory 1, ⟨by decide, by decide, by decide⟩, none, false⟩
    let program : Program := ⟨Token.ofSource ",."⟩
    let bystander : Bystander Unit := ⟨fun _ _ => .quiet (), fun _ _ => .quiet ()⟩
    (engine.runProgram 3 program (attended bystander).traced none
      (.start (.ofInput [5, 7], ()))).map leftBehind = some [7] := by
  intro engine program bystander
  obtain ⟨behind, -⟩ := input_counts_only_as_it_is_read engine program bystander
    (none : Option (Observer Unit)) [5] ()
  obtain ⟨-, -, -, left⟩ := behind [7] 3 (by decide)
  exact left

end Buffer
end ByteTape
