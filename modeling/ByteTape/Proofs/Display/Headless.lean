import ByteTape.Device.Buffer
import ByteTape.Display.Sitting
import ByteTape.Proofs.Display.Screens
import ByteTape.Proofs.Machine.Bounds
import ByteTape.Proofs.Machine.Cancellation
import ByteTape.Proofs.Machine.Following

/-! Runs in front of somebody and runs that nobody sees. What is typed reaches the program only by
the bytes it reads, and so a run without a display that reads the same bytes does the same. -/

namespace ByteTape

variable {width height : Nat}

def Engine.headless (engine : Engine) : Engine :=
  { engine with
    config := { engine.config with display := false }
    valid := ⟨engine.valid.memory, engine.valid.delay, engine.valid.width⟩ }

/-- What the scene tells of the machine: its tape, its steps, and which instruction is next. -/
structure Scene.Tells (scene : Scene) (tape : Tape) (steps : Nat)
    (next : Option (Nat × Instruction)) : Prop where
  cells : scene.cells = tape.cells
  pointer : scene.pointer = tape.pointer
  step : scene.step = steps
  pc : scene.pc = next.map Prod.fst
  instruction : scene.instruction = next.map Prod.snd

namespace Sitting

/-- The buffer holds the answers that are still to come, with zero for the end of the input, and
has taken the bytes that the screen shows. -/
structure Mirrors (answers : List (Option UInt8)) (columns : Option Nat)
    (world : World (Sitting width height)) (beside : World Buffer) : Prop where
  stopped : beside.stopped = false
  input : beside.outside.input = (answers.drop world.outside.answers.size).map (·.getD 0)
  output : beside.outside.output = world.outside.written
  lines : world.outside.screen.scene.output =
    world.outside.written.foldl OutputLines.push (.start columns)

/-- No stop has been requested, and these are the answers given so far, or the first of them. -/
structure Fine (answers : List (Option UInt8)) (world : World (Sitting width height)) : Prop where
  going : world.stopped = false
  given : world.outside.answers.toList <+: answers

variable {engine : Engine} {program : Program} {typist : Typist}

private theorem observed (display : engine.config.display = true) (view : MachineView)
    (world : World (Sitting width height)) :
    ∃ screen stopped,
      (engine.machine program (device typist) (some (observer typist))).observe view world =
        ⟨{ world.outside with screen }, stopped⟩ ∧
      Screen.Repainted
        { world.outside.screen with scene := world.outside.screen.scene.record view } screen := by
  have typed := world.outside.screen.type_repainted (typist.beforeStep view.step)
  have shown := (world.outside.screen.type (typist.beforeStep view.step)).showStep_repainted view
  rw [Machine.observe, Engine.machine, Machine.ofProgram, display]
  exact ⟨_, _, rfl, ⟨shown.scene, shown.refused, shown.attached.trans typed.attached⟩⟩

theorem read_sitting (world : World (Sitting width height)) :
    let called := world.read (device typist)
    called.2.outside.answers.toList = world.outside.answers.toList ++ called.1.toOption.toList ∧
      called.2.outside.written = world.outside.written ∧
      Screen.Repainted world.outside.screen called.2.outside.screen := by
  obtain ⟨sitting, stopped⟩ := world
  have repainted := (sitting.screen.type_repainted (typist.beforeRead sitting.reads)).trans
    (Screen.readByte_repainted _ stopped)
  dsimp only [World.read, World.call, device]
  generalize (sitting.screen.type (typist.beforeRead sitting.reads)).readByte stopped = reply
    at repainted ⊢
  obtain ⟨_ | answer, screen, raised⟩ := reply
  · exact ⟨by simp [Except.toOption], rfl, repainted⟩
  · exact ⟨by simp [Except.toOption], rfl, repainted⟩

theorem write_sitting (byte : UInt8) (world : World (Sitting width height)) :
    world.write (device typist) byte = (.ok (),
      ⟨{ world.outside with
          screen := world.outside.screen.writeByte byte
          written := world.outside.written.push byte }, world.stopped⟩) := by
  obtain ⟨sitting, stopped⟩ := world
  simp [World.write, World.call, device, Reply.quiet]

private theorem fine_before (display : engine.config.display = true) {answers : List (Option UInt8)}
    {progress : Progress (Sitting width height)}
    (fine : Fine answers ((engine.machine program (device typist)
      (some (observer typist))).resume progress).world) : Fine answers progress.world := by
  constructor
  · cases stopped : progress.world.stopped with
    | false => rfl
    | true =>
      have going := fine.going
      rw [Machine.stopped_resume _ stopped] at going
      cases going
  · refine .trans ?_ fine.given
    refine Machine.outside_resume
      (fun sitting => progress.world.outside.answers.toList <+: sitting.answers.toList)
      ?_ ?_ ?_ progress (List.prefix_refl _)
    · intro view world given
      obtain ⟨screen, stopped, same, -⟩ := observed display view world
      rw [same]
      exact given
    · intro world given
      rw [Engine.device_machine, (read_sitting world).1]
      exact given.trans (List.prefix_append ..)
    · intro byte world given
      rw [Engine.device_machine, write_sitting]
      exact given

theorem follows_headless (display : engine.config.display = true)
    (answers : List (Option UInt8)) :
    Machine.Follows
      (engine.machine program (device typist) (some (@observer width height typist)))
      (engine.headless.machine program Buffer.device none)
      (Mirrors answers engine.config.outputWidth) (Fine answers) where
  program := rfl
  jumps := rfl
  before progress := fine_before display
  stopped world beside mirrors fine := fine.going.trans mirrors.stopped.symm
  observe view world beside mirrors := by
    obtain ⟨screen, stopped, same, repainted⟩ := observed display view world
    rw [same]
    exact ⟨mirrors.stopped, mirrors.input, mirrors.output, repainted.output.trans mirrors.lines⟩
  read world beside answer later mirrors called fine := by
    obtain ⟨more, written, repainted⟩ := @read_sitting _ _ typist world
    rw [Engine.device_machine] at called
    rw [called] at more written repainted
    have given := fine.given
    rw [more] at given
    obtain ⟨rest, whole⟩ := given
    have next : answers.drop world.outside.answers.size = answer :: rest := by
      rw [← whole, List.append_assoc, ← Array.length_toList, List.drop_left]
      rfl
    have size : later.outside.answers.size = world.outside.answers.size + 1 := by
      rw [← Array.length_toList, more, List.length_append, Array.length_toList]
      rfl
    have queued : beside.outside.input = answer.getD 0 :: rest.map (·.getD 0) := by
      rw [mirrors.input, next, List.map_cons]
    refine ⟨some (answer.getD 0), ⟨⟨rest.map (·.getD 0), beside.outside.output⟩, beside.stopped⟩,
      ?_, rfl, ?_⟩
    · simp [World.read, World.call, Buffer.device, Buffer.read, queued, Reply.quiet]
    · refine ⟨mirrors.stopped, ?_, mirrors.output.trans written.symm, ?_⟩
      · rw [size, ← List.drop_drop, next]
        rfl
      · rw [repainted.output, written, mirrors.lines]
  write byte world beside later mirrors called fine := by
    rw [Engine.device_machine, write_sitting] at called
    cases called
    refine ⟨_, rfl, ?_, mirrors.input, ?_, ?_⟩
    · exact (Bool.or_false _).trans mirrors.stopped
    · exact congrArg (·.push byte) mirrors.output
    · simp [Screen.writeByte, mirrors.lines]

/-- Whatever can fail later in the run could have failed from the beginning. -/
private theorem trouble_after (display : engine.config.display = true)
    (screen : Screen width height)
    (turns : Nat) {reason : String}
    (trouble : ((engine.machine program (device typist) (some (observer typist))).after
      (engine.start (Sitting.start screen)) turns).world.outside.screen.Trouble reason) :
    screen.Trouble reason := by
  let holds (sitting : Sitting width height) :=
    sitting.screen.Trouble reason → screen.Trouble reason
  refine Machine.after_invariant (fun progress => holds progress.world.outside)
    (Machine.outside_resume holds ?_ ?_ ?_) id turns trouble
  · intro view world before trouble
    obtain ⟨later, stopped, same, repainted⟩ := observed display view world
    rw [same] at trouble
    exact before (repainted.trouble trouble)
  · intro world before trouble
    exact before ((read_sitting world).2.2.trouble trouble)
  · intro byte world before trouble
    rw [Engine.device_machine, write_sitting] at trouble
    exact before trouble

private theorem trouble_of_fault (display : engine.config.display = true)
    {screen : Screen width height}
    {finished : Finished (Sitting width height)}
    (returns : engine.Returns program (device typist) (some (observer typist)) (.start screen)
      finished) {pc : Nat} {reason : String}
    (result : finished.result = .error (.device pc reason)) : screen.Trouble reason := by
  obtain ⟨state, world, instruction, calls, ⟨turns, ran⟩, -, here, -, breaks, answers⟩ :=
    Engine.reaches_of_fault returns result
  obtain ⟨shown, stopped, same, repainted⟩ := observed display (state.view instruction) world
  rw [same] at answers
  have trouble : shown.Trouble reason := by
    cases breaks with
    | output =>
      cases answers with
      | write asked => cases (write_sitting ..).symm.trans asked
    | input =>
      cases answers with
      | read asked =>
        exact (shown.type_repainted _).trouble
          (Screen.trouble_of_readByte _ (congrArg Prod.fst asked))
  have now : ((engine.machine program (device typist) (some (observer typist))).after
      (engine.start (Sitting.start screen)) turns).world.outside.screen.Trouble reason := by
    rw [ran]
    exact repainted.trouble trouble
  exact trouble_after display screen turns now

/-- A fault is shown with the machine as it was before the instruction that broke off. -/
private theorem tells_of_fault (display : engine.config.display = true)
    {screen : Screen width height}
    {finished : Finished (Sitting width height)}
    (returns : engine.Returns program (device typist) (some (observer typist)) (.start screen)
      finished) {fault : Fault} (result : finished.result = .error fault)
    (answered : ∀ pc reason, fault ≠ .device pc reason) :
    ∃ state world instruction,
      engine.Reaches program (device typist) (some (observer typist)) (.start screen) state world ∧
      program.get? state.pc = some instruction ∧ Breaks program state [] fault ∧
      fault.pc? = some state.pc ∧
      finished.outside.screen.scene.Tells state.tape state.steps
        (some (state.pc, instruction)) := by
  obtain ⟨state, world, _, _, reaches, advanced, -⟩ := Engine.reaches_of_fault returns result
  have still : ¬ (Progress.ended (.error fault)
      (World.mk finished.outside finished.engine.stopRequested)).LetDown := by
    rintro ⟨pc, reason, later, same⟩
    cases same
    exact answered pc reason rfl
  obtain ⟨_, same, -⟩ | ⟨_, instruction, same, here, breaks, shown⟩ :=
    Machine.ended_of_advance (Engine.jumps_machine ..) advanced still
  · cases same
  · cases same
    refine ⟨state, world, instruction, reaches, here, breaks, breaks.pc?, ?_⟩
    obtain ⟨screen, stopped, observed, repainted⟩ :=
      observed display (state.view instruction) world
    obtain ⟨activity, message, told⟩ := repainted.scene
    have outside : finished.outside = { world.outside with screen } :=
      congrArg World.outside (shown.trans observed)
    rw [outside, told]
    exact ⟨rfl, rfl, rfl, rfl, rfl⟩

/-- What is typed has no influence on what the program computes but for the bytes it reads. Until a
stop is requested, and as long as the display works, the run is at each turn where a run without a
display is that reads the same bytes; it returns the same, and the screen shows the output of both.
In the end the screen tells of the machine as the report does, or as it was before the fault. -/
theorem display_leaves_the_run_alone (engine : Engine) (display : engine.config.display = true)
    (program : Program) (typist : Typist) (screen : Screen width height)
    (fresh : screen.scene =
      .start program engine.config.memorySize engine.config.outputWidth) :
    let run := engine.machine program (device typist) (some (observer typist))
    let start := engine.start (Sitting.start screen)
    let model := engine.headless.machine program Buffer.device none
    let input (answers : List (Option UInt8)) := Buffer.ofInput (answers.map (·.getD 0))
    let lines (output : Array UInt8) :=
      output.foldl OutputLines.push (.start engine.config.outputWidth)
    (∀ turns answers, Fine answers (run.after start turns).world →
      ¬ (run.after start turns).LetDown →
      Machine.Together Eq (Mirrors answers engine.config.outputWidth) (run.after start turns)
        (model.after (engine.headless.start (input answers)) turns)) ∧
    ∀ finished, engine.Returns program (device typist) (some (observer typist)) (.start screen)
        finished → finished.engine.stopRequested = false →
      (∃ pc reason, finished.result = .error (.device pc reason) ∧ screen.Trouble reason) ∨
      ∃ buffer,
        engine.headless.Returns program Buffer.device none
          (input finished.outside.answers.toList)
          ⟨finished.result, buffer, { engine.headless with stopRequested := false }⟩ ∧
        buffer.input = [] ∧ buffer.output = finished.outside.written ∧
        finished.outside.screen.scene.output = lines buffer.output ∧
        (∀ report, finished.result = .ok report →
          (finished.outside.screen.conclude report.tape.cells report.tape.pointer
            report.steps).scene.Tells report.tape report.steps none) ∧
        ∀ fault, finished.result = .error fault → ∃ state world instruction,
          engine.Reaches program (device typist) (some (observer typist)) (.start screen) state
            world ∧
          program.get? state.pc = some instruction ∧ Breaks program state [] fault ∧
          fault.pc? = some state.pc ∧
          finished.outside.screen.scene.Tells state.tape state.steps
            (some (state.pc, instruction)) := by
  intro run start model input lines
  have together (turns : Nat) (answers : List (Option UInt8))
      (fine : Fine answers (run.after start turns).world)
      (answered : ¬ (run.after start turns).LetDown) :
      Machine.Together Eq (Mirrors answers engine.config.outputWidth) (run.after start turns)
        (model.after (engine.headless.start (input answers)) turns) := by
    refine Machine.after_follows (follows_headless display answers) (.running ?_ ?_) turns fine
      answered
    · exact ⟨rfl, rfl, rfl, rfl, rfl⟩
    · exact ⟨rfl, rfl, rfl, congrArg Scene.output fresh⟩
  refine ⟨together, ?_⟩
  intro finished returns going
  by_cases letDown : ∃ pc reason, finished.result = .error (.device pc reason)
  · obtain ⟨pc, reason, result⟩ := letDown
    exact .inl ⟨pc, reason, result, trouble_of_fault display returns result⟩
  · refine .inr ?_
    obtain ⟨turns, result, world, ended, rfl⟩ := (Engine.returns_iff ..).mp returns
    have answered : ¬ (run.after start turns).LetDown := by
      rintro ⟨pc, reason, later, failed⟩
      cases ended.symm.trans failed
      exact letDown ⟨pc, reason, rfl⟩
    have whole := together turns world.outside.answers.toList
    rw [show run.after start turns = _ from ended] at whole answered
    obtain ⟨⟨buffer, stopped⟩, there, mirrors⟩ :=
      (whole ⟨going, List.prefix_refl _⟩ answered).of_ended
    cases mirrors.stopped
    refine ⟨buffer, (Engine.returns_iff_ended ..).mpr ⟨turns, there⟩, ?_, mirrors.output, ?_, ?_,
      ?_⟩
    · rw [mirrors.input, ← Array.length_toList, List.drop_length]
      rfl
    · rw [mirrors.lines, ← mirrors.output]
    · intro report _
      exact ⟨rfl, rfl, rfl, rfl, rfl⟩
    · intro fault failed
      refine tells_of_fault display returns failed ?_
      rintro pc reason rfl
      exact letDown ⟨pc, reason, failed⟩

theorem display_leaves_the_run_alone_typed_letter :
    let engine : Engine :=
      ⟨⟨1, true, 0, .scan, some 80⟩, ⟨by decide, by decide, by decide⟩, none, false⟩
    let program : Program := ⟨Token.ofSource ",.<"⟩
    let typist : Typist := ⟨fun _ => [], fun _ => [.key ⟨.char 'a', false, .press⟩]⟩
    let screen : Screen 0 0 := ⟨.start program 1 (some 80), .blank 0 0 [] 0, ⟨true, []⟩⟩
    ∃ finished buffer, engine.Returns program (device typist) (some (observer typist))
        (.start screen) finished ∧
      engine.headless.Returns program Buffer.device none (.ofInput [97])
        ⟨finished.result, buffer, { engine.headless with stopRequested := false }⟩ ∧
      finished.result = .error (.pointerUnderflow 2 (some ⟨1, 3⟩)) ∧
      finished.outside.screen.scene.pc = some 2 := by
  intro engine program typist screen
  have returns : engine.Returns program (device typist) (some (observer typist)) (.start screen) _ :=
    ⟨3, rfl⟩
  obtain ⟨pc, reason, result, -⟩ | ⟨buffer, bare, -, -, -, -, faults⟩ :=
    (display_leaves_the_run_alone engine rfl program typist screen rfl).2 _ returns rfl
  · cases result
  · obtain ⟨state, world, instruction, -, -, -, place, tells⟩ := faults _ rfl
    exact ⟨_, buffer, returns, bare, rfl, tells.pc.trans place.symm⟩

end Sitting
end ByteTape
