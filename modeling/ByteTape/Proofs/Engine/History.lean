import ByteTape.Device.Buffer
import ByteTape.Proofs.Machine.JumpStrategies
import ByteTape.Proofs.Machine.Requests
import ByteTape.Proofs.Program.Acceptance

/-! All that can be done with one engine, one call after another. The calls of the past decide
which program is loaded and whether a request to stop stands; no run depends on them otherwise. -/

namespace ByteTape

namespace Engine

private theorem engine_load (engine : Engine) (source : String) (rule : BracketRule) :
    (engine.load source rule).2 =
      { engine with program := (Program.parse source rule).toOption } := by
  rw [load]
  cases Program.parse source rule with
  | error error => rfl
  | ok program => rfl

theorem loadFile_ok (engine : Engine) (path source : String) (rule : BracketRule) :
    engine.loadFile path (.ok source) rule =
      ((engine.load source rule).1.mapError .parse, (engine.load source rule).2) := by
  rw [loadFile]
  cases engine.load source rule with
  | mk result ready => cases result <;> rfl

end Engine

/-- What an engine can be asked for. A file is loaded with what reading it comes to. -/
inductive Operation : Type 1 where
  | load (source : String) (rule : BracketRule)
  | loadFile (path : String) (content : Except String String) (rule : BracketRule)
  | run {σ : Type} (device : Device σ) (observer : Option (Observer σ)) (outside : σ)
  | runProgram {σ : Type} (program : Program) (device : Device σ)
      (observer : Option (Observer σ)) (outside : σ)
  | stop

/-- An operation, with the engine as it was then. -/
structure Call where
  engine : Engine
  operation : Operation

namespace Call

def IsLoad : Call → Prop
  | ⟨_, .load ..⟩ | ⟨_, .loadFile ..⟩ => True
  | _ => False

def Succeeds : Call → Prop
  | ⟨engine, .load source rule⟩ => (engine.load source rule).1 = .ok ()
  | ⟨engine, .loadFile path content rule⟩ => (engine.loadFile path content rule).1 = .ok ()
  | _ => False

def Loads (program : Program) : Call → Prop
  | ⟨_, .load source rule⟩ | ⟨_, .loadFile _ (.ok source) rule⟩ =>
    Program.parse source rule = .ok program
  | _ => False

def Starts : Call → Prop
  | ⟨engine, .run ..⟩ => engine.program ≠ none
  | ⟨_, .runProgram ..⟩ => True
  | _ => False

def Requests : Call → Prop
  | ⟨engine, .run device observer outside⟩ =>
    ∃ program, engine.program = some program ∧
      engine.AskedDuring program device observer outside
  | ⟨engine, .runProgram program device observer outside⟩ =>
    engine.AskedDuring program device observer outside
  | ⟨_, .stop⟩ => True
  | _ => False

/-- One of the calls has done it, and none after that one has undone it. -/
def Since (done undone : Call → Prop) (past : List Call) : Prop :=
  ∃ before call behind, past = before ++ call :: behind ∧ done call ∧
    ∀ later ∈ behind, ¬ undone later

private theorem not_since_nil (done undone : Call → Prop) : ¬ Since done undone [] := by
  simp [Since]

private theorem since_concat {done undone : Call → Prop} {past : List Call} {call : Call} :
    Since done undone (past ++ [call]) ↔
      done call ∨ ¬ undone call ∧ Since done undone past := by
  constructor
  · rintro ⟨before, other, behind, same, does, kept⟩
    rcases List.eq_nil_or_concat behind with rfl | ⟨rest, last, rfl⟩
    · obtain ⟨-, last⟩ := List.append_inj' same rfl
      cases last
      exact .inl does
    · rw [List.concat_eq_append] at same kept
      rw [← List.cons_append, ← List.append_assoc] at same
      obtain ⟨rfl, last⟩ := List.append_inj' same rfl
      cases last
      refine .inr ⟨kept call (by simp), before, other, rest, rfl, does, ?_⟩
      intro later member
      exact kept later (List.mem_append_left _ member)
  · rintro (does | ⟨keeps, before, other, behind, rfl, does, kept⟩)
    · exact ⟨past, call, [], rfl, does, by simp⟩
    · refine ⟨before, other, behind ++ [call], by simp, does, ?_⟩
      intro later member
      rcases List.mem_append.mp member with member | member
      · exact kept later member
      · cases List.mem_singleton.mp member
        exact keeps

theorem succeeds_load_iff {engine : Engine} {source : String} {rule : BracketRule} :
    Succeeds ⟨engine, .load source rule⟩ ↔
      ∃ program, Program.parse source rule = .ok program := by
  rw [Succeeds, Engine.load]
  cases Program.parse source rule <;> simp [Engine.install]

theorem succeeds_iff (call : Call) : call.Succeeds ↔ ∃ program, call.Loads program := by
  obtain ⟨engine, operation⟩ := call
  cases operation with
  | load source rule => exact succeeds_load_iff
  | loadFile path content rule =>
    cases content with
    | error reason => simp [Succeeds, Loads, Engine.loadFile]
    | ok source =>
      have same : Succeeds ⟨engine, .loadFile path (.ok source) rule⟩ ↔
          Succeeds ⟨engine, .load source rule⟩ := by
        simp only [Succeeds, Engine.loadFile_ok]
        cases (engine.load source rule).1 <;> simp [Except.mapError]
      exact same.trans succeeds_load_iff
  | run | runProgram | stop => simp [Succeeds, Loads]

theorem since_succeeds_iff (past : List Call) :
    Since Succeeds IsLoad past ↔ ∃ program, Since (Loads program) IsLoad past := by
  simp only [Since, succeeds_iff]
  constructor
  · rintro ⟨before, call, behind, same, ⟨program, loads⟩, kept⟩
    exact ⟨program, before, call, behind, same, loads, kept⟩
  · rintro ⟨program, before, call, behind, same, loads, kept⟩
    exact ⟨before, call, behind, same, ⟨program, loads⟩, kept⟩

end Call

namespace Engine

/-- The engine does this and is like that afterwards. A run that never ends leads nowhere. -/
inductive Does (engine : Engine) : Operation → Engine → Prop where
  | load (source : String) (rule : BracketRule) :
      Does engine (.load source rule) (engine.load source rule).2
  | loadFile (path : String) (content : Except String String) (rule : BracketRule) :
      Does engine (.loadFile path content rule) (engine.loadFile path content rule).2
  | run {σ : Type} {device : Device σ} {observer : Option (Observer σ)} {outside : σ}
      {finished : Finished σ} (ends : engine.RunsTo device observer outside finished) :
      Does engine (.run device observer outside) finished.engine
  | runProgram {σ : Type} {program : Program} {device : Device σ}
      {observer : Option (Observer σ)} {outside : σ} {finished : Finished σ}
      (ends : engine.Returns program device observer outside finished) :
      Does engine (.runProgram program device observer outside) finished.engine
  | stop : Does engine .stop engine.stop

inductive History (engine : Engine) : List Call → Engine → Prop where
  | fresh : History engine [] engine
  | more {past : List Call} {now later : Engine} {operation : Operation}
      (before : History engine past now) (does : now.Does operation later) :
      History engine (past ++ [⟨now, operation⟩]) later

variable {engine later : Engine} {operation : Operation}

private theorem engine_of_returns {σ : Type} {program : Program} {device : Device σ}
    {observer : Option (Observer σ)} {outside : σ} {finished : Finished σ}
    (returns : engine.Returns program device observer outside finished) :
    finished.engine = { engine with stopRequested := finished.engine.stopRequested } := by
  obtain ⟨_, _, _, _, rfl⟩ := (returns_iff ..).mp returns
  rfl

/-- A run without a program does nothing at all; any other is the run of that program. -/
private theorem runsTo_cases {σ : Type} {device : Device σ} {observer : Option (Observer σ)}
    {outside : σ} {finished : Finished σ}
    (ends : engine.RunsTo device observer outside finished) :
    (engine.program = none ∧ finished = ⟨.error .programNotLoaded, outside, engine⟩) ∨
    ∃ program, engine.program = some program ∧
      engine.Returns program device observer outside finished := by
  cases loaded : engine.program with
  | none =>
    obtain ⟨fuel, ran⟩ := ends
    rw [run, loaded] at ran
    cases ran
    exact .inl ⟨rfl, rfl⟩
  | some program => exact .inr ⟨program, rfl, (runsTo_iff_returns loaded ..).mp ends⟩

private theorem config_of_does (does : engine.Does operation later) :
    later.config = engine.config := by
  cases does with
  | load => rw [engine_load]
  | loadFile path content =>
    cases content with
    | error reason => rfl
    | ok source => rw [loadFile_ok, engine_load]
  | run ends =>
    rcases runsTo_cases ends with ⟨-, rfl⟩ | ⟨program, -, returns⟩
    · rfl
    · rw [engine_of_returns returns]
  | runProgram returns => rw [engine_of_returns returns]
  | stop => rfl

private theorem program_load_iff {source : String} {rule : BracketRule} {program : Program} :
    (engine.load source rule).2.program = some program ↔
      Program.parse source rule = .ok program := by
  rw [engine_load]
  cases Program.parse source rule <;> simp [Except.toOption]

private theorem program_of_does (does : engine.Does operation later) (program : Program) :
    later.program = some program ↔
      Call.Loads program ⟨engine, operation⟩ ∨
        ¬ Call.IsLoad ⟨engine, operation⟩ ∧ engine.program = some program := by
  cases does with
  | load => simp [Call.Loads, Call.IsLoad, program_load_iff]
  | loadFile path content =>
    cases content with
    | error reason => simp [Call.Loads, Call.IsLoad, loadFile]
    | ok source => simp [Call.Loads, Call.IsLoad, loadFile_ok, program_load_iff]
  | run ends =>
    rcases runsTo_cases ends with ⟨-, rfl⟩ | ⟨program, -, returns⟩
    · simp [Call.Loads, Call.IsLoad]
    · rw [engine_of_returns returns]
      simp [Call.Loads, Call.IsLoad]
  | runProgram returns =>
    rw [engine_of_returns returns]
    simp [Call.Loads, Call.IsLoad]
  | stop => simp [Call.Loads, Call.IsLoad, stop]

/-- A run that starts takes back the requests from before it. -/
private theorem stopRequested_of_does (does : engine.Does operation later) :
    later.stopRequested = true ↔
      Call.Requests ⟨engine, operation⟩ ∨
        ¬ Call.Starts ⟨engine, operation⟩ ∧ engine.stopRequested = true := by
  cases does with
  | load => simp [engine_load, Call.Requests, Call.Starts]
  | loadFile path content =>
    cases content with
    | error reason => simp [loadFile, Call.Requests, Call.Starts]
    | ok source => simp [loadFile_ok, engine_load, Call.Requests, Call.Starts]
  | run ends =>
    rcases runsTo_cases ends with ⟨missing, rfl⟩ | ⟨program, loaded, returns⟩
    · simp [Call.Requests, Call.Starts, missing]
    · simp [stopRequested_of_returns returns, Call.Requests, Call.Starts, loaded]
  | runProgram returns => simp [stopRequested_of_returns returns, Call.Requests, Call.Starts]
  | stop => simp [Call.Requests, stop]

section
variable {now : Engine} {past : List Call}

theorem History.config (history : engine.History past now) : now.config = engine.config := by
  induction history with
  | fresh => rfl
  | more before does ih => exact (config_of_does does).trans ih

theorem History.program (history : engine.History past now) (empty : engine.program = none)
    (program : Program) :
    now.program = some program ↔ Call.Since (Call.Loads program) Call.IsLoad past := by
  induction history with
  | fresh => simp [empty, Call.not_since_nil]
  | more before does ih => rw [program_of_does does, Call.since_concat, ih]

theorem History.stopRequested (history : engine.History past now)
    (quiet : engine.stopRequested = false) :
    now.stopRequested = true ↔ Call.Since Call.Requests Call.Starts past := by
  induction history with
  | fresh => simp [quiet, Call.not_since_nil]
  | more before does ih => rw [stopRequested_of_does does, Call.since_concat, ih]

theorem ofConfig_of_problem {config : Config} {error : ConfigError}
    (wrong : config.problem? = some error) : ofConfig config = .error error := by
  rw [ofConfig]
  split
  next found =>
    cases wrong.symm.trans found
    rfl
  next found => cases wrong.symm.trans found

theorem exists_ofConfig {config : Config} (right : config.problem? = none) :
    ∃ engine, ofConfig config = .ok engine := by
  rw [ofConfig]
  split
  next found => cases right.symm.trans found
  next => exact ⟨_, rfl⟩

theorem new_of_ofConfig {config : Config} (made : ofConfig config = .ok engine) :
    engine.config = config ∧ engine.program = none ∧ engine.stopRequested = false := by
  rw [ofConfig] at made
  split at made
  · cases made
  · cases made
    exact ⟨rfl, rfl, rfl⟩

end

section
variable {other : Engine} {σ : Type}

/-- Engines with the same settings run a program alike, turn by turn. -/
private theorem after_of_config (same : engine.config = other.config) (program : Program)
    (device : Device σ) (observer : Option (Observer σ)) (outside : σ) (turns : Nat) :
    (engine.machine program device observer).after (engine.start outside) turns =
      (other.machine program device observer).after (other.start outside) turns := by
  obtain ⟨config, valid, loaded, stopRequested⟩ := engine
  cases same
  rfl

private theorem seen_of_config (same : engine.config = other.config) (fuel : Nat)
    (program : Program)
    (device : Device σ) (observer : Option (Observer σ)) (outside : σ) :
    (engine.runProgram fuel program device observer outside).map Finished.seen =
      (other.runProgram fuel program device observer outside).map Finished.seen := by
  simp only [runProgram_eq, Option.map_map]
  rw [after_of_config same]
  rfl

private theorem started_of_returns {program : Program} {device : Device σ}
    {observer : Option (Observer σ)} {outside : σ} {finished : Finished σ}
    (returns : engine.Returns program device observer outside finished) :
    finished.result ≠ .error .programNotLoaded := by
  intro result
  obtain ⟨_, _, _, _, -, -, -, -, breaks, -⟩ := reaches_of_fault returns result
  cases breaks

private theorem missing_iff_of_runsTo {device : Device σ} {observer : Option (Observer σ)}
    {outside : σ} {finished : Finished σ}
    (ends : engine.RunsTo device observer outside finished) :
    finished.result = .error .programNotLoaded ↔ engine.program = none := by
  rcases runsTo_cases ends with ⟨missing, rfl⟩ | ⟨program, loaded, returns⟩
  · simp [missing]
  · simp [started_of_returns returns, loaded]

end

/-- Whatever has been done with an engine, it keeps its settings. The program is the one that the
latest load has parsed, if that load succeeded; a request to stop stands if it was made since the
latest run that started. A run of a program takes every turn as it does on a new engine. -/
theorem history_shows_in_state_but_not_in_runs {config : Config} {engine now : Engine}
    {past : List Call} (made : ofConfig config = .ok engine) (history : engine.History past now) :
    now.config = config ∧
    (now.program.isSome = true ↔ Call.Since Call.Succeeds Call.IsLoad past) ∧
    (∀ program,
      now.program = some program ↔ Call.Since (Call.Loads program) Call.IsLoad past) ∧
    (now.stopRequested = true ↔ Call.Since Call.Requests Call.Starts past) ∧
    ∀ (σ : Type) (device : Device σ) (observer : Option (Observer σ)) (outside : σ),
      (∀ finished, now.RunsTo device observer outside finished →
        (finished.result = .error .programNotLoaded ↔ now.program = none)) ∧
      (now.program = none → ∀ fuel, now.run fuel device observer outside =
        some ⟨.error .programNotLoaded, outside, now⟩) ∧
      (∀ program, now.program = some program → ∀ fuel,
        (now.run fuel device observer outside).map Finished.seen =
          (engine.runProgram fuel program device observer outside).map Finished.seen) ∧
      ∀ program,
        (∀ finished, now.Returns program device observer outside finished →
          finished.result ≠ .error .programNotLoaded) ∧
        (∀ turns, (now.machine program device observer).after (now.start outside) turns =
          (engine.machine program device observer).after (engine.start outside) turns) ∧
        ∀ fuel, (now.runProgram fuel program device observer outside).map Finished.seen =
          (engine.runProgram fuel program device observer outside).map Finished.seen := by
  obtain ⟨rfl, empty, quiet⟩ := new_of_ofConfig made
  have loaded := history.program empty
  refine ⟨history.config, ?_, loaded, history.stopRequested quiet, ?_⟩
  · simp only [Option.isSome_iff_exists, loaded, Call.since_succeeds_iff]
  · intro σ device observer outside
    refine ⟨fun _ => missing_iff_of_runsTo, ?_, ?_, ?_⟩
    · intro missing fuel
      rw [run, missing]
    · intro program found fuel
      rw [run, found]
      exact seen_of_config history.config fuel program device observer outside
    · intro program
      refine ⟨fun _ => started_of_returns, ?_, ?_⟩
      · intro turns
        exact after_of_config history.config program device observer outside turns
      · intro fuel
        exact seen_of_config history.config fuel program device observer outside

theorem history_shows_in_state_but_not_in_runs_refused_source :
    let plus : Program := ⟨Token.ofSource "+"⟩
    ∃ engine now past, ofConfig (.ofMemory 1) = .ok engine ∧ engine.History past now ∧
      past.length = 4 ∧ now.program = none ∧ now.stopRequested = true ∧
      (now.runProgram 2 plus Buffer.device none (.ofInput [])).map Finished.seen =
        (engine.runProgram 2 plus Buffer.device none (.ofInput [])).map Finished.seen := by
  intro plus
  let engine : Engine := ⟨.ofMemory 1, ⟨by decide, by decide, by decide⟩, none, false⟩
  let loaded : Engine := { engine with program := some plus }
  have parsed : (engine.load "+" .counted).2 = loaded := by
    rw [engine_load, Program.parse_counted rfl]
    rfl
  have ran : loaded.RunsTo Buffer.device none (.ofInput []) ⟨_, _, loaded⟩ := ⟨2, rfl⟩
  have refused : ¬ Call.Succeeds ⟨loaded.stop, .load "[" .nested⟩ := by
    rw [Call.succeeds_load_iff, Program.parse_of_uneven (by decide)]
    simp
  have made : ofConfig (.ofMemory 1) = .ok engine := rfl
  have history : engine.History
      ([⟨engine, .load "+" .counted⟩, ⟨loaded, .run Buffer.device none (.ofInput [])⟩] ++
        [⟨loaded, .stop⟩] ++ [⟨loaded.stop, .load "[" .nested⟩])
      (loaded.stop.load "[" .nested).2 :=
    .more (.more (.more (.more .fresh (parsed ▸ .load "+" .counted)) (.run ran)) .stop)
      (.load "[" .nested)
  obtain ⟨-, program, -, stopRequested, runs⟩ :=
    history_shows_in_state_but_not_in_runs made history
  obtain ⟨-, -, -, seen⟩ := runs Buffer Buffer.device none (.ofInput [])
  refine ⟨engine, _, _, made, history, rfl, ?_, ?_, (seen plus).2.2 2⟩
  · rw [← Option.not_isSome_iff_eq_none, program]
    intro since
    rcases Call.since_concat.mp since with succeeds | ⟨kept, -⟩
    · exact refused succeeds
    · exact kept trivial
  · rw [stopRequested, Call.since_concat, Call.since_concat]
    exact .inr ⟨not_false, .inl trivial⟩

end Engine
end ByteTape
