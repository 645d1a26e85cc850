import ByteTape.Proofs.Structure.Sources

/-! A program that copies its input up to the first zero. The end of the input ends it as a zero does,
so one run more than there are zeros in a queue copies all the other bytes of it. -/

namespace ByteTape

namespace Echo

def copied (input : List UInt8) : List UInt8 := input.takeWhile (· ≠ 0)

def remaining (input : List UInt8) : List UInt8 := (input.dropWhile (· ≠ 0)).tail

section
variable {byte : UInt8} (nonzero : byte ≠ 0) (rest : List UInt8)

@[simp] theorem copied_zero : copied (0 :: rest) = [] := rfl

@[simp] theorem remaining_zero : remaining (0 :: rest) = rest := rfl

include nonzero

theorem copied_cons : copied (byte :: rest) = byte :: copied rest :=
  List.takeWhile_cons_of_pos (decide_eq_true nonzero)

theorem remaining_cons : remaining (byte :: rest) = remaining rest :=
  congrArg List.tail (List.dropWhile_cons_of_pos (decide_eq_true nonzero))

end

theorem nonzeros_eq (input : List UInt8) :
    input.filter (· ≠ 0) = copied input ++ (remaining input).filter (· ≠ 0) := by
  induction input with
  | nil => rfl
  | cons byte rest ih =>
    by_cases zero : byte = 0
    · subst zero
      rfl
    · rw [copied_cons zero, remaining_cons zero, List.cons_append, ← ih]
      exact List.filter_cons_of_pos (decide_eq_true zero)

private theorem count_remaining (input : List UInt8) :
    (remaining input).count 0 = input.count 0 - 1 := by
  induction input with
  | nil => rfl
  | cons byte rest ih =>
    by_cases zero : byte = 0
    · subst zero
      rw [remaining_zero, List.count_cons_self, Nat.add_sub_cancel]
    · rw [remaining_cons zero, ih, List.count_cons_of_ne zero]

private theorem remaining_eq_nil {input : List UInt8} (zeroless : input.count 0 = 0) :
    remaining input = [] := by
  induction input with
  | nil => rfl
  | cons byte rest ih =>
    by_cases zero : byte = 0
    · subst zero
      cases (List.count_cons_self ..).symm.trans zeroless
    · rw [List.count_cons_of_ne zero] at zeroless
      rw [remaining_cons zero, ih zeroless]

end Echo

open Echo

namespace Block

def copying : Block := .loop (.primitive .output (.primitive .input .done)) .done

def echo : Block := .primitive .input copying

/-- The loop copies what is left when it is entered with the first byte of it already read. -/
theorem evaluates_copying (tape : Tape) (input output : List UInt8) :
    Evaluates copying ⟨tape.setCurrent (input.headD 0), input.tail, output⟩
      (.finished ⟨tape.setCurrent 0, remaining input, output ++ copied input⟩
        (1 + 3 * (copied input).length)) := by
  -- A round writes one byte and reads the next, so what is left is entered in the same way.
  induction input generalizing output with
  | nil =>
    have nothing : output ++ copied [] = output := List.append_nil _
    rw [nothing]
    exact .skip (Tape.current_setCurrent ..) (.done _)
  | cons byte rest ih =>
    by_cases zero : byte = 0
    · subst zero
      rw [copied_zero, List.append_nil, remaining_zero]
      exact .skip (Tape.current_setCurrent ..) (.done _)
    · have nonzero : (tape.setCurrent byte).current ≠ 0 := by rwa [Tape.current_setCurrent]
      have write : Primitive.output.apply ⟨tape.setCurrent byte, rest, output⟩ =
          .ok ⟨tape.setCurrent byte, rest, output ++ [byte]⟩ := by
        rw [Primitive.apply, Tape.current_setCurrent]
      have read : Primitive.input.apply ⟨tape.setCurrent byte, rest, output ++ [byte]⟩ =
          .ok ⟨tape.setCurrent (rest.headD 0), rest.tail, output ++ [byte]⟩ := by
        rw [Primitive.apply, Tape.setCurrent_setCurrent]
      have once : Evaluates (.primitive .output (.primitive .input .done))
          ⟨tape.setCurrent byte, rest, output⟩ (.finished _ 2) :=
        .primitive write (.primitive read (.done _))
      have cost : 1 + 3 * (copied rest).length.succ = 2 + 1 + (1 + 3 * (copied rest).length) := by
        omega
      rw [copied_cons zero, remaining_cons zero, List.append_cons, List.length_cons, cost]
      exact .round nonzero once (ih (output ++ [byte]))

end Block

theorem Source.word_echo : word ",[.,]".toList = Block.echo.code := rfl

namespace Engine
variable {σ τ : Type}

/-- Runs of the loaded program, one after another, each of which goes through. They share the engine
and what is outside of it. -/
inductive Repeats (device : Device σ) (observer : Option (Observer σ)) :
    Engine → σ → List Report → σ → Engine → Prop where
  | done (engine : Engine) (outside : σ) : Repeats device observer engine outside [] outside engine
  | run {engine between last : Engine} {before middle after : σ} {report : Report}
      {reports : List Report}
      (ends : engine.RunsTo device observer before ⟨.ok report, middle, between⟩)
      (onward : Repeats device observer between middle reports after last) :
      Repeats device observer engine before (report :: reports) after last

section
variable {engine : Engine} (loaded : engine.program = some ⟨Token.ofSource ",[.,]"⟩)
  (observer : Option (Observer τ)) (input : List UInt8) (output : Array UInt8) (memory : τ)
include loaded

theorem runsTo_echo :
    ∃ later, engine.RunsTo Buffer.device.beside
      (observer.map fun watch => watch.silent.beside) (⟨input, output⟩, memory)
      ⟨.ok ⟨.completed, 2 + 3 * (copied input).length, (copied input).length,
          .blank engine.config.memorySize engine.valid.memory⟩,
        (⟨remaining input, output ++ (copied input).toArray⟩, later),
        { engine with stopRequested := false }⟩ := by
  let blank := Tape.blank engine.config.memorySize engine.valid.memory
  have zeroed : blank.setCurrent 0 = blank := by
    rw [← Tape.current_blank engine.config.memorySize engine.valid.memory]
    exact blank.setCurrent_current
  have copies := Block.evaluates_copying blank input []
  rw [zeroed, List.nil_append] at copies
  have evaluates : Evaluates Block.echo (engine.blankStore input)
      (.finished ⟨blank, remaining input, copied input⟩
        (1 + (1 + 3 * (copied input).length))) :=
    .primitive rfl copies
  rw [← Nat.add_assoc] at evaluates
  exact runsTo_of_evaluates loaded Source.word_echo evaluates observer output memory

theorem repeats_echo {zeros : Nat} (counted : input.count 0 = zeros) :
    ∃ reports later, reports.length = zeros + 1 ∧
      (∀ report ∈ reports, report.ending = .completed) ∧
      Repeats Buffer.device.beside (observer.map fun watch => watch.silent.beside) engine
        (⟨input, output⟩, memory) reports
        (⟨[], output ++ (input.filter (· ≠ 0)).toArray⟩, later)
        { engine with stopRequested := false } := by
  induction zeros generalizing engine input output memory with
  | zero =>
    obtain ⟨later, ends⟩ := runsTo_echo loaded observer input output memory
    have all : input.filter (· ≠ 0) = copied input := by
      rw [nonzeros_eq, remaining_eq_nil counted]
      exact List.append_nil _
    rw [remaining_eq_nil counted, ← all] at ends
    exact ⟨[_], later, rfl, by simp, .run ends (.done ..)⟩
  | succ zeros ih =>
    obtain ⟨between, ends⟩ := runsTo_echo loaded observer input output memory
    have fewer : (remaining input).count 0 = zeros := by
      rw [count_remaining, counted, Nat.add_sub_cancel]
    obtain ⟨reports, later, length, completed, onward⟩ :=
      @ih { engine with stopRequested := false } loaded (remaining input)
        (output ++ (copied input).toArray) between fewer
    have joined : output ++ (copied input).toArray ++
        ((remaining input).filter (· ≠ 0)).toArray = output ++ (input.filter (· ≠ 0)).toArray := by
      rw [nonzeros_eq input, ← List.append_toArray, Array.append_assoc]
    rw [joined] at onward
    exact ⟨_ :: reports, later, congrArg _ length, by simpa using completed, .run ends onward⟩

end

/-- The source copies its input up to the first zero, and takes that zero off the queue as well. When
it is run as often as there are zeros in the queue, and once more, the queue is empty and all bytes
but the zeros have been written. -/
theorem echo_source_copies_up_to_zero (engine : Engine) (rule : BracketRule)
    (observer : Option (Observer τ)) (input : List UInt8) (output : Array UInt8) (memory : τ) :
    let onlooker := observer.map fun watch => watch.silent.beside
    let copied := input.takeWhile (· ≠ 0)
    ∃ ready, engine.load ",[.,]" rule = (.ok (), ready) ∧
      (∃ later, ready.RunsTo Buffer.device.beside onlooker (⟨input, output⟩, memory)
        ⟨.ok ⟨.completed, 2 + 3 * copied.length, copied.length,
            .blank engine.config.memorySize engine.valid.memory⟩,
          (⟨(input.dropWhile (· ≠ 0)).tail, output ++ copied.toArray⟩, later),
          { ready with stopRequested := false }⟩) ∧
      ∃ reports later, reports.length = input.count 0 + 1 ∧
        (∀ report ∈ reports, report.ending = .completed) ∧
        Repeats Buffer.device.beside onlooker ready (⟨input, output⟩, memory) reports
          (⟨[], output ++ (input.filter (· ≠ 0)).toArray⟩, later)
          { ready with stopRequested := false } := by
  exact ⟨_, engine.load_of_code Source.word_echo rule, runsTo_echo rfl observer input output memory,
    repeats_echo rfl observer input output memory rfl⟩

end Engine
end ByteTape
