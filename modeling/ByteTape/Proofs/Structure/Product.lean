import ByteTape.Proofs.Machine.LongerTapes
import ByteTape.Proofs.Program.Layout
import ByteTape.Proofs.Structure.Sources

/-! A program that multiplies. It counts its first factor down to zero and adds the second one in each
round; both are written as so many increments, and only their remainders modulo 256 reach the tape. -/

namespace ByteTape

namespace Tape

/-- A tape that starts with these two cells and has zeros behind them. -/
def pair (extra : Nat) (first second : UInt8) (pointer : Fin 2) : Tape :=
  lengthen extra ⟨#[first, second], pointer, pointer.isLt⟩

section
variable (extra : Nat) (first second : UInt8)

theorem current_pair_zero : (pair extra first second 0).current = first :=
  current_lengthen ..

theorem current_pair_one : (pair extra first second 1).current = second :=
  current_lengthen ..

theorem setCurrent_pair_zero (value : UInt8) :
    (pair extra first second 0).setCurrent value = pair extra value second 0 :=
  setCurrent_lengthen ..

theorem setCurrent_pair_one (value : UInt8) :
    (pair extra first second 1).setCurrent value = pair extra first value 1 :=
  setCurrent_lengthen ..

theorem moveRight_pair : (pair extra first second 0).moveRight = .ok (pair extra first second 1) :=
  moveRight_lengthen extra _ rfl

theorem moveLeft_pair : (pair extra first second 1).moveLeft = .ok (pair extra first second 0) :=
  moveLeft_lengthen ..

theorem blank_eq_pair {size : Nat} (roomy : 2 ≤ size) (positive : 0 < size) :
    blank size positive = pair (size - 2) 0 0 0 := by
  obtain ⟨extra, rfl⟩ := Nat.exists_eq_add_of_le roomy
  have short : blank 2 Nat.two_pos = ⟨#[0, 0], 0, Nat.two_pos⟩ := rfl
  rw [← lengthen_blank extra 2 Nat.two_pos, short, Nat.add_sub_cancel_left]
  rfl

end

end Tape

namespace Block

def increments : Nat → Block → Block
  | 0, rest => rest
  | count + 1, rest => .primitive .increment (increments count rest)

private theorem code_increments (count : Nat) (rest : Block) :
    (increments count rest).code = List.replicate count .increment ++ rest.code := by
  induction count with
  | zero => rfl
  | succ count ih => exact congrArg _ ih

theorem evaluates_increments {count : Nat} {rest : Block} {tape : Tape}
    {input output : List UInt8} {outcome : Outcome}
    (onward : Evaluates rest
      ⟨tape.setCurrent (tape.current + UInt8.ofNat count), input, output⟩ outcome) :
    Evaluates (increments count rest) ⟨tape, input, output⟩ (outcome.later count count) := by
  induction count generalizing tape with
  | zero =>
    have nothing : tape.current + UInt8.ofNat 0 = tape.current := UInt8.add_zero _
    rw [nothing, Tape.setCurrent_current] at onward
    rw [Outcome.later_zero]
    exact onward
  | succ count ih =>
    have once : Primitive.increment.apply ⟨tape, input, output⟩ =
      .ok ⟨tape.increment, input, output⟩ := rfl
    have sum : tape.current + UInt8.ofNat (count + 1) = tape.current + 1 + UInt8.ofNat count := by
      rw [UInt8.add_assoc, UInt8.ofNat_add, UInt8.add_comm (UInt8.ofNat count)]
      rfl
    have later : outcome.later (count + 1) (count + 1) = (outcome.later count count).later 1 1 := by
      rw [Outcome.later_later, Nat.add_comm]
    rw [later]
    refine .primitive once (ih ?_)
    rw [Tape.increment, Tape.current_setCurrent, Tape.setCurrent_setCurrent, ← sum]
    exact onward

/-- One round: the second cell grows by the amount, and the first is counted down. -/
def adding (amount : Nat) : Block :=
  .primitive .right (increments amount (.primitive .left (.primitive .decrement .done)))

def product (count amount : Nat) : Block :=
  increments count (.loop (adding amount) (.primitive .right (.primitive .output .done)))

end Block

def Source.product (count amount : Nat) : String :=
  String.ofList (List.replicate count '+') ++ "[>" ++ String.ofList (List.replicate amount '+') ++
    "<-]>."

theorem Source.word_product (count amount : Nat) :
    word (product count amount).toList = (Block.product count amount).code := by
  have spelled : (product count amount).toList =
      (Block.product count amount).code.map Instruction.toChar := by
    simp [product, Block.product, Block.adding, Block.code_increments, Block.code,
      Primitive.instruction, Instruction.toChar]
  rw [spelled, word_map_toChar]

section
variable (extra amount : Nat) (input output : List UInt8)

private theorem evaluates_adding (first second : UInt8) :
    Evaluates (Block.adding amount) ⟨.pair extra first second 0, input, output⟩
      (.finished ⟨.pair extra (first - 1) (second + UInt8.ofNat amount) 0, input, output⟩
        (amount + 3)) := by
  have right : Primitive.right.apply ⟨.pair extra first second 0, input, output⟩ =
      .ok ⟨.pair extra first second 1, input, output⟩ := by
    rw [Primitive.apply, Tape.moveRight_pair]
    rfl
  have left : Primitive.left.apply
      ⟨.pair extra first (second + UInt8.ofNat amount) 1, input, output⟩ =
      .ok ⟨.pair extra first (second + UInt8.ofNat amount) 0, input, output⟩ := by
    rw [Primitive.apply, Tape.moveLeft_pair]
    rfl
  have down : Primitive.decrement.apply
      ⟨.pair extra first (second + UInt8.ofNat amount) 0, input, output⟩ =
      .ok ⟨.pair extra (first - 1) (second + UInt8.ofNat amount) 0, input, output⟩ := by
    rw [Primitive.apply, Tape.decrement, Tape.current_pair_zero, Tape.setCurrent_pair_zero]
  have back : Evaluates (.primitive .left (.primitive .decrement .done))
      ⟨.pair extra first (second + UInt8.ofNat amount) 1, input, output⟩ (.finished _ 2) :=
    .primitive left (.primitive down (.done _))
  have sum : (Tape.pair extra first second 1).setCurrent
      ((Tape.pair extra first second 1).current + UInt8.ofNat amount) =
      .pair extra first (second + UInt8.ofNat amount) 1 := by
    rw [Tape.current_pair_one, Tape.setCurrent_pair_one]
  have total : amount + 3 = 1 + (amount + 2) := by omega
  rw [← sum] at back
  rw [total]
  exact .primitive right (Block.evaluates_increments back)

private theorem evaluates_rounds {count : Nat} (small : count < 256) (second : UInt8) :
    Evaluates (.loop (Block.adding amount) (.primitive .right (.primitive .output .done)))
      ⟨.pair extra (UInt8.ofNat count) second 0, input, output⟩
      (.finished ⟨.pair extra 0 (second + UInt8.ofNat (count * amount)) 1, input,
        output ++ [second + UInt8.ofNat (count * amount)]⟩ (count * (amount + 4) + 3)) := by
  -- The first cell holds the number of rounds to come, which has to fit there to be counted down.
  induction count generalizing second with
  | zero =>
    have right : Primitive.right.apply ⟨.pair extra 0 second 0, input, output⟩ =
        .ok ⟨.pair extra 0 second 1, input, output⟩ := by
      rw [Primitive.apply, Tape.moveRight_pair]
      rfl
    have write : Primitive.output.apply ⟨.pair extra 0 second 1, input, output⟩ =
        .ok ⟨.pair extra 0 second 1, input, output ++ [second]⟩ := by
      rw [Primitive.apply, Tape.current_pair_one]
    have nothing : second + UInt8.ofNat (0 * amount) = second := by
      rw [Nat.zero_mul]
      exact UInt8.add_zero second
    rw [nothing, Nat.zero_mul]
    exact .skip (Tape.current_pair_zero ..) (.primitive right (.primitive write (.done _)))
  | succ count ih =>
    have nonzero : (Tape.pair extra (UInt8.ofNat (count + 1)) second 0).current ≠ 0 := by
      rw [Tape.current_pair_zero]
      intro zero
      have remainder := congrArg UInt8.toNat zero
      rw [UInt8.toNat_ofNat', Nat.mod_eq_of_lt small] at remainder
      cases remainder
    have down : UInt8.ofNat (count + 1) - 1 = UInt8.ofNat count := by
      rw [UInt8.ofNat_add]
      exact UInt8.add_sub_cancel ..
    have sum : second + UInt8.ofNat ((count + 1) * amount) =
        second + UInt8.ofNat amount + UInt8.ofNat (count * amount) := by
      rw [Nat.succ_mul, UInt8.ofNat_add, UInt8.add_comm (UInt8.ofNat _), UInt8.add_assoc]
    have total : (count + 1) * (amount + 4) + 3 =
        amount + 3 + 1 + (count * (amount + 4) + 3) := by
      rw [Nat.succ_mul]
      omega
    rw [sum, total]
    have once := evaluates_adding extra amount input output (UInt8.ofNat (count + 1)) second
    rw [down] at once
    exact .round nonzero once (ih (by omega) _)

end

namespace Engine
variable {τ : Type}

/-- The source made of one number of increments, a loop that counts them down while it adds the other
number to the next cell, and an instruction to write that cell, multiplies the two modulo 256. It
does so on any tape with two cells, whether its loop is entered or not. -/
theorem product_source_multiplies (engine : Engine) (roomy : 2 ≤ engine.config.memorySize)
    (count amount : Nat) (rule : BracketRule) (observer : Option (Observer τ))
    (input : List UInt8) (memory : τ) :
    ∃ ready product tape later,
      engine.load (Source.product count amount) rule = (.ok (), ready) ∧
      product.toNat = count * amount % 256 ∧
      tape.cells.toList = 0 :: product :: List.replicate (engine.config.memorySize - 2) 0 ∧
      tape.pointer = 1 ∧
      ready.RunsTo Buffer.device.beside (observer.map fun watch => watch.silent.beside)
        (.ofInput input, memory)
        ⟨.ok ⟨.completed, count + 3 + count % 256 * (amount + 4), 1, tape⟩,
          (⟨input, #[product]⟩, later), { ready with stopRequested := false }⟩ := by
  let extra := engine.config.memorySize - 2
  let ready : Engine := { engine with program := some ⟨Token.ofSource (Source.product count amount)⟩ }
  let product := UInt8.ofNat (count * amount)
  have spelled := Source.word_product count amount
  have remainder : UInt8.ofNat (count % 256) = UInt8.ofNat count := UInt8.ofNat_mod_size
  have result : 0 + UInt8.ofNat (count % 256 * amount) = product := by
    rw [UInt8.zero_add, UInt8.ofNat_mul, remainder, ← UInt8.ofNat_mul]
  have rounds := evaluates_rounds extra amount input [] (Nat.mod_lt count (by decide : 0 < 256)) 0
  have sum : (Tape.pair extra 0 0 0).setCurrent
      ((Tape.pair extra 0 0 0).current + UInt8.ofNat count) = .pair extra (UInt8.ofNat count) 0 0 := by
    rw [Tape.current_pair_zero, Tape.setCurrent_pair_zero, UInt8.zero_add]
  rw [remainder, result, ← sum] at rounds
  have evaluates : Evaluates (Block.product count amount) (ready.blankStore input)
      (.finished ⟨.pair extra 0 product 1, input, [product]⟩
        (count + 3 + count % 256 * (amount + 4))) := by
    rw [blankStore, Tape.blank_eq_pair roomy, Nat.add_assoc, Nat.add_comm 3]
    exact Block.evaluates_increments rounds
  obtain ⟨later, runs⟩ := runsTo_of_evaluates rfl spelled evaluates observer #[] memory
  refine ⟨ready, product, _, later, engine.load_of_code spelled rule, ?_, ?_, rfl, runs⟩
  · exact UInt8.toNat_ofNat' ..
  · simp [Tape.pair, Tape.lengthen, extra]

theorem product_source_multiplies_at_sign :
    let engine : Engine := ⟨.ofMemory 2, ⟨by decide, by decide, by decide⟩, none, false⟩
    Source.product 8 8 = "++++++++[>++++++++<-]>." ∧
    ∃ ready tape later, engine.load (Source.product 8 8) .nested = (.ok (), ready) ∧
      tape.cells.toList = [0, 64] ∧ tape.pointer = 1 ∧
      ready.RunsTo Buffer.device.beside
        ((none : Option (Observer Unit)).map fun watch => watch.silent.beside) (.ofInput [], ())
        ⟨.ok ⟨.completed, 107, 1, tape⟩, (⟨[], #[64]⟩, later),
          { ready with stopRequested := false }⟩ := by
  intro engine
  obtain ⟨ready, product, tape, later, loaded, value, cells, pointer, runs⟩ :=
    product_source_multiplies engine (by decide) 8 8 .nested none [] ()
  have sign : product = 64 := UInt8.toNat_inj.mp value
  subst sign
  exact ⟨by decide, ready, tape, later, loaded, cells, pointer, runs⟩

end Engine
end ByteTape
