import ByteTape.Proofs.Brackets.Nesting

/-! Programs as trees. Well-nested code is a list of primitive instructions and loops, each
around such a list, and it can be read as one in a single way. -/

namespace ByteTape
open Brackets

inductive Primitive where
  | right
  | left
  | increment
  | decrement
  | output
  | input
  deriving DecidableEq, Repr

def Primitive.instruction : Primitive → Instruction
  | right => .right
  | left => .left
  | increment => .increment
  | decrement => .decrement
  | output => .output
  | input => .input

namespace Primitive

theorem instruction_injective {first second : Primitive}
    (same : first.instruction = second.instruction) : first = second := by
  cases first <;> cases second <;> first | rfl | cases same

@[simp] theorem instruction_ne_loopStart (primitive : Primitive) :
    primitive.instruction ≠ .loopStart := by
  cases primitive <;> nofun

@[simp] theorem instruction_ne_loopEnd (primitive : Primitive) :
    primitive.instruction ≠ .loopEnd := by
  cases primitive <;> nofun

theorem exists_of_isBracket_eq_false {instruction : Instruction}
    (plain : isBracket instruction = false) :
    ∃ primitive : Primitive, primitive.instruction = instruction := by
  cases instruction with
  | right => exact ⟨right, rfl⟩
  | left => exact ⟨left, rfl⟩
  | increment => exact ⟨increment, rfl⟩
  | decrement => exact ⟨decrement, rfl⟩
  | output => exact ⟨output, rfl⟩
  | input => exact ⟨input, rfl⟩
  | loopStart => cases plain
  | loopEnd => cases plain

end Primitive

inductive Block where
  | done
  | primitive (first : Primitive) (rest : Block)
  | loop (body rest : Block)
  deriving DecidableEq, Repr

namespace Block

def code : Block → List Instruction
  | done => []
  | primitive first rest => first.instruction :: rest.code
  | loop body rest => .loopStart :: body.code ++ .loopEnd :: rest.code

def size (block : Block) : Nat := block.code.length

@[simp] theorem size_done : done.size = 0 := rfl

@[simp] theorem size_primitive (first : Primitive) (rest : Block) :
    (primitive first rest).size = rest.size + 1 := rfl

@[simp] theorem size_loop (body rest : Block) :
    (loop body rest).size = body.size + 2 + rest.size := by
  simp only [size, code, List.length_append, List.length_cons]
  omega

theorem nested (block : Block) : Nested (brackets block.code) := by
  induction block with
  | done => exact .empty
  | primitive first rest ih =>
    have skipped : brackets (primitive first rest).code = brackets rest.code := by
      simp [code, brackets, isBracket]
    rw [skipped]
    exact ih
  | loop body rest ihBody ihRest =>
    have split : brackets (loop body rest).code =
        .loopStart :: brackets body.code ++ .loopEnd :: brackets rest.code := by
      simp [code, brackets, isBracket]
    rw [split]
    exact ihBody.loop ihRest

private theorem exists_prepend {front : List Instruction} (plain : brackets front = [])
    (block : Block) : ∃ whole : Block, whole.code = front ++ block.code := by
  induction front with
  | nil => exact ⟨block, rfl⟩
  | cons instruction front ih =>
    rw [brackets, List.filter_eq_nil_iff, List.forall_mem_cons] at plain
    obtain ⟨whole, same⟩ := ih (List.filter_eq_nil_iff.mpr plain.2)
    obtain ⟨first, rfl⟩ :=
      Primitive.exists_of_isBracket_eq_false (Bool.eq_false_iff.mpr plain.1)
    exact ⟨primitive first whole, congrArg _ same⟩

private theorem exists_of_nested {word : List Instruction} (nested : Nested word)
    (flat : List Instruction) (same : brackets flat = word) : ∃ block : Block, block.code = flat := by
  induction nested generalizing flat with
  | empty =>
    obtain ⟨block, equal⟩ := exists_prepend same done
    exact ⟨block, equal.trans (List.append_nil flat)⟩
  | @loop inner rest _ _ ihBody ihAfter =>
    -- The code has primitive instructions before each of the brackets that the word starts with.
    obtain ⟨front, behind, rfl, plain, -, split⟩ := List.filter_eq_cons_iff.mp same
    obtain ⟨first, second, rfl, inside, split⟩ := List.filter_eq_append_iff.mp split
    obtain ⟨last, after, rfl, tail, -, outside⟩ := List.filter_eq_cons_iff.mp split
    have bare : brackets last = [] := List.filter_eq_nil_iff.mpr tail
    have around : brackets (first ++ last) = inner := by
      rw [brackets_append, bare, List.append_nil]
      exact inside
    obtain ⟨body, bodyCode⟩ := ihBody (first ++ last) around
    obtain ⟨rest, restCode⟩ := ihAfter after outside
    obtain ⟨block, whole⟩ := exists_prepend (List.filter_eq_nil_iff.mpr plain) (loop body rest)
    refine ⟨block, whole.trans ?_⟩
    simp [code, bodyCode, restCode]

/-- The code of trees is the well-nested code. -/
theorem exists_code_eq_iff (flat : List Instruction) :
    (∃ block : Block, block.code = flat) ↔ Nested (brackets flat) := by
  constructor
  · rintro ⟨block, same⟩
    rw [← same]
    exact block.nested
  · intro nested
    exact exists_of_nested nested flat rfl

/-- What may stand behind a block: nothing, or the end of the loop around it. -/
private def Behind (rest : List Instruction) : Prop :=
  rest = [] ∨ ∃ more, rest = .loopEnd :: more

private theorem Behind.not_cons {instruction : Instruction} {more : List Instruction}
    (noEnd : instruction ≠ .loopEnd) : ¬ Behind (instruction :: more) := by
  intro behind
  rcases behind with empty | ⟨_, ends⟩
  · cases empty
  · exact noEnd (List.cons.inj ends).1

private theorem eq_of_code_append {block other : Block} {back more : List Instruction}
    (behind : Behind back) (beyond : Behind more)
    (same : block.code ++ back = other.code ++ more) : block = other ∧ back = more := by
  induction block generalizing other back more with
  | done =>
    cases other with
    | done => exact ⟨rfl, same⟩
    | primitive first rest =>
      rw [show back = _ from same] at behind
      exact absurd behind (Behind.not_cons first.instruction_ne_loopEnd)
    | loop body rest =>
      rw [show back = _ from same] at behind
      exact absurd behind (Behind.not_cons nofun)
  | primitive first rest ih =>
    cases other with
    | done =>
      rw [← show _ = more from same] at beyond
      exact absurd beyond (Behind.not_cons first.instruction_ne_loopEnd)
    | primitive first' rest' =>
      obtain ⟨equal, same⟩ := List.cons.inj same
      obtain ⟨rfl, rfl⟩ := ih behind beyond same
      exact ⟨by rw [Primitive.instruction_injective equal], rfl⟩
    | loop body rest' => exact absurd (List.cons.inj same).1 first.instruction_ne_loopStart
  | loop body rest ihBody ihRest =>
    cases other with
    | done =>
      rw [← show _ = more from same] at beyond
      exact absurd beyond (Behind.not_cons nofun)
    | primitive first rest' =>
      exact absurd (List.cons.inj same).1.symm first.instruction_ne_loopStart
    | loop body' rest' =>
      simp only [code, List.cons_append, List.append_assoc, List.cons.injEq, true_and] at same
      obtain ⟨rfl, tails⟩ := ihBody (.inr ⟨_, rfl⟩) (.inr ⟨_, rfl⟩) same
      obtain ⟨rfl, rfl⟩ := ihRest behind beyond (List.cons.inj tails).2
      exact ⟨rfl, rfl⟩

theorem code_injective {block other : Block} (same : block.code = other.code) : block = other :=
  (eq_of_code_append (.inl rfl) (.inl rfl) (congrArg (· ++ []) same)).1

end Block
end ByteTape
