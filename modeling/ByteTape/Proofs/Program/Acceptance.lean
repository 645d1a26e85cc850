import ByteTape.Program.Parse
import ByteTape.Proofs.Brackets.Nesting
import ByteTape.Proofs.Source.Letters
import Mathlib.Order.Bounds.Basic

/-! Which sources become programs. Once the counts agree, a check that only looks for stray
closes decides the grammar, and the first close it finds is the first that is in debt. -/

namespace ByteTape.Program
open Brackets

theorem instructions_ofSource (source : String) :
    (Program.mk (Token.ofSource source)).instructions = Source.word source.toList := by
  rw [instructions, Array.toList_map]
  exact Token.map_instruction_collect source.toList

private theorem map_fst_strayClose? (depth index : Nat) (tokens : List Token) :
    (strayClose? depth index tokens).map Prod.fst =
      closingFrom depth index (tokens.map Token.instruction) := by
  induction tokens generalizing depth index with
  | nil => rfl
  | cons token rest ih =>
    obtain ⟨instruction, location⟩ := token
    cases instruction with
    | loopStart => exact ih (depth + 1) (index + 1)
    | loopEnd =>
      cases depth with
      | zero => rfl
      | succ depth => exact ih depth (index + 1)
    | _ => exact ih depth (index + 1)

private theorem place_cons {token : Token} {rest : List Token} {index found : Nat}
    {location : Location}
    (place : ∃ n other, found = index + 1 + n ∧ rest[n]? = some other ∧
      other.location = location) :
    ∃ n other, found = index + n ∧ (token :: rest)[n]? = some other ∧
      other.location = location := by
  obtain ⟨n, other, same, read, stands⟩ := place
  exact ⟨n + 1, other, by omega, by rwa [List.getElem?_cons_succ], stands⟩

private theorem place_strayClose? {depth index found : Nat} {tokens : List Token}
    {location : Location} (stray : strayClose? depth index tokens = some (found, location)) :
    ∃ n token, found = index + n ∧ tokens[n]? = some token ∧ token.location = location := by
  induction tokens generalizing depth index with
  | nil => cases stray
  | cons token rest ih =>
    cases kind : token.instruction with
    | loopEnd =>
      cases depth with
      | zero =>
        simp only [strayClose?, kind, Option.some.injEq, Prod.mk.injEq] at stray
        exact ⟨0, token, stray.1.symm, rfl, stray.2⟩
      | succ depth =>
        simp only [strayClose?, kind] at stray
        exact place_cons (ih stray)
    | _ =>
      simp only [strayClose?, kind] at stray
      exact place_cons (ih stray)

private theorem strayClose?_ofSource {source : String} {index : Nat} {location : Location}
    (stray : strayClose? 0 0 (Token.ofSource source).toList = some (index, location)) :
    FirstOverdrawn 0 (Source.word source.toList) index ∧
      ∃ before behind, source.toList = before ++ ']' :: behind ∧
        (Source.word before).length = index ∧ location = .behind before := by
  have walked := congrArg (Option.map Prod.fst) stray
  rw [map_fst_strayClose?, Token.ofSource_eq, Token.map_instruction_collect, Option.map_some,
    closingFrom_eq_some_iff] at walked
  obtain ⟨n, same, walk⟩ := walked
  obtain ⟨m, token, place, read, stands⟩ := place_strayClose? stray
  rw [Nat.zero_add] at same place
  subst same place
  rw [Array.getElem?_toList, Token.ofSource_eq] at read
  obtain ⟨before, behind, split, count, located⟩ := Token.place_of_getElem?_collect read
  have closes := walk.ends.1
  rw [← Token.map_instruction_collect, List.getElem?_map, Array.getElem?_toList, read] at closes
  rw [Option.some.inj closes] at split
  exact ⟨walk, before, behind, split, count, stands.symm.trans located⟩

theorem parse_of_uneven {source : String}
    (uneven : (Source.word source.toList).count .loopStart ≠
      (Source.word source.toList).count .loopEnd) (rule : BracketRule) :
    parse source rule = .error (.unbalancedBrackets ((Source.word source.toList).count .loopStart)
      ((Source.word source.toList).count .loopEnd)) := by
  simp only [parse, validate, count, instructions_ofSource]
  exact if_pos uneven

theorem parse_counted {source : String}
    (even : (Source.word source.toList).count .loopStart =
      (Source.word source.toList).count .loopEnd) :
    parse source .counted = .ok ⟨Token.ofSource source⟩ := by
  simp only [parse, validate, count, instructions_ofSource]
  exact if_neg (not_not_intro even)

private theorem parse_nested_eq {source : String}
    (even : (Source.word source.toList).count .loopStart =
      (Source.word source.toList).count .loopEnd) :
    parse source .nested = match strayClose? 0 0 (Token.ofSource source).toList with
      | some (index, location) => .error (.unmatchedClose index location)
      | none => .ok ⟨Token.ofSource source⟩ := by
  simp only [parse, validate, count, instructions_ofSource]
  exact if_neg (not_not_intro even)

private theorem strayClose?_eq_none_iff {source : String}
    (even : (Source.word source.toList).count .loopStart =
      (Source.word source.toList).count .loopEnd) :
    strayClose? 0 0 (Token.ofSource source).toList = none ↔
      Nested (brackets (Source.word source.toList)) := by
  have walked := map_fst_strayClose? 0 0 (Token.ofSource source).toList
  rw [Token.ofSource_eq, Token.map_instruction_collect] at walked
  rw [Token.ofSource_eq, ← Option.map_eq_none_iff, walked, closingFrom_eq_none_iff,
    nested_brackets_iff]
  constructor
  · intro prefixes
    exact ⟨prefixes, even⟩
  · intro balanced
    exact balanced.prefixes

theorem parse_nested {source : String} (nested : Nested (brackets (Source.word source.toList))) :
    parse source .nested = .ok ⟨Token.ofSource source⟩ := by
  have even := ((nested_brackets_iff _).mp nested).total
  rw [parse_nested_eq even, (strayClose?_eq_none_iff even).mpr nested]

theorem parse_of_stray {source : String}
    (even : (Source.word source.toList).count .loopStart =
      (Source.word source.toList).count .loopEnd)
    (stray : ¬ Nested (brackets (Source.word source.toList))) :
    ∃ index before behind,
      parse source .nested = .error (.unmatchedClose index (.behind before)) ∧
      FirstOverdrawn 0 (Source.word source.toList) index ∧
      source.toList = before ++ ']' :: behind ∧ (Source.word before).length = index := by
  rw [parse_nested_eq even]
  cases found : strayClose? 0 0 (Token.ofSource source).toList with
  | none => exact absurd ((strayClose?_eq_none_iff even).mp found) stray
  | some close =>
    obtain ⟨index, location⟩ := close
    obtain ⟨walk, before, behind, split, count, located⟩ := strayClose?_ofSource found
    subst located
    exact ⟨index, before, behind, rfl, walk, split, count⟩

theorem eq_of_parse {source : String} {rule : BracketRule} {program : Program}
    (parsed : parse source rule = .ok program) :
    program = ⟨Token.ofSource source⟩ ∧
      (Source.word source.toList).count .loopStart =
        (Source.word source.toList).count .loopEnd ∧
      (rule = .nested → Nested (brackets (Source.word source.toList))) := by
  by_cases even : (Source.word source.toList).count .loopStart =
      (Source.word source.toList).count .loopEnd
  · cases rule with
    | counted =>
      rw [parse_counted even] at parsed
      cases parsed
      exact ⟨rfl, even, fun impossible => by cases impossible⟩
    | nested =>
      by_cases nested : Nested (brackets (Source.word source.toList))
      · rw [parse_nested nested] at parsed
        cases parsed
        exact ⟨rfl, even, fun _ => nested⟩
      · obtain ⟨index, before, behind, refused, -⟩ := parse_of_stray even nested
        rw [refused] at parsed
        cases parsed
  · rw [parse_of_uneven even rule] at parsed
    cases parsed

theorem nested_of_parse {source : String} {program : Program}
    (parsed : parse source .nested = .ok program) : Nested (brackets program.instructions) := by
  obtain ⟨rfl, -, nested⟩ := eq_of_parse parsed
  rw [instructions_ofSource]
  exact nested rfl

/-- Every instruction of a program knows the place of its letter in the source. -/
theorem places_of_parse {source : String} {rule : BracketRule} {program : Program}
    (parsed : parse source rule = .ok program) {index : Nat} {instruction : Instruction}
    (here : program.get? index = some instruction) :
    ∃ place, program.location? index = some place ∧
      Source.Places source.toList index instruction place := by
  obtain ⟨rfl, -, -⟩ := eq_of_parse parsed
  obtain ⟨token, found, rfl⟩ := Option.map_eq_some_iff.mp here
  exact ⟨token.location, by rw [location?, found]; rfl,
    Token.place_of_getElem?_collect found⟩

/-- A source is accepted by the weaker rule if it has as many `[` as `]`, and by the stricter one
if its brackets are a word of the grammar. Unequal counts are reported before anything else, then
the first `]` that closes more than has been opened. Both rules build the same program. -/
theorem parse_decides_both_languages (source : String) :
    let word := Source.word source.toList
    word.map Instruction.toChar = source.toList.filter (· ∈ Source.alphabet) ∧
    ((∃ program, parse source .counted = .ok program) ↔
      word.count .loopStart = word.count .loopEnd) ∧
    ((∃ program, parse source .nested = .ok program) ↔ Nested (brackets word)) ∧
    (word.count .loopStart ≠ word.count .loopEnd → ∀ rule, parse source rule =
      .error (.unbalancedBrackets (word.count .loopStart) (word.count .loopEnd))) ∧
    (word.count .loopStart = word.count .loopEnd → ¬ Nested (brackets word) →
      (∃ program, parse source .counted = .ok program) ∧
      ∃ index before behind,
        parse source .nested = .error (.unmatchedClose index (.behind before)) ∧
        IsLeast {i | (word.take (i + 1)).count .loopStart < (word.take (i + 1)).count .loopEnd}
          index ∧
        source.toList = before ++ ']' :: behind ∧ (Source.word before).length = index) ∧
    (∀ rule program, parse source rule = .ok program →
      parse source .counted = .ok program ∧ program.instructions = word ∧
        program.locations.length = word.length) := by
  refine ⟨Source.map_toChar_word _, ⟨?_, ?_⟩, ⟨?_, ?_⟩, parse_of_uneven, ?_, ?_⟩
  · rintro ⟨program, parsed⟩
    exact (eq_of_parse parsed).2.1
  · intro even
    exact ⟨_, parse_counted even⟩
  · rintro ⟨program, parsed⟩
    exact (eq_of_parse parsed).2.2 rfl
  · intro nested
    exact ⟨_, parse_nested nested⟩
  · intro even stray
    obtain ⟨index, before, behind, refused, walk, split, count⟩ := parse_of_stray even stray
    refine ⟨⟨_, parse_counted even⟩, index, before, behind, refused, ⟨?_, ?_⟩, split, count⟩
    · simpa [Overdrawn] using walk.overdrawn
    · intro other debt
      by_contra earlier
      apply walk.first other
      · omega
      · simpa [Overdrawn] using debt
  · intro rule program parsed
    obtain ⟨rfl, even, -⟩ := eq_of_parse parsed
    refine ⟨parse_counted even, instructions_ofSource source, ?_⟩
    rw [length_locations, ← length_instructions, instructions_ofSource]

end ByteTape.Program
