import ByteTape.Source.Token
import Mathlib.Data.List.Induction

/-! What a text is read as. Its word is made of the letters that mean something, and the token
of each letter tells how many lines and columns of text lie before it. -/

namespace ByteTape

theorem Instruction.ofChar?_eq_some_iff (c : Char) (instruction : Instruction) :
    ofChar? c = some instruction ↔ c = instruction.toChar := by
  constructor
  · intro read
    unfold ofChar? at read
    split at read
    all_goals cases read
    all_goals rfl
  · intro same
    rw [same, ofChar?_toChar]

namespace Source

def alphabet : List Char := ['>', '<', '+', '-', '.', ',', '[', ']']

def word (text : List Char) : List Instruction := text.filterMap Instruction.ofChar?

private theorem ofChar?_eq_none {c : Char} (comment : c ∉ alphabet) :
    Instruction.ofChar? c = none := by
  rw [Option.eq_none_iff_forall_ne_some]
  intro instruction read
  rw [Instruction.ofChar?_eq_some_iff] at read
  apply comment
  rw [read]
  cases instruction <;> simp [alphabet, Instruction.toChar]

private theorem exists_toChar {c : Char} (letter : c ∈ alphabet) :
    ∃ instruction : Instruction, c = instruction.toChar := by
  have spelled : alphabet = Instruction.all.map Instruction.toChar := rfl
  rw [spelled] at letter
  obtain ⟨instruction, -, same⟩ := List.mem_map.mp letter
  exact ⟨instruction, same.symm⟩

theorem map_toChar_word (text : List Char) :
    (word text).map Instruction.toChar = text.filter (· ∈ alphabet) := by
  induction text with
  | nil => rfl
  | cons c rest ih =>
    by_cases letter : c ∈ alphabet
    · obtain ⟨instruction, same⟩ := exists_toChar letter
      have read := (Instruction.ofChar?_eq_some_iff c instruction).mpr same
      rw [word, List.filterMap_cons_some read, List.map_cons, List.filter_cons_of_pos (by simpa),
        ← same]
      exact congrArg _ ih
    · rw [word, List.filterMap_cons_none (ofChar?_eq_none letter),
        List.filter_cons_of_neg (by simpa)]
      exact ih

theorem word_append (front back : List Char) : word (front ++ back) = word front ++ word back :=
  List.filterMap_append

end Source

namespace Location

/-- Where a text goes on, counted from its beginning. -/
def behind (text : List Char) : Location :=
  ⟨1 + text.count '\n', 1 + (text.reverse.takeWhile (· ≠ '\n')).length⟩

theorem behind_append_singleton (text : List Char) (c : Char) :
    behind (text ++ [c]) = (behind text).after c := by
  by_cases lineFeed : c = '\n'
  · simp [behind, after, lineFeed, Nat.add_assoc]
  · simp [behind, after, lineFeed, Nat.add_comm]

end Location

/-- The letter of the text before which that many others stand, and its place. -/
def Source.Places (text : List Char) (index : Nat) (instruction : Instruction)
    (location : Location) : Prop :=
  ∃ before behind, text = before ++ instruction.toChar :: behind ∧
    (word before).length = index ∧ location = .behind before

namespace Cursor

theorem collect_append (location : Location) (found : Array Token) (front back : List Char) :
    collect location found (front ++ back) =
      collect (collect location found front).2.location (collect location found front).1 back := by
  induction front generalizing location found with
  | nil => rfl
  | cons c rest ih => exact ih ..

theorem location_collect (text : List Char) :
    (collect .start #[] text).2.location = .behind text := by
  induction text using List.reverseRecOn with
  | nil => rfl
  | append_singleton text c ih =>
    rw [collect_append, Location.behind_append_singleton, ← ih]
    rfl

theorem tokens_append_singleton (text : List Char) (c : Char) :
    (collect .start #[] (text ++ [c])).1 = match Instruction.ofChar? c with
      | some instruction => (collect .start #[] text).1.push ⟨instruction, .behind text⟩
      | none => (collect .start #[] text).1 := by
  rw [collect_append, location_collect]
  rfl

end Cursor

namespace Token

theorem ofSource_eq (source : String) :
    ofSource source = (Cursor.collect .start #[] source.toList).1 := rfl

theorem map_instruction_collect (text : List Char) :
    (Cursor.collect .start #[] text).1.toList.map instruction = Source.word text := by
  induction text using List.reverseRecOn with
  | nil => rfl
  | append_singleton text c ih =>
    rw [Cursor.tokens_append_singleton, Source.word_append, ← ih]
    cases read : Instruction.ofChar? c <;> simp [Source.word, read]

/-- The token at an index was read off the letter before which that many letters stand. -/
theorem place_of_getElem?_collect {text : List Char} {index : Nat} {token : Token}
    (found : (Cursor.collect .start #[] text).1[index]? = some token) :
    Source.Places text index token.instruction token.location := by
  induction text using List.reverseRecOn with
  | nil => simp [Cursor.collect] at found
  | append_singleton text c ih =>
    have earlier (known : (Cursor.collect .start #[] text).1[index]? = some token) :
        Source.Places (text ++ [c]) index token.instruction token.location := by
      obtain ⟨before, behind, split, count, place⟩ := ih known
      exact ⟨before, behind ++ [c], by rw [split, List.append_assoc, List.cons_append], count, place⟩
    rw [Cursor.tokens_append_singleton] at found
    cases read : Instruction.ofChar? c with
    | none =>
      rw [read] at found
      exact earlier found
    | some instruction =>
      rw [read, Array.getElem?_push] at found
      split at found
      next last =>
        cases found
        refine ⟨text, [], ?_, ?_, rfl⟩
        · rw [(Instruction.ofChar?_eq_some_iff c instruction).mp read]
        · rw [last, ← map_instruction_collect, List.length_map, Array.length_toList]
      next => exact earlier found

end Token
end ByteTape
