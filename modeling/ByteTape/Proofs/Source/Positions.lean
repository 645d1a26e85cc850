import ByteTape.Proofs.Program.Acceptance
import Mathlib.Data.List.Basic
import Mathlib.Data.List.TakeWhile

/-! The places of the letters in a text. Reading a text notes each letter where it stands, so the
places come in order, and whoever looks one up finds the letter there. -/

namespace ByteTape

namespace Location

def Precedes (earlier later : Location) : Prop :=
  earlier.line < later.line ∨ earlier.line = later.line ∧ earlier.column < later.column

theorem Precedes.trans {first second third : Location} (one : first.Precedes second)
    (other : second.Precedes third) : first.Precedes third := by
  unfold Precedes at *
  omega

private theorem precedes_after (place : Location) (c : Char) : place.Precedes (place.after c) := by
  rw [Precedes, after]
  split
  · exact .inl (Nat.lt_succ_self _)
  · exact .inr ⟨rfl, Nat.lt_succ_self _⟩

private theorem precedes_behind_append_singleton (before : List Char) (c : Char) :
    (behind before).Precedes (behind (before ++ [c])) := by
  rw [behind_append_singleton]
  exact precedes_after _ c

private theorem precedes_behind_append (before : List Char) (c : Char) (more : List Char) :
    (behind before).Precedes (behind (before ++ c :: more)) := by
  induction more generalizing before c with
  | nil => exact precedes_behind_append_singleton before c
  | cons next more ih =>
    have rest := ih (before ++ [c]) next
    rw [List.append_assoc] at rest
    exact (precedes_behind_append_singleton before c).trans rest

private theorem visible_of_single_line {line : List Char} (single : '\n' ∉ line) :
    ∀ c ∈ line.reverse, decide (c ≠ '\n') = true := by
  intro c member
  simpa using ne_of_mem_of_not_mem (List.mem_reverse.mp member) single

theorem behind_of_single_line {line : List Char} (single : '\n' ∉ line) :
    behind line = ⟨1, 1 + line.length⟩ := by
  rw [behind, List.takeWhile_eq_self_iff.mpr (visible_of_single_line single),
    List.count_eq_zero_of_not_mem single, List.length_reverse]

theorem behind_of_last_line (earlier : List Char) {line : List Char} (single : '\n' ∉ line) :
    behind (earlier ++ '\n' :: line) = ⟨2 + earlier.count '\n', 1 + line.length⟩ := by
  have lines : 1 + (earlier ++ '\n' :: line).count '\n' = 2 + earlier.count '\n' := by
    rw [List.count_append, List.count_cons_self, List.count_eq_zero_of_not_mem single]
    omega
  have column : (earlier ++ '\n' :: line).reverse.takeWhile (· ≠ '\n') = line.reverse := by
    rw [List.reverse_append, List.reverse_cons, List.append_assoc,
      List.takeWhile_append_of_pos (visible_of_single_line single)]
    simp
  rw [behind, lines, column, List.length_reverse]

end Location

namespace Source

/-- Looks a place up, in the lines that the text has between its line feeds. -/
def charAt? (text : List Char) (place : Location) : Option Char :=
  (text.splitOn '\n')[place.line - 1]?.bind (·[place.column - 1]?)

private theorem length_splitOn (text : List Char) :
    (text.splitOn '\n').length = text.count '\n' + 1 := by
  induction text with
  | nil => rfl
  | cons c rest ih =>
    rw [List.splitOn_cons_eq_if_modifyHead, List.count_cons]
    split
    · rw [List.length_cons, ih]
    · rw [List.length_modifyHead, ih]

/-- Characters without a line feed begin the first line together. -/
private theorem splitOn_of_single_line {line : List Char} (single : '\n' ∉ line)
    (rest : List Char) :
    ∃ more others, (line ++ rest).splitOn '\n' = (line ++ more) :: others := by
  induction line with
  | nil => exact List.exists_cons_of_ne_nil (List.splitOn_ne_nil '\n' rest)
  | cons c line ih =>
    rw [List.mem_cons, not_or] at single
    obtain ⟨more, others, split⟩ := ih single.2
    refine ⟨more, others, ?_⟩
    rw [List.cons_append, List.splitOn_cons_eq_if_modifyHead,
      if_neg (by simpa using Ne.symm single.1), split]
    rfl

private theorem single_or_last_line (text : List Char) :
    '\n' ∉ text ∨ ∃ earlier line, text = earlier ++ '\n' :: line ∧ '\n' ∉ line := by
  by_cases lineFeed : '\n' ∈ text
  · obtain ⟨line, earlier, same, single⟩ :=
      List.eq_append_cons_of_mem (List.mem_reverse.mpr lineFeed)
    refine .inr ⟨earlier.reverse, line.reverse, ?_, by simpa using single⟩
    rw [← List.reverse_reverse text, same]
    simp
  · exact .inl lineFeed

/-- A character is found again at the place behind all that stands before it. -/
theorem charAt?_behind (before : List Char) {c : Char} (visible : c ≠ '\n') (rest : List Char) :
    charAt? (before ++ c :: rest) (.behind before) = some c := by
  have onLine {line : List Char} (single : '\n' ∉ line) :
      ((line ++ c :: rest).splitOn '\n')[0]?.bind (·[line.length]?) = some c := by
    have longer : '\n' ∉ line ++ [c] := by simpa using ⟨single, visible.symm⟩
    obtain ⟨more, others, split⟩ := splitOn_of_single_line longer rest
    rw [List.append_assoc, List.singleton_append] at split
    rw [split]
    simp
  rcases single_or_last_line before with single | ⟨earlier, line, rfl, single⟩
  · rw [charAt?, Location.behind_of_single_line single]
    simpa using onLine single
  · have split : (earlier ++ '\n' :: line ++ c :: rest).splitOn '\n' =
        earlier.splitOn '\n' ++ (line ++ c :: rest).splitOn '\n' := by
      rw [List.append_assoc, List.cons_append, List.splitOn_append_cons_self]
    have past : 2 + earlier.count '\n' - 1 = (earlier.splitOn '\n').length + 0 := by
      rw [length_splitOn]
      omega
    rw [charAt?, Location.behind_of_last_line earlier single, split]
    simp only [past, List.getElem?_append_right (Nat.le_add_right _ 0), Nat.add_sub_cancel_left]
    exact onLine single

end Source

theorem Cursor.rest_collect (location : Location) (found : Array Token) (text : List Char) :
    (collect location found text).2.rest = [] := by
  induction text generalizing location found with
  | nil => rfl
  | cons c rest ih => exact ih ..

namespace Token

/-- The token of a character of the text that is a letter. Its place is the one behind all that
stands before it. -/
def letter? (text : List Char) (c : Char) (offset : Nat) : Option Token :=
  (Instruction.ofChar? c).map (⟨·, .behind (text.take offset)⟩)

def letters (text : List Char) : List Token :=
  text.zipIdx.filterMap fun place => letter? text place.1 place.2

theorem letters_append_singleton (text : List Char) (c : Char) :
    letters (text ++ [c]) =
      letters text ++ ((Instruction.ofChar? c).map (⟨·, .behind text⟩)).toList := by
  have earlier : ∀ place ∈ text.zipIdx,
      letter? (text ++ [c]) place.1 place.2 = letter? text place.1 place.2 := by
    intro place member
    have inside := (List.mem_zipIdx member).2.1
    rw [letter?, letter?, List.take_append_of_le_length (by omega)]
  rw [letters, letters, List.zipIdx_append, List.filterMap_append, List.filterMap_congr earlier]
  cases read : Instruction.ofChar? c <;> simp [letter?, read]

theorem toList_ofSource (source : String) : (ofSource source).toList = letters source.toList := by
  rw [ofSource_eq]
  induction source.toList using List.reverseRecOn with
  | nil => rfl
  | append_singleton text c ih =>
    rw [Cursor.tokens_append_singleton, letters_append_singleton, ← ih]
    cases Instruction.ofChar? c <;> simp

theorem place_of_mem_letters {text : List Char} {token : Token} (member : token ∈ letters text) :
    ∃ before rest, text = before ++ token.instruction.toChar :: rest ∧
      token.location = .behind before := by
  obtain ⟨⟨c, offset⟩, inside, read⟩ := List.mem_filterMap.mp member
  obtain ⟨instruction, spelled, rfl⟩ := Option.map_eq_some_iff.mp read
  obtain ⟨-, bound, same⟩ := List.mem_zipIdx inside
  rw [Instruction.ofChar?_eq_some_iff] at spelled
  refine ⟨text.take offset, text.drop (offset + 1), ?_, rfl⟩
  rw [← spelled, same]
  simp [List.take_append_drop]

theorem pairwise_letters (text : List Char) :
    (letters text).Pairwise (·.location.Precedes ·.location) := by
  induction text using List.reverseRecOn with
  | nil => exact .nil
  | append_singleton text c ih =>
    rw [letters_append_singleton]
    cases Instruction.ofChar? c with
    | none => simpa using ih
    | some instruction =>
      refine List.pairwise_append.mpr ⟨ih, List.pairwise_singleton .., ?_⟩
      intro token member last same
      obtain ⟨before, rest, rfl, place⟩ := place_of_mem_letters member
      rw [List.mem_singleton.mp same, place]
      exact Location.precedes_behind_append ..

theorem charAt?_of_mem_letters {text : List Char} {token : Token} (member : token ∈ letters text) :
    Source.charAt? text token.location = some token.instruction.toChar := by
  obtain ⟨before, rest, rfl, place⟩ := place_of_mem_letters member
  have visible : token.instruction.toChar ≠ '\n' := by
    cases token.instruction <;> decide
  rw [place]
  exact Source.charAt?_behind before visible rest

end Token

/-- Reading a text finds every letter once, in order, at the place that the line feeds and the
characters before it tell; so the places increase, and looking one up gives the letter back. What
has been read once is not found again. A program has its places from there. -/
theorem Token.letters_are_found_at_their_places (source : String) :
    let text := source.toList
    let tokens := (ofSource source).toList
    tokens = text.zipIdx.filterMap (fun place => (Instruction.ofChar? place.1).map
      (⟨·, 1 + (text.take place.2).count '\n',
        1 + ((text.take place.2).reverse.takeWhile (· ≠ '\n')).length⟩)) ∧
    tokens.map (·.instruction.toChar) = text.filter (· ∈ Source.alphabet) ∧
    tokens.Pairwise (·.location.Precedes ·.location) ∧
    (∀ token ∈ tokens, Source.charAt? text token.location = some token.instruction.toChar) ∧
    (Cursor.ofSource source).tokens.2.tokens.1 = #[] ∧
    ∀ rule program, Program.parse source rule = .ok program →
      ∀ index, program.get? index = tokens[index]?.map Token.instruction ∧
        program.location? index = tokens[index]?.map Token.location := by
  intro text tokens
  have found : tokens = letters text := toList_ofSource source
  refine ⟨found, ?_, ?_, ?_, ?_, ?_⟩
  · have read : tokens.map Token.instruction = Source.word text := map_instruction_collect text
    rw [← Source.map_toChar_word, ← read, List.map_map]
    rfl
  · rw [found]
    exact pairwise_letters text
  · intro token member
    rw [found] at member
    exact charAt?_of_mem_letters member
  · rw [Cursor.tokens, Cursor.tokens, Cursor.rest_collect]
    rfl
  · intro rule program parsed index
    obtain ⟨rfl, -, -⟩ := Program.eq_of_parse parsed
    simp [tokens, Program.get?, Program.location?]

example : (Token.letters "\n\n+x\r\n-\n".toList).map Token.location = [⟨3, 1⟩, ⟨4, 1⟩] := by
  decide

end ByteTape
