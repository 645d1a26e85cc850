import ByteTape.Output.Lines
import Mathlib.Data.List.DropRight
import Mathlib.Data.List.Induction

/-! The lines of an output, told from its bytes as a whole. Taking the bytes one at a time gives
the lines between the line feeds, each cut into pieces of the width. -/

namespace ByteTape.OutputLines

/-- A line in pieces of `width` characters, of which only the last can be shorter. -/
def cut (width : Nat) (line : List Char) : List (List Char) :=
  if 0 < width ∧ width < line.length then line.take width :: cut width (line.drop width)
  else [line]
termination_by line.length
decreasing_by
  rw [List.length_drop]
  omega

/-- The lines that one line takes up on the screen; without a width it stays whole. -/
def wrapped : Option Nat → List Char → List (List Char)
  | none, line => [line]
  | some width, line => cut width line

def lastLine (bytes : List UInt8) : List UInt8 := bytes.rtakeWhile (· ≠ 10)

/-- What the screen shows of the bytes. Carriage returns leave no trace. -/
def rendering (width : Option Nat) (bytes : List UInt8) : List (List Char) :=
  ((bytes.filter (· ≠ 13)).splitOn 10).flatMap fun line => wrapped width (line.map glyph)

/-- The lines with the one that the next character will go to: there is an empty one before
anything has been put out. -/
def shown (output : OutputLines) : List (List Char) :=
  if output.lines = #[] then [[]] else output.lines.toList.map String.toList

theorem cut_of_le {width : Nat} {line : List Char} (fits : line.length ≤ width) :
    cut width line = [line] := by
  rw [cut, if_neg (by omega)]

theorem cut_of_lt {width : Nat} {line : List Char} (positive : 0 < width)
    (long : width < line.length) :
    cut width line = line.take width :: cut width (line.drop width) := by
  rw [cut, if_pos ⟨positive, long⟩]

theorem pos_of_ne_some_zero {width : Nat} (wide : some width ≠ some 0) : 0 < width :=
  Nat.pos_of_ne_zero fun zero => wide (congrArg some zero)

private theorem cut_append_singleton {width : Nat} (positive : 0 < width) (line : List Char)
    (c : Char) :
    ∃ front last, cut width line = front ++ [last] ∧ cut width (line ++ [c]) =
      if width ≤ last.length then front ++ [last, [c]] else front ++ [last ++ [c]] := by
  fun_induction cut width line with
  | case1 line long ih =>
    obtain ⟨front, last, whole, more⟩ := ih
    refine ⟨line.take width :: front, last, by rw [whole]; rfl, ?_⟩
    rw [cut_of_lt positive (by rw [List.length_append]; omega),
      List.take_append_of_le_length (Nat.le_of_lt long.2),
      List.drop_append_of_le_length (Nat.le_of_lt long.2), more]
    split
    · rfl
    · rfl
  | case2 line short =>
    refine ⟨[], line, rfl, ?_⟩
    split
    next full =>
      have filled : line.length = width := by omega
      rw [cut_of_lt positive (by rw [List.length_append, List.length_singleton]; omega), ← filled,
        List.take_left, List.drop_left, cut_of_le (by rw [List.length_singleton]; omega)]
      rfl
    next room =>
      exact cut_of_le (by rw [List.length_append, List.length_singleton]; omega)

/-- A further character goes behind the last piece, or on a piece of its own if that is full. -/
private theorem wrapped_append_singleton {width : Option Nat} (wide : width ≠ some 0)
    (line : List Char)
    (c : Char) : ∃ front last, wrapped width line = front ++ [last] ∧
      wrapped width (line ++ [c]) =
        if width.any (· ≤ last.length) then front ++ [last, [c]] else front ++ [last ++ [c]] := by
  cases width with
  | none => exact ⟨[], line, rfl, rfl⟩
  | some width =>
    simpa only [wrapped, Option.any_some, decide_eq_true_eq] using
      cut_append_singleton (pos_of_ne_some_zero wide) line c

private theorem splitOn_append (bytes : List UInt8) : ∃ front, ∀ more, 10 ∉ more →
    (bytes ++ more).splitOn 10 = front ++ [bytes.rtakeWhile (· ≠ 10) ++ more] := by
  induction bytes using List.reverseRecOn with
  | nil => exact ⟨[], fun more single => List.splitOn_eq_singleton single⟩
  | append_singleton bytes byte ih =>
    by_cases lineFeed : byte = 10
    · subst lineFeed
      refine ⟨bytes.splitOn 10, ?_⟩
      intro more single
      rw [List.append_assoc, List.singleton_append, List.splitOn_append_cons_self,
        List.splitOn_eq_singleton single, List.rtakeWhile_concat_neg _ _ _ (by simp)]
      rfl
    · obtain ⟨front, split⟩ := ih
      refine ⟨front, ?_⟩
      intro more single
      have longer : 10 ∉ byte :: more := by simp [single, Ne.symm lineFeed]
      rw [List.append_assoc, List.singleton_append, split _ longer,
        List.rtakeWhile_concat_pos _ _ _ (by simpa using lineFeed), List.append_assoc,
        List.singleton_append]

private theorem rtakeWhile_filter (bytes : List UInt8) :
    (bytes.filter (· ≠ 13)).rtakeWhile (· ≠ 10) = (lastLine bytes).filter (· ≠ 13) := by
  rw [lastLine]
  induction bytes using List.reverseRecOn with
  | nil => rfl
  | append_singleton bytes byte ih =>
    rw [List.filter_append, List.rtakeWhile_concat]
    by_cases returns : byte = 13
    · subst returns
      simpa using ih
    · by_cases lineFeed : byte = 10
      · subst lineFeed
        simp
      · rw [if_pos (by simpa using lineFeed), List.filter_append, ← ih]
        simp [returns, lineFeed]

theorem rendering_append (width : Option Nat) (bytes : List UInt8) : ∃ front, ∀ more, 10 ∉ more →
    rendering width (bytes ++ more) =
      front ++ wrapped width (((lastLine bytes ++ more).filter (· ≠ 13)).map glyph) := by
  obtain ⟨front, split⟩ := splitOn_append (bytes.filter (· ≠ 13))
  refine ⟨front.flatMap fun line => wrapped width (line.map glyph), ?_⟩
  intro more single
  have kept : 10 ∉ more.filter (· ≠ 13) := fun member => single (List.mem_filter.mp member).1
  rw [rendering, List.filter_append, split _ kept, rtakeWhile_filter, List.filter_append,
    List.flatMap_append, List.flatMap_singleton]

theorem wrapped_nil (width : Option Nat) : wrapped width [] = [[]] := by
  cases width with
  | none => rfl
  | some width => exact cut_of_le (Nat.zero_le width)

private theorem rendering_lineFeed (width : Option Nat) (bytes : List UInt8) :
    rendering width (bytes ++ [10]) = rendering width bytes ++ [[]] := by
  rw [rendering, List.filter_append, List.filter_singleton]
  simp [rendering, List.splitOn_append_cons_self, List.splitOn_nil, wrapped_nil]

@[simp] theorem width_push (output : OutputLines) (byte : UInt8) :
    (output.push byte).width = output.width := by
  unfold push put
  repeat' split
  all_goals rfl

private theorem shown_of_push (width : Option Nat) (lines : Array String) (line : String) :
    shown ⟨width, lines.push line⟩ = lines.toList.map String.toList ++ [line.toList] := by
  rw [shown, if_neg (by simp), Array.toList_push, List.map_append, List.map_singleton]

/-- What is shown last is the empty line at the start or else the last line. -/
theorem cases_of_shown {output : OutputLines} {front : List (List Char)} {last : List Char}
    (now : shown output = front ++ [last]) :
    output.lines = #[] ∧ front = [] ∧ last = [] ∨
      ∃ (earlier : Array String) (line : String), output.lines = earlier.push line ∧
        front = earlier.toList.map String.toList ∧ last = line.toList := by
  obtain ⟨width, lines⟩ := output
  by_cases empty : lines = #[]
  · subst empty
    have pieces : [] ++ [[]] = front ++ [last] := now
    obtain ⟨rfl, same⟩ := List.append_inj' pieces rfl
    exact .inl ⟨rfl, rfl, (List.singleton_inj.mp same).symm⟩
  · obtain ⟨earlier, line, rfl⟩ := Array.exists_push_of_ne_empty empty
    rw [shown_of_push] at now
    obtain ⟨rfl, same⟩ := List.append_inj' now rfl
    exact .inr ⟨earlier, line, rfl, rfl, (List.singleton_inj.mp same).symm⟩

private theorem shown_put {output : OutputLines} (wide : output.width ≠ some 0)
    {front : List (List Char)} {last : List Char} (now : shown output = front ++ [last])
    (c : Char) : shown (output.put c) =
      if output.width.any (· ≤ last.length) then front ++ [last, [c]]
      else front ++ [last ++ [c]] := by
  obtain ⟨rest, rfl, rfl⟩ | ⟨earlier, line, rest, rfl, rfl⟩ := cases_of_shown now
  · obtain ⟨width, lines⟩ := output
    subst rest
    have room : ¬ width.any (· ≤ 0) = true := by
      cases width with
      | none => simp
      | some width => simpa using wide
    refine Eq.trans ?_ (if_neg room).symm
    exact (shown_of_push width #[] _).trans (by rw [String.toList_singleton]; rfl)
  · obtain ⟨width, lines⟩ := output
    subst rest
    simp only [put, isFull, Array.back?_push, String.length_toList]
    split
    · rw [shown_of_push]
      simp
    · have grown : (earlier.push line).modify ((earlier.push line).size - 1) (·.push c) =
          earlier.push (line.push c) := by
        grind
      rw [grown, shown_of_push, String.toList_push]

private theorem shown_lineFeed (output : OutputLines) :
    shown (output.push 10) = shown output ++ [[]] := by
  obtain ⟨width, lines⟩ := output
  rw [push, if_pos rfl]
  by_cases empty : lines = #[]
  · subst empty
    rfl
  · rw [shown_of_push, shown, if_neg empty, if_neg (by simpa using empty)]
    rfl

theorem shown_append_singleton {width : Option Nat} (wide : width ≠ some 0) {bytes : List UInt8}
    {output : OutputLines} (kept : output.width = width)
    (now : shown output = rendering width bytes) (byte : UInt8) :
    shown (output.push byte) = rendering width (bytes ++ [byte]) := by
  by_cases lineFeed : byte = 10
  · subst lineFeed
    rw [shown_lineFeed, now, rendering_lineFeed]
  by_cases returns : byte = 13
  · subst returns
    rw [push, if_neg lineFeed, if_pos rfl, now, rendering, rendering, List.filter_append]
    simp
  rw [push, if_neg lineFeed, if_neg returns]
  obtain ⟨front, grows⟩ := rendering_append width bytes
  have before := grows [] (by simp)
  have after := grows [byte] (by simpa using Ne.symm lineFeed)
  obtain ⟨pieces, last, whole, more⟩ := wrapped_append_singleton wide
    (((lastLine bytes).filter (· ≠ 13)).map glyph) (glyph byte)
  have shape : shown output = front ++ pieces ++ [last] := by
    rw [now, ← List.append_nil bytes, before, List.append_nil, whole, List.append_assoc]
  have further : ((lastLine bytes ++ [byte]).filter (· ≠ 13)).map glyph =
      ((lastLine bytes).filter (· ≠ 13)).map glyph ++ [glyph byte] := by
    rw [List.filter_append, List.map_append, List.filter_cons_of_pos (by simpa using returns)]
    rfl
  rw [shown_put (kept ▸ wide) shape, after, further, more, kept]
  split
  · rw [List.append_assoc]
  · rw [List.append_assoc]

/-- Each byte changes what is shown as it changes the rendering of all bytes so far. -/
theorem shown_foldl_push {width : Option Nat} (wide : width ≠ some 0) (bytes : List UInt8) :
    (bytes.foldl push (start width)).width = width ∧
      shown (bytes.foldl push (start width)) = rendering width bytes := by
  induction bytes using List.reverseRecOn with
  | nil => exact ⟨rfl, by rw [rendering]; simp [wrapped_nil, shown, start]⟩
  | append_singleton bytes byte ih =>
    obtain ⟨kept, now⟩ := ih
    rw [List.foldl_append, List.foldl_cons, List.foldl_nil]
    exact ⟨(width_push ..).trans kept, shown_append_singleton wide kept now byte⟩

private theorem lines_push_eq_empty_iff (output : OutputLines) (byte : UInt8) :
    (output.push byte).lines = #[] ↔ output.lines = #[] ∧ byte = 13 := by
  by_cases lineFeed : byte = 10
  · subst lineFeed
    simp [push]
  by_cases returns : byte = 13
  · simp [push, returns]
  rw [push, if_neg lineFeed, if_neg returns, put]
  split
  · simp [returns]
  next room =>
    have begun : output.lines ≠ #[] := by
      intro empty
      simp [isFull, empty] at room
    simpa [← Array.size_eq_zero_iff, returns] using begun

theorem lines_foldl_push_eq_empty_iff (width : Option Nat) (bytes : List UInt8) :
    (bytes.foldl push (start width)).lines = #[] ↔ ∀ byte ∈ bytes, byte = 13 := by
  induction bytes using List.reverseRecOn with
  | nil => simp [start]
  | append_singleton bytes byte ih =>
    rw [List.foldl_append, List.foldl_cons, List.foldl_nil, lines_push_eq_empty_iff, ih,
      List.forall_mem_append, List.forall_mem_singleton]

theorem flatten_cut (width : Nat) (line : List Char) : (cut width line).flatten = line := by
  fun_induction cut width line with
  | case1 line _ ih => rw [List.flatten_cons, ih, List.take_append_drop]
  | case2 line => rw [List.flatten_singleton]

theorem flatten_wrapped (width : Option Nat) (line : List Char) :
    (wrapped width line).flatten = line := by
  cases width with
  | none => exact List.flatten_singleton
  | some width => exact flatten_cut width line

private theorem length_le_of_mem_cut {width : Nat} (positive : 0 < width) {line piece : List Char}
    (member : piece ∈ cut width line) : piece.length ≤ width := by
  fun_induction cut width line with
  | case1 line long ih =>
    cases member with
    | head => exact List.length_take_le ..
    | tail _ member => exact ih member
  | case2 line short =>
    rw [List.mem_singleton.mp member]
    omega

private theorem flatten_splitOn (bytes : List UInt8) :
    (bytes.splitOn 10).flatten = bytes.filter (· ≠ 10) := by
  induction bytes with
  | nil => rfl
  | cons byte rest ih =>
    rw [List.splitOn_cons_eq_if_modifyHead]
    split
    next lineFeed =>
      rw [List.flatten_cons, ih, List.nil_append, List.filter_cons_of_neg (by simpa using lineFeed)]
    next other =>
      obtain ⟨line, lines, split⟩ := List.exists_cons_of_ne_nil (List.splitOn_ne_nil 10 rest)
      rw [split] at ih ⊢
      rw [List.filter_cons_of_pos (by simpa using other), ← ih]
      rfl

theorem flatten_rendering (width : Option Nat) (bytes : List UInt8) :
    (rendering width bytes).flatten =
      (bytes.filter fun byte => byte ≠ 10 ∧ byte ≠ 13).map glyph := by
  have whole : List.flatten ∘ (fun line => wrapped width (line.map glyph)) =
      List.map glyph :=
    funext fun line => flatten_wrapped width (line.map glyph)
  rw [rendering, List.flatMap_def, List.flatten_flatten, List.map_map, whole, ← List.map_flatten,
    flatten_splitOn, List.filter_filter]
  simp only [Bool.decide_and]

theorem map_toList_lines {width : Option Nat} (wide : width ≠ some 0) {bytes : List UInt8}
    (seen : ∃ byte ∈ bytes, byte ≠ 13) :
    (bytes.foldl push (start width)).lines.toList.map String.toList = rendering width bytes := by
  obtain ⟨byte, member, other⟩ := seen
  rw [← (shown_foldl_push wide bytes).2, shown, if_neg]
  intro empty
  exact other ((lines_foldl_push_eq_empty_iff width bytes).mp empty byte member)

/-- Every byte but line feeds and carriage returns is shown once, in its place. -/
private theorem flatMap_toList_lines {width : Option Nat} (wide : width ≠ some 0)
    (bytes : List UInt8) :
    (bytes.foldl push (start width)).lines.toList.flatMap String.toList =
      (bytes.filter fun byte => byte ≠ 10 ∧ byte ≠ 13).map glyph := by
  by_cases seen : ∃ byte ∈ bytes, byte ≠ 13
  · rw [List.flatMap_def, map_toList_lines wide seen, flatten_rendering]
  · have returns : ∀ byte ∈ bytes, byte = 13 := by simpa using seen
    have hidden : bytes.filter (fun byte => byte ≠ 10 ∧ byte ≠ 13) = [] := by
      rw [List.filter_eq_nil_iff]
      intro byte member
      simp [returns byte member]
    rw [(lines_foldl_push_eq_empty_iff width bytes).mpr returns, hidden]
    rfl

theorem length_le_of_mem_lines {width : Nat} (positive : 0 < width) {bytes : List UInt8}
    {line : String} (member : line ∈ (bytes.foldl push (start (some width))).lines) :
    line.length ≤ width := by
  have wide : some width ≠ some 0 := by
    simpa using Nat.ne_of_gt positive
  have seen : ∃ byte ∈ bytes, byte ≠ 13 := by
    by_contra returns
    rw [(lines_foldl_push_eq_empty_iff _ bytes).mpr (by simpa using returns)] at member
    exact Array.not_mem_empty _ member
  have shown : line.toList ∈ rendering (some width) bytes := by
    rw [← map_toList_lines wide seen]
    exact List.mem_map_of_mem (Array.mem_toList_iff.mpr member)
  obtain ⟨_, -, piece⟩ := List.mem_flatMap.mp shown
  rw [← String.length_toList]
  exact length_le_of_mem_cut positive piece

theorem isBlank_iff (output : OutputLines) :
    output.isBlank ↔ output.lines.toList.flatMap String.toList = [] := by
  rw [isBlank, Array.all_eq_true', List.flatMap_eq_nil_iff]
  simp

theorem isBlank_eq_false {width : Option Nat} (wide : width ≠ some 0) {bytes : List UInt8}
    (seen : ∃ byte ∈ bytes, byte ≠ 10 ∧ byte ≠ 13) :
    (bytes.foldl push (start width)).isBlank = false := by
  obtain ⟨byte, member, other⟩ := seen
  have shown : glyph byte ∈ (bytes.foldl push (start width)).lines.toList.flatMap String.toList := by
    rw [flatMap_toList_lines wide]
    apply List.mem_map_of_mem
    exact List.mem_filter.mpr ⟨member, decide_eq_true other⟩
  apply Bool.eq_false_iff.mpr
  intro blank
  rw [(isBlank_iff _).mp blank] at shown
  exact List.not_mem_nil shown

theorem toNat_glyph {byte : UInt8} (printable : 32 ≤ byte ∧ byte ≤ 126) :
    (glyph byte).toNat = byte.toNat := by
  rw [glyph, if_pos printable]
  rfl

/-- The lines of an output are those between the line feeds without the carriage returns, each in
pieces of the width; there are none as long as there were only carriage returns. So no line is too
long, and what is not a line end is shown once, as itself if it is printable or a blank. -/
theorem lines_are_the_wrapped_bytes {width : Option Nat} (wide : width ≠ some 0)
    (bytes : List UInt8) :
    let output := bytes.foldl push (start width)
    ((∀ byte ∈ bytes, byte = 13) → output.lines = #[]) ∧
    ((∃ byte ∈ bytes, byte ≠ 13) →
      output.lines.toList = (rendering width bytes).map String.ofList) ∧
    (∀ byte, (32 ≤ byte ∧ byte ≤ 126 → (glyph byte).toNat = byte.toNat) ∧
      (¬ (32 ≤ byte ∧ byte ≤ 126) → glyph byte = '·')) ∧
    (∀ limit, width = some limit → ∀ line ∈ output.lines, line.length ≤ limit) ∧
    output.lines.toList.flatMap String.toList =
      (bytes.filter fun byte => byte ≠ 10 ∧ byte ≠ 13).map glyph ∧
    (output.isBlank ↔ ∀ byte ∈ bytes, byte = 10 ∨ byte = 13) := by
  intro output
  have content := flatMap_toList_lines wide bytes
  refine ⟨(lines_foldl_push_eq_empty_iff width bytes).mpr, ?_, ?_, ?_, content, ?_⟩
  · intro seen
    simp [← map_toList_lines wide seen, output]
  · intro byte
    exact ⟨toNat_glyph, fun hidden => if_neg hidden⟩
  · rintro limit rfl line member
    exact length_le_of_mem_lines (pos_of_ne_some_zero wide) member
  · rw [isBlank_iff, content, List.map_eq_nil_iff, List.filter_eq_nil_iff]
    simp [or_iff_not_imp_left]

theorem lines_are_the_wrapped_bytes_full_line :
    let output := [97, 98, 99, 13, 10, 97, 98, 99, 0, 10].foldl push (start (some 3))
    (some 3 : Option Nat) ≠ some 0 ∧ output.lines.toList = ["abc", "abc", "·", ""] := by
  intro output
  have wide : (some 3 : Option Nat) ≠ some 0 := by decide
  obtain ⟨-, lines, -⟩ := lines_are_the_wrapped_bytes wide [97, 98, 99, 13, 10, 97, 98, 99, 0, 10]
  refine ⟨wide, (lines ⟨97, by decide, by decide⟩).trans ?_⟩
  have split : (([97, 98, 99, 13, 10, 97, 98, 99, 0, 10] : List UInt8).filter (· ≠ 13)).splitOn 10 =
      [[97, 98, 99], [97, 98, 99, 0], []] := by decide
  rw [rendering, split, List.flatMap_cons, List.flatMap_cons, List.flatMap_singleton, wrapped,
    cut_of_le (by decide), wrapped, cut_of_lt (by decide) (by decide), cut_of_le (by decide),
    List.map_nil, wrapped_nil]
  rfl

end ByteTape.OutputLines
