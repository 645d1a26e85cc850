import ByteTape.Proofs.Brackets.Partners
import ByteTape.Proofs.Brackets.Walks
import ByteTape.Proofs.Program.Acceptance
import Mathlib.Data.List.Basic

/-! The bracket matching of a program. The finished table holds each pair in both directions and
nothing else; the pairs lie inside or beside each other, and what is left over are first the `]`
that nobody opened and then the `[` that nobody closes. -/

namespace ByteTape.Brackets

theorem Paired.stop_unique {code : List Instruction} {start stop other : Nat}
    (pair : Paired code start stop) (same : Paired code start other) : stop = other :=
  Option.some.inj (pair.partner_start.symm.trans same.partner_start)

private theorem Paired.ne_of_opens {code : List Instruction} {start stop index : Nat}
    (pair : Paired code start stop) (opens : code[index]? = some .loopStart) : stop ≠ index := by
  rintro rfl
  rw [pair.closes] at opens
  cases opens

theorem Paired.within {code : List Instruction} {front back start stop : Nat}
    (pair : Paired ((code.take back).drop front) start stop) :
    front + stop < back ∧ Paired code (front + start) (front + stop) := by
  obtain ⟨opens, closes, order, between⟩ := pair
  have inside := (List.getElem?_eq_some_iff.mp closes).1
  rw [List.length_drop, List.length_take] at inside
  rw [List.getElem?_drop, List.getElem?_take_of_lt (by omega)] at opens closes
  rw [List.take_drop, List.take_take, Nat.min_eq_left (by omega), List.drop_drop] at between
  exact ⟨by omega, opens, closes, by omega, between⟩

theorem Paired.nested_or_disjoint {code : List Instruction} {start stop later last : Nat}
    (pair : Paired code start stop) (other : Paired code later last) (order : start < later) :
    stop < later ∨ last < stop := by
  rcases Nat.lt_or_gt_of_ne (pair.ne_of_opens other.opens) with behind | inside
  · exact .inl behind
  · right
    obtain ⟨n, rfl⟩ := Nat.exists_eq_add_of_le order
    have opens : ((code.take stop).drop (start + 1))[n]? = some .loopStart := by
      rw [List.getElem?_drop, List.getElem?_take_of_lt inside]
      exact other.opens
    obtain ⟨_, found⟩ := ((nested_brackets_iff _).mp pair.between).exists_stop opens
    obtain ⟨bound, same⟩ := found.within
    rwa [other.stop_unique same]

private theorem partner?_of_loopStart {code : List Instruction} {index : Nat}
    (opens : code[index]? = some .loopStart) : partner? code index = closing? code index := by
  rw [partner?, opens]

private theorem partner?_of_loopEnd {code : List Instruction} {index : Nat}
    (closes : code[index]? = some .loopEnd) : partner? code index = opening? code index := by
  rw [partner?, closes]

/-- A `]` without a partner stands before every `[` without one: between them one walk or the other
would have stopped. -/
theorem lone_close_before_lone_open {code : List Instruction} {close start : Nat}
    (closes : code[close]? = some .loopEnd) (opens : code[start]? = some .loopStart)
    (unopened : partner? code close = none) (unclosed : partner? code start = none) :
    close < start := by
  rw [partner?_of_loopEnd closes, opening?_eq_none_iff_empty] at unopened
  rw [partner?_of_loopStart opens, closing?_eq_none_iff_empty] at unclosed
  by_contra behind
  have order : start < close := by
    apply Nat.lt_of_le_of_ne (Nat.not_lt.mp behind)
    rintro rfl
    rw [opens] at closes
    cases closes
  obtain ⟨inside, same⟩ := List.getElem?_eq_some_iff.mp closes
  have within : start < (code.take close).length := by
    rw [List.length_take]
    omega
  have back : (code.take (close + 1)).drop (start + 1) =
      (code.take close).drop (start + 1) ++ [.loopEnd] := by
    rw [List.take_add_one, closes, List.drop_append_of_le_length within]
    rfl
  have front : (code.take close).drop start =
      .loopStart :: (code.take close).drop (start + 1) := by
    rw [List.drop_eq_getElem_cons within, List.getElem_take,
      (List.getElem?_eq_some_iff.mp opens).2]
  have debt : ¬ (start < close ∧ close < code.length ∧ _ < _) :=
    Set.eq_empty_iff_forall_notMem.mp unclosed close
  have excess : ¬ (start < close ∧ _ < _) :=
    Set.eq_empty_iff_forall_notMem.mp unopened start
  rw [back] at debt
  rw [front] at excess
  simp [order, inside] at debt excess
  omega

private theorem le_of_mem_pairing {index : Nat} {opened : List Nat} {code : List Instruction}
    {pair : Nat × Nat} (member : pair ∈ pairing index opened code) : index ≤ pair.2 := by
  induction code generalizing index opened with
  | nil => cases member
  | cons instruction rest ih =>
    cases instruction with
    | loopEnd =>
      cases opened with
      | nil => exact Nat.le_of_succ_le (ih member)
      | cons start opened =>
        cases member with
        | head => exact Nat.le_refl index
        | tail _ member => exact Nat.le_of_succ_le (ih member)
    | _ => exact Nat.le_of_succ_le (ih member)

private theorem pairing_increasing (index : Nat) (opened : List Nat) (code : List Instruction) :
    (pairing index opened code).Pairwise (·.2 < ·.2) := by
  induction code generalizing index opened with
  | nil => exact .nil
  | cons instruction rest ih =>
    cases instruction with
    | loopStart => exact ih (index + 1) (index :: opened)
    | loopEnd =>
      cases opened with
      | nil => exact ih (index + 1) []
      | cons start opened =>
        refine .cons ?_ (ih (index + 1) opened)
        intro pair member
        exact le_of_mem_pairing member
    | _ => exact ih (index + 1) opened

private theorem pairing_disjoint (code : List Instruction) :
    (pairing 0 [] code).Pairwise fun pair other =>
      pair.1 ≠ other.1 ∧ pair.1 ≠ other.2 ∧ pair.2 ≠ other.1 ∧ pair.2 ≠ other.2 := by
  refine (pairing_increasing 0 [] code).imp_of_mem ?_
  intro pair other member there order
  have one := (mem_pairing code pair.1 pair.2).mp member
  have two := (mem_pairing code other.1 other.2).mp there
  refine ⟨?_, (two.ne_of_opens one.opens).symm, one.ne_of_opens two.opens, Nat.ne_of_lt order⟩
  intro same
  rw [← same] at two
  exact Nat.ne_of_lt order (one.stop_unique two)

namespace Table

private theorem foldl_link_eq_insertMany (pairs : List (Nat × Nat))
    (partners : Std.HashMap Nat Nat) :
    pairs.foldl link partners = partners.insertMany (pairs.flatMap fun pair => [pair, pair.swap]) := by
  induction pairs generalizing partners with
  | nil => simp
  | cons pair rest ih =>
    rw [List.foldl_cons, ih, List.flatMap_cons, List.cons_append, List.cons_append,
      Std.HashMap.insertMany_cons, Std.HashMap.insertMany_cons]
    rfl

private theorem size_partners_ofCode (code : List Instruction) :
    (ofCode code).partners.size = 2 * (ofCode code).pairCount := by
  have distinct : ((pairing 0 [] code).flatMap fun pair => [pair, pair.swap]).Pairwise
      fun one other => (one.1 == other.1) = false := by
    rw [List.pairwise_flatMap]
    constructor
    · intro pair member
      have order := ((mem_pairing code pair.1 pair.2).mp member).order
      simp [Nat.ne_of_lt order]
    · refine (pairing_disjoint code).imp ?_
      intro pair other apart
      simpa [Nat.ne_of_lt, and_assoc] using apart
  have size : (ofCode code).partners.size =
      ((pairing 0 [] code).flatMap fun pair => [pair, pair.swap]).length := by
    rw [ofCode, foldl_link_eq_insertMany, Std.HashMap.size_insertMany_list distinct (by simp),
      Std.HashMap.size_empty, Nat.zero_add]
  rw [size, pairCount, ofCode, List.length_flatMap]
  simp only [List.length_cons, List.length_nil, List.map_const', List.sum_replicate_nat]
  exact Nat.mul_comm ..

def linked (table : Table) (code : List Instruction) (instruction : Instruction) : List Nat :=
  (code.idxsOf instruction).filter fun index => (table.target? index).isSome

def lone (table : Table) (code : List Instruction) (instruction : Instruction) : List Nat :=
  (code.idxsOf instruction).filter fun index => (table.target? index).isNone

private theorem mem_linked {code : List Instruction} {instruction : Instruction} {index : Nat} :
    index ∈ (ofCode code).linked code instruction ↔
      code[index]? = some instruction ∧ ∃ other, partner? code index = some other := by
  simp [linked, target?_ofCode, Option.isSome_iff_exists, List.getElem?_eq_some_iff]

private theorem mem_lone {code : List Instruction} {instruction : Instruction} {index : Nat} :
    index ∈ (ofCode code).lone code instruction ↔
      code[index]? = some instruction ∧ partner? code index = none := by
  simp [lone, target?_ofCode, List.getElem?_eq_some_iff]

private theorem length_linked_add_lone (table : Table) (code : List Instruction)
    (instruction : Instruction) :
    (table.linked code instruction).length + (table.lone code instruction).length =
      code.count instruction := by
  have split := List.length_eq_length_filter_add (l := code.idxsOf instruction)
    fun index => (table.target? index).isSome
  simp only [Option.not_isSome] at split
  rw [linked, lone, ← split, List.length_idxsOf]

private theorem length_linked {code : List Instruction} {instruction : Instruction}
    (place : Nat × Nat → Nat)
    (distinct : (pairing 0 [] code).Pairwise fun pair other => place pair ≠ place other)
    (covers : ∀ index, (∃ pair : Nat × Nat, Paired code pair.1 pair.2 ∧ place pair = index) ↔
      index ∈ (ofCode code).linked code instruction) :
    ((ofCode code).linked code instruction).length = (ofCode code).pairCount := by
  have places : ((pairing 0 [] code).map place).Perm ((ofCode code).linked code instruction) := by
    refine (List.perm_ext_iff_of_nodup (List.pairwise_map.mpr distinct) ?_).mpr ?_
    · exact (List.nodup_idxsOf ..).filter _
    · intro index
      simp only [List.mem_map, ← covers, Prod.exists, mem_pairing]
  rw [← places.length_eq, List.length_map]
  rfl

private theorem length_linked_loopStart (code : List Instruction) :
    ((ofCode code).linked code .loopStart).length = (ofCode code).pairCount := by
  refine length_linked Prod.fst ((pairing_disjoint code).imp And.left) ?_
  intro start
  rw [mem_linked]
  constructor
  · rintro ⟨pair, found, rfl⟩
    exact ⟨found.opens, pair.2, found.partner_start⟩
  · rintro ⟨opens, stop, found⟩
    rw [partner?_of_loopStart opens, closing?_eq_some_iff opens] at found
    exact ⟨(start, stop), found, rfl⟩

private theorem length_linked_loopEnd (code : List Instruction) :
    ((ofCode code).linked code .loopEnd).length = (ofCode code).pairCount := by
  refine length_linked Prod.snd ((pairing_increasing 0 [] code).imp Nat.ne_of_lt) ?_
  intro stop
  rw [mem_linked]
  constructor
  · rintro ⟨pair, found, rfl⟩
    exact ⟨found.closes, pair.1, found.partner_stop⟩
  · rintro ⟨closes, start, found⟩
    rw [partner?_of_loopEnd closes, opening?_eq_some_iff closes] at found
    exact ⟨(start, stop), found, rfl⟩

private theorem count_loopStart (code : List Instruction) :
    code.count .loopStart =
      (ofCode code).pairCount + ((ofCode code).lone code .loopStart).length := by
  rw [← length_linked_loopStart, length_linked_add_lone]

private theorem count_loopEnd (code : List Instruction) :
    code.count .loopEnd =
      (ofCode code).pairCount + ((ofCode code).lone code .loopEnd).length := by
  rw [← length_linked_loopEnd, length_linked_add_lone]

end Table

/-- Where a walk over the whole code first is in debt, there stands the first lone `]`. -/
private theorem FirstOverdrawn.isLeast_lone {code : List Instruction} {index : Nat}
    (walk : FirstOverdrawn 0 code index) :
    IsLeast {close | code[close]? = some .loopEnd ∧ partner? code close = none} index := by
  obtain ⟨closes, balanced⟩ := firstOverdrawn_iff.mp walk
  constructor
  · refine ⟨closes, ?_⟩
    rw [partner?_of_loopEnd closes, opening?_eq_none_iff closes]
    intro start pair
    -- the `[` would have to be closed before, where everything is well nested
    have opens : (code.take index)[start]? = some .loopStart := by
      rw [List.getElem?_take_of_lt pair.order]
      exact pair.opens
    obtain ⟨stop, found⟩ := balanced.exists_stop opens
    rw [← List.drop_zero (l := code.take index)] at found
    obtain ⟨before, same⟩ := found.within
    rw [Nat.zero_add, Nat.zero_add] at same
    rw [pair.stop_unique same] at before
    omega
  · rintro close ⟨alone, lone⟩
    by_contra before
    obtain ⟨start, pair⟩ :=
      exists_start_of_not_overdrawn (walk.first close (Nat.not_le.mp before)) alone
    rw [pair.partner_stop] at lone
    cases lone

theorem nested_iff_pairCount {code : List Instruction}
    (even : code.count .loopStart = code.count .loopEnd) :
    Nested (brackets code) ↔ (Table.ofCode code).pairCount = code.count .loopStart := by
  have opened := Table.count_loopStart code
  have closed := Table.count_loopEnd code
  rw [nested_brackets_iff]
  constructor
  · intro balanced
    have all : (Table.ofCode code).lone code .loopStart = [] := by
      rw [List.eq_nil_iff_forall_not_mem]
      intro start member
      obtain ⟨opens, alone⟩ := Table.mem_lone.mp member
      obtain ⟨stop, pair⟩ := balanced.exists_stop opens
      rw [pair.partner_start] at alone
      cases alone
    rw [all, List.length_nil] at opened
    omega
  · intro all
    have closes : (Table.ofCode code).lone code .loopEnd = [] := by
      apply List.eq_nil_of_length_eq_zero
      omega
    refine ⟨?_, even⟩
    intro n overdrawn
    obtain ⟨index, walk⟩ := exists_firstOverdrawn overdrawn
    have member := Table.mem_lone.mpr walk.isLeast_lone.1
    rw [closes] at member
    cases member

theorem parse_nested_iff_pairCount {source : String} {rule : BracketRule} {program : Program}
    (parsed : Program.parse source rule = .ok program) :
    Program.parse source .nested = .ok program ↔
      (Table.ofProgram program).pairCount = program.count .loopStart := by
  obtain ⟨rfl, even, -⟩ := Program.eq_of_parse parsed
  rw [← Program.instructions_ofSource] at even
  refine Iff.trans ⟨Program.nested_of_parse, ?_⟩ (nested_iff_pairCount even)
  rw [Program.instructions_ofSource]
  exact Program.parse_nested

theorem stray_close_is_first_lone {source : String} {rule : BracketRule} {program : Program}
    (parsed : Program.parse source rule = .ok program)
    (missing : (Table.ofProgram program).pairCount ≠ program.count .loopStart) :
    ∃ index location, Program.parse source .nested = .error (.unmatchedClose index location) ∧
      IsLeast {close | program.instructions[close]? = some .loopEnd ∧
        partner? program.instructions close = none} index := by
  obtain ⟨rfl, even, -⟩ := Program.eq_of_parse parsed
  have stray : ¬ Nested (brackets (Source.word source.toList)) := by
    intro nested
    exact missing ((parse_nested_iff_pairCount parsed).mp (Program.parse_nested nested))
  obtain ⟨index, before, -, refused, walk, -, -⟩ := Program.parse_of_stray even stray
  rw [Program.instructions_ofSource]
  exact ⟨index, _, refused, walk.isLeast_lone⟩

/-- The table of a program links a `[` and a later `]` exactly if what is between them is well
nested, and it links both ways. So no bracket is linked to itself, two pairs lie inside or beside
each other, and the lone `]` come before the lone `[`. The pairs are the linked `[`; in an
accepted program they are all of them if it is well nested, and if it is not, the stricter rule
reports the first lone `]`. -/
theorem table_is_the_bracket_matching (program : Program) :
    let table := Table.ofProgram program
    let code := program.instructions
    (∀ start stop, start < stop →
      (table.target? start = some stop ↔ program.get? start = some .loopStart ∧
        program.get? stop = some .loopEnd ∧
        Nested (brackets ((code.take stop).drop (start + 1))))) ∧
    (∀ one other, table.target? other = some one ↔ table.target? one = some other) ∧
    (∀ index, program.get? index ≠ some .loopStart → program.get? index ≠ some .loopEnd →
      table.target? index = none) ∧
    (∀ index, table.target? index ≠ some index) ∧
    (∀ start stop later last, start < stop → later < last → table.target? start = some stop →
      table.target? later = some last → start < later → stop < later ∨ last < stop) ∧
    (∀ close start, close ∈ table.lone code .loopEnd → start ∈ table.lone code .loopStart →
      close < start) ∧
    table.partners.size = 2 * table.pairCount ∧
    table.pairCount = (table.linked code .loopStart).length ∧
    program.count .loopStart = table.pairCount + (table.lone code .loopStart).length ∧
    ∀ source rule, Program.parse source rule = .ok program →
      (table.lone code .loopEnd).length = (table.lone code .loopStart).length ∧
      (Program.parse source .nested = .ok program ↔
        table.pairCount = program.count .loopStart) ∧
      (table.pairCount ≠ program.count .loopStart → ∃ index location,
        Program.parse source .nested = .error (.unmatchedClose index location) ∧
        IsLeast {close | program.get? close = some .loopEnd ∧ table.target? close = none}
          index) := by
  intro table code
  have target (index : Nat) : table.target? index = partner? code index :=
    Table.target?_ofCode code index
  have linked {start stop : Nat} (order : start < stop) :
      table.target? start = some stop ↔ Paired code start stop := by
    rw [target, partner?_eq_some_iff]
    exact or_iff_left fun pair => Nat.lt_asymm order pair.order
  simp only [Program.get?_eq_getElem?]
  refine ⟨?_, ?_, ?_, ?_, ?_, ?_, Table.size_partners_ofCode code,
    (Table.length_linked_loopStart code).symm, Table.count_loopStart code, ?_⟩
  · intro start stop order
    rw [linked order]
    constructor
    · intro pair
      exact ⟨pair.opens, pair.closes, pair.between⟩
    · rintro ⟨opens, closes, between⟩
      exact ⟨opens, closes, order, between⟩
  · intro one other
    simp only [target, partner?_eq_some_iff]
    exact or_comm
  · intro index noStart noEnd
    rw [target, Option.eq_none_iff_forall_ne_some]
    intro other found
    cases (partner?_eq_some_iff code index other).mp found with
    | inl pair => exact noStart pair.opens
    | inr pair => exact noEnd pair.closes
  · intro index found
    rw [target, partner?_eq_some_iff, or_self] at found
    exact Nat.lt_irrefl index found.order
  · intro start stop later last order after pair other
    exact ((linked order).mp pair).nested_or_disjoint ((linked after).mp other)
  · intro close start alone unpaired
    obtain ⟨closes, unopened⟩ := Table.mem_lone.mp alone
    obtain ⟨opens, unclosed⟩ := Table.mem_lone.mp unpaired
    exact lone_close_before_lone_open closes opens unopened unclosed
  · intro source rule parsed
    refine ⟨?_, parse_nested_iff_pairCount parsed, ?_⟩
    · have opened := Table.count_loopStart code
      have closed := Table.count_loopEnd code
      have even : code.count .loopStart = code.count .loopEnd := by
        obtain ⟨rfl, even, -⟩ := Program.eq_of_parse parsed
        rwa [← Program.instructions_ofSource] at even
      rw [even, closed] at opened
      exact Nat.add_left_cancel opened
    · intro missing
      simp only [target]
      exact stray_close_is_first_lone parsed missing

end ByteTape.Brackets
