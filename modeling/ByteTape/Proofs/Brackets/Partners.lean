import ByteTape.Brackets.Jumps
import ByteTape.Proofs.Brackets.Nesting

/-! Partners of brackets. The stack of one pass over the code holds, at every place, what all
walks back from there would find, so a finished table answers like the walks. -/

namespace ByteTape.Brackets

def partner? (code : List Instruction) (index : Nat) : Option Nat :=
  match code[index]? with
  | some .loopStart => closing? code index
  | some .loopEnd => opening? code index
  | _ => none

theorem Paired.partner_start {code : List Instruction} {start stop : Nat}
    (pair : Paired code start stop) : partner? code start = some stop := by
  simp only [partner?, pair.opens]
  exact (closing?_eq_some_iff pair.opens stop).mpr pair

theorem Paired.partner_stop {code : List Instruction} {start stop : Nat}
    (pair : Paired code start stop) : partner? code stop = some start := by
  simp only [partner?, pair.closes]
  exact (opening?_eq_some_iff pair.closes start).mpr pair

theorem partner?_eq_some_iff (code : List Instruction) (index other : Nat) :
    partner? code index = some other ↔ Paired code index other ∨ Paired code other index := by
  constructor
  · intro found
    unfold partner? at found
    split at found
    next opens => exact .inl ((closing?_eq_some_iff opens other).mp found)
    next closes => exact .inr ((opening?_eq_some_iff closes other).mp found)
    next => cases found
  · intro pair
    cases pair with
    | inl pair => exact pair.partner_start
    | inr pair => exact pair.partner_stop

theorem Balanced.exists_stop {code : List Instruction} {start : Nat} (balanced : Balanced code)
    (opens : code[start]? = some .loopStart) : ∃ stop, Paired code start stop := by
  obtain ⟨inside, same⟩ := List.getElem?_eq_some_iff.mp opens
  have split : code = code.take start ++ .loopStart :: code.drop (start + 1) := by
    rw [← same, ← List.drop_eq_getElem_cons inside, List.take_append_drop]
  have fine := balanced.prefixes start
  have total := balanced.total
  rw [split] at total
  simp [Overdrawn] at fine total
  by_contra alone
  have nowhere := (closing?_eq_none_iff opens).mpr (not_exists.mp alone)
  rw [closing?, closingFrom_eq_none_iff] at nowhere
  have rest := nowhere (code.drop (start + 1)).length
  rw [List.take_length] at rest
  simp [Overdrawn] at rest
  omega

theorem exists_start_of_not_overdrawn {code : List Instruction} {stop : Nat}
    (fine : ¬ Overdrawn 0 (code.take (stop + 1))) (closes : code[stop]? = some .loopEnd) :
    ∃ start, Paired code start stop := by
  rw [List.take_add_one, closes] at fine
  have unclosed : Unclosed 0 ((code.take stop).drop 0) := by
    simp [Overdrawn] at fine
    simp [Unclosed]
    omega
  obtain ⟨start, walk⟩ := exists_lastUnclosed unclosed
  exact ⟨start, (opening?_eq_some_iff closes start).mp ((openingFrom_eq_some_iff ..).mpr walk)⟩

theorem Balanced.exists_start {code : List Instruction} {stop : Nat} (balanced : Balanced code)
    (closes : code[stop]? = some .loopEnd) : ∃ start, Paired code start stop :=
  exists_start_of_not_overdrawn (balanced.prefixes (stop + 1)) closes

/-- The stack holds what every walk back over the code in front would find. -/
def Remembers (opened : List Nat) (front : List Instruction) : Prop :=
  ∀ depth, opened[depth]? = openingFrom depth front.reverse

private theorem Remembers.open {opened : List Nat} {front : List Instruction}
    (stack : Remembers opened front) :
    Remembers (front.length :: opened) (front ++ [.loopStart]) := by
  intro depth
  rw [List.reverse_append]
  cases depth with
  | zero => simp [openingFrom]
  | succ depth => exact stack depth

private theorem Remembers.close {opened : List Nat} {front : List Instruction}
    (stack : Remembers opened front) : Remembers opened.tail (front ++ [.loopEnd]) := by
  intro depth
  rw [List.reverse_append, List.getElem?_tail]
  exact stack (depth + 1)

private theorem Remembers.pass {opened : List Nat} {front : List Instruction}
    {instruction : Instruction} (stack : Remembers opened front)
    (noStart : instruction ≠ .loopStart) (noEnd : instruction ≠ .loopEnd) :
    Remembers opened (front ++ [instruction]) := by
  intro depth
  rw [List.reverse_append, stack depth]
  cases instruction <;> first | rfl | contradiction

/-- A pass over the rest of the code links each `]` to where a walk back from it leads. -/
private theorem mem_pairing_iff (front code : List Instruction) (opened : List Nat)
    (stack : Remembers opened front) (start stop : Nat) :
    (start, stop) ∈ pairing front.length opened code ↔
      front.length ≤ stop ∧ (front ++ code)[stop]? = some .loopEnd ∧
        opening? (front ++ code) stop = some start := by
  induction code generalizing front opened with
  | nil =>
    simp only [pairing, List.not_mem_nil, List.append_nil, false_iff, not_and]
    intro beyond closes
    rw [List.getElem?_eq_none beyond] at closes
    cases closes
  | cons instruction rest ih =>
    have further (opened : List Nat) (stack : Remembers opened (front ++ [instruction])) :=
      ih (front ++ [instruction]) opened stack
    simp only [List.length_append, List.length_singleton, List.append_assoc,
      List.singleton_append] at further
    have here : (front ++ instruction :: rest)[front.length]? = some instruction := by simp
    by_cases closes : instruction = .loopEnd
    · subst closes
      have back : opening? (front ++ .loopEnd :: rest) front.length = opened[0]? := by
        rw [opening?, List.take_left, stack 0]
      rw [Nat.le_iff_lt_or_eq, or_and_right, ← Nat.succ_le_iff, Nat.succ_eq_add_one]
      cases opened with
      | nil =>
        refine (further [] stack.close).trans ⟨.inl, ?_⟩
        intro choice
        rcases choice with beyond | ⟨same, -, found⟩
        · exact beyond
        · rw [← same, back] at found
          cases found
      | cons top below =>
        simp only [pairing, List.mem_cons, Prod.mk.injEq]
        rw [further below stack.close, or_comm]
        apply or_congr_right
        constructor
        · rintro ⟨first, second⟩
          subst first second
          exact ⟨rfl, here, back⟩
        · rintro ⟨same, _, found⟩
          subst same
          rw [back] at found
          exact ⟨(Option.some.inj found).symm, rfl⟩
    · have skipped : (start, stop) ∈ pairing front.length opened (instruction :: rest) ↔
          front.length + 1 ≤ stop ∧ (front ++ instruction :: rest)[stop]? = some .loopEnd ∧
            opening? (front ++ instruction :: rest) stop = some start := by
        cases instruction with
        | loopStart => exact further (front.length :: opened) stack.open
        | loopEnd => contradiction
        | _ => exact further opened (stack.pass (by simp) (by simp))
      rw [skipped]
      apply and_congr_left
      rintro ⟨ends, _⟩
      refine ⟨Nat.le_of_succ_le, ?_⟩
      intro reached
      apply Nat.lt_of_le_of_ne reached
      intro same
      rw [← same, here] at ends
      exact closes (Option.some.inj ends)

theorem mem_pairing (code : List Instruction) (start stop : Nat) :
    (start, stop) ∈ pairing 0 [] code ↔ Paired code start stop := by
  have all := mem_pairing_iff [] code [] (fun _ => rfl) start stop
  simp only [List.length_nil, List.nil_append, Nat.zero_le, true_and] at all
  rw [all]
  constructor
  · rintro ⟨closes, found⟩
    exact (opening?_eq_some_iff closes start).mp found
  · intro pair
    exact ⟨pair.closes, (opening?_eq_some_iff pair.closes start).mpr pair⟩

namespace Table

private theorem getElem?_foldl_link (partner : Nat → Option Nat) (pairs : List (Nat × Nat))
    (agree : ∀ pair ∈ pairs, partner pair.1 = some pair.2 ∧ partner pair.2 = some pair.1)
    (partners : Std.HashMap Nat Nat) (index : Nat) :
    (pairs.foldl link partners)[index]? =
      if ∃ pair ∈ pairs, index = pair.1 ∨ index = pair.2 then partner index
      else partners[index]? := by
  induction pairs generalizing partners with
  | nil => simp
  | cons pair rest ih =>
    obtain ⟨forward, backward⟩ := agree pair (List.mem_cons_self ..)
    rw [List.foldl_cons, ih (fun other member => agree other (List.mem_cons_of_mem _ member))]
    simp only [List.mem_cons, exists_eq_or_imp, link, Std.HashMap.getElem?_insert, beq_iff_eq]
    by_cases later : ∃ pair ∈ rest, index = pair.1 ∨ index = pair.2
    · simp only [later, or_true, if_true]
    · simp only [later, or_false, if_false]
      by_cases second : pair.2 = index
      · simp [second, ← backward]
      · by_cases first : pair.1 = index
        · simp [second, first, ← forward]
        · simp [first, second, Ne.symm first, Ne.symm second]

theorem target?_ofCode (code : List Instruction) (index : Nat) :
    (ofCode code).target? index = partner? code index := by
  have agree : ∀ pair ∈ pairing 0 [] code,
      partner? code pair.1 = some pair.2 ∧ partner? code pair.2 = some pair.1 := by
    intro pair member
    have paired := (mem_pairing code pair.1 pair.2).mp member
    exact ⟨paired.partner_start, paired.partner_stop⟩
  rw [target?, ofCode, getElem?_foldl_link (partner? code) _ agree]
  split
  next => rfl
  next untouched =>
    rw [Std.HashMap.getElem?_empty, eq_comm, Option.eq_none_iff_forall_ne_some]
    intro other found
    apply untouched
    cases (partner?_eq_some_iff code index other).mp found with
    | inl pair => exact ⟨_, (mem_pairing code index other).mpr pair, .inl rfl⟩
    | inr pair => exact ⟨_, (mem_pairing code other index).mpr pair, .inr rfl⟩

end Table

namespace Jumps

theorem closing?_ofProgram (strategy : JumpStrategy) {program : Program} {index : Nat}
    (opens : program.get? index = some .loopStart) :
    (ofProgram strategy program).closing? index =
      Brackets.closing? program.instructions index := by
  cases strategy with
  | scan => rfl
  | table =>
    rw [Program.get?_eq_getElem?] at opens
    simp only [ofProgram, closing?, Table.ofProgram, Table.target?_ofCode, partner?, opens]

theorem opening?_ofProgram (strategy : JumpStrategy) {program : Program} {index : Nat}
    (closes : program.get? index = some .loopEnd) :
    (ofProgram strategy program).opening? index =
      Brackets.opening? program.instructions index := by
  cases strategy with
  | scan => rfl
  | table =>
    rw [Program.get?_eq_getElem?] at closes
    simp only [ofProgram, opening?, Table.ofProgram, Table.target?_ofCode, partner?, closes]

end Jumps
end ByteTape.Brackets
