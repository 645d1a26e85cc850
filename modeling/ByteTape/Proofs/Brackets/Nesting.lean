import ByteTape.Proofs.Brackets.Balance

/-! Well-nested brackets, as a grammar. Counting decides membership in it, so both walks
over the code find exactly the bracket with which a well-nested word is enclosed. -/

namespace ByteTape.Brackets

def isBracket (instruction : Instruction) : Bool :=
  instruction = .loopStart || instruction = .loopEnd

def brackets (code : List Instruction) : List Instruction := code.filter isBracket

/-- The words of the grammar S → empty | [ S ] S. -/
inductive Nested : List Instruction → Prop where
  | empty : Nested []
  | loop {inner rest : List Instruction} (body : Nested inner) (after : Nested rest) :
      Nested (.loopStart :: inner ++ .loopEnd :: rest)

/-- No prefix closes more than it opens, and in the end everything is closed. -/
structure Balanced (code : List Instruction) : Prop where
  prefixes : ∀ n, ¬ Overdrawn 0 (code.take n)
  total : code.count .loopStart = code.count .loopEnd

/-- A `[` and a later `]` that belong together. -/
structure Paired (code : List Instruction) (start stop : Nat) : Prop where
  opens : code[start]? = some .loopStart
  closes : code[stop]? = some .loopEnd
  order : start < stop
  between : Nested (brackets ((code.take stop).drop (start + 1)))

private theorem Nested.balanced {word : List Instruction} (nested : Nested word) :
    Balanced word := by
  induction nested with
  | empty => exact ⟨by simp [Overdrawn], rfl⟩
  | @loop inner rest _ _ ihBody ihAfter =>
    constructor
    · intro n overdrawn
      cases n with
      | zero =>
        apply not_overdrawn_nil 0
        simpa using overdrawn
      | succ n =>
        rw [List.cons_append, List.take_succ_cons, overdrawn_loopStart, List.take_append] at overdrawn
        have body := ihBody.prefixes n
        cases later : n - inner.length with
        | zero =>
          rw [later] at overdrawn
          simp only [Overdrawn, List.take_zero, List.append_nil] at overdrawn body
          omega
        | succ m =>
          have whole : inner.take n = inner := List.take_of_length_le (by omega)
          have after := ihAfter.prefixes m
          have total := ihBody.total
          rw [later, whole] at overdrawn
          simp [Overdrawn] at overdrawn after
          omega
    · have body := ihBody.total
      have after := ihAfter.total
      simp
      omega

@[simp] theorem count_loopStart_brackets (code : List Instruction) :
    (brackets code).count .loopStart = code.count .loopStart :=
  List.count_filter rfl

@[simp] theorem count_loopEnd_brackets (code : List Instruction) :
    (brackets code).count .loopEnd = code.count .loopEnd :=
  List.count_filter rfl

@[simp] theorem brackets_append (front back : List Instruction) :
    brackets (front ++ back) = brackets front ++ brackets back :=
  List.filter_append ..

private theorem balanced_of_brackets {code : List Instruction} (word : Balanced (brackets code)) :
    Balanced code := by
  refine ⟨?_, by simpa using word.total⟩
  intro n
  have split : brackets code = brackets (code.take n) ++ brackets (code.drop n) := by
    rw [← brackets_append, List.take_append_drop]
  have fine := word.prefixes (brackets (code.take n)).length
  rw [split, List.take_left] at fine
  simpa [Overdrawn] using fine

theorem FirstOverdrawn.balanced {code : List Instruction} {index : Nat}
    (walk : FirstOverdrawn 0 code index) : Balanced (code.take index) := by
  refine ⟨?_, by simpa using walk.ends.2.symm⟩
  intro n
  rw [List.take_take]
  cases short : min n index with
  | zero => simpa using not_overdrawn_nil 0
  | succ earlier =>
    apply walk.first earlier
    omega

private theorem FirstOverdrawn.split {depth index : Nat} {code : List Instruction}
    (walk : FirstOverdrawn depth code index) :
    code = code.take index ++ .loopEnd :: code.drop (index + 1) := by
  obtain ⟨inside, same⟩ := List.getElem?_eq_some_iff.mp walk.ends.1
  rw [← same, ← List.drop_eq_getElem_cons inside, List.take_append_drop]

private theorem Balanced.behind {inner rest : List Instruction}
    (whole : Balanced (.loopStart :: inner ++ .loopEnd :: rest)) (body : Balanced inner) :
    Balanced rest := by
  have total := whole.total
  have closed := body.total
  constructor
  · intro n
    have fine := whole.prefixes (inner.length + (n + 1) + 1)
    rw [List.cons_append, List.take_succ_cons, List.take_length_add_append] at fine
    simp [Overdrawn] at fine ⊢
    omega
  · simp at total
    omega

private theorem Balanced.tail {instruction : Instruction} {rest : List Instruction}
    (noStart : instruction ≠ .loopStart) (noEnd : instruction ≠ .loopEnd)
    (balanced : Balanced (instruction :: rest)) : Balanced rest := by
  constructor
  · intro n
    have fine := balanced.prefixes (n + 1)
    rwa [List.take_succ_cons, overdrawn_other noStart noEnd] at fine
  · simpa [List.count_cons_of_ne noStart, List.count_cons_of_ne noEnd] using balanced.total

private theorem nested_of_balanced (code : List Instruction) (balanced : Balanced code) :
    Nested (brackets code) := by
  match code, balanced with
  | [], _ => exact .empty
  | instruction :: rest, balanced =>
    by_cases opens : instruction = .loopStart
    · subst opens
      have debt : Overdrawn 0 (rest.take rest.length) := by
        have total := balanced.total
        simp [Overdrawn] at total ⊢
        omega
      obtain ⟨index, walk⟩ := exists_firstOverdrawn debt
      have split : Instruction.loopStart :: rest =
          .loopStart :: rest.take index ++ .loopEnd :: rest.drop (index + 1) :=
        congrArg _ walk.split
      have inner := nested_of_balanced (rest.take index) walk.balanced
      have behind := nested_of_balanced (rest.drop (index + 1))
        (Balanced.behind (split ▸ balanced) walk.balanced)
      rw [split, brackets_append]
      exact inner.loop behind
    · have noEnd : instruction ≠ .loopEnd := by
        intro ends
        subst ends
        apply balanced.prefixes 1
        simp [Overdrawn]
      have skipped : brackets (instruction :: rest) = brackets rest := by
        simp [brackets, isBracket, opens, noEnd]
      rw [skipped]
      exact nested_of_balanced rest (balanced.tail opens noEnd)
termination_by code.length
decreasing_by
  all_goals simp only [List.length_take, List.length_drop, List.length_cons]
  all_goals omega

/-- Well nested is what never is in debt and is even in the end. -/
theorem nested_brackets_iff (code : List Instruction) :
    Nested (brackets code) ↔ Balanced code :=
  ⟨fun nested => balanced_of_brackets nested.balanced, nested_of_balanced code⟩

/-- A walk forward ends at the `]` behind the first well-nested stretch. -/
theorem firstOverdrawn_iff {code : List Instruction} {index : Nat} :
    FirstOverdrawn 0 code index ↔
      code[index]? = some .loopEnd ∧ Balanced (code.take index) := by
  constructor
  · intro walk
    exact ⟨walk.ends.1, walk.balanced⟩
  · rintro ⟨closes, inner⟩
    constructor
    · have total := inner.total
      rw [List.take_add_one, closes]
      simp [Overdrawn]
      omega
    · intro earlier before
      have fine := inner.prefixes (earlier + 1)
      rwa [List.take_take, Nat.min_eq_left before] at fine

theorem closing?_eq_some_iff {code : List Instruction} {start : Nat}
    (opens : code[start]? = some .loopStart) (stop : Nat) :
    closing? code start = some stop ↔ Paired code start stop := by
  rw [closing?, closingFrom_eq_some_iff]
  constructor
  · rintro ⟨n, found, walk⟩
    subst found
    have ends := walk.ends.1
    rw [List.getElem?_drop] at ends
    refine ⟨opens, ends, by omega, ?_⟩
    rw [List.drop_take, Nat.add_sub_cancel_left, nested_brackets_iff]
    exact walk.balanced
  · intro pair
    obtain ⟨n, rfl⟩ := Nat.exists_eq_add_of_le pair.order
    have between := (nested_brackets_iff _).mp pair.between
    rw [List.drop_take, Nat.succ_eq_add_one, Nat.add_sub_cancel_left] at between
    exact ⟨n, rfl, firstOverdrawn_iff.mpr ⟨by rw [List.getElem?_drop]; exact pair.closes, between⟩⟩

theorem closing?_eq_none_iff {code : List Instruction} {start : Nat}
    (opens : code[start]? = some .loopStart) :
    closing? code start = none ↔ ∀ stop, ¬ Paired code start stop := by
  rw [Option.eq_none_iff_forall_ne_some]
  exact forall_congr' fun stop => not_congr (closing?_eq_some_iff opens stop)

/-- Read backwards, well nested is what never opens more than it closes. -/
theorem balanced_iff_suffixes (code : List Instruction) :
    Balanced code ↔ (∀ n, ¬ Unclosed 0 (code.drop n)) ∧
      code.count .loopStart = code.count .loopEnd := by
  have halves (total : code.count .loopStart = code.count .loopEnd) (n : Nat) :
      ¬ Overdrawn 0 (code.take n) ↔ ¬ Unclosed 0 (code.drop n) := by
    rw [← List.take_append_drop n code] at total
    simp only [List.count_append] at total
    simp only [Overdrawn, Unclosed]
    omega
  constructor
  · intro balanced
    exact ⟨fun n => (halves balanced.total n).mp (balanced.prefixes n), balanced.total⟩
  · rintro ⟨suffixes, total⟩
    exact ⟨fun n => (halves total n).mpr (suffixes n), total⟩

theorem lastUnclosed_iff {code : List Instruction} {index : Nat} :
    LastUnclosed 0 code index ↔
      code[index]? = some .loopStart ∧ Balanced (code.drop (index + 1)) := by
  constructor
  · intro walk
    obtain ⟨opens, even⟩ := walk.starts
    refine ⟨opens, (balanced_iff_suffixes _).mpr ⟨?_, by simpa using even⟩⟩
    intro n
    rw [List.drop_drop]
    apply walk.last
    omega
  · rintro ⟨opens, inner⟩
    obtain ⟨inside, same⟩ := List.getElem?_eq_some_iff.mp opens
    obtain ⟨suffixes, total⟩ := (balanced_iff_suffixes _).mp inner
    constructor
    · rw [List.drop_eq_getElem_cons inside, same]
      simp [Unclosed]
      omega
    · intro later behind
      obtain ⟨n, rfl⟩ := Nat.exists_eq_add_of_le behind
      have fine := suffixes n
      rwa [List.drop_drop] at fine

theorem opening?_eq_some_iff {code : List Instruction} {stop : Nat}
    (closes : code[stop]? = some .loopEnd) (start : Nat) :
    opening? code stop = some start ↔ Paired code start stop := by
  rw [opening?, openingFrom_eq_some_iff, lastUnclosed_iff, ← nested_brackets_iff]
  constructor
  · rintro ⟨opens, between⟩
    have order : start < stop := by
      have inside := (List.getElem?_eq_some_iff.mp opens).1
      rw [List.length_take] at inside
      omega
    exact ⟨by rwa [List.getElem?_take_of_lt order] at opens, closes, order, between⟩
  · intro pair
    exact ⟨by rw [List.getElem?_take_of_lt pair.order]; exact pair.opens, pair.between⟩

theorem opening?_eq_none_iff {code : List Instruction} {stop : Nat}
    (closes : code[stop]? = some .loopEnd) :
    opening? code stop = none ↔ ∀ start, ¬ Paired code start stop := by
  rw [Option.eq_none_iff_forall_ne_some]
  exact forall_congr' fun start => not_congr (opening?_eq_some_iff closes start)

end ByteTape.Brackets
