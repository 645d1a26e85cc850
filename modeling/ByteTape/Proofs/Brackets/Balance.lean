import ByteTape.Brackets.Scan
import Mathlib.Data.List.Induction
import Mathlib.Order.Nat

/-! Walks over brackets, told by counting. Walking forward ends where more loops have been
closed than opened for the first time; walking backward is the mirror image. -/

namespace ByteTape.Brackets

/-- With `depth` loops open where it starts, the code closes more loops than there are. -/
def Overdrawn (depth : Nat) (code : List Instruction) : Prop :=
  depth + code.count .loopStart < code.count .loopEnd

/-- With `depth` loops closed behind its end, the code opens more loops than that. -/
def Unclosed (depth : Nat) (code : List Instruction) : Prop :=
  depth + code.count .loopEnd < code.count .loopStart

instance (depth : Nat) (code : List Instruction) : Decidable (Overdrawn depth code) :=
  inferInstanceAs (Decidable (_ < _))

/-- The code up to and including the instruction at `index` is its shortest overdrawn prefix. -/
structure FirstOverdrawn (depth : Nat) (code : List Instruction) (index : Nat) : Prop where
  overdrawn : Overdrawn depth (code.take (index + 1))
  first : ∀ earlier < index, ¬ Overdrawn depth (code.take (earlier + 1))

structure LastUnclosed (depth : Nat) (code : List Instruction) (index : Nat) : Prop where
  unclosed : Unclosed depth (code.drop index)
  last : ∀ later, index < later → ¬ Unclosed depth (code.drop later)

theorem not_overdrawn_nil (depth : Nat) : ¬ Overdrawn depth [] := by
  simp [Overdrawn]

theorem not_unclosed_nil (depth : Nat) : ¬ Unclosed depth [] := by
  simp [Unclosed]

theorem overdrawn_loopStart (depth : Nat) (code : List Instruction) :
    Overdrawn depth (.loopStart :: code) ↔ Overdrawn (depth + 1) code := by
  simp only [Overdrawn, List.count_cons_self, List.count_cons_of_ne, ne_eq, reduceCtorEq,
    not_false_eq_true]
  omega

theorem overdrawn_loopEnd (depth : Nat) (code : List Instruction) :
    Overdrawn (depth + 1) (.loopEnd :: code) ↔ Overdrawn depth code := by
  simp only [Overdrawn, List.count_cons_self, List.count_cons_of_ne, ne_eq, reduceCtorEq,
    not_false_eq_true]
  omega

theorem overdrawn_other {instruction : Instruction} (noStart : instruction ≠ .loopStart)
    (noEnd : instruction ≠ .loopEnd) (depth : Nat) (code : List Instruction) :
    Overdrawn depth (instruction :: code) ↔ Overdrawn depth code := by
  simp only [Overdrawn, List.count_cons_of_ne noStart, List.count_cons_of_ne noEnd]

/-- Reading one instruction that leaves `after` loops open moves the end of the walk by one. -/
private theorem firstOverdrawn_cons {instruction : Instruction} {depth after : Nat}
    (shift : ∀ code, Overdrawn depth (instruction :: code) ↔ Overdrawn after code)
    (code : List Instruction) (index : Nat) :
    FirstOverdrawn depth (instruction :: code) index ↔
      ∃ n, index = n + 1 ∧ FirstOverdrawn after code n := by
  constructor
  · rintro ⟨overdrawn, first⟩
    cases index with
    | zero => exact absurd ((shift []).mp (by simpa using overdrawn)) (not_overdrawn_nil after)
    | succ n =>
      refine ⟨n, rfl, (shift _).mp (by simpa using overdrawn), ?_⟩
      intro earlier before
      have stays := first (earlier + 1) (by omega)
      rwa [List.take_succ_cons, shift] at stays
  · rintro ⟨n, rfl, overdrawn, first⟩
    refine ⟨by rwa [List.take_succ_cons, shift], ?_⟩
    intro earlier before
    rw [List.take_succ_cons, shift]
    cases earlier with
    | zero => exact not_overdrawn_nil after
    | succ earlier =>
      apply first earlier
      omega

private theorem exists_firstOverdrawn_cons {instruction : Instruction} {depth after : Nat}
    (shift : ∀ code, Overdrawn depth (instruction :: code) ↔ Overdrawn after code)
    (code : List Instruction) (index found : Nat) :
    (∃ n, found = index + n ∧ FirstOverdrawn depth (instruction :: code) n) ↔
      ∃ n, found = index + 1 + n ∧ FirstOverdrawn after code n := by
  simp only [firstOverdrawn_cons shift]
  constructor
  · rintro ⟨_, rfl, n, rfl, first⟩
    exact ⟨n, by omega, first⟩
  · rintro ⟨n, rfl, first⟩
    exact ⟨n + 1, by omega, n, rfl, first⟩

theorem closingFrom_eq_some_iff (depth index : Nat) (code : List Instruction) (found : Nat) :
    closingFrom depth index code = some found ↔
      ∃ n, found = index + n ∧ FirstOverdrawn depth code n := by
  induction code generalizing depth index with
  | nil =>
    simp only [closingFrom, reduceCtorEq, false_iff]
    rintro ⟨n, _, overdrawn, _⟩
    apply not_overdrawn_nil depth
    simpa using overdrawn
  | cons instruction rest ih =>
    cases instruction with
    | loopStart =>
      rw [exists_firstOverdrawn_cons (overdrawn_loopStart depth)]
      exact ih (depth + 1) (index + 1)
    | loopEnd =>
      cases depth with
      | zero =>
        simp only [closingFrom, Option.some.injEq]
        have stops : FirstOverdrawn 0 (.loopEnd :: rest) 0 := ⟨by simp [Overdrawn], by simp⟩
        constructor
        · intro same
          subst same
          exact ⟨0, rfl, stops⟩
        · rintro ⟨n, rfl, -, first⟩
          cases n with
          | zero => rfl
          | succ n =>
            apply absurd stops.overdrawn
            apply first 0
            omega
      | succ depth =>
        rw [exists_firstOverdrawn_cons (overdrawn_loopEnd depth)]
        exact ih depth (index + 1)
    | _ =>
      rw [exists_firstOverdrawn_cons (overdrawn_other (by simp) (by simp) depth)]
      exact ih depth (index + 1)

theorem exists_firstOverdrawn {depth n : Nat} {code : List Instruction}
    (overdrawn : Overdrawn depth (code.take n)) : ∃ index, FirstOverdrawn depth code index := by
  have somewhere : ∃ index, Overdrawn depth (code.take (index + 1)) := by
    cases n with
    | zero => exact absurd overdrawn (by simpa using not_overdrawn_nil depth)
    | succ index => exact ⟨index, overdrawn⟩
  exact ⟨Nat.find somewhere, Nat.find_spec somewhere, fun _ before => Nat.find_min somewhere before⟩

theorem closingFrom_eq_none_iff (depth index : Nat) (code : List Instruction) :
    closingFrom depth index code = none ↔ ∀ n, ¬ Overdrawn depth (code.take n) := by
  rw [Option.eq_none_iff_forall_ne_some]
  constructor
  · intro nowhere n overdrawn
    obtain ⟨found, first⟩ := exists_firstOverdrawn overdrawn
    exact nowhere (index + found) ((closingFrom_eq_some_iff ..).mpr ⟨found, rfl, first⟩)
  · intro fine found walked
    obtain ⟨n, -, first⟩ := (closingFrom_eq_some_iff ..).mp walked
    exact fine (n + 1) first.overdrawn

/-- The shortest overdrawn prefix ends with the `]` that overdraws; up to there the loops that
are opened, and those that were open before, are just all closed. -/
theorem FirstOverdrawn.ends {depth index : Nat} {code : List Instruction}
    (walk : FirstOverdrawn depth code index) :
    code[index]? = some .loopEnd ∧
      (code.take index).count .loopEnd = depth + (code.take index).count .loopStart := by
  have before : ¬ Overdrawn depth (code.take index) := by
    cases index with
    | zero => simpa using not_overdrawn_nil depth
    | succ earlier =>
      apply walk.first earlier
      omega
  have overdrawn := walk.overdrawn
  rw [List.take_add_one] at overdrawn
  cases read : code[index]? with
  | none =>
    rw [read] at overdrawn
    apply absurd overdrawn
    simpa using before
  | some instruction =>
    rw [read] at overdrawn
    simp only [Overdrawn, Option.toList_some, List.count_append] at overdrawn before
    cases instruction <;> simp at overdrawn ⊢ <;> omega

theorem unclosed_loopEnd (depth : Nat) (code : List Instruction) :
    Unclosed depth (code ++ [.loopEnd]) ↔ Unclosed (depth + 1) code := by
  simp only [Unclosed, List.count_append, List.count_singleton_self, List.count_singleton]
  simp
  omega

theorem unclosed_loopStart (depth : Nat) (code : List Instruction) :
    Unclosed (depth + 1) (code ++ [.loopStart]) ↔ Unclosed depth code := by
  simp only [Unclosed, List.count_append, List.count_singleton_self, List.count_singleton]
  simp
  omega

theorem unclosed_other {instruction : Instruction} (noStart : instruction ≠ .loopStart)
    (noEnd : instruction ≠ .loopEnd) (depth : Nat) (code : List Instruction) :
    Unclosed depth (code ++ [instruction]) ↔ Unclosed depth code := by
  simp [Unclosed, List.count_append, noStart, noEnd]

private theorem lastUnclosed_append {instruction : Instruction} {depth after : Nat}
    (shift : ∀ code, Unclosed depth (code ++ [instruction]) ↔ Unclosed after code)
    (code : List Instruction) (index : Nat) :
    LastUnclosed depth (code ++ [instruction]) index ↔ LastUnclosed after code index := by
  have suffix (start : Nat) :
      Unclosed depth ((code ++ [instruction]).drop start) ↔ Unclosed after (code.drop start) := by
    rw [List.drop_append]
    rcases Nat.lt_or_ge code.length start with beyond | inside
    · have gone : [instruction].drop (start - code.length) = [] :=
        List.drop_eq_nil_of_le (by simp; omega)
      rw [gone, List.drop_eq_nil_of_le (Nat.le_of_lt beyond)]
      simp only [List.append_nil, not_unclosed_nil]
    · rw [Nat.sub_eq_zero_of_le inside, List.drop_zero, shift]
  constructor
  · rintro ⟨unclosed, last⟩
    exact ⟨(suffix index).mp unclosed, fun later behind => mt (suffix later).mpr (last later behind)⟩
  · rintro ⟨unclosed, last⟩
    exact ⟨(suffix index).mpr unclosed, fun later behind => mt (suffix later).mp (last later behind)⟩

theorem openingFrom_eq_some_iff (depth : Nat) (code : List Instruction) (found : Nat) :
    openingFrom depth code.reverse = some found ↔ LastUnclosed depth code found := by
  induction code using List.reverseRecOn generalizing depth with
  | nil =>
    simp only [List.reverse_nil, openingFrom, reduceCtorEq, false_iff]
    rintro ⟨unclosed, _⟩
    apply not_unclosed_nil depth
    simpa using unclosed
  | append_singleton code instruction ih =>
    rw [List.reverse_append, List.reverse_singleton, List.singleton_append]
    cases instruction with
    | loopEnd =>
      rw [lastUnclosed_append (unclosed_loopEnd depth)]
      exact ih (depth + 1)
    | loopStart =>
      cases depth with
      | zero =>
        simp only [openingFrom, List.length_reverse, Option.some.injEq]
        have stops : LastUnclosed 0 (code ++ [.loopStart]) code.length := by
          refine ⟨by simp [Unclosed], ?_⟩
          intro later behind
          rw [List.drop_eq_nil_of_le (by simpa [Nat.succ_le_iff] using behind)]
          exact not_unclosed_nil 0
        constructor
        · intro same
          subst same
          exact stops
        · intro walk
          rcases Nat.lt_trichotomy found code.length with before | same | behind
          · exact absurd stops.unclosed (walk.last _ before)
          · exact same.symm
          · exact absurd walk.unclosed (stops.last _ behind)
      | succ depth =>
        rw [lastUnclosed_append (unclosed_loopStart depth)]
        exact ih depth
    | _ =>
      rw [lastUnclosed_append (unclosed_other (by simp) (by simp) depth)]
      exact ih depth

theorem exists_lastUnclosed {depth n : Nat} {code : List Instruction}
    (unclosed : Unclosed depth (code.drop n)) : ∃ index, LastUnclosed depth code index := by
  classical
  have short {later : Nat} (rest : Unclosed depth (code.drop later)) : later ≤ code.length := by
    by_contra beyond
    rw [List.drop_eq_nil_of_le (by omega)] at rest
    exact not_unclosed_nil depth rest
  refine ⟨Nat.findGreatest (fun later => Unclosed depth (code.drop later)) code.length, ?_, ?_⟩
  · exact Nat.findGreatest_spec (P := fun later => Unclosed depth (code.drop later))
      (short unclosed) unclosed
  · intro later behind rest
    exact Nat.findGreatest_is_greatest behind (short rest) rest

/-- The shortest unclosed suffix starts with the `[` that nobody closes; behind it the loops
that are closed, and those that are closed later, are just all opened. -/
theorem LastUnclosed.starts {depth index : Nat} {code : List Instruction}
    (walk : LastUnclosed depth code index) :
    code[index]? = some .loopStart ∧
      (code.drop (index + 1)).count .loopStart =
        depth + (code.drop (index + 1)).count .loopEnd := by
  have behind := walk.last (index + 1) (by omega)
  have unclosed := walk.unclosed
  cases read : code[index]? with
  | none =>
    rw [List.drop_eq_nil_of_le (List.getElem?_eq_none_iff.mp read)] at unclosed
    exact absurd unclosed (not_unclosed_nil depth)
  | some instruction =>
    obtain ⟨inside, same⟩ := List.getElem?_eq_some_iff.mp read
    rw [List.drop_eq_getElem_cons inside, same] at unclosed
    simp only [Unclosed, List.count_cons] at unclosed behind
    cases instruction <;> simp at unclosed ⊢ <;> omega

end ByteTape.Brackets
