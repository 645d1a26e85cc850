import ByteTape.Proofs.Brackets.Nesting
import Mathlib.Order.Bounds.Basic

/-! The ends of the two walks over the code. A walk forward stops at the nearest place by which
more loops have been closed than opened, a walk backward at the nearest place from which on more
have been opened than closed; between two brackets they lead to each other. -/

namespace ByteTape.Brackets

/-- The places behind `index` by which more loops have been closed than opened since. -/
def overdrawnBehind (code : List Instruction) (index : Nat) : Set Nat :=
  {stop | index < stop ∧ stop < code.length ∧
    ((code.take (stop + 1)).drop (index + 1)).count .loopStart <
      ((code.take (stop + 1)).drop (index + 1)).count .loopEnd}

/-- The places before `index` from which on more loops are opened than closed. -/
def unclosedBefore (code : List Instruction) (index : Nat) : Set Nat :=
  {start | start < index ∧
    ((code.take index).drop start).count .loopEnd <
      ((code.take index).drop start).count .loopStart}

/-- The counter of a walk behind what it has read, `none` once the walk is over. An `inward`
bracket raises it, an `outward` one lowers it and, where it stands at zero, ends the walk. It is
an integer, so that nothing in its type keeps it from going below zero. -/
def counter (inward outward : Instruction) (depth : Int) : List Instruction → Option Int
  | [] => some depth
  | instruction :: rest =>
    if instruction = inward then counter inward outward (depth + 1) rest
    else if instruction = outward then
      if depth = 0 then none else counter inward outward (depth - 1) rest
    else counter inward outward depth rest

private theorem forall_take_cons {instruction : Instruction} {rest : List Instruction}
    (fine : List Instruction → Prop) (start : fine []) :
    (∀ n, fine ((instruction :: rest).take n)) ↔ ∀ n, fine (instruction :: rest.take n) := by
  constructor
  · intro all n
    exact all (n + 1)
  · intro all n
    cases n with
    | zero => exact start
    | succ n => exact all n

/-- A walk is under way as long as it has not met more `outward` brackets than it could leave. -/
theorem counter_eq_some_iff {inward outward : Instruction} (distinct : inward ≠ outward)
    (depth : Nat) (read : List Instruction) (value : Int) :
    counter inward outward depth read = some value ↔
      (∀ n, (read.take n).count outward ≤ depth + (read.take n).count inward) ∧
        value = depth + read.count inward - read.count outward := by
  induction read generalizing depth with
  | nil => simp [counter, eq_comm]
  | cons instruction rest ih =>
    rw [forall_take_cons (fun front => front.count outward ≤ depth + front.count inward)
      (by simp)]
    by_cases enters : instruction = inward
    · subst enters
      have deeper := ih (depth + 1)
      rw [counter, if_pos rfl]
      simp only [List.count_cons_self, List.count_cons_of_ne distinct]
      push_cast at deeper ⊢
      rw [deeper]
      apply and_congr
      · apply forall_congr'
        intro n
        omega
      · omega
    · rw [counter, if_neg enters]
      by_cases leaves : instruction = outward
      · subst leaves
        rw [if_pos rfl]
        simp only [List.count_cons_self, List.count_cons_of_ne enters]
        cases depth with
        | zero =>
          simp only [Int.ofNat_zero, if_true, reduceCtorEq, false_iff, not_and]
          intro fine
          have here := fine 0
          simp at here
        | succ depth =>
          rw [if_neg (by omega), Int.natCast_succ, Int.add_sub_cancel, ih depth]
          apply and_congr
          · apply forall_congr'
            intro n
            omega
          · push_cast
            omega
      · rw [if_neg leaves, ih depth]
        simp only [List.count_cons_of_ne enters, List.count_cons_of_ne leaves]

theorem counter_nonneg {inward outward : Instruction} (distinct : inward ≠ outward)
    {read : List Instruction} {value : Int}
    (walking : counter inward outward 0 read = some value) : 0 ≤ value := by
  obtain ⟨fine, rfl⟩ := (counter_eq_some_iff distinct 0 read value).mp walking
  have whole := fine read.length
  rw [List.take_length] at whole
  omega

/-- As long as a walk forward is under way, it goes on with the loops that its counter counts. -/
private theorem closingFrom_append (depth index : Nat) {front : List Instruction} {value : Int}
    (walking : counter .loopStart .loopEnd depth front = some value) (rest : List Instruction) :
    closingFrom depth index (front ++ rest) =
      closingFrom value.toNat (index + front.length) rest := by
  induction front generalizing depth index with
  | nil =>
    cases walking
    rfl
  | cons instruction front ih =>
    rw [List.length_cons, ← Nat.add_assoc, Nat.add_right_comm]
    cases instruction with
    | loopStart => exact ih (depth + 1) (index + 1) walking
    | loopEnd =>
      cases depth with
      | zero => cases walking
      | succ depth =>
        rw [counter, if_neg (by decide), if_pos rfl, if_neg (by omega), Int.natCast_succ,
          Int.add_sub_cancel] at walking
        exact ih depth (index + 1) walking
    | _ => exact ih depth (index + 1) walking

private theorem openingFrom_append (depth : Nat) {front : List Instruction} {value : Int}
    (walking : counter .loopEnd .loopStart depth front = some value) (rest : List Instruction) :
    openingFrom depth (front ++ rest) = openingFrom value.toNat rest := by
  induction front generalizing depth with
  | nil =>
    cases walking
    rfl
  | cons instruction front ih =>
    cases instruction with
    | loopEnd => exact ih (depth + 1) walking
    | loopStart =>
      cases depth with
      | zero => cases walking
      | succ depth =>
        rw [counter, if_neg (by decide), if_pos rfl, if_neg (by omega), Int.natCast_succ,
          Int.add_sub_cancel] at walking
        exact ih depth walking
    | _ => exact ih depth walking

private theorem closing?_resumes {code : List Instruction} {index n : Nat} {value : Int}
    (walking : counter .loopStart .loopEnd 0 ((code.drop (index + 1)).take n) = some value) :
    closing? code index =
      closingFrom value.toNat (index + 1 + n) (code.drop (index + 1 + n)) := by
  rw [closing?, ← List.take_append_drop n (code.drop (index + 1)),
    closingFrom_append 0 (index + 1) walking, List.drop_drop]
  rcases Nat.le_total n (code.drop (index + 1)).length with inside | beyond
  · rw [List.length_take_of_le inside]
  · rw [List.length_drop] at beyond
    have nothing : code.drop (index + 1 + n) = [] := List.drop_eq_nil_of_le (by omega)
    rw [nothing]
    rfl

private theorem opening?_resumes {code : List Instruction} {index n : Nat} {value : Int}
    (walking : counter .loopEnd .loopStart 0 ((code.take index).reverse.take n) = some value) :
    opening? code index = openingFrom value.toNat ((code.take index).reverse.drop n) := by
  rw [opening?, ← List.take_append_drop n (code.take index).reverse,
    openingFrom_append 0 walking, List.take_append_drop]

private theorem counter_forward_iff (read : List Instruction) :
    counter .loopStart .loopEnd 0 read = some 0 ↔ Balanced read := by
  refine (counter_eq_some_iff (by decide) 0 read 0).trans ?_
  constructor
  · rintro ⟨fine, even⟩
    refine ⟨?_, by omega⟩
    intro n
    rw [Overdrawn, Nat.not_lt]
    exact fine n
  · intro balanced
    refine ⟨?_, by simp [balanced.total]⟩
    intro n
    rw [← Nat.not_lt]
    exact balanced.prefixes n

private theorem counter_backward_iff (read : List Instruction) :
    counter .loopEnd .loopStart 0 read.reverse = some 0 ↔ Balanced read := by
  refine (counter_eq_some_iff (by decide) 0 read.reverse 0).trans ?_
  rw [balanced_iff_suffixes, List.count_reverse, List.count_reverse]
  apply and_congr
  · simp only [Unclosed, Nat.not_lt, List.take_reverse, List.count_reverse]
    constructor
    · intro fine n
      have here := fine (read.length - n)
      rcases Nat.le_total n read.length with inside | beyond
      · rwa [Nat.sub_sub_self inside] at here
      · rw [List.drop_eq_nil_of_le beyond]
        exact Nat.zero_le _
    · intro fine n
      exact fine (read.length - n)
  · omega

theorem closing?_eq_some_iff_counter (code : List Instruction) (index stop : Nat) :
    closing? code index = some stop ↔ index < stop ∧ code[stop]? = some .loopEnd ∧
      counter .loopStart .loopEnd 0 ((code.take stop).drop (index + 1)) = some 0 := by
  rw [closing?, closingFrom_eq_some_iff, counter_forward_iff]
  simp only [firstOverdrawn_iff, List.getElem?_drop]
  constructor
  · rintro ⟨n, rfl, closes, balanced⟩
    refine ⟨by omega, closes, ?_⟩
    rwa [List.drop_take, Nat.add_sub_cancel_left]
  · rintro ⟨order, closes, balanced⟩
    obtain ⟨n, rfl⟩ := Nat.exists_eq_add_of_le order
    rw [List.drop_take, Nat.succ_eq_add_one, Nat.add_sub_cancel_left] at balanced
    exact ⟨n, rfl, closes, balanced⟩

theorem opening?_eq_some_iff_counter (code : List Instruction) (index start : Nat) :
    opening? code index = some start ↔ start < index ∧ code[start]? = some .loopStart ∧
      counter .loopEnd .loopStart 0 ((code.take index).drop (start + 1)).reverse = some 0 := by
  rw [opening?, openingFrom_eq_some_iff, lastUnclosed_iff, counter_backward_iff]
  constructor
  · rintro ⟨opens, balanced⟩
    have order : start < index := by
      have inside := (List.getElem?_eq_some_iff.mp opens).1
      rw [List.length_take] at inside
      omega
    exact ⟨order, by rwa [List.getElem?_take_of_lt order] at opens, balanced⟩
  · rintro ⟨order, opens, balanced⟩
    exact ⟨by rwa [List.getElem?_take_of_lt order], balanced⟩

theorem closing?_eq_some_iff_isLeast (code : List Instruction) (index stop : Nat) :
    closing? code index = some stop ↔ IsLeast (overdrawnBehind code index) stop := by
  have overdrawn (n : Nat) : Overdrawn 0 ((code.drop (index + 1)).take (n + 1)) ↔
      ((code.take (index + 1 + n + 1)).drop (index + 1)).count .loopStart <
        ((code.take (index + 1 + n + 1)).drop (index + 1)).count .loopEnd := by
    rw [List.drop_take, Nat.add_assoc (index + 1), Nat.add_sub_cancel_left, Overdrawn, Nat.zero_add]
  rw [closing?, closingFrom_eq_some_iff]
  constructor
  · rintro ⟨n, rfl, walk⟩
    have inside := (List.getElem?_eq_some_iff.mp walk.ends.1).1
    rw [List.length_drop] at inside
    refine ⟨⟨by omega, by omega, (overdrawn n).mp walk.overdrawn⟩, ?_⟩
    rintro other ⟨behind, -, excess⟩
    obtain ⟨m, rfl⟩ := Nat.exists_eq_add_of_le behind
    by_contra earlier
    exact walk.first m (by omega) ((overdrawn m).mpr excess)
  · rintro ⟨⟨behind, inside, excess⟩, least⟩
    obtain ⟨n, rfl⟩ := Nat.exists_eq_add_of_le behind
    refine ⟨n, rfl, (overdrawn n).mpr excess, ?_⟩
    intro earlier before debt
    have reached := least ⟨by omega, by omega, (overdrawn earlier).mp debt⟩
    omega

private theorem mem_unclosedBefore_iff (code : List Instruction) (index start : Nat) :
    start ∈ unclosedBefore code index ↔ Unclosed 0 ((code.take index).drop start) := by
  rw [Unclosed, Nat.zero_add]
  refine and_iff_right_of_imp ?_
  intro excess
  by_contra beyond
  rw [List.drop_eq_nil_of_le (by rw [List.length_take]; omega)] at excess
  exact Nat.lt_irrefl _ excess

theorem opening?_eq_some_iff_isGreatest (code : List Instruction) (index start : Nat) :
    opening? code index = some start ↔ IsGreatest (unclosedBefore code index) start := by
  rw [opening?, openingFrom_eq_some_iff]
  constructor
  · rintro ⟨excess, last⟩
    refine ⟨(mem_unclosedBefore_iff ..).mpr excess, ?_⟩
    intro other member
    by_contra behind
    exact last other (by omega) ((mem_unclosedBefore_iff ..).mp member)
  · rintro ⟨member, greatest⟩
    refine ⟨(mem_unclosedBefore_iff ..).mp member, ?_⟩
    intro later behind excess
    have reached := greatest ((mem_unclosedBefore_iff ..).mpr excess)
    omega

theorem closing?_eq_none_iff_empty (code : List Instruction) (index : Nat) :
    closing? code index = none ↔ overdrawnBehind code index = ∅ := by
  classical
  rw [Option.eq_none_iff_forall_ne_some, Set.eq_empty_iff_forall_notMem]
  constructor
  · intro nowhere stop member
    exact nowhere _ ((closing?_eq_some_iff_isLeast ..).mpr (Nat.isLeast_find ⟨stop, member⟩))
  · intro fine stop found
    exact fine stop ((closing?_eq_some_iff_isLeast ..).mp found).1

theorem opening?_eq_none_iff_empty (code : List Instruction) (index : Nat) :
    opening? code index = none ↔ unclosedBefore code index = ∅ := by
  rw [Option.eq_none_iff_forall_ne_some, Set.eq_empty_iff_forall_notMem]
  constructor
  · intro nowhere start member
    obtain ⟨last, walk⟩ := exists_lastUnclosed ((mem_unclosedBefore_iff ..).mp member)
    exact nowhere last ((openingFrom_eq_some_iff ..).mpr walk)
  · intro fine start found
    exact fine start ((opening?_eq_some_iff_isGreatest ..).mp found).1

/-- A walk forward stops at the nearest place by which more has been closed than opened behind its
start, a walk backward at the nearest from which on more is opened than closed before it, and
where there is none they find nothing. On the way each goes on with what its counter has come to,
which is never below zero, and ends where the counter is back there. From a `[` and a `]` they
find each other or neither, with well-nested brackets in between. -/
theorem walks_stop_at_the_nearest_excess (code : List Instruction) (index : Nat) :
    (∀ stop, closing? code index = some stop ↔ IsLeast (overdrawnBehind code index) stop) ∧
    (closing? code index = none ↔ overdrawnBehind code index = ∅) ∧
    (code.length ≤ index → closing? code index = none) ∧
    (index ≤ code.length →
      (∀ start, opening? code index = some start ↔
        IsGreatest (unclosedBefore code index) start) ∧
      (opening? code index = none ↔ unclosedBefore code index = ∅)) ∧
    (∀ n depth, counter .loopStart .loopEnd 0 ((code.drop (index + 1)).take n) = some depth →
      0 ≤ depth ∧ closing? code index =
        closingFrom depth.toNat (index + 1 + n) (code.drop (index + 1 + n))) ∧
    (∀ n depth, counter .loopEnd .loopStart 0 ((code.take index).reverse.take n) = some depth →
      0 ≤ depth ∧ opening? code index =
        openingFrom depth.toNat ((code.take index).reverse.drop n)) ∧
    (∀ stop, closing? code index = some stop ↔ index < stop ∧ code[stop]? = some .loopEnd ∧
      counter .loopStart .loopEnd 0 ((code.take stop).drop (index + 1)) = some 0) ∧
    (∀ start, opening? code index = some start ↔ start < index ∧ code[start]? = some .loopStart ∧
      counter .loopEnd .loopStart 0 ((code.take index).drop (start + 1)).reverse = some 0) ∧
    (∀ other, code[index]? = some .loopStart → code[other]? = some .loopEnd →
      (closing? code index = some other ↔ opening? code other = some index) ∧
      (closing? code index = some other →
        index < other ∧ Nested (brackets ((code.take other).drop (index + 1))))) := by
  refine ⟨closing?_eq_some_iff_isLeast code index, closing?_eq_none_iff_empty code index, ?_, ?_,
    ?_, ?_, closing?_eq_some_iff_counter code index, opening?_eq_some_iff_counter code index, ?_⟩
  · intro beyond
    rw [closing?_eq_none_iff_empty, Set.eq_empty_iff_forall_notMem]
    rintro stop ⟨behind, inside, -⟩
    omega
  · intro _
    exact ⟨opening?_eq_some_iff_isGreatest code index, opening?_eq_none_iff_empty code index⟩
  · intro n depth walking
    exact ⟨counter_nonneg (by decide) walking, closing?_resumes walking⟩
  · intro n depth walking
    exact ⟨counter_nonneg (by decide) walking, opening?_resumes walking⟩
  · intro other opens closes
    rw [closing?_eq_some_iff opens, opening?_eq_some_iff closes]
    exact ⟨Iff.rfl, fun pair => ⟨pair.order, pair.between⟩⟩

end ByteTape.Brackets
