import ByteTape.Tape
import Mathlib.Data.List.DropRight
import Mathlib.Data.List.Induction

/-! Any work on a tape, told from what was tried as a whole. The pointer is where the moves that were
accepted have taken it, and a cell holds what was done while the pointer was on it. -/

namespace ByteTape.Tape

inductive Action where
  | right
  | left
  | increment
  | decrement
  | set (value : UInt8)
  deriving DecidableEq

namespace Action

def effect (value : UInt8) : Action → UInt8
  | increment => value + 1
  | decrement => value - 1
  | set given => given
  | right | left => value

def value? : Action → Option UInt8
  | set value => some value
  | _ => none

/-- The last value that the actions set, zero if they set none. -/
def lastSet (actions : List Action) : UInt8 := (actions.filterMap value?).getLast?.getD 0

/-- The actions since a value was set last. -/
def sinceSet (actions : List Action) : List Action := actions.rtakeWhile (·.value?.isNone)

section
variable (actions : List Action)

private theorem lastSet_append_set (value : UInt8) : lastSet (actions ++ [set value]) = value := by
  simp [lastSet, value?]

private theorem sinceSet_append_set (value : UInt8) : sinceSet (actions ++ [set value]) = [] :=
  List.rtakeWhile_concat_neg _ _ _ (by simp [value?])

private theorem lastSet_append_other {action : Action} (other : action.value? = none) :
    lastSet (actions ++ [action]) = lastSet actions := by
  simp [lastSet, other]

private theorem sinceSet_append_other {action : Action} (other : action.value? = none) :
    sinceSet (actions ++ [action]) = sinceSet actions ++ [action] :=
  List.rtakeWhile_concat_pos _ _ _ (by simp [other])

/-- Done one after the other on a cell that was zero, the actions leave the last value set there with
the increments since then added and the decrements taken away. -/
theorem toNat_foldl_effect : ((actions.foldl effect 0).toNat : Int) =
    ((lastSet actions).toNat + (sinceSet actions).count increment -
      (sinceSet actions).count decrement) % 256 := by
  induction actions using List.reverseRecOn with
  | nil => rfl
  | append_singleton actions action ih =>
    rw [List.foldl_append, List.foldl_cons, List.foldl_nil]
    cases action with
    | set value =>
      have small : value.toNat < 256 := value.toNat_lt
      rw [lastSet_append_set, sinceSet_append_set, effect, List.count_nil, List.count_nil]
      omega
    | right | left | increment | decrement =>
      rw [lastSet_append_other actions rfl, sinceSet_append_other actions rfl, List.count_append,
        List.count_append]
      simp [effect, UInt8.toNat_add, UInt8.toNat_sub]
      omega

end

end Action

def attempt (tape : Tape) : Action → Except MoveError Tape
  | .right => tape.moveRight
  | .left => tape.moveLeft
  | .increment => .ok tape.increment
  | .decrement => .ok tape.decrement
  | .set value => .ok (tape.setCurrent value)

/-- The tape after an action. One that is refused leaves it as it was. -/
def act (tape : Tape) (action : Action) : Tape := (tape.attempt action).toOption.getD tape

def after (tape : Tape) (actions : List Action) : Tape := actions.foldl act tape

structure Attempt where
  action : Action
  pointer : Nat
  accepted : Bool

def tried (tape : Tape) (action : Action) : Attempt :=
  ⟨action, tape.pointer, (tape.attempt action).isOk⟩

def attempts (tape : Tape) : List Action → List Attempt
  | [] => []
  | action :: rest => tape.tried action :: attempts (tape.act action) rest

def accepted (action : Action) (past : List Attempt) : Nat :=
  past.countP fun attempt => attempt.action = action ∧ attempt.accepted

def doneAt (cell : Nat) (past : List Attempt) : List Action :=
  (past.filter (·.pointer = cell)).map Attempt.action

private theorem attempt_right_eq_error_iff {tape : Tape} {refused : MoveError} :
    tape.attempt .right = .error refused ↔
      tape.pointer = tape.size - 1 ∧ refused = .overflow tape.pointer tape.size := by
  have inside := tape.pointer_lt_size
  have last : tape.pointer + 1 = tape.size ↔ tape.pointer = tape.size - 1 := by omega
  rw [attempt, moveRight_eq_error_iff, last]

private theorem act_of_error {tape : Tape} {action : Action} {refused : MoveError}
    (refuses : tape.attempt action = .error refused) : tape.act action = tape := by
  rw [act, refuses]
  rfl

theorem after_append_singleton (tape : Tape) (actions : List Action) (action : Action) :
    tape.after (actions ++ [action]) = (tape.after actions).act action := by
  rw [after, List.foldl_append]
  rfl

theorem attempts_append_singleton (tape : Tape) (actions : List Action) (action : Action) :
    tape.attempts (actions ++ [action]) =
      tape.attempts actions ++ [(tape.after actions).tried action] := by
  induction actions generalizing tape with
  | nil => rfl
  | cons first rest ih => exact congrArg (tape.tried first :: ·) (ih (tape.act first))

theorem accepted_append (action : Action) (past more : List Attempt) :
    accepted action (past ++ more) = accepted action past + accepted action more :=
  List.countP_append

theorem doneAt_append_tried (cell : Nat) (past : List Attempt) (tape : Tape) (action : Action) :
    doneAt cell (past ++ [tape.tried action]) =
      if tape.pointer = cell then doneAt cell past ++ [action] else doneAt cell past := by
  rw [doneAt, List.filter_append, List.map_append]
  split
  next here => simp [doneAt, tried, here]
  next away => simp [doneAt, tried, away]

section
variable (tape : Tape) (action : Action)

/-- An accepted move takes the pointer one cell on, and nothing else moves it. -/
theorem pointer_act : ((tape.act action).pointer : Int) =
    tape.pointer + accepted .right [tape.tried action] - accepted .left [tape.tried action] := by
  cases action with
  | right =>
    by_cases inside : tape.pointer + 1 < tape.cells.size
    · simp [act, attempt, moveRight, inside, accepted, tried, Except.isOk, Except.toBool,
        Except.toOption]
    · simp [act, attempt, moveRight, inside, accepted, tried, Except.isOk, Except.toBool,
        Except.toOption]
  | left =>
    by_cases first : tape.pointer = 0
    · simp [act, attempt, moveLeft, first, accepted, tried, Except.isOk, Except.toBool,
        Except.toOption]
    · simp [act, attempt, moveLeft, first, accepted, tried, Except.isOk, Except.toBool,
        Except.toOption]
      omega
  | increment | decrement | set =>
    simp [act, attempt, increment, decrement, setCurrent, accepted, tried, Except.toOption]

private theorem getElem?_cells_pointer : tape.cells[tape.pointer]? = some tape.current :=
  getElem?_pos tape.cells tape.pointer tape.pointer_lt

theorem getElem?_cells_act (cell : Nat) : (tape.act action).cells[cell]? =
    if tape.pointer = cell then some (action.effect tape.current) else tape.cells[cell]? := by
  have same : tape.cells[cell]? =
      if tape.pointer = cell then some tape.current else tape.cells[cell]? := by
    split
    next here => rw [← here, getElem?_cells_pointer]
    next => rfl
  cases action with
  | right =>
    have kept : (tape.act .right).cells = tape.cells := by
      simp only [act, attempt, moveRight]
      split <;> rfl
    rw [kept]
    exact same
  | left =>
    have kept : (tape.act .left).cells = tape.cells := by
      simp only [act, attempt, moveLeft]
      split <;> rfl
    rw [kept]
    exact same
  | increment | decrement | set => exact tape.getElem?_cells_setCurrent _ cell

@[simp] theorem size_act : (tape.act action).size = tape.size := by
  cases action with
  | right =>
    simp only [act, attempt, moveRight]
    split <;> rfl
  | left =>
    simp only [act, attempt, moveLeft]
    split <;> rfl
  | increment | decrement | set => exact tape.size_setCurrent _

end

section
variable (tape : Tape) (actions : List Action)

theorem size_after : (tape.after actions).size = tape.size := by
  induction actions using List.reverseRecOn with
  | nil => rfl
  | append_singleton actions action ih => rw [after_append_singleton, size_act, ih]

theorem pointer_after : ((tape.after actions).pointer : Int) = tape.pointer +
    accepted .right (tape.attempts actions) - accepted .left (tape.attempts actions) := by
  induction actions using List.reverseRecOn with
  | nil => simp [after, attempts, accepted]
  | append_singleton actions action ih =>
    rw [after_append_singleton, pointer_act, ih, attempts_append_singleton, accepted_append,
      accepted_append]
    omega

/-- A cell has taken what was done on it, in that order, and nothing else. -/
theorem getElem?_cells_after (cell : Nat) : (tape.after actions).cells[cell]? =
    tape.cells[cell]?.map fun value =>
      (doneAt cell (tape.attempts actions)).foldl Action.effect value := by
  induction actions using List.reverseRecOn with
  | nil => simp [after, attempts, doneAt]
  | append_singleton actions action ih =>
    rw [after_append_singleton, getElem?_cells_act, attempts_append_singleton, doneAt_append_tried]
    split
    next here =>
      subst here
      rw [getElem?_cells_pointer] at ih
      obtain ⟨value, held, worked⟩ := Option.map_eq_some_iff.mp ih.symm
      rw [held, Option.map_some, List.foldl_append, worked]
      rfl
    next away => exact ih

end

/-- A tape is an array of numbers modulo 256 with a pointer that stays on it. Whatever was tried on a
blank tape, the pointer has gone as far as the accepted moves take it; moves beyond either end are
refused, and only those; and each cell holds the last value set while the pointer was on it, with what
was counted up and down there since then. -/
theorem cells_hold_what_was_done_there {size : Nat} (positive : 0 < size) (actions : List Action) :
    let tape := (blank size positive).after actions
    let past := (blank size positive).attempts actions
    tape.size = size ∧
    tape.pointer < size ∧
    (tape.pointer : Int) = accepted .right past - accepted .left past ∧
    (∀ error, tape.attempt .right = .error error ↔
      tape.pointer = size - 1 ∧ error = .overflow tape.pointer size) ∧
    (∀ error, tape.attempt .left = .error error ↔ tape.pointer = 0 ∧ error = .underflow) ∧
    (∀ action error, tape.attempt action = .error error → tape.act action = tape) ∧
    ∀ cell < size, ∃ value, tape.cells[cell]? = some value ∧
      let work := doneAt cell past
      (value.toNat : Int) = ((Action.lastSet work).toNat + (Action.sinceSet work).count .increment -
        (Action.sinceSet work).count .decrement) % 256 := by
  intro tape past
  have kept : tape.size = size := by rw [size_after, size_blank]
  have inside := tape.pointer_lt_size
  have walked : (tape.pointer : Int) = _ := pointer_after ..
  refine ⟨kept, kept ▸ inside, ?_, ?_, ?_, fun action error => act_of_error, ?_⟩
  · rw [walked]
    exact congrArg (· - _) (Int.zero_add _)
  · intro error
    rw [attempt_right_eq_error_iff, kept]
  · intro error
    exact moveLeft_eq_error_iff
  · intro cell before
    have zero : (blank size positive).cells[cell]? = some 0 := by
      simp [blank, before]
    refine ⟨(doneAt cell past).foldl Action.effect 0, ?_, Action.toNat_foldl_effect _⟩
    rw [getElem?_cells_after, zero]
    rfl

theorem cells_hold_what_was_done_there_both_ends :
    let actions := [.set 255, .increment, .right, .right, .decrement, .left, .left, .increment]
    let tape := (blank 2 Nat.two_pos).after actions
    0 < 2 ∧ (tape.pointer : Int) = 1 - 1 ∧
      (∃ value, tape.cells[0]? = some value ∧ (value.toNat : Int) = (255 + 2 - 0) % 256) ∧
      ∃ value, tape.cells[1]? = some value ∧ (value.toNat : Int) = (0 + 0 - 1) % 256 := by
  intro actions tape
  obtain ⟨-, -, walked, -, -, -, held⟩ := cells_hold_what_was_done_there Nat.two_pos actions
  have first : doneAt 0 ((blank 2 Nat.two_pos).attempts actions) =
      [.set 255, .increment, .right, .left, .increment] := by decide
  have second : doneAt 1 ((blank 2 Nat.two_pos).attempts actions) =
      [.right, .decrement, .left] := by decide
  have right : accepted .right ((blank 2 Nat.two_pos).attempts actions) = 1 := by decide
  have left : accepted .left ((blank 2 Nat.two_pos).attempts actions) = 1 := by decide
  have zero := held 0 (by decide)
  have one := held 1 (by decide)
  rw [first] at zero
  rw [second] at one
  rw [right, left] at walked
  exact ⟨Nat.two_pos, walked, zero, one⟩

end ByteTape.Tape
