import ByteTape.Display.TapePane
import Mathlib.Data.UInt

/-! The cells of a tape that are in sight. The window is as full as it can be and has the cell under
the pointer in it, in the middle unless an end of the tape is in sight, so it goes along with the
pointer and never jumps. All of this also holds in machine words, where no step leaves their range. -/

namespace ByteTape

namespace Word

def add? (a b : UInt64) : Option UInt64 :=
  if a.toBitVec.uaddOverflow b.toBitVec then none else some (a + b)

def sub? (a b : UInt64) : Option UInt64 :=
  if a.toBitVec.usubOverflow b.toBitVec then none else some (a - b)

/-- The difference of two words, or zero if there is none. -/
def monus (a b : UInt64) : UInt64 := if b ≤ a then a - b else 0

theorem add?_eq_some_iff {a b sum : UInt64} :
    add? a b = some sum ↔ sum.toNat = a.toNat + b.toNat := by
  have small := sum.toNat_lt
  simp only [add?, BitVec.uaddOverflow, UInt64.toNat_toBitVec, decide_eq_true_eq]
  split
  next large =>
    refine iff_of_false (by simp) ?_
    omega
  next room =>
    have value : (a + b).toNat = a.toNat + b.toNat := by
      rw [UInt64.toNat_add]
      exact Nat.mod_eq_of_lt (Nat.not_le.mp room)
    rw [Option.some_inj, ← UInt64.toNat_inj, value, eq_comm]

theorem exists_add? {a b : UInt64} (fits : a.toNat + b.toNat < 2 ^ 64) :
    ∃ sum, add? a b = some sum ∧ sum.toNat = a.toNat + b.toNat := by
  have value := UInt64.toNat_ofNat_of_lt' fits
  exact ⟨_, add?_eq_some_iff.mpr value, value⟩

theorem sub?_eq_some_iff {a b rest : UInt64} :
    sub? a b = some rest ↔ rest.toNat + b.toNat = a.toNat := by
  simp only [sub?, BitVec.usubOverflow, UInt64.toNat_toBitVec, decide_eq_true_eq]
  split
  next below =>
    refine iff_of_false (by simp) ?_
    omega
  next above =>
    have less : b ≤ a := UInt64.le_iff_toNat_le.mpr (Nat.not_lt.mp above)
    rw [Option.some_inj, ← UInt64.toNat_inj, UInt64.toNat_sub_of_le a b less]
    omega

theorem exists_sub? {a b : UInt64} (less : b.toNat ≤ a.toNat) :
    ∃ rest, sub? a b = some rest ∧ rest.toNat + b.toNat = a.toNat := by
  have small : a.toNat - b.toNat < 2 ^ 64 := Nat.lt_of_le_of_lt (Nat.sub_le ..) a.toNat_lt
  have value : (UInt64.ofNat (a.toNat - b.toNat)).toNat + b.toNat = a.toNat := by
    rw [UInt64.toNat_ofNat_of_lt' small]
    exact Nat.sub_add_cancel less
  exact ⟨_, sub?_eq_some_iff.mpr value, value⟩

private theorem toNat_monus (a b : UInt64) : (monus a b).toNat = a.toNat - b.toNat := by
  rw [monus]
  split
  next less => exact UInt64.toNat_sub_of_le a b less
  next more =>
    rw [UInt64.le_iff_toNat_le] at more
    exact (Nat.sub_eq_zero_of_le (Nat.le_of_not_le more)).symm

end Word

namespace Window

def size (window : Window) : Nat := window.stop - window.start

variable {pointer length slots : Nat}

/-- The window begins half its width before the pointer, as far as the ends of the tape allow. -/
theorem start_around : (around pointer length slots).start =
    min (pointer - max slots 1 / 2) (length - max slots 1) := by
  rw [around]
  dsimp only
  split
  next whole => rw [Nat.sub_eq_zero_of_le whole, Nat.min_zero]
  next => rfl

theorem stop_around : (around pointer length slots).stop =
    (around pointer length slots).start + min length (max slots 1) := by
  rw [around]
  dsimp only
  split
  next whole => rw [Nat.min_eq_left whole, Nat.zero_add]
  next part => rw [Nat.min_eq_right (Nat.le_of_not_le part)]

theorem stop_around_le : (around pointer length slots).stop ≤ length := by
  rw [stop_around, start_around]
  omega

theorem start_around_le_stop :
    (around pointer length slots).start ≤ (around pointer length slots).stop := by
  rw [stop_around]
  exact Nat.le_add_right ..

theorem around_holds_pointer (inside : pointer < length) :
    (around pointer length slots).start ≤ pointer ∧
      pointer < (around pointer length slots).stop := by
  rw [stop_around, start_around]
  omega

theorem start_around_le (inside : pointer < length) : (around pointer length slots).start ≤ pointer :=
  (around_holds_pointer inside).1

theorem lt_stop_around (inside : pointer < length) : pointer < (around pointer length slots).stop :=
  (around_holds_pointer inside).2

theorem size_around : (around pointer length slots).size = min length (max slots 1) := by
  rw [size, stop_around]
  exact Nat.add_sub_cancel_left ..

/-- With no end of the tape in sight the pointer is in the middle. -/
theorem pointer_eq_middle (before : (around pointer length slots).start ≠ 0)
    (behind : (around pointer length slots).stop ≠ length) :
    pointer = (around pointer length slots).start + max slots 1 / 2 := by
  rw [stop_around] at behind
  rw [start_around] at before behind ⊢
  omega

theorem start_around_of_le {further : Nat} (ahead : pointer ≤ further) :
    (around pointer length slots).start ≤ (around further length slots).start ∧
      (around further length slots).start ≤
        (around pointer length slots).start + (further - pointer) := by
  rw [start_around, start_around]
  omega

/-- The window from machine words, unless a step on the way leaves their range. -/
def ofWords? (pointer length slots : UInt64) : Option Window := do
  let slots := max slots 1
  if length ≤ slots then return ⟨0, length.toNat⟩
  let last ← Word.sub? length slots
  let start := min (Word.monus pointer (slots / 2)) last
  let stop ← Word.add? start slots
  return ⟨start.toNat, stop.toNat⟩

theorem ofWords?_eq (pointer length slots : UInt64) :
    ofWords? pointer length slots = some (around pointer.toNat length.toNat slots.toNat) := by
  have room : (max slots 1).toNat = max slots.toNat 1 := UInt64.toNat_max slots 1
  have half : (max slots 1 / 2).toNat = max slots.toNat 1 / 2 :=
    (UInt64.toNat_div _ 2).trans (congrArg (· / 2) room)
  by_cases whole : length ≤ max slots 1
  · have short : length.toNat ≤ max slots.toNat 1 := room ▸ UInt64.le_iff_toNat_le.mp whole
    simp only [ofWords?, around, if_pos whole, if_pos short]
    rfl
  · have long : ¬ length.toNat ≤ max slots.toNat 1 := by
      rwa [UInt64.le_iff_toNat_le, room] at whole
    have word : length.toNat < 2 ^ 64 := length.toNat_lt
    obtain ⟨last, subtracted, rest⟩ :=
      Word.exists_sub? (a := length) (b := max slots 1) (by omega)
    have begins : (min (Word.monus pointer (max slots 1 / 2)) last).toNat =
        min (pointer.toNat - max slots.toNat 1 / 2) last.toNat := by
      rw [UInt64.toNat_min, Word.toNat_monus, half]
    -- From `last` the slots end with the tape, so the sum is at most its length.
    obtain ⟨stop, added, ends⟩ :=
      Word.exists_add? (a := min (Word.monus pointer (max slots 1 / 2)) last) (b := max slots 1)
        (by omega)
    have most : length.toNat - max slots.toNat 1 = last.toNat := by omega
    simp only [ofWords?, around, if_neg whole, if_neg long, subtracted, added, Option.bind_eq_bind,
      Option.bind_some, ends, begins, room, most]
    rfl

/-- The window comes out of any machine words. It lies on the tape and shows as many cells as there is
room for; a cell under the pointer is one of them, and in the middle if no end of the tape is in sight.
When the pointer goes on, the window goes on no further than it, and never back. -/
theorem window_goes_along_with_the_pointer (pointer length slots : UInt64) :
    let view := around pointer.toNat length.toNat slots.toNat
    ofWords? pointer length slots = some view ∧
    view.start ≤ view.stop ∧ view.stop ≤ length.toNat ∧
    view.stop - view.start = min length.toNat (max slots.toNat 1) ∧
    (pointer < length → view.start ≤ pointer.toNat ∧ pointer.toNat < view.stop) ∧
    (view.start ≠ 0 → view.stop ≠ length.toNat →
      pointer.toNat = view.start + max slots.toNat 1 / 2) ∧
    ∀ further, pointer ≤ further →
      let next := around further.toNat length.toNat slots.toNat
      view.start ≤ next.start ∧ next.start ≤ view.start + (further.toNat - pointer.toNat) := by
  intro view
  refine ⟨ofWords?_eq pointer length slots, start_around_le_stop, stop_around_le, size_around, ?_,
    pointer_eq_middle, ?_⟩
  · intro inside
    rw [UInt64.lt_iff_toNat_lt] at inside
    exact around_holds_pointer inside
  · intro further ahead
    rw [UInt64.le_iff_toNat_le] at ahead
    exact start_around_of_le ahead

example : ofWords? 18446744073709551614 18446744073709551615 10 =
    some ⟨18446744073709551605, 18446744073709551615⟩ := by
  decide

end Window
end ByteTape
