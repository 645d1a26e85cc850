import ByteTape.Machine.Run
import ByteTape.Proofs.Display.Screens

/-! What keys do. A read, a step and the last frame look for different keys. Each of them goes through
the events in the order in which they came and leaves alone what comes after the one that decides. -/

namespace ByteTape

variable {width height : Nat}

namespace TerminalEvent

/-- The keys that ask for a stop while the program computes, when letters are no input. -/
inductive Halts : TerminalEvent → Prop where
  | escape (control : Bool) : Halts (.key ⟨.escape, control, .press⟩)
  | interrupt : Halts (.key ⟨.char 'c', true, .press⟩)
  | quit (control : Bool) : Halts (.key ⟨.char 'q', control, .press⟩)
  | quitUpper (control : Bool) : Halts (.key ⟨.char 'Q', control, .press⟩)

inductive Dismisses : TerminalEvent → Prop where
  | enter (control : Bool) : Dismisses (.key ⟨.enter, control, .press⟩)
  | halts {event : TerminalEvent} (halts : event.Halts) : Dismisses event

inductive EndsRead : TerminalEvent → Prop where
  | escape (control : Bool) : EndsRead (.key ⟨.escape, control, .press⟩)
  | enter (control : Bool) : EndsRead (.key ⟨.enter, control, .press⟩)
  | tab (control : Bool) : EndsRead (.key ⟨.tab, control, .press⟩)
  | character (c : Char) (control : Bool) : EndsRead (.key ⟨.char c, control, .press⟩)

/-- What a read answers to a key, and whether the key asks for a stop. -/
inductive Answers : TerminalEvent → Option UInt8 → Bool → Prop where
  | escape (control : Bool) : Answers (.key ⟨.escape, control, .press⟩) none true
  | interrupt : Answers (.key ⟨.char 'c', true, .press⟩) none true
  | endOfInput : Answers (.key ⟨.char 'd', true, .press⟩) none false
  | enter (control : Bool) : Answers (.key ⟨.enter, control, .press⟩) (some 10) false
  | tab (control : Bool) : Answers (.key ⟨.tab, control, .press⟩) (some 9) false
  | narrow {c : Char} {control : Bool} (plain : control = true → c ≠ 'c' ∧ c ≠ 'd')
      (small : c.toNat < 256) :
      Answers (.key ⟨.char c, control, .press⟩) (some (UInt8.ofNat c.toNat)) false
  | wide {c : Char} {control : Bool} (large : 256 ≤ c.toNat) :
      Answers (.key ⟨.char c, control, .press⟩) (some '?'.toUInt8) false

theorem stops_iff (event : TerminalEvent) : event.stops = true ↔ event.Halts := by
  constructor
  · intro stops
    rcases event with ⟨code, control, phase⟩ | _
    · cases phase with
      | repeated | release => cases stops
      | press =>
        cases code with
        | escape => exact .escape control
        | enter | tab | other => cases stops
        | char c =>
          simp only [TerminalEvent.stops, pressed?, if_pos, Option.any_some, KeyEvent.interrupts,
            KeyEvent.quits, Bool.or_eq_true, Bool.and_eq_true, decide_eq_true_eq,
            KeyCode.char.injEq] at stops
          obtain ⟨rfl, rfl⟩ | rfl | rfl := stops
          · exact .interrupt
          · exact .quit control
          · exact .quitUpper control
    · cases stops
  · intro halts
    cases halts <;> rfl

theorem dismisses_iff (event : TerminalEvent) : event.dismisses = true ↔ event.Dismisses := by
  have either : event.dismisses = true ↔
      event.stops = true ∨ ∃ control, event = .key ⟨.enter, control, .press⟩ := by
    rcases event with ⟨code, control, phase⟩ | _
    · cases phase <;> cases code <;> simp [dismisses, TerminalEvent.stops, pressed?]
    · simp [dismisses, TerminalEvent.stops, pressed?]
  rw [either, stops_iff]
  constructor
  · rintro (halts | ⟨control, rfl⟩)
    · exact .halts halts
    · exact .enter control
  · intro dismisses
    cases dismisses with
    | enter control => exact .inr ⟨control, rfl⟩
    | halts halts => exact .inl halts

theorem inputKey?_character (c : Char) (control : Bool) :
    (key ⟨.char c, control, .press⟩).inputKey? =
      if c = 'c' ∧ control = true then some .stop
      else if c = 'd' ∧ control = true then some .endOfInput
      else some (.byte (KeyEvent.byteOfChar c)) := by
  simp only [inputKey?, pressed?, if_pos, Option.bind_some, KeyEvent.inputKey?,
    KeyEvent.interrupts, Bool.and_eq_true, decide_eq_true_eq]
  split
  · rfl
  · rw [apply_ite some]

theorem endsRead_iff (event : TerminalEvent) :
    event.EndsRead ↔ ∃ key, event.inputKey? = some key := by
  constructor
  · intro ends
    cases ends with
    | escape | enter | tab => exact ⟨_, rfl⟩
    | character c control =>
      rw [inputKey?_character, ← apply_ite some, ← apply_ite some]
      exact ⟨_, rfl⟩
  · rintro ⟨key, read⟩
    rcases event with ⟨code, control, phase⟩ | _
    · cases phase with
      | repeated | release => cases read
      | press =>
        cases code with
        | escape => exact .escape control
        | enter => exact .enter control
        | tab => exact .tab control
        | char c => exact .character c control
        | other => cases read
    · cases read

private theorem answers_of_character (c : Char) (control : Bool)
    (plain : control = true → c ≠ 'c' ∧ c ≠ 'd') :
    (key ⟨.char c, control, .press⟩).Answers (some (KeyEvent.byteOfChar c)) false := by
  rw [KeyEvent.byteOfChar]
  split
  next small => exact .narrow plain small
  next large => exact .wide (Nat.le_of_not_lt large)

private theorem answers_of_inputKey? {event : TerminalEvent} {key : InputKey}
    (read : event.inputKey? = some key) :
    event.Answers (Screen.byteOf key) (decide (key = .stop)) := by
  cases (event.endsRead_iff).mpr ⟨key, read⟩ with
  | escape control =>
    cases read
    exact .escape control
  | enter control =>
    cases read
    exact .enter control
  | tab control =>
    cases read
    exact .tab control
  | character c control =>
    rw [inputKey?_character] at read
    split at read
    next stops =>
      obtain ⟨rfl, rfl⟩ := stops
      cases read
      exact .interrupt
    next going =>
      split at read
      next ends =>
        obtain ⟨rfl, rfl⟩ := ends
        cases read
        exact .endOfInput
      next plain =>
        cases read
        apply answers_of_character
        intro held
        exact ⟨fun same => going ⟨same, held⟩, fun same => plain ⟨same, held⟩⟩

end TerminalEvent

/-- The first event of that kind in the queue, with the events in front of it and behind it. -/
structure TerminalEvent.First (kind : TerminalEvent → Prop) (queue front : List TerminalEvent)
    (event : TerminalEvent) (behind : List TerminalEvent) : Prop where
  whole : queue = front ++ event :: behind
  passed : ∀ earlier ∈ front, ¬ kind earlier
  here : kind event

namespace Keyboard
variable {α : Type} {f : TerminalEvent → Option α} {kind : TerminalEvent → Prop}

private theorem exists_decide? (decides : ∀ event, kind event ↔ ∃ value, f event = some value)
    {queue : List TerminalEvent} (present : ∃ event ∈ queue, kind event) :
    ∃ front event behind value, TerminalEvent.First kind queue front event behind ∧
      f event = some value ∧ decide? f queue = some (value, behind) := by
  induction queue with
  | nil =>
    obtain ⟨event, member, -⟩ := present
    cases member
  | cons first rest ih =>
    cases read : f first with
    | some value =>
      have here : kind first := (decides first).mpr ⟨value, read⟩
      refine ⟨[], first, rest, value, ⟨rfl, by simp, here⟩, read, ?_⟩
      rw [decide?, read]
    | none =>
      have passed : ¬ kind first := by simp [decides, read]
      have later : ∃ event ∈ rest, kind event := by simpa [passed] using present
      obtain ⟨front, event, behind, value, split, answered, decided⟩ := ih later
      refine ⟨first :: front, event, behind, value, ⟨?_, ?_, split.here⟩, answered, ?_⟩
      · rw [split.whole, List.cons_append]
      · exact List.forall_mem_cons.mpr ⟨passed, split.passed⟩
      · rw [decide?, read]
        exact decided

theorem exists_await (decides : ∀ event, kind event ↔ ∃ value, f event = some value)
    {keyboard : Keyboard} (attached : keyboard.attached = true)
    (present : ∃ event ∈ keyboard.pending, kind event) :
    ∃ front event behind value, TerminalEvent.First kind keyboard.pending front event behind ∧
      f event = some value ∧
      keyboard.await f = (.ok value, { keyboard with pending := behind }) := by
  obtain ⟨front, event, behind, value, first, answered, decided⟩ := exists_decide? decides present
  refine ⟨front, event, behind, value, first, answered, ?_⟩
  rw [await, if_pos attached, decided]

private theorem poll_of_attached {keyboard : Keyboard} (attached : keyboard.attached = true) :
    keyboard.poll =
      (.ok (keyboard.pending.any TerminalEvent.stops), { keyboard with pending := [] }) := by
  rw [poll, if_pos attached]

end Keyboard

namespace Screen

def device : Device (Screen width height) where
  read stopped screen := screen.readByte stopped
  write byte _ screen := .quiet (.ok ()) (screen.writeByte byte)

def observer : Observer (Screen width height) := fun view screen => screen.showStep view

/-- The terminal does not refuse the frame that comes after that many more. -/
def Draws (screen : Screen width height) (earlier : Nat) : Prop :=
  screen.canvas.draws + earlier ∉ screen.canvas.refused

variable (screen : Screen width height)

theorem draw_of_draws (drawn : screen.Draws 0) :
    ∃ canvas, screen.draw = (.ok (), { screen with canvas }) ∧
      canvas.draws = screen.canvas.draws + 1 ∧ canvas.refused = screen.canvas.refused := by
  have accepted : screen.canvas.draws ∉ screen.canvas.refused := drawn
  refine ⟨(screen.canvas.draw screen.scene.paint).2, ?_, ?_⟩
  · rw [draw, Canvas.draw, if_neg accepted]
  · rw [Canvas.draw, if_neg accepted]
    exact ⟨rfl, rfl⟩

private theorem announce_of_draws (drawn : screen.Draws 0) (activity : Activity)
    (message : String) :
    ∃ canvas, screen.announce activity message =
        (.ok (), { screen with scene := screen.scene.announce activity message, canvas }) ∧
      canvas.draws = screen.canvas.draws + 1 ∧ canvas.refused = screen.canvas.refused :=
  draw_of_draws { screen with scene := screen.scene.announce activity message } drawn

private theorem keyboard_resume (stopped : Bool) :
    (screen.resume stopped).2.keyboard = screen.keyboard := by
  rw [resume]
  split <;> rfl

private theorem resume_of_draws (drawn : screen.Draws 0) (stopped : Bool) :
    (screen.resume stopped).1 = .ok () := by
  rw [resume]
  split
  all_goals
    obtain ⟨canvas, announced, -⟩ := screen.announce_of_draws drawn _ _
    rw [announced]

/-- A read takes the first key that is input or asks for a stop, and nothing after that. -/
private theorem readByte_of_present (drawn : screen.Draws 0)
    (attached : screen.keyboard.attached = true)
    (present : ∃ event ∈ screen.keyboard.pending, event.EndsRead) (stopped : Bool) :
    ∃ front event behind answer stops,
      TerminalEvent.First TerminalEvent.EndsRead screen.keyboard.pending front event behind ∧
      event.Answers answer stops ∧
      (screen.readByte stopped).outside.keyboard.pending = behind ∧
      (screen.readByte stopped).raised = stops ∧
      (screen.Draws 1 → (screen.readByte stopped).value = .ok answer) := by
  obtain ⟨canvas, asked, draws, refused⟩ := screen.announce_of_draws drawn .waitingForInput
    "Press a key to input a byte (Ctrl+D: end of input)"
  obtain ⟨front, event, behind, key, first, read, awaited⟩ :=
    Keyboard.exists_await TerminalEvent.endsRead_iff attached present
  refine ⟨front, event, behind, byteOf key, decide (key = .stop), first,
    TerminalEvent.answers_of_inputKey? read, ?_⟩
  simp only [readByte, asked, awaited, keyboard_resume, true_and]
  intro again
  rw [resume_of_draws]
  · rfl
  · rw [Draws, draws, refused]
    exact again

private theorem finish_of_present (drawn : screen.Draws 0)
    (attached : screen.keyboard.attached = true)
    (present : ∃ event ∈ screen.keyboard.pending, event.Dismisses) (message : String)
    (failed : Bool) :
    ∃ front event behind,
      TerminalEvent.First TerminalEvent.Dismisses screen.keyboard.pending front event behind ∧
      (screen.finish message failed).1 = .ok () ∧
      (screen.finish message failed).2.keyboard.pending = behind := by
  obtain ⟨canvas, asked, -⟩ :=
    screen.announce_of_draws drawn (if failed then .failed else .finished) message
  have decides (event : TerminalEvent) : event.Dismisses ↔
      ∃ value, (if event.dismisses then some () else none) = some value := by
    rw [← event.dismisses_iff]
    cases event.dismisses <;> simp
  obtain ⟨front, event, behind, _, first, -, awaited⟩ :=
    Keyboard.exists_await decides attached present
  refine ⟨front, event, behind, first, ?_⟩
  simp only [finish, asked, awaited, and_self]

theorem poll_of_attached (attached : screen.keyboard.attached = true) :
    screen.poll = (screen.keyboard.pending.any TerminalEvent.stops,
      { screen with
        keyboard := { screen.keyboard with pending := [] }
        scene := if screen.keyboard.pending.any TerminalEvent.stops then
          screen.scene.announce .stopping "Stopping..." else screen.scene }) := by
  rw [poll, Keyboard.poll_of_attached attached]
  cases screen.keyboard.pending.any TerminalEvent.stops <;> rfl

theorem raised_showStep (view : MachineView) : (screen.showStep view).raised = screen.poll.1 := by
  rw [showStep]
  simp only
  split <;> rfl

private theorem keyboard_showStep (view : MachineView) :
    (screen.showStep view).outside.keyboard = screen.poll.2.keyboard := by
  have kept : ({ screen.poll.2 with scene := screen.poll.2.scene.record view } :
      Screen width height).draw.2.keyboard = screen.poll.2.keyboard := rfl
  rw [showStep]
  simp only
  split
  all_goals
    next drawn =>
      rw [drawn] at kept
      exact kept

/-- A step takes all keys, and minds those that ask for a stop. -/
private theorem showStep_of_attached (attached : screen.keyboard.attached = true)
    (view : MachineView) :
    (screen.showStep view).outside.keyboard.pending = [] ∧
      ((screen.showStep view).raised = true ↔ ∃ event ∈ screen.keyboard.pending, event.Halts) := by
  rw [keyboard_showStep, raised_showStep, poll_of_attached screen attached]
  simp only [List.any_eq_true, TerminalEvent.stops_iff, true_and]

/-- What keys do, and which events are used up by it. A read takes all events up to the first key
that is input or asks for a stop; that key alone decides what is read and whether to stop. A step
takes all events there are and asks for a stop if any of them does. The last frame stays until the
first key that dismisses it. Events that are not taken stay as they are, in their order. -/
theorem keys_count_up_to_the_deciding_one (screen : Screen width height)
    (attached : screen.keyboard.attached = true) :
    let queue := screen.keyboard.pending
    (∀ stopped, screen.Draws 0 → (∃ event ∈ queue, event.EndsRead) →
      ∃ front event behind answer stops,
        TerminalEvent.First TerminalEvent.EndsRead queue front event behind ∧
        event.Answers answer stops ∧
        let called := World.read device ⟨screen, stopped⟩
        called.2.outside.keyboard.pending = behind ∧ called.2.stopped = (stopped || stops) ∧
          (screen.Draws 1 → called.1 = .ok answer)) ∧
    (∀ message failed, screen.Draws 0 → (∃ event ∈ queue, event.Dismisses) →
      ∃ front event behind,
        TerminalEvent.First TerminalEvent.Dismisses queue front event behind ∧
        (screen.finish message failed).1 = .ok () ∧
        (screen.finish message failed).2.keyboard.pending = behind) ∧
    ∀ view stopped,
      let shown := (World.call (fun _ => observer view) ⟨screen, stopped⟩).2
      shown.outside.keyboard.pending = [] ∧
        (shown.stopped = true ↔ stopped = true ∨ ∃ event ∈ queue, event.Halts) := by
  intro queue
  refine ⟨?_, ?_, ?_⟩
  · intro stopped drawn present
    obtain ⟨front, event, behind, answer, stops, first, answers, left, raised, value⟩ :=
      screen.readByte_of_present drawn attached present stopped
    exact ⟨front, event, behind, answer, stops, first, answers, left,
      congrArg (stopped || ·) raised, value⟩
  · intro message failed drawn present
    exact screen.finish_of_present drawn attached present message failed
  · intro view stopped
    obtain ⟨taken, raised⟩ := screen.showStep_of_attached attached view
    refine ⟨taken, ?_⟩
    rw [← raised]
    exact Bool.or_eq_true_iff

theorem keys_count_up_to_the_deciding_one_end_of_input :
    let screen : Screen 0 0 := ⟨.start ⟨#[]⟩ 1 none, .blank 0 0 [] 0, ⟨true,
      [.other, .key ⟨.char 'd', true, .press⟩, .key ⟨.char 'q', false, .press⟩]⟩⟩
    let called := World.read device ⟨screen, false⟩
    (called.1 = .ok none ∧ called.2.stopped = false ∧
      called.2.outside.keyboard.pending = [.key ⟨.char 'q', false, .press⟩]) ∧
    (screen.finish "done" false).1 = .ok () ∧
    ∀ view, (World.call (fun _ => observer view) ⟨screen, false⟩).2.stopped = true := by
  intro screen called
  have drawn (earlier : Nat) : screen.Draws earlier := List.not_mem_nil
  have quits : .key ⟨.char 'q', false, .press⟩ ∈ screen.keyboard.pending := by simp [screen]
  obtain ⟨reads, finishes, steps⟩ := keys_count_up_to_the_deciding_one screen rfl
  obtain ⟨front, event, behind, answer, stops, first, answers, left, raised, value⟩ :=
    reads false (drawn 0) ⟨_, quits, .character _ _⟩
  obtain ⟨-, -, -, -, shown, -⟩ := finishes "done" false (drawn 0) ⟨_, quits, .halts (.quit _)⟩
  refine ⟨?_, shown, fun view => (steps view false).2.mpr (.inr ⟨_, quits, .quit _⟩)⟩
  obtain ⟨whole, passed, here⟩ := first
  -- The event that is no key does not end the read, and the key behind it does.
  rcases front with _ | ⟨_, _ | ⟨_, front⟩⟩
  · cases whole
    cases here
  · cases whole
    cases answers with
    | endOfInput => exact ⟨value (drawn 1), raised, left⟩
    | narrow plain small => exact absurd rfl (plain rfl).2
    | wide large => exact absurd large (by decide)
  · obtain ⟨-, whole⟩ := List.cons.inj whole
    obtain ⟨rfl, -⟩ := List.cons.inj whole
    exact absurd (TerminalEvent.EndsRead.character 'd' true) (passed _ (by simp))

end Screen
end ByteTape
