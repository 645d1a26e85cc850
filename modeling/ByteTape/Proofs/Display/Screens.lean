import ByteTape.Display.Screen

/-! What a call to the screen leaves alone. Drawing, waiting for keys and telling about it change
what the scene says of itself, and nothing of what it says about the machine. -/

namespace ByteTape

variable {width height : Nat}

namespace Keyboard

private theorem attached_type (keyboard : Keyboard) (events : List TerminalEvent) :
    (keyboard.type events).attached = keyboard.attached := by
  rw [type, apply_ite Keyboard.attached, ite_self]

private theorem attached_poll (keyboard : Keyboard) :
    keyboard.poll.2.attached = keyboard.attached := by
  rw [poll]
  split <;> rfl

private theorem attached_await {α : Type} (keyboard : Keyboard) (f : TerminalEvent → Option α) :
    (keyboard.await f).2.attached = keyboard.attached := by
  rw [await]
  split
  · split <;> rfl
  · rfl

end Keyboard

namespace Screen

/-- The scene is the same but for the state and the message in its status bar, and the terminal
will refuse the same frames and has its keyboard still. -/
structure Repainted (before after : Screen width height) : Prop where
  scene : ∃ activity message, after.scene = before.scene.announce activity message
  refused : after.canvas.refused = before.canvas.refused
  attached : after.keyboard.attached = before.keyboard.attached

namespace Repainted
variable {first second third : Screen width height}

theorem refl (screen : Screen width height) : Repainted screen screen :=
  ⟨⟨screen.scene.activity, screen.scene.message, rfl⟩, rfl, rfl⟩

theorem trans (before : Repainted first second) (after : Repainted second third) :
    Repainted first third := by
  obtain ⟨⟨_, _, told⟩, refused, attached⟩ := before
  obtain ⟨⟨activity, message, retold⟩, again, still⟩ := after
  refine ⟨⟨activity, message, ?_⟩, again.trans refused, still.trans attached⟩
  rw [retold, told]
  rfl

theorem output (repainted : Repainted first second) :
    second.scene.output = first.scene.output := by
  obtain ⟨⟨_, _, told⟩, -⟩ := repainted
  rw [told]
  rfl

end Repainted

variable (screen : Screen width height)

theorem draw_repainted : Repainted screen screen.draw.2 := by
  refine ⟨(Repainted.refl screen).scene, ?_, rfl⟩
  change (screen.canvas.draw screen.scene.paint).2.refused = screen.canvas.refused
  rw [Canvas.draw]
  split <;> rfl

theorem announce_repainted (activity : Activity) (message : String) :
    Repainted screen (screen.announce activity message).2 := by
  have told : Repainted screen { screen with scene := screen.scene.announce activity message } :=
    ⟨⟨activity, message, rfl⟩, rfl, rfl⟩
  rw [announce]
  exact told.trans (draw_repainted _)

theorem note_repainted (problem reason : String) : Repainted screen (screen.note problem reason) :=
  ⟨⟨screen.scene.activity, s!"{problem}: {reason}", rfl⟩, rfl, rfl⟩

theorem poll_repainted : Repainted screen screen.poll.2 := by
  have attached := screen.keyboard.attached_poll
  rw [poll]
  generalize screen.keyboard.poll = polled at attached ⊢
  obtain ⟨_ | _ | _, keyboard⟩ := polled
  · exact ⟨(note_repainted screen _ _).scene, rfl, attached⟩
  · exact ⟨(Repainted.refl screen).scene, rfl, attached⟩
  · exact ⟨⟨.stopping, "Stopping...", rfl⟩, rfl, attached⟩

theorem type_repainted (events : List TerminalEvent) : Repainted screen (screen.type events) :=
  ⟨(Repainted.refl screen).scene, rfl, screen.keyboard.attached_type events⟩

theorem await_repainted {α : Type} {f : TerminalEvent → Option α} {answer : Except String α}
    {keyboard : Keyboard} (awaited : screen.keyboard.await f = (answer, keyboard)) :
    Repainted screen { screen with keyboard } := by
  have attached := screen.keyboard.attached_await f
  rw [awaited] at attached
  exact ⟨(Repainted.refl screen).scene, rfl, attached⟩

theorem resume_repainted (stopped : Bool) : Repainted screen (screen.resume stopped).2 := by
  rw [resume]
  split
  · exact announce_repainted ..
  · exact announce_repainted ..

/-- A step is shown on top of what was there. -/
theorem showStep_repainted (view : MachineView) :
    Repainted { screen with scene := screen.scene.record view } (screen.showStep view).outside := by
  have recorded : Repainted { screen with scene := screen.scene.record view }
      { screen.poll.2 with scene := screen.poll.2.scene.record view } := by
    obtain ⟨⟨activity, message, told⟩, refused, attached⟩ := poll_repainted screen
    refine ⟨⟨activity, message, ?_⟩, refused, attached⟩
    rw [told]
    rfl
  have drawn := recorded.trans (draw_repainted _)
  rw [showStep]
  simp only
  generalize Screen.draw { screen.poll.2 with scene := screen.poll.2.scene.record view } = shown
    at drawn ⊢
  obtain ⟨_ | _, after⟩ := shown
  · exact drawn.trans (note_repainted ..)
  · exact drawn

def waiting : Except String Unit × Screen width height :=
  screen.announce .waitingForInput "Press a key to input a byte (Ctrl+D: end of input)"

/-- What a read comes to: the screen cannot ask for a key, there is none to be had, or one is
pressed. -/
inductive Reads (stopped : Bool) :
    Reply (Except String (Option UInt8)) (Screen width height) → Prop where
  | silent {shown : Screen width height} {reason : String}
      (asked : screen.waiting = (.error reason, shown)) :
      Reads stopped (.quiet (.error reason) shown)
  | keyless {shown : Screen width height} {reason : String} {keyboard : Keyboard}
      (asked : screen.waiting = (.ok (), shown))
      (awaited : shown.keyboard.await TerminalEvent.inputKey? = (.error reason, keyboard)) :
      Reads stopped (.quiet (.error reason) { shown with keyboard })
  | pressed {shown later : Screen width height} {key : InputKey} {keyboard : Keyboard}
      {drawn : Except String Unit} (asked : screen.waiting = (.ok (), shown))
      (awaited : shown.keyboard.await TerminalEvent.inputKey? = (.ok key, keyboard))
      (resumed : { shown with keyboard }.resume (stopped || decide (key = InputKey.stop)) =
        (drawn, later)) :
      Reads stopped ⟨drawn.map fun () => byteOf key, later, decide (key = InputKey.stop)⟩

theorem reads_readByte (stopped : Bool) : screen.Reads stopped (screen.readByte stopped) := by
  rw [readByte, ← waiting]
  rcases asked : screen.waiting with ⟨reason | _, shown⟩
  · exact .silent asked
  · rcases awaited : shown.keyboard.await TerminalEvent.inputKey? with ⟨reason | key, keyboard⟩
    · simp only [awaited]
      exact .keyless asked awaited
    · simp only [awaited]
      exact .pressed asked awaited rfl

private theorem waiting_repainted : Repainted screen screen.waiting.2 := announce_repainted ..

theorem readByte_repainted (stopped : Bool) :
    Repainted screen (screen.readByte stopped).outside := by
  have waiting := screen.waiting_repainted
  have reads := screen.reads_readByte stopped
  generalize screen.readByte stopped = reply at reads ⊢
  cases reads with
  | silent asked =>
    rw [asked] at waiting
    exact waiting
  | @keyless shown reason keyboard asked awaited =>
    rw [asked] at waiting
    exact waiting.trans (shown.await_repainted awaited)
  | @pressed shown later key keyboard drawn asked awaited resumed =>
    rw [asked] at waiting
    have back := resume_repainted { shown with keyboard } (stopped || decide (key = .stop))
    rw [resumed] at back
    exact (waiting.trans (shown.await_repainted awaited)).trans back

/-- Why a call may fail: the terminal refuses a frame, or there are no keys to read. -/
def Trouble (reason : String) : Prop :=
  (∃ number ∈ screen.canvas.refused, reason = s!"draw {number} refused") ∨
    screen.keyboard.attached = false ∧ reason = Keyboard.unavailable ∨
    reason = Keyboard.exhausted

theorem Repainted.trouble {first second : Screen width height} (repainted : Repainted first second)
    {reason : String} (trouble : second.Trouble reason) : first.Trouble reason := by
  rwa [Trouble, repainted.refused, repainted.attached] at trouble

private theorem trouble_of_draw {reason : String} (failed : screen.draw.1 = .error reason) :
    screen.Trouble reason := by
  change (screen.canvas.draw screen.scene.paint).1 = .error reason at failed
  rw [Canvas.draw] at failed
  split at failed
  next refused =>
    cases failed
    exact .inl ⟨_, refused, rfl⟩
  · cases failed

private theorem trouble_of_announce {activity : Activity} {message reason : String}
    (failed : (screen.announce activity message).1 = .error reason) : screen.Trouble reason := by
  rw [announce] at failed
  exact trouble_of_draw { screen with scene := screen.scene.announce activity message } failed

private theorem trouble_of_resume {stopped : Bool} {reason : String}
    (failed : (screen.resume stopped).1 = .error reason) : screen.Trouble reason := by
  rw [resume] at failed
  split at failed
  · exact trouble_of_announce screen failed
  · exact trouble_of_announce screen failed

private theorem trouble_of_await {α : Type} {f : TerminalEvent → Option α} {reason : String}
    (failed : (screen.keyboard.await f).1 = .error reason) : screen.Trouble reason := by
  rw [Keyboard.await] at failed
  split at failed
  · split at failed
    · cases failed
    · cases failed
      exact .inr (.inr rfl)
  next detached =>
    cases failed
    exact .inr (.inl ⟨Bool.eq_false_iff.mpr detached, rfl⟩)

theorem trouble_of_readByte {stopped : Bool} {reason : String}
    (failed : (screen.readByte stopped).value = .error reason) : screen.Trouble reason := by
  have waiting := screen.waiting_repainted
  have reads := screen.reads_readByte stopped
  generalize screen.readByte stopped = reply at reads failed
  cases reads with
  | silent asked =>
    cases failed
    exact screen.trouble_of_announce (congrArg Prod.fst asked)
  | @keyless shown reason keyboard asked awaited =>
    cases failed
    rw [asked] at waiting
    exact waiting.trouble (shown.trouble_of_await (congrArg Prod.fst awaited))
  | @pressed shown later key keyboard drawn asked awaited resumed =>
    rw [asked] at waiting
    cases drawn with
    | ok => cases failed
    | error reason =>
      cases failed
      exact (waiting.trans (shown.await_repainted awaited)).trouble
        (trouble_of_resume { shown with keyboard } (congrArg Prod.fst resumed))

end Screen
end ByteTape
