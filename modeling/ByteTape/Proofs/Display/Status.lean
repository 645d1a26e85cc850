import ByteTape.Proofs.Display.Keys

/-! What the status bar says of a run. The observer and the device of a run write to the same scene in
any order, and after each of their calls it says that the run is about to stop if, and only if, a stop
has been requested. -/

namespace ByteTape

variable {width height : Nat}

inductive Screen.Request where
  | step (view : MachineView)
  | read
  | write (byte : UInt8)

namespace Scene

def machine (scene : Scene) : Array UInt8 × Nat × Option Nat × Option Instruction × Nat :=
  (scene.cells, scene.pointer, scene.pc, scene.instruction, scene.step)

/-- The scene that shows a run going on, or about to stop. -/
def status (scene : Scene) (stopped : Bool) : Scene :=
  if stopped then scene.announce .stopping "Stopping..." else scene.announce .running "Running..."

/-- The scene after a request, but for its status bar. -/
def after (scene : Scene) : Screen.Request → Scene
  | .step view => scene.record view
  | .read => scene
  | .write byte => { scene with output := scene.output.push byte }

section
variable (scene : Scene) (stopped : Bool)

@[simp] theorem activity_status :
    (scene.status stopped).activity = if stopped then .stopping else .running := by
  cases stopped <;> rfl

@[simp] theorem message_status :
    (scene.status stopped).message = if stopped then "Stopping..." else "Running..." := by
  cases stopped <;> rfl

@[simp] theorem machine_status : (scene.status stopped).machine = scene.machine := by
  cases stopped <;> rfl

@[simp] theorem output_status : (scene.status stopped).output = scene.output := by
  cases stopped <;> rfl

/-- A later word in the status bar takes the place of an earlier one. -/
private theorem status_announce (activity : Activity) (message : String) :
    (scene.announce activity message).status stopped = scene.status stopped := by
  cases stopped <;> rfl

private theorem status_status (earlier : Bool) :
    (scene.status earlier).status stopped = scene.status stopped := by
  cases earlier <;> exact scene.status_announce stopped _ _

private theorem after_status (request : Screen.Request) :
    (scene.status stopped).after request = (scene.after request).status stopped := by
  cases stopped <;> cases request <;> rfl

end

end Scene

namespace Screen

/-- The display does what it is asked for. The keys can be polled or read, and each frame of it is
drawn. -/
inductive Grants : Request → World (Screen width height) → World (Screen width height) → Prop where
  | step {now : World (Screen width height)} {raised : Bool} (view : MachineView)
      (polled : now.outside.keyboard.poll.1 = .ok raised) (drawn : now.outside.Draws 0) :
      Grants (.step view) now (now.call fun _ => observer view).2
  | read {now later : World (Screen width height)} {answer : Option UInt8}
      (answered : now.read device = (.ok answer, later)) : Grants .read now later
  | write (now : World (Screen width height)) (byte : UInt8) :
      Grants (.write byte) now (now.write device byte).2

/-- Requests one after the other. Keys may be pressed between them. -/
inductive Course (first : World (Screen width height)) :
    List Request → World (Screen width height) → Prop where
  | fresh : Course first [] first
  | typed {past : List Request} {now : World (Screen width height)}
      (before : Course first past now) (events : List TerminalEvent) :
      Course first past { now with outside := now.outside.type events }
  | granted {past : List Request} {now later : World (Screen width height)} {request : Request}
      (before : Course first past now) (grants : Grants request now later) :
      Course first (past ++ [request]) later

section
variable (screen : Screen width height)

private theorem scene_resume (stopped : Bool) :
    (screen.resume stopped).2.scene = screen.scene.status stopped := by
  cases stopped <;> rfl

private theorem scene_poll (attached : screen.keyboard.attached = true) :
    screen.poll.2.scene = if screen.poll.1 then screen.scene.status true else screen.scene := by
  rw [poll_of_attached screen attached]
  rfl

private theorem scene_showStep (attached : screen.keyboard.attached = true) (drawn : screen.Draws 0)
    (view : MachineView) :
    (screen.showStep view).outside.scene = screen.poll.2.scene.record view := by
  have same : screen.poll.2.canvas = screen.canvas := by rw [poll_of_attached screen attached]
  have draws : Draws { screen.poll.2 with scene := screen.poll.2.scene.record view } 0 := by
    rw [Draws, same]
    exact drawn
  obtain ⟨canvas, shown, -⟩ := draw_of_draws _ draws
  rw [showStep]
  simp only [shown]

private theorem scene_readByte {stopped : Bool} {answer : Option UInt8}
    (answered : (screen.readByte stopped).value = .ok answer) :
    (screen.readByte stopped).outside.scene =
      screen.scene.status (stopped || (screen.readByte stopped).raised) := by
  have reads := screen.reads_readByte stopped
  generalize screen.readByte stopped = reply at reads answered ⊢
  cases reads with
  | silent | keyless => cases answered
  | @pressed shown later key keyboard drawn asked awaited resumed =>
    have waiting : shown.scene = _ := congrArg (·.2.scene) asked.symm
    have back := scene_resume { shown with keyboard } (stopped || decide (key = .stop))
    rw [resumed] at back
    rw [back, waiting]
    exact screen.scene.status_announce ..

end

private theorem attached_of_poll {keyboard : Keyboard} {raised : Bool}
    (polled : keyboard.poll.1 = .ok raised) : keyboard.attached = true := by
  rw [Keyboard.poll] at polled
  split at polled
  next attached => exact attached
  · cases polled

theorem Grants.scene {request : Request} {now later : World (Screen width height)}
    (grants : Grants request now later) {told : Scene}
    (right : now.outside.scene = told.status now.stopped) :
    later.outside.scene = (told.after request).status later.stopped := by
  obtain ⟨screen, stopped⟩ := now
  cases grants with
  | step view polled drawn =>
    have attached := attached_of_poll polled
    change (screen.showStep view).outside.scene =
      (told.record view).status (stopped || (screen.showStep view).raised)
    rw [scene_showStep screen attached drawn, scene_poll screen attached, raised_showStep, right]
    cases screen.poll.1 with
    | true =>
      rw [if_pos rfl, Scene.status_status, Bool.or_true]
      exact told.after_status true (.step view)
    | false =>
      rw [if_neg Bool.false_ne_true, Bool.or_false]
      exact told.after_status stopped (.step view)
  | @read _ _ answer answered =>
    obtain ⟨value, rfl⟩ := Prod.mk.inj answered
    change (screen.readByte stopped).outside.scene =
      told.status (stopped || (screen.readByte stopped).raised)
    rw [scene_readByte screen value, right, Scene.status_status]
  | write _ byte =>
    change screen.scene.after (.write byte) = (told.after (.write byte)).status (stopped || false)
    rw [right, Bool.or_false, Scene.after_status]

private theorem stopped_call {α : Type}
    (f : Bool → Screen width height → Reply α (Screen width height))
    {now : World (Screen width height)} (stopped : now.stopped = true) :
    (now.call f).2.stopped = true := by
  change (now.stopped || (f now.stopped now.outside).raised) = true
  rw [stopped, Bool.true_or]

theorem Grants.stopped {request : Request} {now later : World (Screen width height)}
    (grants : Grants request now later) (stopped : now.stopped = true) : later.stopped = true := by
  cases grants with
  | step view => exact stopped_call (fun _ => observer view) stopped
  | read answered =>
    have kept : (now.read device).2.stopped = true := stopped_call device.read stopped
    rwa [answered] at kept
  | write _ byte => exact stopped_call (device.write byte) stopped

theorem Course.stopped {first now : World (Screen width height)} {past : List Request}
    (course : Course first past now) (stopped : first.stopped = true) : now.stopped = true := by
  induction course with
  | fresh => exact stopped
  | typed before events ih => exact ih
  | granted before grants ih => exact grants.stopped ih

/-- The scene is what the requests have made of it, with a word about the flag. -/
theorem Course.scene {first now : World (Screen width height)} {past : List Request}
    (course : Course first past now) {told : Scene}
    (right : first.outside.scene = told.status first.stopped) :
    now.outside.scene = (past.foldl Scene.after told).status now.stopped := by
  induction course with
  | fresh => exact right
  | @typed past now before events ih => exact ih
  | granted before grants ih =>
    rw [List.foldl_append]
    exact grants.scene ih

/-- The status bar of a run follows the stop flag. After any requests that the display has granted,
in whatever order they came, it says that the run is about to stop if the flag is set and that it
goes on if not; and the flag is never taken back. What else the scene tells changes with the request
it is about alone: what it tells of the machine with a step, its output with a byte written. -/
theorem status_follows_the_stop_flag {program : Program} {memorySize : Nat}
    {outputWidth : Option Nat} {screen : Screen width height}
    (fresh : screen.scene = .start program memorySize outputWidth) {past : List Request}
    {now : World (Screen width height)} (course : Course ⟨screen, false⟩ past now) :
    let scene := now.outside.scene
    scene.activity = (if now.stopped then .stopping else .running) ∧
    scene.message = (if now.stopped then "Stopping..." else "Running...") ∧
    (∀ more later, Course now more later → now.stopped = true → later.stopped = true) ∧
    ∀ request later, Grants request now later →
      (∀ view, request = .step view → later.outside.scene.machine =
        (view.cells, view.pointer, some view.pc, some view.instruction, view.step)) ∧
      ((∀ view, request ≠ .step view) → later.outside.scene.machine = scene.machine) ∧
      (∀ byte, request = .write byte → later.outside.scene.output = scene.output.push byte) ∧
      ((∀ byte, request ≠ .write byte) → later.outside.scene.output = scene.output) := by
  intro scene
  have told : scene = (past.foldl Scene.after (.start program memorySize outputWidth)).status
      now.stopped := course.scene fresh
  refine ⟨?_, ?_, fun more later onward stopped => onward.stopped stopped, ?_⟩
  · rw [told, Scene.activity_status]
  · rw [told, Scene.message_status]
  · intro request later grants
    rw [grants.scene told, told]
    simp only [Scene.machine_status, Scene.output_status]
    cases request with
    | step view =>
      refine ⟨?_, fun others => absurd rfl (others view), nofun, fun _ => rfl⟩
      rintro _ ⟨⟩
      rfl
    | read => exact ⟨nofun, fun _ => rfl, nofun, fun _ => rfl⟩
    | write byte =>
      refine ⟨nofun, fun _ => rfl, ?_, fun others => absurd rfl (others byte)⟩
      rintro _ ⟨⟩
      rfl

theorem status_follows_the_stop_flag_escape :
    let screen : Screen 0 0 := ⟨.start ⟨#[]⟩ 1 none, .blank 0 0 [] 0, ⟨true, []⟩⟩
    ∃ now later, Course ⟨screen, false⟩ [.read] now ∧ Grants (.write 33) now later ∧
      now.outside.scene.activity = .stopping ∧ later.stopped = true ∧
      later.outside.scene.output = now.outside.scene.output.push 33 := by
  intro screen
  have typed : Course ⟨screen, false⟩ [] _ := .typed .fresh [.key ⟨.escape, false, .press⟩]
  obtain ⟨now, course, raised⟩ : ∃ now, Course ⟨screen, false⟩ [.read] now ∧ now.stopped = true :=
    ⟨_, typed.granted (.read rfl), rfl⟩
  have writes := Grants.write now 33
  obtain ⟨activity, -, kept, granted⟩ := status_follows_the_stop_flag rfl course
  obtain ⟨-, -, pushed, -⟩ := granted _ _ writes
  rw [raised] at activity
  exact ⟨now, _, course, writes, activity, kept _ _ (.granted .fresh writes) raised, pushed 33 rfl⟩

end Screen
end ByteTape
