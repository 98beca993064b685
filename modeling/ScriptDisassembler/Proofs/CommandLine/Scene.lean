import ScriptDisassembler.CommandLine.Run
import ScriptDisassembler.Proofs.Files.Laws

/-!
# Running tasks

A task over files that are in some state goes from scene to scene: what was put out so far, and the
state.  Each task has a lemma that says what it gives and which scene it leaves; a task made of two
succeeds exactly if both do (`runIn_bind_eq_ok_iff`).
-/

namespace ScriptDisassembler.CommandLine

variable {σ : Type}

/-- What a command has put out, and the state that the files are in. -/
structure Scene (σ : Type) where
  transcript : Transcript
  state : σ

namespace Scene

/-- Nothing is put out yet. -/
def start (state : σ) : Scene σ :=
  ⟨⟨"", []⟩, state⟩

/-- The scene after notices. -/
def notify (scene : Scene σ) (notices : List Notice) : Scene σ :=
  ⟨⟨scene.transcript.output, scene.transcript.reports ++ notices.map .notice⟩, scene.state⟩

/-- The scene in which this is the output. -/
def withOutput (scene : Scene σ) (output : String) : Scene σ :=
  ⟨⟨output, scene.transcript.reports⟩, scene.state⟩

/-- The scene after output. -/
def append (scene : Scene σ) (text : String) : Scene σ :=
  scene.withOutput (scene.transcript.output ++ text)

@[simp]
theorem state_start (state : σ) : (start state).state = state :=
  rfl

@[simp]
theorem state_notify (scene : Scene σ) (notices : List Notice) :
    (scene.notify notices).state = scene.state :=
  rfl

theorem notify_append (scene : Scene σ) (first second : List Notice) :
    scene.notify (first ++ second) = (scene.notify first).notify second := by
  simp [notify]

theorem append_append (scene : Scene σ) (first second : String) :
    (scene.append first).append second = scene.append (first ++ second) := by
  simp [append, withOutput, String.append_assoc]

theorem append_empty (scene : Scene σ) : scene.append "" = scene := by
  simp [append, withOutput]

end Scene

namespace Task

variable {α β : Type}

/-- What a task gives in a scene, and the scene it leaves. -/
def runIn (task : Task (StateM σ) α) (scene : Scene σ) : Except Failure α × Scene σ :=
  let left := (task.run.run scene.transcript).run scene.state
  (left.1.1, ⟨left.1.2, left.2⟩)

theorem runIn_bind (first : Task (StateM σ) α) (next : α → Task (StateM σ) β) (scene : Scene σ) :
    (first >>= next).runIn scene =
      match first.runIn scene with
      | (.ok a, after) => (next a).runIn after
      | (.error failure, after) => (.error failure, after) := by
  unfold runIn
  rw [ExceptT.run_bind, StateT.run_bind, StateT.run_bind]
  generalize (first.run.run scene.transcript).run scene.state = left
  rcases left with ⟨⟨result, transcript⟩, state⟩
  cases result <;> rfl

section Bind

variable {first : Task (StateM σ) α} {next : α → Task (StateM σ) β} {scene after last : Scene σ}

theorem runIn_bind_of_ok {a : α} (given : first.runIn scene = (.ok a, after)) :
    (first >>= next).runIn scene = (next a).runIn after := by
  rw [runIn_bind, given]

theorem runIn_bind_of_error {failure : Failure}
    (failed : first.runIn scene = (.error failure, after)) :
    (first >>= next).runIn scene = (.error failure, after) := by
  rw [runIn_bind, failed]

/-- A task made of two succeeds exactly if both do, the second where the first one stopped. -/
theorem runIn_bind_eq_ok_iff {b : β} :
    (first >>= next).runIn scene = (.ok b, last) ↔
      ∃ a after, first.runIn scene = (.ok a, after) ∧ (next a).runIn after = (.ok b, last) := by
  constructor
  · intro success
    rw [runIn_bind] at success
    split at success
    · rename_i a after given
      exact ⟨a, after, given, success⟩
    · cases success
  · rintro ⟨a, after, given, success⟩
    rw [runIn_bind_of_ok given, success]

end Bind

theorem runIn_pure (a : α) (scene : Scene σ) :
    (pure a : Task (StateM σ) α).runIn scene = (.ok a, scene) :=
  rfl

theorem runIn_report (reports : List Report) (scene : Scene σ) :
    (report reports : Task (StateM σ) Unit).runIn scene =
      (.ok (), ⟨⟨scene.transcript.output, scene.transcript.reports ++ reports⟩, scene.state⟩) :=
  rfl

theorem runIn_notify (notices : List Notice) (scene : Scene σ) :
    (notify notices : Task (StateM σ) Unit).runIn scene = (.ok (), scene.notify notices) :=
  rfl

theorem runIn_append (text : String) (scene : Scene σ) :
    (append text : Task (StateM σ) Unit).runIn scene = (.ok (), scene.append text) :=
  rfl

/-! ## Output -/

section Print

variable {surroundings : Surroundings (StateM σ)}

theorem runIn_print (surroundings : Surroundings (StateM σ)) (text : String) (scene : Scene σ) :
    (print surroundings text).runIn scene =
      match surroundings.refusal? scene.transcript.output text with
      | none => (.ok (), scene.append text)
      | some cause => (.error (.refused cause), scene) := by
  have looked : (get : Task (StateM σ) Transcript).runIn scene = (.ok scene.transcript, scene) :=
    rfl
  unfold print
  rw [runIn_bind_of_ok looked]
  cases surroundings.refusal? scene.transcript.output text <;> rfl

theorem printAll_cons (surroundings : Surroundings (StateM σ)) (text : String)
    (texts : List String) :
    printAll surroundings (text :: texts) =
      print surroundings text >>= fun _ => printAll surroundings texts :=
  rfl

/-- Where no text is refused, texts are put out one behind another. -/
theorem runIn_printAll (takesAll : ∀ before text, surroundings.refusal? before text = none)
    (texts : List String) (scene : Scene σ) :
    (printAll surroundings texts).runIn scene = (.ok (), scene.append (String.join texts)) := by
  induction texts generalizing scene with
  | nil => exact congrArg (Prod.mk _) scene.append_empty.symm
  | cons text texts ih =>
      have first : (print surroundings text).runIn scene = (.ok (), scene.append text) := by
        rw [runIn_print, takesAll]
      rw [printAll_cons, runIn_bind_of_ok first, ih, Scene.append_append, String.join_cons]

/-- What becomes of texts depends on nothing but what was put out before. -/
theorem exists_runIn_printAll (surroundings : Surroundings (StateM σ)) (texts : List String)
    (before : String) :
    ∃ result output, ∀ scene : Scene σ, scene.transcript.output = before →
      (printAll surroundings texts).runIn scene = (result, scene.withOutput output) := by
  induction texts generalizing before with
  | nil =>
      refine ⟨.ok (), before, ?_⟩
      rintro scene rfl
      rfl
  | cons text texts ih =>
      cases refusal : surroundings.refusal? before text with
      | some cause =>
          refine ⟨.error (.refused cause), before, ?_⟩
          rintro scene rfl
          have first :
              (print surroundings text).runIn scene = (.error (.refused cause), scene) := by
            rw [runIn_print, refusal]
          rw [printAll_cons, runIn_bind_of_error first]
          rfl
      | none =>
          obtain ⟨result, output, uniform⟩ := ih (before ++ text)
          refine ⟨result, output, ?_⟩
          rintro scene rfl
          have first : (print surroundings text).runIn scene = (.ok (), scene.append text) := by
            rw [runIn_print, refusal]
          rw [printAll_cons, runIn_bind_of_ok first, uniform _ rfl]
          rfl

end Print

/-! ## Files -/

section Files

variable {files : FileAccess (StateM σ)}

/-- A file operation changes nothing but the state. -/
theorem runIn_lift (operation : StateM σ α) (scene : Scene σ) :
    (liftM operation : Task (StateM σ) α).runIn scene =
      (.ok (operation.run scene.state).1, ⟨scene.transcript, (operation.run scene.state).2⟩) :=
  rfl

theorem runIn_read (stable : files.StableReads) (path : SystemText) (scene : Scene σ) :
    (liftM (files.read path) : Task (StateM σ) _).runIn scene =
      (.ok (files.readIn scene.state path), scene) := by
  rw [runIn_lift, stable.read_keeps]
  rfl

theorem runIn_map (stable : files.StableReads) (path : SystemText) (scene : Scene σ) :
    (liftM (files.map path) : Task (StateM σ) _).runIn scene =
      (.ok (files.mapIn scene.state path), scene) := by
  rw [runIn_lift, stable.map_keeps]
  rfl

theorem runIn_write (path : SystemText) (bytes : Array UInt8) (scene : Scene σ) :
    (liftM (files.write path bytes) : Task (StateM σ) _).runIn scene =
      (.ok (files.writeIn scene.state path bytes).1,
        ⟨scene.transcript, (files.writeIn scene.state path bytes).2⟩) :=
  rfl

theorem runIn_orFail (context : Context) (result : Except FileError α) (scene : Scene σ) :
    (orFail context result : Task (StateM σ) α).runIn scene =
      (result.mapError fun cause => .command context (.file cause), scene) := by
  cases result <;> rfl

/-! ## Reading and loading -/

theorem runIn_orFail_eq_ok_iff {context : Context} {result : Except FileError α}
    {scene after : Scene σ} {a : α} :
    (orFail context result : Task (StateM σ) α).runIn scene = (.ok a, after) ↔
      result = .ok a ∧ after = scene := by
  cases result with
  | ok value =>
      change ((.ok value, scene) : Except Failure α × Scene σ) = _ ↔ _
      simp [eq_comm]
  | error cause =>
      change ((.error _, scene) : Except Failure α × Scene σ) = _ ↔ _
      simp

theorem runIn_readText_eq_ok_iff (stable : files.StableReads) {context : Context}
    {path : SystemText} {scene after : Scene σ} {text : String} :
    (readText files context path).runIn scene = (.ok text, after) ↔
      files.Holds scene.state path text ∧ after = scene := by
  unfold readText
  simp only [runIn_bind_of_ok (runIn_read stable path scene), runIn_bind_eq_ok_iff,
    runIn_orFail_eq_ok_iff, runIn_pure, Prod.mk.injEq, Except.ok.injEq]
  constructor
  · rintro ⟨content, middle, ⟨stored, rfl⟩, read, rfl⟩
    exact ⟨⟨content, stored, read⟩, rfl⟩
  · rintro ⟨⟨content, stored, read⟩, rfl⟩
    exact ⟨content, _, ⟨stored, rfl⟩, read, rfl⟩

theorem runIn_loadInto_eq_ok_iff (stable : files.StableReads) {table loaded : Table}
    {format : Format} {context : Context} {path : SystemText} {scene after : Scene σ} :
    (loadInto table files format context path).runIn scene = (.ok loaded, after) ↔
      ∃ text, files.Holds scene.state path text ∧ loaded = (table.load format text).table ∧
        after = scene.notify (table.load format text).notices := by
  unfold loadInto
  simp only [runIn_bind_eq_ok_iff, runIn_readText_eq_ok_iff stable, runIn_notify, runIn_pure,
    Prod.mk.injEq, Except.ok.injEq]
  constructor
  · rintro ⟨text, middle, ⟨held, rfl⟩, ⟨⟩, noticed, ⟨-, rfl⟩, rfl, rfl⟩
    exact ⟨text, held, rfl, rfl⟩
  · rintro ⟨text, held, rfl, rfl⟩
    exact ⟨text, scene, ⟨held, rfl⟩, (), _, ⟨trivial, rfl⟩, rfl, rfl⟩

end Files

end Task

end ScriptDisassembler.CommandLine
