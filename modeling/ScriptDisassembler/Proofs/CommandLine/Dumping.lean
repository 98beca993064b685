import ScriptDisassembler.Proofs.CommandLine.Definitions

/-!
# Writing a dump

A task that only reads leaves files as they are (`Task.Keeps`).  To write a dump is the one command
that writes, and it ends in one of four ways (`Task.dumped_runIn`): its sources can not be read, or
the dump can not be written, or the dump is written and there is no report on it, or there is one.
Only the last of these is a success.
-/

namespace ScriptDisassembler.CommandLine.Task

variable {σ α β : Type} {files : FileAccess (StateM σ)}

/-! ## Tasks that change no file -/

/-- Whether a task leaves files as they are. -/
def Keeps (task : Task (StateM σ) α) : Prop :=
  ∀ scene, (task.runIn scene).2.state = scene.state

theorem Keeps.bind {first : Task (StateM σ) α} {next : α → Task (StateM σ) β}
    (keeps : first.Keeps) (keeps_next : ∀ a, (next a).Keeps) : (first >>= next).Keeps := by
  intro scene
  have kept := keeps scene
  rcases given : first.runIn scene with ⟨result, after⟩
  rw [given] at kept
  cases result with
  | error failure =>
      rw [runIn_bind_of_error given]
      exact kept
  | ok a =>
      rw [runIn_bind_of_ok given]
      exact (keeps_next a after).trans kept

theorem keeps_notify (notices : List Notice) : (notify notices : Task (StateM σ) Unit).Keeps :=
  fun _ => rfl

theorem keeps_orFail (context : Context) (result : Except FileError α) :
    (orFail context result : Task (StateM σ) α).Keeps := by
  intro scene
  rw [runIn_orFail]

section Reading

variable (stable : files.StableReads)

include stable

theorem keeps_readText (context : Context) (path : SystemText) :
    (readText files context path).Keeps := by
  refine Keeps.bind (fun scene => ?_) fun result =>
    (keeps_orFail context result).bind fun _ _ => rfl
  rw [runIn_read stable]

theorem keeps_loadInto (table : Table) (format : Format) (context : Context) (path : SystemText) :
    (loadInto table files format context path).Keeps :=
  (keeps_readText stable context path).bind fun _ => (keeps_notify _).bind fun _ _ => rfl

theorem keeps_loadPrototypes (definitions : DefinitionFiles) :
    (loadPrototypes files definitions).Keeps := by
  cases definitions with
  | dump path =>
      exact (keeps_loadInto stable .empty .dump (.loadPrototypes path) path).bind fun _ =>
        (keeps_notify _).bind fun _ _ => rfl
  | pair counts names =>
      exact (keeps_loadInto stable .empty .counts (.loadCounts counts) counts).bind fun table =>
        (keeps_loadInto stable table .names (.loadNames names) names).bind fun _ =>
          (keeps_notify _).bind fun _ _ => rfl

end Reading

/-- How to write a dump ends: what it gives, and the scene that it leaves. -/
inductive Dumped (surroundings : Surroundings (StateM σ)) (reporting : Reporting)
    (counts names output : SystemText) (state : σ) : Except Failure Unit × Scene σ → Prop
  /-- The sources can not be read. -/
  | unread {failure : Failure} {last : Scene σ} (kept : last.state = state) :
      Dumped surroundings reporting counts names output state (.error failure, last)
  /-- The dump can not be written. -/
  | unwritten {table : Table} {notices : List Notice} {cause : FileError} {last : Scene σ}
      (defined : surroundings.files.Defines state (.pair counts names) table notices)
      (answered : surroundings.files.writeIn state output (Text.utf8Bytes table.listing).toArray =
        (.error cause, last.state)) :
      Dumped surroundings reporting counts names output state
        (.error (.command (.writePrototypes output) (.file cause)), last)
  /-- The dump is written, but can not be reported. -/
  | unreported {table : Table} {notices : List Notice} {channel : Option Channel}
      {failure : Failure} {last : Scene σ}
      (defined : surroundings.files.Defines state (.pair counts names) table notices)
      (answered : surroundings.files.writeIn state output (Text.utf8Bytes table.listing).toArray =
        (.ok channel, last.state))
      (unreported : summaryText reporting table output = .error failure ∨
        ∃ summary cause, summaryText reporting table output = .ok summary ∧
          surroundings.refusal? last.transcript.output summary = some cause) :
      Dumped surroundings reporting counts names output state (.error failure, last)
  /-- The dump is written and reported. -/
  | reported {table : Table} {notices : List Notice} {channel : Option Channel} {summary : String}
      {last : Scene σ}
      (defined : surroundings.files.Defines state (.pair counts names) table notices)
      (answered : surroundings.files.writeIn state output (Text.utf8Bytes table.listing).toArray =
        (.ok channel, last.state))
      (reported : summaryText reporting table output = .ok summary)
      (put : last.transcript.output =
        (if channel = some .output then table.listing else "") ++ summary) :
      Dumped surroundings reporting counts names output state (.ok (), last)

/-- Behind a dump that is written, it is reported or it is not. -/
theorem dumped_runIn_summary {surroundings : Surroundings (StateM σ)} {reporting : Reporting}
    {counts names output : SystemText} {state : σ} {table : Table} {notices : List Notice}
    {channel : Option Channel} {scene : Scene σ}
    (defined : surroundings.files.Defines state (.pair counts names) table notices)
    (answered : surroundings.files.writeIn state output (Text.utf8Bytes table.listing).toArray =
      (.ok channel, scene.state))
    (put : scene.transcript.output = if channel = some .output then table.listing else "") :
    Dumped surroundings reporting counts names output state
      ((match summaryText reporting table output with
        | .ok summary => print surroundings summary
        | .error failure => throw failure : Task (StateM σ) Unit).runIn scene) := by
  cases made : summaryText reporting table output with
  | error failure => exact .unreported defined answered (.inl made)
  | ok summary =>
      dsimp only
      rw [runIn_print]
      cases refusal : surroundings.refusal? scene.transcript.output summary with
      | some cause => exact .unreported defined answered (.inr ⟨summary, cause, made, refusal⟩)
      | none => exact .reported defined answered made (congrArg (· ++ summary) put)

/-- To write a dump ends in one of these ways. -/
theorem dumped_runIn {surroundings : Surroundings (StateM σ)}
    (stable : surroundings.files.StableReads) (reporting : Reporting)
    (counts names output : SystemText) (state : σ) :
    Dumped surroundings reporting counts names output state
      ((dumpPrototypes surroundings reporting counts names output).runIn (.start state)) := by
  unfold dumpPrototypes
  have kept := keeps_loadPrototypes stable (.pair counts names) (.start state)
  rcases loaded : (loadPrototypes surroundings.files (.pair counts names)).runIn (.start state)
    with ⟨result, after⟩
  rw [loaded] at kept
  cases result with
  | error failure =>
      rw [runIn_bind_of_error loaded]
      exact .unread kept
  | ok table =>
      obtain ⟨notices, defined, rfl⟩ := (runIn_loadPrototypes_eq_ok_iff stable).mp loaded
      rw [runIn_bind_of_ok loaded, runIn_bind_of_ok (runIn_write _ _ _)]
      rcases answered : surroundings.files.writeIn state output
        (Text.utf8Bytes table.listing).toArray with ⟨answer, written⟩
      simp only [Scene.state_notify, Scene.state_start, answered]
      cases answer with
      | error cause => exact .unwritten defined answered
      | ok channel =>
          rw [runIn_bind_of_ok (runIn_orFail _ _ _)]
          rcases channel with - | - | -
          · exact dumped_runIn_summary defined answered rfl
          · dsimp only [appendOn]
            rw [runIn_bind_of_ok (runIn_append _ _)]
            exact dumped_runIn_summary defined answered String.empty_append
          · dsimp only [appendOn]
            rw [runIn_bind_of_ok (runIn_report _ _)]
            exact dumped_runIn_summary defined answered rfl

end ScriptDisassembler.CommandLine.Task
