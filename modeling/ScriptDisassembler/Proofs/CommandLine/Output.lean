import ScriptDisassembler.Proofs.CommandLine.Cache
import ScriptDisassembler.Proofs.Disassembly
import ScriptDisassembler.Proofs.Text.Json

/-!
# What is put out for a script

The lines of a script do not depend on the form in which they are put out: as they are, behind their
offsets, or as JSON, which reads back as the same lines.  The exit code and the report of a failure
say in every form whether these are all lines (`presents_of_run`).
-/

namespace ScriptDisassembler

/-- The first cause is the failure itself. -/
theorem Error.head?_causes (error : Error) : error.causes.head? = some error.message := by
  cases error <;> rfl

namespace CommandLine

variable {σ : Type} {surroundings : Surroundings (StateM σ)}

/-! ## The form of the output -/

/-- What is reported of the failure that ended the lines of a script. -/
def failureReport (script : SystemText) (lines : Nat) : Option Error → String
  | none => ""
  | some error =>
      "Error: " ++
        ("failed to disassemble " ++ script.display ++ " after " ++ Numeral.decimal lines ++
          " instructions") ++
        "\n\nCaused by:\n" ++ String.join ((Failure.causeLines error.causes).map (· ++ "\n"))

/-- Whether an outcome presents lines in the form that is asked for, and what ended them. -/
structure Outcome.Presents (outcome : Outcome) (json offsets : Bool) (script : SystemText)
    (lines : List SourceLine) (failure : Option Error) : Prop where
  /-- Without JSON the lines stand one behind another, each behind its offset if so asked. -/
  plain : json = false → outcome.output = String.join (lines.map fun line =>
    (if offsets then Numeral.hexPadded 8 line.offset ++ "  " else "") ++ line.text ++ "\n")
  /-- JSON reads back as the list of the lines. -/
  records : json = true → Json.read? outcome.output = some (.list (lines.map fun line =>
    .record [("offset", .number line.offset), ("opcode", .number line.opcode.toNat),
      ("text", .text line.text)]))
  /-- The exit code says whether there was a failure. -/
  exitCode : outcome.exitCode = if failure.isSome then 1 else 0
  /-- A failure is reported behind the notices, with the number of the lines before it. -/
  errors : ∃ notices : List Notice, outcome.errors =
    String.join (notices.map Outcome.noticeLine) ++ failureReport script lines.length failure

theorem Outcome.presents_ofRun (shows : Level → Notice → Bool) (json verbose offsets : Bool)
    (script : SystemText) (disassembly : Disassembly) (notices : List Notice) :
    (ofRun shows ⟨json, verbose⟩ (Task.ended script disassembly)
      ⟨String.join (Task.linesTexts ⟨json, verbose⟩ offsets disassembly.lines),
        notices.map .notice⟩).Presents json offsets script disassembly.lines
          disassembly.failure := by
  let put := String.join (Task.linesTexts ⟨json, verbose⟩ offsets disassembly.lines)
  obtain ⟨exitCode, shown, errors⟩ := closesWith_ofRun shows ⟨json, verbose⟩
    (Task.ended script disassembly) put notices
  have output : (ofRun shows ⟨json, verbose⟩ (Task.ended script disassembly)
      ⟨put, notices.map .notice⟩).output = put := by
    cases Task.ended script disassembly <;> rfl
  have report : ((failure? (Task.ended script disassembly)).map Failure.text).getD "" =
      failureReport script disassembly.lines.length disassembly.failure := by
    unfold Task.ended
    cases disassembly.failure <;> rfl
  refine ⟨?_, ?_, ?_, shown, ?_⟩
  · rintro rfl
    rw [output]
    rfl
  · rintro rfl
    have single : put =
        Record.listText (disassembly.lines.map Task.lineRecord) ++ "\n" := by
      simp [put, Task.linesTexts]
    rw [output, single, Json.read?_listText, List.map_map]
    rfl
  · rw [exitCode, Task.ended]
    cases disassembly.failure <;> rfl
  · rw [errors, report]

/-! ## What a run puts out -/

/-- Where no text is refused, what was disassembled is put out in full. -/
theorem Task.exists_runIn_present_of_takesAll
    (takesAll : ∀ before text, surroundings.refusal? before text = none) (reporting : Reporting)
    (path : SystemText) (offsets : Bool) (disassembly : Disassembly) (size : Nat)
    (scene : Scene σ) :
    ∃ notices, (present surroundings reporting path offsets disassembly size).runIn scene =
      (ended path disassembly, (scene.notify notices).append
        (String.join (linesTexts reporting offsets disassembly.lines))) := by
  obtain ⟨closing, closes⟩ := exists_runIn_close (σ := σ) path disassembly size
  refine ⟨disassembly.notices ++ closing, ?_⟩
  unfold present
  rw [runIn_bind_of_ok (runIn_notify _ scene), runIn_bind_of_ok (runIn_printAll takesAll _ _),
    closes, Scene.notify_append]
  rfl

/-- What a run leaves that disassembles a script with the table of its definition files. -/
theorem exists_run_disassemble_eq (stable : surroundings.files.StableReads)
    (takesAll : ∀ before text, surroundings.refusal? before text = none) {state : σ}
    {definitions : DefinitionFiles} {table : Table} {notices : List Notice} {script : SystemText}
    {content : Array UInt8} (defined : surroundings.files.Defines state definitions table notices)
    (stored : surroundings.files.mapIn state script = .ok content) {arguments : List SystemText}
    {json verbose offsets strict : Bool}
    (asked : Request.ofArguments arguments =
      .perform ⟨json, verbose⟩ (.disassemble script definitions offsets strict)) :
    let decoder : Decoder := ⟨table.find?, if strict then .strict else .lenient⟩
    let disassembly := decoder.disassemble (Cursor.start content)
    ∃ reported : List Notice, ((surroundings.run arguments).run state).1 =
      .ofRun surroundings.shows ⟨json, verbose⟩ (Task.ended script disassembly)
        ⟨String.join (Task.linesTexts ⟨json, verbose⟩ offsets disassembly.lines),
          reported.map .notice⟩ := by
  intro decoder disassembly
  obtain ⟨closing, presented⟩ := Task.exists_runIn_present_of_takesAll takesAll ⟨json, verbose⟩
    script offsets disassembly content.size
    ((Scene.start state).notify (notices ++ [.available table.size]))
  refine ⟨notices ++ [.available table.size] ++ closing, ?_⟩
  rw [run_of_perform asked, Task.perform, Task.runIn_disassemble_of_defines stable defined,
    Task.runIn_disassembleWith stable, Scene.state_notify, Scene.state_start, stored]
  dsimp only
  rw [presented]
  simp [Scene.notify, Scene.append, Scene.withOutput, Scene.start]

/-! ## Main result -/

/-- A script that can be read is put out, with definition files that can be read, as the same lines
in every form, up to the first instruction that is not decoded or not written; and the exit code and
the report say in every form whether there is such an instruction, and what it fails with. -/
theorem presents_of_run (stable : surroundings.files.StableReads)
    (takesAll : ∀ before text, surroundings.refusal? before text = none) {state : σ}
    {definitions : DefinitionFiles} {table : Table} {notices : List Notice} {script : SystemText}
    {content : Array UInt8} (defined : surroundings.files.Defines state definitions table notices)
    (stored : surroundings.files.mapIn state script = .ok content) (strict : Bool) :
    let decoder : Decoder := ⟨table.find?, if strict then .strict else .lenient⟩
    let items := decoder.items (Cursor.start content)
    ∃ lines failure, Disassembly.Writes table.find? items lines failure ∧
      (failure = none ↔ ∀ item ∈ items, ∃ line, Disassembly.WrittenAs table.find? item line) ∧
      (∀ line ∈ lines, line.opcode ≤ 0x7fff) ∧
      (∀ error ∈ failure, error.causes.head? = some error.message) ∧
      ∀ arguments json verbose offsets, Request.ofArguments arguments =
          .perform ⟨json, verbose⟩ (.disassemble script definitions offsets strict) →
        ((surroundings.run arguments).run state).1.Presents json offsets script lines
          failure := by
  intro decoder items
  have writes := decoder.writes_disassemble (Cursor.start content)
  refine ⟨_, _, writes, writes.failure_eq_none_iff, fun line => writes.opcode_le,
    fun error _ => error.head?_causes, ?_⟩
  intro arguments json verbose offsets asked
  obtain ⟨reported, left⟩ := exists_run_disassemble_eq stable takesAll defined stored asked
  rw [left]
  exact Outcome.presents_ofRun surroundings.shows json verbose offsets script _ reported

/-- A text with marks of JSON in it, and an instruction that is cut off, in two forms. -/
theorem presents_of_run_truncated :
    let folder : Folder :=
      ⟨[("d", (Text.utf8Bytes "0001 (func 1) print\n").toArray),
        ("s", #[1, 0, 0x0e, 3, 0x22, 0x0a, 0x5c, 1])]⟩
    ∃ lines failure,
      ((run Folder.access ["disasm", "s", "-p", "d", "--offsets"]).run folder).1.Presents
        false true "s" lines failure ∧
      ((run Folder.access ["disasm", "s", "-p", "d", "--json"]).run folder).1.Presents
        true false "s" lines failure := by
  intro folder
  have defined : Folder.access.Defines folder (.dump "d")
      (Table.empty.load .dump "0001 (func 1) print\n").table
      (Table.empty.load .dump "0001 (func 1) print\n").notices :=
    ⟨"0001 (func 1) print\n", ⟨_, rfl, by decide +kernel⟩, rfl, rfl⟩
  obtain ⟨lines, failure, -, -, -, -, presents⟩ :=
    @presents_of_run Folder (.ofFiles Folder.access) Folder.lawful.toStableReads (fun _ _ => rfl)
      folder (.dump "d") _ _ "s" #[1, 0, 0x0e, 3, 0x22, 0x0a, 0x5c, 1] defined rfl false
  exact ⟨lines, failure, presents _ false false true (by decide),
    presents _ true false false (by decide)⟩

end CommandLine

end ScriptDisassembler
