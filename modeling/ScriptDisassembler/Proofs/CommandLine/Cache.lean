import ScriptDisassembler.Proofs.CommandLine.Dumping

/-!
# A dump in place of its sources

A dump that was written from a counts file and a names file defines the same table as they do, and
what is put out for a script depends on the table alone (`exists_run_disassemble`).  So a script is
disassembled alike with the dump and with its sources, over all files that obey the laws of reading
and writing.
-/

namespace ScriptDisassembler.CommandLine

variable {σ : Type}

/-! ## What is shown -/

/-- The text of a report that is shown. -/
def Report.shown : Report → String
  | .notice given => Outcome.noticeLine given
  | .text given => given

namespace Outcome

/-- Reports are shown in full, one behind another, if they are chosen. -/
theorem join_reportText {shows : Level → Notice → Bool} {reporting : Reporting}
    {chosen : Report → Bool}
    (notices : ∀ notice, chosen (.notice notice) = chooses shows reporting notice)
    (texts : ∀ text, chosen (.text text) = true) (reports : List Report) :
    String.join (reports.map (reportText shows reporting)) =
      String.join ((reports.filter chosen).map Report.shown) := by
  induction reports with
  | nil => rfl
  | cons report reports ih =>
      have first : reportText shows reporting report =
          if chosen report then report.shown else "" := by
        cases report with
        | notice notice => rw [notices, reportText, Report.shown]
        | text text => rw [texts, reportText, Report.shown, if_pos rfl]
      rw [List.map_cons, String.join_cons, ih, first]
      by_cases given : chosen report
      · rw [if_pos given, List.filter_cons_of_pos given, List.map_cons, String.join_cons]
      · rw [if_neg given, List.filter_cons_of_neg given, String.empty_append]

/-- Shown notices are the lines of some of them. -/
theorem join_reportText_notice (shows : Level → Notice → Bool) (reporting : Reporting)
    (notices : List Notice) :
    String.join ((notices.map Report.notice).map (reportText shows reporting)) =
      String.join ((notices.filter (chooses shows reporting)).map noticeLine) := by
  let chosen : Report → Bool
    | .notice notice => chooses shows reporting notice
    | .text _ => true
  have joined := @join_reportText shows reporting chosen (fun _ => rfl) (fun _ => rfl)
    (notices.map .notice)
  rw [joined, List.filter_map, List.map_map]
  rfl

/-! ## What outcomes have in common -/

/-- Whether an outcome shows notices and then, if there is one, the report of a failure. -/
def ClosesWith (outcome : Outcome) (failure : Option Failure) : Prop :=
  outcome.exitCode = (failure.map Failure.exitCode).getD 0 ∧
    ∃ notices : List Notice, outcome.errors =
      String.join (notices.map noticeLine) ++ (failure.map Failure.text).getD ""

/-- Whether outcomes have the same exit code, output and report of a failure.  They may show
different notices. -/
structure Agree (first second : Outcome) : Prop where
  exitCode : first.exitCode = second.exitCode
  output : first.output = second.output
  report : ∃ failure, first.ClosesWith failure ∧ second.ClosesWith failure

/-- The failure that a result is. -/
def failure? : Except Failure Unit → Option Failure
  | .ok _ => none
  | .error failure => some failure

theorem closesWith_ofRun (shows : Level → Notice → Bool) (reporting : Reporting)
    (result : Except Failure Unit) (output : String) (notices : List Notice) :
    (ofRun shows reporting result ⟨output, notices.map .notice⟩).ClosesWith (failure? result) := by
  cases result with
  | ok value =>
      refine ⟨rfl, notices.filter (chooses shows reporting), ?_⟩
      simp [ofRun, failure?, ← join_reportText_notice]
  | error failure =>
      refine ⟨rfl, notices.filter (chooses shows reporting), ?_⟩
      simp [ofRun, failure?, ← join_reportText_notice]

/-- The exit code says whether a command succeeded. -/
theorem exitCode_ofRun_eq_zero_iff {shows : Level → Notice → Bool} {reporting : Reporting}
    {result : Except Failure Unit} {transcript : Transcript} :
    (ofRun shows reporting result transcript).exitCode = 0 ↔ result = .ok () := by
  cases result with
  | ok value => simp [ofRun]
  | error failure => cases failure <;> simp [ofRun, Failure.exitCode]

end Outcome

namespace Task

/-! ## Disassembling with a loaded table -/

/-- Stop behind the lines of a script of so many bytes. -/
def close (path : SystemText) (disassembly : Disassembly) (size : Nat) : Task (StateM σ) Unit :=
  match disassembly.failure with
  | some cause => throw (.command (.disassemble path disassembly.lines.length) cause)
  | none => notify [.disassembled disassembly.lines.length size]

/-- What a command ends with that put out the lines of a script. -/
def ended (path : SystemText) (disassembly : Disassembly) : Except Failure Unit :=
  match disassembly.failure with
  | some cause => .error (.command (.disassemble path disassembly.lines.length) cause)
  | none => .ok ()

theorem exists_runIn_close (path : SystemText) (disassembly : Disassembly) (size : Nat) :
    ∃ notices, ∀ scene : Scene σ,
      (close path disassembly size).runIn scene =
        (ended path disassembly, scene.notify notices) := by
  unfold close ended
  cases disassembly.failure with
  | some cause =>
      refine ⟨[], fun scene => ?_⟩
      simp [Scene.notify]
      rfl
  | none => exact ⟨_, fun scene => runIn_notify _ scene⟩

/-- Put out what was disassembled from a script of so many bytes. -/
def present (surroundings : Surroundings (StateM σ)) (reporting : Reporting) (path : SystemText)
    (offsets : Bool) (disassembly : Disassembly) (size : Nat) : Task (StateM σ) Unit := do
  notify disassembly.notices
  printAll surroundings (linesTexts reporting offsets disassembly.lines)
  close path disassembly size

/-- What is put out depends on nothing but what was disassembled and whether to report in JSON. -/
theorem exists_runIn_present (surroundings : Surroundings (StateM σ)) (json : Bool)
    (path : SystemText) (offsets : Bool) (disassembly : Disassembly) (size : Nat) :
    ∃ result output notices, ∀ verbose scene, scene.transcript.output = "" →
      (present surroundings ⟨json, verbose⟩ path offsets disassembly size).runIn scene =
        (result, (scene.notify notices).withOutput output) := by
  obtain ⟨printed, output, prints⟩ := exists_runIn_printAll surroundings
    (linesTexts ⟨json, false⟩ offsets disassembly.lines) ""
  obtain ⟨closing, closes⟩ := exists_runIn_close (σ := σ) path disassembly size
  cases printed with
  | error failure =>
      refine ⟨.error failure, output, disassembly.notices, ?_⟩
      intro verbose scene fresh
      have refused := prints (scene.notify disassembly.notices) fresh
      exact (runIn_bind_of_ok (runIn_notify _ scene)).trans (runIn_bind_of_error refused)
  | ok value =>
      refine ⟨ended path disassembly, output, disassembly.notices ++ closing, ?_⟩
      intro verbose scene fresh
      have taken := prints (scene.notify disassembly.notices) fresh
      rw [Scene.notify_append]
      exact (runIn_bind_of_ok (runIn_notify _ scene)).trans
        ((runIn_bind_of_ok taken).trans (closes _))

/-- Write the source lines of a script with a table that is loaded. -/
def disassembleWith (surroundings : Surroundings (StateM σ)) (reporting : Reporting)
    (path : SystemText) (offsets strict : Bool) (table : Table) : Task (StateM σ) Unit := do
  let script ← loadScript surroundings.files path
  let decoder : Decoder := ⟨table.find?, if strict then .strict else .lenient⟩
  present surroundings reporting path offsets (decoder.disassemble script.start) script.size

theorem disassemble_eq (surroundings : Surroundings (StateM σ)) (reporting : Reporting)
    (path : SystemText) (definitions : DefinitionFiles) (offsets strict : Bool) :
    disassemble surroundings reporting path definitions offsets strict =
      loadPrototypes surroundings.files definitions >>=
        disassembleWith surroundings reporting path offsets strict :=
  rfl

section Disassemble

variable {surroundings : Surroundings (StateM σ)} (stable : surroundings.files.StableReads)

include stable

theorem runIn_loadScript (path : SystemText) (scene : Scene σ) :
    (loadScript surroundings.files path).runIn scene =
      match surroundings.files.mapIn scene.state path with
      | .error cause => (.error (.command (.loadScript path) (.file cause)), scene)
      | .ok content => (.ok ⟨content, some path⟩, scene) := by
  unfold loadScript
  rw [runIn_bind_of_ok (runIn_map stable path scene), runIn_bind, runIn_orFail]
  cases surroundings.files.mapIn scene.state path <;> rfl

theorem runIn_disassembleWith (reporting : Reporting) (path : SystemText) (offsets strict : Bool)
    (table : Table) (scene : Scene σ) :
    (disassembleWith surroundings reporting path offsets strict table).runIn scene =
      match surroundings.files.mapIn scene.state path with
      | .error cause => (.error (.command (.loadScript path) (.file cause)), scene)
      | .ok content =>
          let decoder : Decoder := ⟨table.find?, if strict then .strict else .lenient⟩
          (present surroundings reporting path offsets
            (decoder.disassemble (Cursor.start content)) content.size).runIn scene := by
  have loaded := runIn_loadScript stable path scene
  cases stored : surroundings.files.mapIn scene.state path with
  | error cause =>
      rw [stored] at loaded
      exact runIn_bind_of_error loaded
  | ok content =>
      rw [stored] at loaded
      unfold disassembleWith
      rw [runIn_bind_of_ok loaded]
      dsimp only [Script.start, Script.size]

/-- What is put out for a script with a loaded table depends on nothing but the script and whether
to report in JSON. -/
theorem exists_runIn_disassembleWith (stored : Except FileError (Array UInt8)) (json : Bool)
    (path : SystemText) (offsets strict : Bool) (table : Table) :
    ∃ result output notices, ∀ verbose scene,
      surroundings.files.mapIn scene.state path = stored → scene.transcript.output = "" →
      (disassembleWith surroundings ⟨json, verbose⟩ path offsets strict table).runIn scene =
        (result, (scene.notify notices).withOutput output) := by
  cases stored with
  | error cause =>
      refine ⟨.error (.command (.loadScript path) (.file cause)), "", [], ?_⟩
      intro verbose scene found fresh
      rw [runIn_disassembleWith stable, found, ← fresh]
      simp [Scene.notify, Scene.withOutput]
  | ok content =>
      let decoder : Decoder := ⟨table.find?, if strict then .strict else .lenient⟩
      obtain ⟨result, output, notices, presents⟩ := exists_runIn_present surroundings json path
        offsets (decoder.disassemble (Cursor.start content)) content.size
      refine ⟨result, output, notices, ?_⟩
      intro verbose scene found fresh
      rw [runIn_disassembleWith stable, found]
      exact presents verbose scene fresh

theorem runIn_disassemble_of_defines {state : σ} {definitions : DefinitionFiles} {table : Table}
    {notices : List Notice}
    (defined : surroundings.files.Defines state definitions table notices)
    (reporting : Reporting) (path : SystemText) (offsets strict : Bool) :
    (disassemble surroundings reporting path definitions offsets strict).runIn (.start state) =
      (disassembleWith surroundings reporting path offsets strict table).runIn
        ((Scene.start state).notify (notices ++ [.available table.size])) := by
  have loaded : (loadPrototypes surroundings.files definitions).runIn (.start state) =
      (.ok table, (Scene.start state).notify (notices ++ [.available table.size])) := by
    rw [runIn_loadPrototypes_eq_ok_iff stable]
    exact ⟨notices, defined, rfl⟩
  rw [disassemble_eq, runIn_bind_of_ok loaded]

end Disassemble

end Task

/-! ## Runs of the program -/

variable {surroundings : Surroundings (StateM σ)}

/-- The program does what its arguments ask for, starting with nothing put out. -/
theorem run_of_perform {arguments : List SystemText} {reporting : Reporting} {command : Command}
    (asked : Request.ofArguments arguments = .perform reporting command) (state : σ) :
    (surroundings.run arguments).run state =
      (.ofRun surroundings.shows reporting
          ((Task.perform surroundings reporting command).runIn (.start state)).1
          ((Task.perform surroundings reporting command).runIn (.start state)).2.transcript,
        ((Task.perform surroundings reporting command).runIn (.start state)).2.state) := by
  unfold Surroundings.run
  rw [asked]
  rfl

/-- What is put out for a script depends on the table that its definition files give, but not on
the files. -/
theorem exists_run_disassemble (stable : surroundings.files.StableReads)
    (stored : Except FileError (Array UInt8)) (table : Table) (script : SystemText)
    (json offsets strict : Bool) :
    ∃ result text, ∀ state definitions notices arguments verbose,
      Request.ofArguments arguments =
        .perform ⟨json, verbose⟩ (.disassemble script definitions offsets strict) →
      surroundings.files.Defines state definitions table notices →
      surroundings.files.mapIn state script = stored →
      ∃ reported : List Notice, ((surroundings.run arguments).run state).1 =
        .ofRun surroundings.shows ⟨json, verbose⟩ result ⟨text, reported.map .notice⟩ := by
  obtain ⟨result, text, notices, uniform⟩ :=
    Task.exists_runIn_disassembleWith stable stored json script offsets strict table
  refine ⟨result, text, ?_⟩
  intro state definitions noticed arguments verbose asked defined held
  refine ⟨noticed ++ [.available table.size] ++ notices, ?_⟩
  have given := uniform verbose
    ((Scene.start state).notify (noticed ++ [.available table.size])) held rfl
  rw [run_of_perform asked, Task.perform, Task.runIn_disassemble_of_defines stable defined, given]
  simp [Scene.notify, Scene.withOutput, Scene.start]

/-- Definition files that give the same table are interchangeable for a script that both states
hold. -/
theorem agree_of_defines (stable : surroundings.files.StableReads) {table : Table}
    {script : SystemText} {json offsets strict : Bool} {first second : σ}
    {first_definitions second_definitions : DefinitionFiles}
    {first_notices second_notices : List Notice} {first_verbose second_verbose : Bool}
    {first_arguments second_arguments : List SystemText}
    (first_asked : Request.ofArguments first_arguments =
      .perform ⟨json, first_verbose⟩ (.disassemble script first_definitions offsets strict))
    (second_asked : Request.ofArguments second_arguments =
      .perform ⟨json, second_verbose⟩ (.disassemble script second_definitions offsets strict))
    (first_defined : surroundings.files.Defines first first_definitions table first_notices)
    (second_defined : surroundings.files.Defines second second_definitions table second_notices)
    (same : surroundings.files.mapIn first script = surroundings.files.mapIn second script) :
    Outcome.Agree ((surroundings.run first_arguments).run first).1
      ((surroundings.run second_arguments).run second).1 := by
  obtain ⟨result, text, ended⟩ := exists_run_disassemble stable
    (surroundings.files.mapIn second script) table script json offsets strict
  rcases ended _ _ _ _ _ first_asked first_defined same with ⟨first_reported, first_ended⟩
  rcases ended _ _ _ _ _ second_asked second_defined rfl with ⟨second_reported, second_ended⟩
  rw [first_ended, second_ended]
  constructor
  · cases result <;> rfl
  · cases result <;> rfl
  · exact ⟨Outcome.failure? result, Outcome.closesWith_ofRun _ _ result text first_reported,
      Outcome.closesWith_ofRun _ _ result text second_reported⟩

/-! ## Writing a dump -/

/-- A dump that succeeds found what its sources define, and wrote the listing of that. -/
theorem defines_of_run_dumpPrototypes (stable : surroundings.files.StableReads)
    {arguments : List SystemText} {reporting : Reporting} {counts names output : SystemText}
    {state after : σ} {outcome : Outcome}
    (asked : Request.ofArguments arguments =
      .perform reporting (.dumpPrototypes counts names output))
    (dumped : (surroundings.run arguments).run state = (outcome, after))
    (success : outcome.exitCode = 0) :
    ∃ table notices channel, surroundings.files.Defines state (.pair counts names) table notices ∧
      surroundings.files.writeIn state output (Text.utf8Bytes table.listing).toArray =
        (.ok channel, after) := by
  have ends := Task.dumped_runIn stable reporting counts names output state
  rw [run_of_perform asked, Task.perform] at dumped
  cases dumped
  rw [Outcome.exitCode_ofRun_eq_zero_iff] at success
  generalize (Task.dumpPrototypes surroundings reporting counts names output).runIn
    (.start state) = left at ends success ⊢
  cases ends with
  | unread => cases success
  | unwritten => cases success
  | unreported => cases success
  | reported defined answered => exact ⟨_, _, _, defined, answered⟩

/-- Once a dump of a counts file and a names file is written, a script is disassembled alike with
the dump and with the two files, and alike to what the two files gave before, if neither they nor
the script are the dump. -/
theorem agree_of_dumpPrototypes {view : FileView σ} (lawful : surroundings.files.Lawful view)
    {state after : σ} {outcome : Outcome}
    {dump_arguments cached_arguments direct_arguments : List SystemText}
    {dump_reporting : Reporting} {counts names output script : SystemText} {file : view.File}
    {json cached_verbose direct_verbose offsets strict : Bool}
    (dump_asked : Request.ofArguments dump_arguments =
      .perform dump_reporting (.dumpPrototypes counts names output))
    (cached_asked : Request.ofArguments cached_arguments =
      .perform ⟨json, cached_verbose⟩ (.disassemble script (.dump output) offsets strict))
    (direct_asked : Request.ofArguments direct_arguments =
      .perform ⟨json, direct_verbose⟩ (.disassemble script (.pair counts names) offsets strict))
    (writable : view.target? state output = some file)
    (counts_other : view.found? state counts ≠ some file)
    (names_other : view.found? state names ≠ some file)
    (dumped : (surroundings.run dump_arguments).run state = (outcome, after))
    (success : outcome.exitCode = 0) :
    Outcome.Agree ((surroundings.run cached_arguments).run after).1
        ((surroundings.run direct_arguments).run after).1 ∧
      (surroundings.files.mapIn state script ≠ .error .notFound →
        view.found? state script ≠ some file →
        Outcome.Agree ((surroundings.run cached_arguments).run after).1
          ((surroundings.run direct_arguments).run state).1) := by
  have stable := lawful.toStableReads
  obtain ⟨table, notices, channel, defined, answered⟩ :=
    defines_of_run_dumpPrototypes stable dump_asked dumped success
  have written := congrArg Prod.fst answered
  obtain rfl := congrArg Prod.snd answered
  have cached : surroundings.files.Defines _ (.dump output) table _ :=
    .of_holds_listing (lawful.holds_written writable written) defined.listable
  constructor
  · have direct := defined.of_write lawful writable counts_other names_other
      (Text.utf8Bytes table.listing).toArray
    exact agree_of_defines stable cached_asked direct_asked cached direct rfl
  · intro found other
    have same := lawful.map_others _ (Text.utf8Bytes table.listing).toArray _ _ _ writable other
      found
    exact agree_of_defines stable cached_asked direct_asked cached defined same

/-- A name that is no UTF-8 reads from the dump as it reads from its own file. -/
theorem agree_of_dumpPrototypes_replacement :
    let folder : Folder :=
      ⟨[("c", (Text.utf8Bytes "0001=1,wait\n").toArray),
        ("n", (Text.utf8Bytes "0001 wa" ++ [0xff] ++ Text.utf8Bytes "it\n").toArray),
        ("s", #[1, 0, 4, 5])]⟩
    let dumped := (run Folder.access
      ["dump-prototypes", "--counts", "c", "--names", "n", "-o", "d"]).run folder
    Outcome.Agree ((run Folder.access ["disasm", "s", "-p", "d", "--strict"]).run dumped.2).1
      ((run Folder.access
        ["disasm", "s", "--counts", "c", "--names", "n", "--strict"]).run folder).1 := by
  intro folder dumped
  have agree := @agree_of_dumpPrototypes Folder (.ofFiles Folder.access) Folder.view Folder.lawful
    folder dumped.2 dumped.1
    ["dump-prototypes", "--counts", "c", "--names", "n", "-o", "d"]
    ["disasm", "s", "-p", "d", "--strict"]
    ["disasm", "s", "--counts", "c", "--names", "n", "--strict"]
    ⟨false, false⟩ "c" "n" "d" "s" "d" false false false false true
    (by decide) (by decide) (by decide) rfl
    (mt Folder.found?_view_eq_some_iff.mp (by decide))
    (mt Folder.found?_view_eq_some_iff.mp (by decide)) rfl (by decide +kernel)
  exact agree.2 (by decide) (mt Folder.found?_view_eq_some_iff.mp (by decide))

end ScriptDisassembler.CommandLine
