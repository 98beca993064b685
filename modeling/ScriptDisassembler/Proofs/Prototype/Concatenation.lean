import ScriptDisassembler.Proofs.Prototype.Building
import ScriptDisassembler.Proofs.Prototype.Verdict

/-!
# Definition texts part by part

A definition text that is put together of two is loaded as one after the other, wherever the line
feed between them comes to stand (`Format.updates_append_newline`): at most it makes an empty line,
or completes a carriage return to a line end.  Lines that define nothing can therefore be put in or
left out.  What updates make of an entry, they make of it once (`Update.replay_replay`), so loading
a text again changes nothing.
-/

namespace ScriptDisassembler

/-! ## Updates made twice -/

namespace Update

/-- Updates leave every entry alone, or make the same of every entry, or only name it. -/
theorem replay_cases (updates : List Update) :
    (∀ entry, replay entry updates = entry) ∨
      (∃ prototype, ∀ entry, replay entry updates = some prototype) ∨
      ∃ opcode name, ∀ entry, replay entry updates =
        some ((entry.getD (.unnamed opcode (.fixed 0))).withName name) := by
  induction updates using List.reverseRecOn with
  | nil => exact .inl fun _ => rfl
  | append_singleton updates last ih =>
      simp only [replay_append, replay_cons, replay_nil]
      cases last with
      | declare opcode count => exact .inr (.inl ⟨_, fun _ => rfl⟩)
      | insert prototype => exact .inr (.inl ⟨_, fun _ => rfl⟩)
      | setName opcode name =>
          rcases ih with same | ⟨prototype, constant⟩ | ⟨own, before, named⟩
          · exact .inr (.inr ⟨opcode, name, fun entry => by rw [same]; rfl⟩)
          · exact .inr (.inl ⟨prototype.withName name, fun entry => by rw [constant]; rfl⟩)
          · exact .inr (.inr ⟨own, name, fun entry => by rw [named]; rfl⟩)

/-- Updates that are made again change nothing. -/
theorem replay_replay (entry : Option Prototype) (updates : List Update) :
    replay (replay entry updates) updates = replay entry updates := by
  rcases replay_cases updates with same | ⟨prototype, constant⟩ | ⟨opcode, name, named⟩
  · rw [same]
  · rw [constant, constant]
  · rw [named, named]
    rfl

end Update

namespace Table

@[simp]
theorem applyAll_nil (table : Table) : table.applyAll [] = table :=
  rfl

theorem applyAll_append (table : Table) (first second : List Update) :
    table.applyAll (first ++ second) = (table.applyAll first).applyAll second :=
  List.foldl_append

theorem applyAll_applyAll (table : Table) (updates : List Update) :
    (table.applyAll updates).applyAll updates = table.applyAll updates := by
  apply eq_of_find?
  intro opcode
  rw [find?_applyAll, find?_applyAll, Update.replay_replay]

end Table

/-! ## Texts in two parts -/

namespace Format

/-- The updates of two texts with a line feed between them are those of one and then those of the
other. -/
theorem updates_append_newline (format : Format) (first second : String) :
    format.updates (first ++ "\n" ++ second) = format.updates first ++ format.updates second := by
  have joined : (first ++ "\n" ++ second).toList = first.toList ++ '\n' :: second.toList := by
    simp
  have blank : Text.AllBlank (Text.upTo ';' []) := fun _ member => absurd member List.not_mem_nil
  have nothing : (format.verdict []).update? = none := by
    rw [verdict_eq_ignored_iff.mpr (format.ignores_of_allBlank_upTo blank)]
    rfl
  simp only [updates_eq_filterMap, joined]
  exact Text.filterMap_lines_append_newline nothing
    (fun line => congrArg Verdict.update? (format.verdict_withoutReturn line)) _ _

/-- Whether a line defines nothing: it is blank, or has nothing but a comment, or is not
accepted. -/
def Idle (format : Format) (line : List Char) : Prop :=
  Text.AllBlank (Text.upTo ';' line) ∨ ∀ update, format.verdict line ≠ .accepted update

theorem Idle.update?_eq_none {format : Format} {line : List Char} (idle : format.Idle line) :
    (format.verdict line).update? = none := by
  rcases idle with blank | unaccepted
  · rw [verdict_eq_ignored_iff.mpr (format.ignores_of_allBlank_upTo blank)]
    rfl
  · rw [Option.eq_none_iff_forall_ne_some]
    exact fun update accepted => unaccepted update (Verdict.update?_eq_some_iff.mp accepted)

/-- A text of idle lines has no updates. -/
theorem updates_of_idle {format : Format} {text : String}
    (idle : ∀ line ∈ Text.lines text.toList, format.Idle line) : format.updates text = [] := by
  rw [updates_eq_filterMap, List.filterMap_eq_nil_iff]
  exact fun line member => (idle line member).update?_eq_none

end Format

namespace Table

/-! ## Main result -/

/-- Two texts with a line feed between them are loaded as one and then the other, and the numbers
add up.  Idle lines change nothing, and between two parts of a text they make no difference to the
table.  A text that is loaded twice in a row gives the table that it gives once. -/
theorem load_append_newline (table : Table) (format : Format) :
    (∀ first second,
      let before := table.load format first
      let after := before.table.load format second
      let whole := table.load format (first ++ "\n" ++ second)
      whole.table = after.table ∧ whole.count = before.count + after.count) ∧
      (∀ lines, (∀ line ∈ Text.lines lines.toList, format.Idle line) →
        (table.load format lines).table = table ∧
          ∀ first second, (table.load format (first ++ "\n" ++ lines ++ "\n" ++ second)).table =
            (table.load format (first ++ "\n" ++ second)).table) ∧
      ∀ text, ((table.load format text).table.load format text).table =
        (table.load format text).table := by
  refine ⟨fun first second => ?_, fun lines idle => ⟨?_, fun first second => ?_⟩, fun text => ?_⟩
  · simp only [load, format.updates_append_newline, applyAll_append, List.length_append, and_self]
  · simp only [load, Format.updates_of_idle idle, applyAll_nil]
  · simp only [load, format.updates_append_newline, Format.updates_of_idle idle, List.append_nil]
  · exact applyAll_applyAll table (format.updates text)

/-- A blank line, a comment behind a blank, and a line without a comma between two counts, of which
the first is followed by a carriage return. -/
theorem load_append_newline_idle :
    let table := ofList [.operator 1 "add" 2, .function 3 "wait" 1]
    let lines := " \n\t; 0001=7,\n0001=7"
    (∀ line ∈ Text.lines lines.toList, Format.counts.Idle line) ∧
      (table.load .counts ("0001=1,\r" ++ "\n" ++ lines ++ "\n" ++ "0002=-1,")).table =
        (table.load .counts ("0001=1,\r" ++ "\n" ++ "0002=-1,")).table ∧
      (table.load .counts ("0001=1,\r" ++ "\n" ++ "0002=-1,")).count = 2 := by
  intro table lines
  have idle : ∀ line ∈ Text.lines lines.toList, Format.counts.Idle line := by
    have each : Text.lines lines.toList =
        [" ".toList, "\t; 0001=7,".toList, "0001=7".toList] := by decide +kernel
    rw [each, List.forall_mem_cons, List.forall_mem_cons, List.forall_mem_singleton]
    refine ⟨.inl (by decide +kernel), .inl (by decide +kernel), .inr fun update accepted => ?_⟩
    have ignored : Format.counts.verdict "0001=7".toList = .ignored := by decide +kernel
    rw [ignored] at accepted
    cases accepted
  have ⟨_, inserted, _⟩ := load_append_newline table .counts
  refine ⟨idle, (inserted lines idle).2 _ _, ?_⟩
  decide +kernel

end Table

end ScriptDisassembler
