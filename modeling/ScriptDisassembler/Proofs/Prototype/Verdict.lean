import ScriptDisassembler.Proofs.Text.Pieces
import ScriptDisassembler.Prototype.Loading

/-!
# Verdicts on lines

Which lines of a definition text say nothing can be told from a few marks in them
(`Format.verdict_eq_ignored_iff`): blank lines and comments never say anything, and a counts file has
further lines that are not meant for it.  What a line says does not depend on a carriage return at
its end (`Format.verdict_withoutReturn`).
-/

namespace ScriptDisassembler

/-- Blanks around a line do not matter. -/
theorem Prototype.ofLine_strip (text : List Char) : ofLine (Text.strip text) = ofLine text := by
  simp only [ofLine, Text.strip_strip]

namespace Verdict

theorem ofResult_ne_ignored (result : Except Malformed Update) : ofResult result ≠ ignored := by
  cases result <;> exact Verdict.noConfusion

theorem update?_eq_some_iff {verdict : Verdict} {update : Update} :
    verdict.update? = some update ↔ verdict = accepted update := by
  cases verdict <;> simp [update?]

theorem rejection?_eq_some_iff {verdict : Verdict} {reason : Rejection} :
    verdict.rejection? = some reason ↔ verdict = rejected reason := by
  cases verdict <;> simp [rejection?]

end Verdict

namespace Format

/-- Whether a line says nothing.  A line of a counts file says nothing if it is blank, begins with a
semicolon, lacks an equals sign, or lacks a comma behind the first equals sign; a line of another
format, if it is blank up to the first semicolon. -/
def Ignores : Format → List Char → Prop
  | counts, line =>
      Text.AllBlank line ∨ (Text.strip line).head? = some ';' ∨ '=' ∉ line ∨
        ∃ before behind, Text.cutAt? '=' line = some (before, behind) ∧ ',' ∉ behind
  | names, line | dump, line => Text.AllBlank (Text.upTo ';' line)

/-! ## Ignored lines -/

theorem countsVerdict_eq_ignored_iff {line : List Char} :
    countsVerdict line = .ignored ↔ counts.Ignores line := by
  -- The line is cut as its strip is, with blanks at the outer ends of the two parts.
  obtain ⟨front, back, -, blank, cut⟩ :=
    Text.exists_cutAt?_strip (by decide : Text.isBlank '=' = false) line
  simp only [countsVerdict, Ignores, ← Text.strip_eq_nil_iff, ← Text.cutAt?_eq_none_iff, cut]
  by_cases content : Text.strip line = [] ∨ (Text.strip line).head? = some ';'
  · rw [if_pos (by simpa using content)]
    tauto
  · rw [if_neg (by simpa using content)]
    rw [not_or] at content
    cases equals : Text.cutAt? '=' (Text.strip line) with
    | none => simp
    | some parts =>
        have fresh : ',' ∉ back := blank.notMem (by decide)
        have comma : Text.cutAt? ',' (parts.2 ++ back) = none ↔ Text.cutAt? ',' parts.2 = none := by
          simp [Text.cutAt?_eq_none_iff, fresh]
        cases found : Text.cutAt? ',' parts.2 with
        | none => simp [content, comma, found]
        | some _ => simp [content, comma, found, Verdict.ofResult_ne_ignored]

theorem namesVerdict_eq_ignored_iff {line : List Char} :
    namesVerdict line = .ignored ↔ names.Ignores line := by
  rw [Ignores, ← Text.strip_eq_nil_iff, namesVerdict]
  dsimp only
  split
  · rename_i empty
    simpa using empty
  · rename_i filled
    have solid : Text.strip (Text.upTo ';' line) ≠ [] := by simpa using filled
    simp only [solid, iff_false]
    split
    · exact Verdict.noConfusion
    · split
      · exact Verdict.noConfusion
      · split <;> exact Verdict.noConfusion

theorem dumpVerdict_eq_ignored_iff {line : List Char} :
    dumpVerdict line = .ignored ↔ dump.Ignores line := by
  rw [Ignores, ← Text.strip_eq_nil_iff, dumpVerdict]
  split
  · rename_i empty
    simpa using empty
  · rename_i filled
    have solid : Text.strip (Text.upTo ';' line) ≠ [] := by simpa using filled
    simp only [solid, iff_false]
    exact Verdict.ofResult_ne_ignored _

/-- A line is ignored exactly if it says nothing. -/
theorem verdict_eq_ignored_iff {format : Format} {line : List Char} :
    format.verdict line = .ignored ↔ format.Ignores line := by
  cases format with
  | counts => exact countsVerdict_eq_ignored_iff
  | names => exact namesVerdict_eq_ignored_iff
  | dump => exact dumpVerdict_eq_ignored_iff

/-- In every format, blank lines and lines with nothing but a comment say nothing. -/
theorem ignores_of_allBlank_upTo (format : Format) {line : List Char}
    (blank : Text.AllBlank (Text.upTo ';' line)) : format.Ignores line := by
  cases format with
  | counts =>
      by_cases comment : ';' ∈ line
      · obtain ⟨before, behind, rfl, fresh⟩ := List.eq_append_cons_of_mem comment
        rw [Text.upTo, (Text.takeWhile_bne_append_cons _ fresh).1] at blank
        refine .inr (.inl ?_)
        rw [blank.strip_append, Text.head?_strip_cons (by decide)]
      · rw [Text.upTo_of_notMem comment] at blank
        exact .inl blank
  | names => exact blank
  | dump => exact blank

/-! ## Line ends -/

theorem verdict_append_return (format : Format) (line : List Char) :
    format.verdict (line ++ ['\r']) = format.verdict line := by
  have blank : Text.isBlank '\r' = true := by decide
  cases format with
  | counts => simp only [verdict, countsVerdict, Text.strip_append_blank blank]
  | names => simp only [verdict, namesVerdict, Text.strip_upTo_append_blank blank]
  | dump =>
      simp only [verdict, dumpVerdict, ← Prototype.ofLine_strip (Text.upTo ';' _),
        Text.strip_upTo_append_blank blank]

/-- A carriage return at the end of a line does not matter. -/
theorem verdict_withoutReturn (format : Format) (line : List Char) :
    format.verdict (Text.withoutReturn line) = format.verdict line := by
  unfold Text.withoutReturn
  split
  · rename_i last
    conv_rhs => rw [← List.dropLast_append_getLast? '\r' last]
    rw [verdict_append_return]
  · rfl

/-! ## The updates of a text -/

theorem updates_eq_filterMap (format : Format) (text : String) :
    format.updates text =
      (Text.lines text.toList).filterMap fun line => (format.verdict line).update? := by
  rw [updates, verdicts, List.filterMap_map]
  rfl

end Format

end ScriptDisassembler
