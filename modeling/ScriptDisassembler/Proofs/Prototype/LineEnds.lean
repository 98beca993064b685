import ScriptDisassembler.Proofs.Prototype.Verdict

/-!
# Line ends

A definition text says the same whether its lines end in a line feed or in a carriage return and a
line feed.  The verdict on a line is that on the line with a return at its end, in every format and
with everything that a rejection quotes (`Format.verdict_withoutReturn`); so the text in which each
line feed has got a return has the same verdicts in the same order (`Format.verdicts_withReturns`),
and everything else follows from them (`Table.load_eq_of_verdicts`).
-/

namespace ScriptDisassembler

/-- Each line of a text is judged as before when a return is put in front of every line feed. -/
theorem Format.verdicts_withReturns (format : Format) (text : String) :
    format.verdicts (String.ofList (Text.withReturns text.toList)) = format.verdicts text := by
  rw [verdicts, verdicts, String.toList_ofList]
  exact Text.map_lines_withReturns format.verdict_withoutReturn text.toList

namespace Table

/-- What a text does depends on the verdicts on its lines alone. -/
theorem load_eq_of_verdicts (table : Table) {format : Format} {first second : String}
    (same : format.verdicts first = format.verdicts second) :
    table.load format first = table.load format second := by
  simp only [load, Format.updates, Format.rejections, same]

/-! ## Main result -/

/-- A text in which a return was put in front of every line feed, also where there was one already,
is loaded as the text itself: with the same table, the same number, and the same notices with the
same line numbers and quotations. -/
theorem load_withReturns (table : Table) (format : Format) (text : String) :
    table.load format (String.ofList (Text.withReturns text.toList)) = table.load format text :=
  table.load_eq_of_verdicts (format.verdicts_withReturns text)

end Table

end ScriptDisassembler
