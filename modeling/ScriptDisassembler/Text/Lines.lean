/-!
# Lines

A text is a sequence of lines, each ended by a line feed; a carriage return right before the line
feed belongs to the line's end.  The last line may lack its line feed, and then keeps a carriage
return.
-/

namespace ScriptDisassembler.Text

/-- A line without the carriage return that its end may begin with. -/
def withoutReturn (line : List Char) : List Char :=
  if line.getLast? = some '\r' then line.dropLast else line

/-- The lines of a text, without their ends. -/
def lines (text : List Char) : List (List Char) :=
  let pieces := text.splitOn '\n'
  let ended := pieces.dropLast.map withoutReturn
  match pieces.getLast? with
  | some (c :: rest) => ended ++ [c :: rest]
  | _ => ended

@[simp]
theorem lines_nil : lines [] = [] :=
  rfl

/-- A line feed ends a line and starts the next one. -/
theorem lines_append_cons (first rest : List Char) (unbroken : '\n' ∉ first) :
    lines (first ++ '\n' :: rest) = withoutReturn first :: lines rest := by
  have pieces : (first ++ '\n' :: rest).splitOn '\n' = first :: rest.splitOn '\n' := by
    rw [List.splitOn_append_cons_self, List.splitOn_eq_singleton unbroken, List.singleton_append]
  have nonempty := List.splitOn_ne_nil '\n' rest
  simp only [lines, pieces, List.dropLast_cons_of_ne_nil nonempty, List.map_cons,
    List.getLast?_cons]
  cases last : (rest.splitOn '\n').getLast? with
  | none => simp_all
  | some piece =>
      cases piece <;> simp

end ScriptDisassembler.Text
