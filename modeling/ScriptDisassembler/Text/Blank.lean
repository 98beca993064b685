/-!
# Blank characters

The characters of Unicode's `White_Space` property, and the three ways in which blanks delimit
text: stripped at both ends, between words, and as all there is.  `words_append_cons` says that
words are divided at every blank.
-/

namespace ScriptDisassembler.Text

/-- Whether a character has the `White_Space` property of Unicode. -/
def isBlank (c : Char) : Bool :=
  let point := c.toNat
  (0x09 ≤ point && point ≤ 0x0d) || point == 0x20 || point == 0x85 || point == 0xa0
    || point == 0x1680 || (0x2000 ≤ point && point ≤ 0x200a) || point == 0x2028
    || point == 0x2029 || point == 0x202f || point == 0x205f || point == 0x3000

/-- A text without the blanks at its end. -/
def stripEnd (text : List Char) : List Char :=
  (text.reverse.dropWhile isBlank).reverse

/-- A text without the blanks at either end. -/
def strip (text : List Char) : List Char :=
  stripEnd (text.dropWhile isBlank)

/-- The maximal runs of characters that are not blank. -/
def words (text : List Char) : List (List Char) :=
  (text.splitOnP isBlank).filter fun word => !word.isEmpty

@[simp]
theorem strip_nil : strip [] = [] :=
  rfl

/-- A blank ends a word and belongs to none. -/
theorem words_append_cons {c : Char} (first rest : List Char) (blank : isBlank c = true) :
    words (first ++ c :: rest) = words first ++ words rest := by
  rw [words, List.splitOnP_append_cons first rest blank, List.filter_append]
  rfl

/-- No word is empty. -/
theorem nil_notMem_words (text : List Char) : [] ∉ words text := by
  simp [words]

/-- Every space character that Lean's own test knows is blank. -/
theorem isBlank_of_isWhitespace {c : Char} (white : c.isWhitespace = true) :
    isBlank c = true := by
  simp only [Char.isWhitespace, Bool.or_eq_true, decide_eq_true_eq] at white
  rcases white with ((rfl | rfl) | rfl) | rfl <;> rfl

end ScriptDisassembler.Text
