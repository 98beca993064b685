import ScriptDisassembler.Proofs.Text.Pieces

/-!
# Words

A text consists of words with blanks between them, in one way only (`words_eq_iff`).
-/

namespace ScriptDisassembler.Text

/-- A text without blanks is one word. -/
theorem words_of_solid {text : List Char} (nonempty : text ≠ [])
    (solid : ∀ c ∈ text, isBlank c = false) : words text = [text] := by
  rw [words, List.splitOnP_eq_singleton solid]
  simp [nonempty]

/-- Two words are divided by a blank. -/
theorem words_pair {first second : List Char} {c : Char} (blank : isBlank c = true)
    (first_nonempty : first ≠ []) (first_solid : ∀ c ∈ first, isBlank c = false)
    (second_nonempty : second ≠ []) (second_solid : ∀ c ∈ second, isBlank c = false) :
    words (first ++ c :: second) = [first, second] := by
  rw [words_append_cons first second blank, words_of_solid first_nonempty first_solid,
    words_of_solid second_nonempty second_solid]
  rfl

theorem words_cons_blank {c : Char} (blank : isBlank c = true) (text : List Char) :
    words (c :: text) = words text :=
  words_append_cons [] text blank

/-- Blanks in front of a text belong to no word. -/
theorem AllBlank.words_append {blanks : List Char} (blank : AllBlank blanks) (text : List Char) :
    words (blanks ++ text) = words text := by
  induction blanks with
  | nil => rfl
  | cons c blanks ih =>
      rw [List.cons_append, words_cons_blank (blank c List.mem_cons_self)]
      exact ih fun d member => blank d (List.mem_cons_of_mem c member)

/-- Whether a text consists of the given words, with blanks between them and perhaps around them. -/
inductive HasWords : List Char → List (List Char) → Prop
  | blank {blanks : List Char} (blank : AllBlank blanks) : HasWords blanks []
  | word {blanks word rest : List Char} {words : List (List Char)} (blank : AllBlank blanks)
      (nonempty : word ≠ []) (solid : ∀ c ∈ word, isBlank c = false)
      (apart : ∀ c, rest.head? = some c → isBlank c = true) (others : HasWords rest words) :
      HasWords (blanks ++ word ++ rest) (word :: words)

theorem HasWords.words_eq {text : List Char} {list : List (List Char)} (has : HasWords text list) :
    words text = list := by
  induction has with
  | blank blank =>
      have none := blank.words_append []
      rwa [List.append_nil] at none
  | @word blanks word rest list blank nonempty solid apart others ih =>
      rw [List.append_assoc, blank.words_append, ← ih]
      cases rest with
      | nil =>
          rw [List.append_nil, words_of_solid nonempty solid]
          rfl
      | cons c rest =>
          have divider := apart c rfl
          rw [words_append_cons word rest divider, words_of_solid nonempty solid,
            words_cons_blank divider]
          rfl

theorem HasWords.solid {text : List Char} {list : List (List Char)} (has : HasWords text list) :
    ∀ word ∈ list, ∀ c ∈ word, isBlank c = false := by
  induction has with
  | blank _ => exact fun _ member => absurd member List.not_mem_nil
  | word _ _ solid _ _ ih =>
      intro word member
      rcases List.mem_cons.mp member with rfl | later
      · exact solid
      · exact ih word later

/-- A text begins with characters that pass a test, up to one that does not. -/
theorem exists_front (test : Char → Bool) (text : List Char) :
    ∃ front rest, text = front ++ rest ∧ (∀ c ∈ front, test c = true) ∧
      ∀ c, rest.head? = some c → test c = false := by
  refine ⟨text.takeWhile test, text.dropWhile test, List.takeWhile_append_dropWhile.symm,
    fun _ => List.mem_takeWhile_imp, ?_⟩
  intro c head
  have fails := List.head?_dropWhile_not test text
  simpa [head] using fails

/-- Every text consists of words. -/
theorem exists_hasWords (text : List Char) : ∃ list, HasWords text list := by
  induction size : text.length using Nat.strongRecOn generalizing text with
  | ind bound ih =>
      obtain ⟨blanks, behind, rfl, blank, begins⟩ := exists_front isBlank text
      obtain ⟨word, rest, rfl, solid, ends⟩ := exists_front (fun c => !isBlank c) behind
      simp only [Bool.not_eq_true', Bool.not_eq_false'] at solid ends
      by_cases nonempty : word = []
      · subst nonempty
        -- What stands behind the blanks begins neither with a blank nor with anything else.
        cases rest with
        | nil => exact ⟨[], .blank (by simpa [AllBlank] using blank)⟩
        | cons c rest => exact absurd (begins c rfl) (by simp [ends c rfl])
      · have shorter : rest.length < bound := by
          have filled := List.length_pos_iff.mpr nonempty
          simp only [List.length_append] at size
          omega
        obtain ⟨list, others⟩ := ih rest.length shorter rest rfl
        rw [← List.append_assoc]
        exact ⟨word :: list, .word blank nonempty solid ends others⟩

/-- The words of a text are those that it consists of. -/
theorem words_eq_iff {text : List Char} {list : List (List Char)} :
    words text = list ↔ HasWords text list := by
  constructor
  · rintro rfl
    obtain ⟨list, has⟩ := exists_hasWords text
    rwa [has.words_eq]
  · exact HasWords.words_eq

end ScriptDisassembler.Text
