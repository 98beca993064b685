import ScriptDisassembler.Proofs.Prototype.Parts
import ScriptDisassembler.Proofs.Result
import ScriptDisassembler.Proofs.Text.Words

/-!
# Which prototypes a line can hold

A prototype is legible if its line reads back: its opcode leaves the bit for inversion free, its
count fits 63 bits, and its name survives stripping.  It is listable if its name also survives line
ends and comments, so that its line can stand among others.  Every legible prototype reads back as
it is (`ofLine_line`).  Whatever a line yields is legible (`legible_of_ofLine`), and listable if the
line holds neither line feeds nor comments (`listable_of_ofLine`).
-/

namespace ScriptDisassembler

namespace OperandCount

/-- Whether a count reads back from its written form. -/
def Listable : OperandCount → Prop
  | fixed count => count < 2 ^ 63
  | variadic => True

instance : (count : OperandCount) → Decidable count.Listable
  | fixed count => inferInstanceAs (Decidable (count < 2 ^ 63))
  | variadic => inferInstanceAs (Decidable True)

theorem mem_alphabet_of_mem_text_fixed {count : Nat} :
    ∀ c ∈ (fixed count).text.toList, c ∈ Numeral.alphabet := by
  intro c member
  rw [text, Numeral.decimal, String.toList_ofList] at member
  exact Numeral.mem_alphabet_of_mem_toDigits (by decide) (by decide) member

/-- A listable count reads back. -/
theorem ofChars?_text {count : OperandCount} (listable : count.Listable) :
    ofChars? count.text.toList = some count := by
  cases count with
  | variadic => decide
  | fixed count =>
      have digits : Numeral.readDigits? 10 (fixed count).text.toList = some count := by
        rw [text, Numeral.decimal, String.toList_ofList]
        exact Numeral.readDigits?_toDigits (by decide) (by decide) count
      rw [ofChars?, Numeral.readSigned?_of_alphabet mem_alphabet_of_mem_text_fixed, digits,
        Option.map_some, Option.bind_some, ofInt?]
      simp only [Listable] at listable
      have natural : ¬ Int.ofNat count = -1 := by
        rw [Int.ofNat_eq_natCast]
        omega
      have bounds : 0 ≤ Int.ofNat count ∧ Int.ofNat count < (2 ^ 63 : Nat) := by
        rw [Int.ofNat_eq_natCast]
        omega
      rw [if_neg natural, if_pos bounds]
      rfl

theorem text_ne_nil (count : OperandCount) : count.text.toList ≠ [] := by
  cases count with
  | variadic => decide
  | fixed count =>
      rw [text, Numeral.decimal, String.toList_ofList]
      exact Nat.toDigits_ne_nil

theorem isPlain_of_mem_text (count : OperandCount) :
    ∀ c ∈ count.text.toList, Text.IsPlain c := by
  cases count with
  | variadic => exact Text.isPlain_of_all (by decide)
  | fixed count =>
      intro c member
      exact Numeral.isPlain_of_mem_alphabet c (mem_alphabet_of_mem_text_fixed c member)

end OperandCount

theorem Invocation.isPlain_of_mem_word (invocation : Invocation) :
    ∀ c ∈ invocation.word.toList, Text.IsPlain c := by
  cases invocation <;> exact Text.isPlain_of_all (by decide)

theorem Invocation.word_ne_nil (invocation : Invocation) : invocation.word.toList ≠ [] := by
  cases invocation <;> decide

/-! ## Reading the parts of a line -/

theorem readOpcode_eq_ok {text : List Char} {opcode : UInt16}
    (read : readOpcode text = .ok opcode) : opcode ≤ 0x7fff := by
  rw [UInt16.le_iff_toNat_le]
  exact (readOpcode_eq_ok_iff.mp read).2

/-- An opcode of 15 bits reads back from its padded digits. -/
theorem readOpcode_hexPadded {opcode : UInt16} (small : opcode ≤ 0x7fff) :
    readOpcode ((Numeral.hexPadded 4 opcode.toNat).toList ++ [' ']) = .ok opcode := by
  have written : ∀ c ∈ Numeral.padded 4 (Nat.toDigits 16 opcode.toNat), c ∈ Numeral.alphabet :=
    fun c => Numeral.mem_alphabet_of_mem_padded (by decide) (by decide)
  have solid : Text.strip (Numeral.padded 4 (Nat.toDigits 16 opcode.toNat)) = _ :=
    Text.strip_of_solid fun c member => (Numeral.isPlain_of_mem_alphabet c (written c member)).1
  have digits : Numeral.readUnsigned? 16 (Numeral.padded 4 (Nat.toDigits 16 opcode.toNat)) =
      some opcode.toNat := by
    rw [Numeral.readUnsigned?_of_alphabet written]
    exact Numeral.readDigits?_padded (by decide) (by decide)
  have bound : opcode.toNat ≤ 0x7fff := UInt16.le_iff_toNat_le.mp small
  rw [readOpcode, Numeral.hexPadded, Numeral.hexDigits, String.toList_ofList,
    Text.strip_append_blank (by decide), solid]
  simp only [digits, if_pos bound, UInt16.ofNat_toNat]

theorem readCount_eq_ok {text : List Char} {count : OperandCount}
    (read : readCount text = .ok count) : count.Listable := by
  obtain ⟨value, -, low, high, rfl⟩ := readCount_eq_ok_iff.mp read
  split
  · trivial
  · change value.toNat < 2 ^ 63
    omega

theorem readCount_text {count : OperandCount} (listable : count.Listable) :
    readCount count.text.toList = .ok count := by
  have solid : Text.strip count.text.toList = count.text.toList :=
    Text.strip_of_solid fun c member => (OperandCount.isPlain_of_mem_text _ c member).1
  rw [readCount, solid, OperandCount.ofChars?_text listable]

namespace Prototype

/-- Whether a name reads back from a line: it is there, has nothing to strip, and neither breaks the
line nor starts a comment. -/
structure NameListable (name : String) : Prop where
  nonempty : name.toList ≠ []
  stripped : Text.strip name.toList = name.toList
  unbroken : '\n' ∉ name.toList
  uncommented : ';' ∉ name.toList

/-- What is stripped from one line without comments is a listable name, if anything is left. -/
theorem nameListable_strip {text : List Char} (nonempty : Text.strip text ≠ [])
    (unbroken : '\n' ∉ text) (uncommented : ';' ∉ text) :
    NameListable (String.ofList (Text.strip text)) := by
  constructor
  · rwa [String.toList_ofList]
  · rw [String.toList_ofList, Text.strip_strip]
  · rw [String.toList_ofList]
    exact fun member => unbroken (Text.mem_of_mem_strip member)
  · rw [String.toList_ofList]
    exact fun member => uncommented (Text.mem_of_mem_strip member)

/-- Whether a prototype reads back from its line. -/
structure Listable (prototype : Prototype) : Prop where
  opcode : prototype.opcode ≤ 0x7fff
  count : prototype.count.Listable
  name : ∀ name, prototype.name = some name → NameListable name

/-- Whether a prototype reads back from its line if that stands alone: its name, if it has one, is
there and has nothing to strip. -/
structure Legible (prototype : Prototype) : Prop where
  opcode : prototype.opcode ≤ 0x7fff
  count : prototype.count.Listable
  name : ∀ name, prototype.name = some name →
    name.toList ≠ [] ∧ Text.strip name.toList = name.toList

theorem Listable.legible {prototype : Prototype} (listable : prototype.Listable) :
    prototype.Legible :=
  ⟨listable.opcode, listable.count, fun name named =>
    ⟨(listable.name name named).nonempty, (listable.name name named).stripped⟩⟩

/-! ## What a legible prototype's line looks like -/

/-- What stands in the parentheses of a line. -/
def signature (prototype : Prototype) : List Char :=
  prototype.invocation.word.toList ++ ' ' :: prototype.count.text.toList

/-- What stands behind the parentheses of a line. -/
def tail (prototype : Prototype) : List Char :=
  match prototype.name with
  | some name => ' ' :: name.toList
  | none => []

theorem line_toList (prototype : Prototype) :
    prototype.line.toList = (Numeral.hexPadded 4 prototype.opcode.toNat).toList ++ [' '] ++
      '(' :: (prototype.signature ++ ')' :: prototype.tail) := by
  unfold line tail signature
  cases prototype.name with
  | none => simp
  | some name => simp

theorem hexPadded_isPlain (opcode : UInt16) :
    ∀ c ∈ (Numeral.hexPadded 4 opcode.toNat).toList, Text.IsPlain c := by
  intro c member
  rw [Numeral.hexPadded, Numeral.hexDigits, String.toList_ofList] at member
  exact Numeral.isPlain_of_mem_alphabet c
    (Numeral.mem_alphabet_of_mem_padded (by decide) (by decide) member)

theorem words_signature (prototype : Prototype) :
    Text.words prototype.signature =
      [prototype.invocation.word.toList, prototype.count.text.toList] := by
  apply Text.words_pair (by decide)
  · exact prototype.invocation.word_ne_nil
  · exact fun c member => (prototype.invocation.isPlain_of_mem_word c member).1
  · exact prototype.count.text_ne_nil
  · exact fun c member => (OperandCount.isPlain_of_mem_text _ c member).1

/-- Apart from the name, a line holds each parenthesis once and no other mark. -/
theorem mark_notMem_signature (prototype : Prototype) {mark : Char}
    (marks : mark ∈ ['(', ')', ';']) : mark ∉ prototype.signature := by
  have word := Text.mark_notMem_of_plain prototype.invocation.isPlain_of_mem_word marks
  have count := Text.mark_notMem_of_plain prototype.count.isPlain_of_mem_text marks
  have space : mark ≠ ' ' := by
    rintro rfl
    exact absurd marks (by decide)
  simp [signature, word, count, space]

theorem strip_tail {prototype : Prototype} (legible : prototype.Legible) :
    Text.strip prototype.tail = (prototype.name.map String.toList).getD [] := by
  unfold tail
  cases named : prototype.name with
  | none => rfl
  | some name =>
      rw [Text.strip_cons_blank (by decide), (legible.name name named).2]
      rfl

theorem getLast?_line (prototype : Prototype) :
    prototype.line.toList.getLast? = some (prototype.tail.getLast?.getD ')') := by
  rw [line_toList, List.getLast?_append]
  simp [List.getLast?_cons]

/-- The line of a legible prototype has nothing to strip. -/
theorem strip_line {prototype : Prototype} (legible : prototype.Legible) :
    Text.strip prototype.line.toList = prototype.line.toList := by
  apply Text.strip_eq_self_iff.mpr
  constructor
  · intro c head
    have nonempty : (Numeral.hexPadded 4 prototype.opcode.toNat).toList ≠ [] := by
      rw [Numeral.hexPadded, String.toList_ofList]
      exact Numeral.padded_ne_nil
    rw [line_toList, List.append_assoc, List.head?_append_of_ne_nil _ nonempty] at head
    exact (hexPadded_isPlain prototype.opcode c (List.mem_of_mem_head? head)).1
  · intro c last
    rw [getLast?_line, Option.some.injEq] at last
    unfold tail at last
    cases named : prototype.name with
    | none =>
        rw [named] at last
        rw [← last]
        decide
    | some name =>
        have ⟨nonempty, stripped⟩ := legible.name name named
        apply (Text.strip_eq_self_iff.mp stripped).2
        rw [named] at last
        simp only [List.getLast?_cons_of_ne_nil nonempty] at last
        rw [← last, List.getLast?_eq_getLast_of_ne_nil nonempty, Option.getD_some]

/-- A line of a listable prototype is one line. -/
theorem newline_notMem_line {prototype : Prototype} (listable : prototype.Listable) :
    '\n' ∉ prototype.line.toList := by
  have digits := Text.newline_notMem_of_plain (hexPadded_isPlain prototype.opcode)
  have word := Text.newline_notMem_of_plain prototype.invocation.isPlain_of_mem_word
  have count := Text.newline_notMem_of_plain (prototype.count.isPlain_of_mem_text)
  have tail : '\n' ∉ prototype.tail := by
    unfold tail
    cases named : prototype.name with
    | none => simp
    | some name => simp [(listable.name name named).unbroken]
  simp [line_toList, signature, digits, word, count, tail]

/-- A line of a listable prototype holds no comment. -/
theorem semicolon_notMem_line {prototype : Prototype} (listable : prototype.Listable) :
    ';' ∉ prototype.line.toList := by
  have digits := Text.mark_notMem_of_plain (hexPadded_isPlain prototype.opcode)
    (show ';' ∈ _ by decide)
  have inner := prototype.mark_notMem_signature (show ';' ∈ _ by decide)
  have tail : ';' ∉ prototype.tail := by
    unfold tail
    cases named : prototype.name with
    | none => simp
    | some name => simp [(listable.name name named).uncommented]
  simp [line_toList, digits, inner, tail]

/-! ## The parts of a line -/

/-- What stands in a line before the first opening parenthesis, from there to the next closing one,
and behind that, apart from blanks around the line. -/
structure Parted (line before inside behind : List Char) : Prop where
  split : Text.strip line = before ++ '(' :: (inside ++ ')' :: behind)
  opening : '(' ∉ before
  closing : ')' ∉ inside

/-- A line lacks one of the parentheses or has three parts. -/
theorem exists_parted_or (line : List Char) :
    '(' ∉ Text.strip line ∨
      (∃ before rest, Text.strip line = before ++ '(' :: rest ∧ '(' ∉ before ∧ ')' ∉ rest) ∨
      ∃ before inside behind, Parted line before inside behind := by
  by_cases opened : '(' ∈ Text.strip line
  · right
    obtain ⟨before, rest, split, opening⟩ := List.eq_append_cons_of_mem opened
    by_cases closed : ')' ∈ rest
    · right
      obtain ⟨inside, behind, rfl, closing⟩ := List.eq_append_cons_of_mem closed
      exact ⟨before, inside, behind, split, opening, closing⟩
    · exact .inl ⟨before, rest, split, opening, closed⟩
  · exact .inl opened

theorem ofLine_of_unopened {line : List Char} (missing : '(' ∉ Text.strip line) :
    ofLine line = .error (.unopened (String.ofList (Text.strip line))) := by
  unfold ofLine
  dsimp only
  rw [Text.cutAt?_eq_none_iff.mpr missing]
  rfl

theorem ofLine_of_unclosed {line before rest : List Char}
    (split : Text.strip line = before ++ '(' :: rest) (opening : '(' ∉ before)
    (missing : ')' ∉ rest) :
    ofLine line = .error (.unclosed (String.ofList (Text.strip line))) := by
  unfold ofLine
  dsimp only
  rw [Text.cutAt?_eq_some_iff.mpr ⟨split, opening⟩]
  dsimp only
  rw [Text.cutAt?_eq_none_iff.mpr missing]
  rfl

/-- The parts of a line are read one after the other. -/
theorem ofLine_of_parted {line before inside behind : List Char}
    (parted : Parted line before inside behind) :
    ofLine line = (do
      let opcode ← readOpcode before
      let [word, number] := Text.words inside
        | throw (.signature (String.ofList (Text.strip line)))
      let invocation ← readInvocation word
      let count ← readCount number
      return ⟨opcode,
        if (Text.strip behind).isEmpty then none else some (String.ofList (Text.strip behind)),
        count, invocation⟩) := by
  unfold ofLine
  dsimp only
  rw [Text.cutAt?_eq_some_iff.mpr ⟨parted.split, parted.opening⟩]
  dsimp only
  rewrite [Text.cutAt?_eq_some_iff.mpr ⟨rfl, parted.closing⟩]
  rfl

/-- A line yields a prototype exactly if it has three parts and all of them can be read. -/
theorem ofLine_eq_ok_iff {line : List Char} {prototype : Prototype} :
    ofLine line = .ok prototype ↔
      ∃ before inside behind word number, Parted line before inside behind ∧
        Text.words inside = [word, number] ∧ readOpcode before = .ok prototype.opcode ∧
        readInvocation word = .ok prototype.invocation ∧ readCount number = .ok prototype.count ∧
        prototype.name = if (Text.strip behind).isEmpty then none
          else some (String.ofList (Text.strip behind)) := by
  constructor
  · intro read
    rcases exists_parted_or line with missing | ⟨_, _, split, opening, missing⟩ |
      ⟨before, inside, behind, parted⟩
    · rw [ofLine_of_unopened missing] at read
      cases read
    · rw [ofLine_of_unclosed split opening missing] at read
      cases read
    · rw [ofLine_of_parted parted] at read
      rcases except_bind_eq_ok_iff.mp read with ⟨opcode, read_opcode, read⟩
      split at read
      · rename_i word number fields
        rcases except_bind_eq_ok_iff.mp read with ⟨invocation, read_invocation, read⟩
        rcases except_bind_eq_ok_iff.mp read with ⟨count, read_count, read⟩
        cases read
        exact ⟨before, inside, behind, word, number, parted, fields, read_opcode, read_invocation,
          read_count, rfl⟩
      · cases read
  · rintro ⟨before, inside, behind, word, number, parted, fields, read_opcode, read_invocation,
      read_count, name_eq⟩
    rw [ofLine_of_parted parted, fields]
    refine except_bind_eq_ok_iff.mpr ⟨_, read_opcode, ?_⟩
    refine except_bind_eq_ok_iff.mpr ⟨_, read_invocation, ?_⟩
    refine except_bind_eq_ok_iff.mpr ⟨_, read_count, ?_⟩
    rw [← name_eq]
    rfl

/-! ## Lines read back -/

theorem parted_line {prototype : Prototype} (legible : prototype.Legible) :
    Parted prototype.line.toList ((Numeral.hexPadded 4 prototype.opcode.toNat).toList ++ [' '])
      prototype.signature prototype.tail := by
  have digits := Text.mark_notMem_of_plain (hexPadded_isPlain prototype.opcode)
    (show '(' ∈ _ by decide)
  refine ⟨?_, by simp [digits], prototype.mark_notMem_signature (by decide)⟩
  rw [strip_line legible, line_toList]

/-- A legible prototype reads back from its line. -/
theorem ofLine_line {prototype : Prototype} (legible : prototype.Legible) :
    ofLine prototype.line.toList = .ok prototype := by
  refine ofLine_eq_ok_iff.mpr ⟨_, _, _, _, _, parted_line legible, prototype.words_signature,
    readOpcode_hexPadded legible.opcode, readInvocation_eq_ok_iff.mpr rfl,
    readCount_text legible.count, ?_⟩
  rw [strip_tail legible]
  cases named : prototype.name with
  | none => rfl
  | some name => simp [(legible.name name named).1]

/-- Whatever a line yields is legible. -/
theorem legible_of_ofLine {line : List Char} {prototype : Prototype}
    (read : ofLine line = .ok prototype) : prototype.Legible := by
  obtain ⟨_, _, behind, _, _, -, -, read_opcode, -, read_count, name_eq⟩ :=
    ofLine_eq_ok_iff.mp read
  refine ⟨readOpcode_eq_ok read_opcode, readCount_eq_ok read_count, fun name named => ?_⟩
  rw [name_eq] at named
  split at named
  · cases named
  · rename_i nonempty
    cases named
    rw [String.toList_ofList]
    exact ⟨by simpa using nonempty, Text.strip_strip behind⟩

/-- Whatever a line without line feeds and comments yields is listable. -/
theorem listable_of_ofLine {line : List Char} {prototype : Prototype}
    (read : ofLine line = .ok prototype) (unbroken : '\n' ∉ line) (uncommented : ';' ∉ line) :
    prototype.Listable := by
  have legible := legible_of_ofLine read
  refine ⟨legible.opcode, legible.count, fun name named => ?_⟩
  obtain ⟨_, _, behind, _, _, parted, -, -, -, -, name_eq⟩ := ofLine_eq_ok_iff.mp read
  have carried : ∀ c ∈ behind, c ∈ line := by
    intro c member
    apply Text.mem_of_mem_strip
    rw [parted.split]
    simp [member]
  rw [name_eq] at named
  split at named
  · cases named
  · rename_i nonempty
    cases named
    exact nameListable_strip (by simpa using nonempty)
      (fun member => unbroken (carried _ member)) (fun member => uncommented (carried _ member))

end Prototype

end ScriptDisassembler
