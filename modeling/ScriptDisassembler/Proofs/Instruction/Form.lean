import ScriptDisassembler.Proofs.Instruction.Writability

/-!
# The forms of source lines

`Lookup.Applies` says in three rules how an opcode is written with its operands: an operator of one
operand in front of it, an operator of two between them, and everything else as a call.  What is
noticed depends on the declaration alone, not on the operands.

An operator of one or two operands can still be written as a call, if the instruction was decoded
by another lookup; `Instruction.text_of_written` excludes it for the lookup that the instruction was
decoded by.
-/

namespace ScriptDisassembler

namespace Lookup

/-- Whether an opcode is declared as an operator with this operand count. -/
def Operates (lookup : Lookup) (opcode : UInt16) (count : OperandCount) : Prop :=
  ∃ prototype, lookup opcode = some prototype ∧ prototype.invocation = .operator ∧
    prototype.count = count

/-- What an opcode is called: its declared name, or else its number in the fewest digits. -/
inductive Names (lookup : Lookup) (opcode : UInt16) : String → Prop
  | declared {prototype : Prototype} {name : String}
      (declared : lookup opcode = some prototype) (named : prototype.name = some name) :
      Names lookup opcode name
  | number (unnamed : ∀ prototype, lookup opcode = some prototype → prototype.name = none) :
      Names lookup opcode ("0x" ++ String.ofList (Nat.toDigits 16 opcode.toNat))

/-- How an opcode is written with its operands. -/
inductive Applies (lookup : Lookup) (opcode : UInt16) : List String → String → Prop
  | unary {name operand : String} (named : lookup.Names opcode name)
      (operates : lookup.Operates opcode (.fixed 1)) :
      Applies lookup opcode [operand] (name ++ operand)
  | binary {name left right : String} (named : lookup.Names opcode name)
      (operates : lookup.Operates opcode (.fixed 2)) :
      Applies lookup opcode [left, right] (left ++ " " ++ name ++ " " ++ right)
  | call {name : String} {operands : List String} (named : lookup.Names opcode name)
      (notUnary : lookup.Operates opcode (.fixed 1) → operands.length ≠ 1)
      (notBinary : lookup.Operates opcode (.fixed 2) → operands.length ≠ 2) :
      Applies lookup opcode operands (name ++ "(" ++ String.intercalate ", " operands ++ ")")

variable {lookup : Lookup} {opcode : UInt16} {count : OperandCount} {operands : List String}

theorem Operates.eq {other : OperandCount} (operates : lookup.Operates opcode count)
    (alsoOperates : lookup.Operates opcode other) : count = other := by
  obtain ⟨prototype, declared, -, rfl⟩ := operates
  obtain ⟨same, alsoDeclared, -, rfl⟩ := alsoOperates
  rw [declared] at alsoDeclared
  cases alsoDeclared
  rfl

theorem Operates.countOf_eq (operates : lookup.Operates opcode count) :
    lookup.countOf opcode = count := by
  obtain ⟨prototype, declared, -, rfl⟩ := operates
  simp only [countOf, declared]

theorem names_iff {name : String} : lookup.Names opcode name ↔ lookup.nameOf opcode = name := by
  unfold nameOf
  constructor
  · rintro (⟨declared, named⟩ | unnamed)
    · simp only [declared, Option.bind_some, named]
    · have nameless : (lookup opcode).bind Prototype.name = none :=
        Option.bind_eq_none_iff.mpr unnamed
      rw [nameless]
      rfl
  · rintro rfl
    cases nameless : (lookup opcode).bind Prototype.name with
    | some name =>
        obtain ⟨prototype, declared, named⟩ := Option.bind_eq_some_iff.mp nameless
        exact .declared declared named
    | none => exact .number (Option.bind_eq_none_iff.mp nameless)

/-! ## The text of an opcode by its declaration -/

/-- An opcode that is no operator is called, without a notice. -/
theorem applicationText_of_not_operates (called : ∀ count, ¬ lookup.Operates opcode count) :
    lookup.applicationText opcode operands = (callText (lookup.nameOf opcode) operands, []) := by
  unfold applicationText
  dsimp only
  split
  · rfl
  · rename_i prototype declared
    rw [if_neg]
    intro isOperator
    exact called _ ⟨prototype, declared, eq_of_beq isOperator, rfl⟩

theorem applicationText_unary (operates : lookup.Operates opcode (.fixed 1)) (operand : String) :
    lookup.applicationText opcode [operand] = (lookup.nameOf opcode ++ operand, []) := by
  obtain ⟨prototype, declared, operator, count_eq⟩ := operates
  simp only [applicationText, declared, Prototype.isOperator, operator, count_eq,
    beq_self_eq_true, if_true]

theorem applicationText_binary (operates : lookup.Operates opcode (.fixed 2))
    (left right : String) :
    lookup.applicationText opcode [left, right] =
      (left ++ " " ++ lookup.nameOf opcode ++ " " ++ right, []) := by
  obtain ⟨prototype, declared, operator, count_eq⟩ := operates
  simp only [applicationText, declared, Prototype.isOperator, operator, count_eq,
    beq_self_eq_true, if_true]

/-- An operator that stands with another number of operands is called, and noticed if its count is
the reason. -/
theorem applicationText_of_operates (operates : lookup.Operates opcode count)
    (notUnary : count = .fixed 1 → operands.length ≠ 1)
    (notBinary : count = .fixed 2 → operands.length ≠ 2) :
    lookup.applicationText opcode operands =
      (callText (lookup.nameOf opcode) operands,
        if count = .fixed 1 ∨ count = .fixed 2 then [] else [.operatorArity opcode count]) := by
  obtain ⟨prototype, declared, operator, rfl⟩ := operates
  simp only [applicationText, declared, Prototype.isOperator, operator, beq_self_eq_true, if_true]
  split
  · rename_i count_eq
    exact absurd rfl (notUnary count_eq)
  · rename_i count_eq
    exact absurd rfl (notBinary count_eq)
  · rename_i count_eq _
    rw [if_pos (.inl count_eq)]
  · rename_i count_eq _
    rw [if_pos (.inr count_eq)]
  · rename_i notOne notTwo _ _
    rw [if_neg (not_or.mpr ⟨notOne, notTwo⟩)]

theorem applicationText_eq_call (notUnary : lookup.Operates opcode (.fixed 1) → operands.length ≠ 1)
    (notBinary : lookup.Operates opcode (.fixed 2) → operands.length ≠ 2) :
    (lookup.applicationText opcode operands).1 = callText (lookup.nameOf opcode) operands := by
  by_cases operator : ∃ count, lookup.Operates opcode count
  · obtain ⟨count, operates⟩ := operator
    rw [applicationText_of_operates operates (fun count_eq => notUnary (count_eq ▸ operates))
      fun count_eq => notBinary (count_eq ▸ operates)]
  · rw [applicationText_of_not_operates (not_exists.mp operator)]

/-- The rules say what is written. -/
theorem applies_iff {form : String} :
    lookup.Applies opcode operands form ↔ (lookup.applicationText opcode operands).1 = form := by
  constructor
  · intro applies
    cases applies with
    | unary named operates => rw [applicationText_unary operates, names_iff.mp named]
    | binary named operates => rw [applicationText_binary operates, names_iff.mp named]
    | call named notUnary notBinary =>
        rw [applicationText_eq_call notUnary notBinary, names_iff.mp named]
        rfl
  · rintro rfl
    have named := names_iff.mpr (Eq.refl (lookup.nameOf opcode))
    by_cases unary : lookup.Operates opcode (.fixed 1) ∧ operands.length = 1
    · obtain ⟨operand, rfl⟩ := List.length_eq_one_iff.mp unary.2
      rw [applicationText_unary unary.1]
      exact .unary named unary.1
    by_cases binary : lookup.Operates opcode (.fixed 2) ∧ operands.length = 2
    · obtain ⟨left, right, rfl⟩ := List.length_eq_two.mp binary.2
      rw [applicationText_binary binary.1]
      exact .binary named binary.1
    -- Neither an operator of one operand with one nor one of two with two.
    · rw [not_and] at unary binary
      rw [applicationText_eq_call unary binary]
      exact .call named unary binary

/-! ## What is noticed -/

/-- What is noticed about an operator depends on its count alone. -/
theorem applicationText_notices (operates : lookup.Operates opcode count) :
    (lookup.applicationText opcode operands).2 =
      if count = .fixed 1 ∨ count = .fixed 2 then [] else [.operatorArity opcode count] := by
  by_cases unary : count = .fixed 1 ∧ operands.length = 1
  · obtain ⟨operand, rfl⟩ := List.length_eq_one_iff.mp unary.2
    rw [applicationText_unary (unary.1 ▸ operates), if_pos (.inl unary.1)]
  by_cases binary : count = .fixed 2 ∧ operands.length = 2
  · obtain ⟨left, right, rfl⟩ := List.length_eq_two.mp binary.2
    rw [applicationText_binary (binary.1 ▸ operates), if_pos (.inr binary.1)]
  · rw [not_and] at unary binary
    rw [applicationText_of_operates operates unary binary]

/-- An opcode is noticed, with its count, exactly if it is an operator of other than one and two
operands. -/
theorem applicationText_notices_iff :
    (∀ count, (lookup.applicationText opcode operands).2 = [.operatorArity opcode count] ↔
        lookup.Operates opcode count ∧ count ≠ .fixed 1 ∧ count ≠ .fixed 2) ∧
      ((lookup.applicationText opcode operands).2 = [] ↔
        ∀ count, lookup.Operates opcode count → count = .fixed 1 ∨ count = .fixed 2) := by
  by_cases operator : ∃ count, lookup.Operates opcode count
  · obtain ⟨declared, operates⟩ := operator
    have declaredOnly : ∀ count, lookup.Operates opcode count ↔ declared = count := fun count =>
      ⟨operates.eq, fun same => same ▸ operates⟩
    rw [applicationText_notices operates]
    simp only [declaredOnly, forall_eq']
    by_cases served : declared = .fixed 1 ∨ declared = .fixed 2
    · rw [if_pos served]
      refine ⟨fun count => iff_of_false (List.ne_cons_self) ?_, iff_of_true rfl served⟩
      rintro ⟨rfl, notOne, notTwo⟩
      exact absurd served (not_or.mpr ⟨notOne, notTwo⟩)
    · rw [if_neg served]
      refine ⟨fun count => ⟨?_, ?_⟩, iff_of_false (List.cons_ne_nil _ _) served⟩
      · intro same
        cases same
        exact ⟨rfl, not_or.mp served⟩
      · rintro ⟨rfl, -⟩
        rfl
  · rw [not_exists] at operator
    rw [applicationText_of_not_operates operator]
    refine ⟨fun count => iff_of_false (List.ne_cons_self) ?_, iff_of_true rfl ?_⟩
    · exact fun expected => operator count expected.1
    · exact fun count operates => absurd operates (operator count)

end Lookup

namespace Instruction

variable {instruction : Instruction} {lookup : Lookup} {texts : List String}

/-! ## Instructions decoded by the lookup they are written with -/

/-- An operator that was decoded by its declaration has the declared number of operands. -/
theorem length_of_decode {decoder : Decoder} {cursor : Cursor} {count : Nat}
    (success : (decoder.decode cursor).result = .ok instruction)
    (operates : decoder.lookup.Operates instruction.opcode (.fixed count))
    (written : List.Forall₂ (fun operand text => operand.text = .ok text) instruction.operands
      texts) : texts.length = count := by
  have allowed := (Decoder.allows_and_read_of_decode success).1
  rw [operates.countOf_eq] at allowed
  rw [← written.length_eq]
  exact allowed

/-! ## Main result -/

/-- An instruction whose operands have written forms has a source line, whatever the lookup: the form
that the rules say, inverted if the instruction is.  A notice, which is a warning, says that the
opcode is an operator of other than one and two operands, and there is no other.  With the lookup
that the instruction was decoded by, operators of one and two operands are written as operators. -/
theorem text_of_written
    (written : List.Forall₂ (fun operand text => operand.text = .ok text) instruction.operands
      texts) (lookup : Lookup) :
    ((∃ text, (instruction.text lookup).1 = .ok text) ∧
      ∀ text, (instruction.text lookup).1 = .ok text ↔
        ∃ form, lookup.Applies instruction.opcode texts form ∧
          text = invertText instruction.inverted form) ∧
    ((∀ count, (instruction.text lookup).2 = [.operatorArity instruction.opcode count] ↔
        lookup.Operates instruction.opcode count ∧ count ≠ .fixed 1 ∧ count ≠ .fixed 2) ∧
      ((instruction.text lookup).2 = [] ↔ ∀ count,
        lookup.Operates instruction.opcode count → count = .fixed 1 ∨ count = .fixed 2) ∧
      ∀ count, (Notice.operatorArity instruction.opcode count).level = .warning) ∧
    ∀ (decoder : Decoder) (cursor : Cursor), decoder.lookup = lookup →
      (decoder.decode cursor).result = .ok instruction →
      (lookup.Operates instruction.opcode (.fixed 1) → ∃ name operand,
        lookup.Names instruction.opcode name ∧ texts = [operand] ∧
        (instruction.text lookup).1 = .ok (invertText instruction.inverted (name ++ operand))) ∧
      (lookup.Operates instruction.opcode (.fixed 2) → ∃ name left right,
        lookup.Names instruction.opcode name ∧ texts = [left, right] ∧
        (instruction.text lookup).1 =
          .ok (invertText instruction.inverted (left ++ " " ++ name ++ " " ++ right))) := by
  rw [text_of_mapM (except_mapM_eq_ok_iff.mpr written)]
  refine ⟨⟨⟨_, rfl⟩, fun text => ⟨?_, ?_⟩⟩, ⟨Lookup.applicationText_notices_iff.1,
    Lookup.applicationText_notices_iff.2, fun _ => rfl⟩, ?_⟩
  · rintro ⟨⟩
    exact ⟨_, Lookup.applies_iff.mpr rfl, rfl⟩
  · rintro ⟨form, applies, rfl⟩
    rw [Lookup.applies_iff.mp applies]
  · rintro decoder cursor rfl success
    have named := Lookup.names_iff.mpr (Eq.refl (decoder.lookup.nameOf instruction.opcode))
    refine ⟨fun operates => ?_, fun operates => ?_⟩
    · obtain ⟨operand, rfl⟩ :=
        List.length_eq_one_iff.mp (length_of_decode success operates written)
      exact ⟨_, operand, named, rfl, by rw [Lookup.applicationText_unary operates]⟩
    · obtain ⟨left, right, rfl⟩ :=
        List.length_eq_two.mp (length_of_decode success operates written)
      exact ⟨_, left, right, named, rfl, by rw [Lookup.applicationText_binary operates]⟩

/-- An inverted assignment with its two operands. -/
theorem text_of_written_binary :
    let decoder : Decoder := ⟨Lookup.ofPairs [(8, .operator 8 "+=" 2)], .lenient⟩
    let cursor : Cursor := ⟨#[0x08, 0x80, 0x03, 0x03, 0x00, 0x04, 0x01], 0⟩
    let instruction : Instruction := ⟨0, 7, 8, true,
      [⟨.local32, .localScalar, .integer 3⟩, ⟨.signed8, .integer, .integer 1⟩]⟩
    (decoder.decode cursor).result = .ok instruction ∧
      (instruction.text decoder.lookup).1 = .ok "!(local_3 += 1)" := by
  intro decoder cursor instruction
  have success : (decoder.decode cursor).result = .ok instruction := by
    simp only [decoder, cursor, instruction]
    rfl
  have written : List.Forall₂ (fun operand text => Operand.text operand = .ok text)
      instruction.operands ["local_3", "1"] := .cons rfl (.cons rfl .nil)
  have operates : decoder.lookup.Operates instruction.opcode (.fixed 2) := ⟨_, rfl, rfl, rfl⟩
  obtain ⟨name, left, right, named, same, text_eq⟩ :=
    ((text_of_written written decoder.lookup).2.2 decoder cursor rfl success).2 operates
  cases same
  refine ⟨success, ?_⟩
  rw [text_eq, ← Lookup.names_iff.mp named]
  rfl

end Instruction

end ScriptDisassembler
