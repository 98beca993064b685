/-!
# Cutting text

A text is cut at the first occurrence of a mark, or after a number of UTF-8 bytes.
`cutAt?_eq_some_iff` and `cutBytes?_eq_some_iff` say exactly which two parts result.
-/

namespace ScriptDisassembler.Text

/-- The parts before and behind the first occurrence of `mark`. -/
def cutAt? (mark : Char) (text : List Char) : Option (List Char × List Char) :=
  match text.dropWhile (· != mark) with
  | [] => none
  | _ :: behind => some (text.takeWhile (· != mark), behind)

/-- The part before the first occurrence of `mark`, or the whole text if there is none. -/
def upTo (mark : Char) (text : List Char) : List Char :=
  text.takeWhile (· != mark)

/-- The number of bytes that a text takes in UTF-8. -/
def utf8Size (text : List Char) : Nat :=
  text.foldr (fun c size => c.utf8Size + size) 0

/-- The first `size` bytes of a text and the rest, if the cut falls between two characters. -/
def cutBytes? : Nat → List Char → Option (List Char × List Char)
  | 0, text => some ([], text)
  | _ + 1, [] => none
  | size + 1, c :: rest =>
      if c.utf8Size ≤ size + 1 then
        (cutBytes? (size + 1 - c.utf8Size) rest).map fun parts => (c :: parts.1, parts.2)
      else none

theorem takeWhile_bne_append_cons {mark : Char} {before : List Char} (behind : List Char)
    (fresh : mark ∉ before) :
    (before ++ mark :: behind).takeWhile (· != mark) = before ∧
      (before ++ mark :: behind).dropWhile (· != mark) = mark :: behind := by
  induction before with
  | nil => simp
  | cons c before ih =>
      have differs : c ≠ mark := fun same => fresh (same ▸ List.mem_cons_self)
      have rest := ih fun member => fresh (List.mem_cons_of_mem c member)
      simp [differs, rest]

/-- Cutting at a mark finds the parts around its first occurrence. -/
theorem cutAt?_eq_some_iff {mark : Char} {text before behind : List Char} :
    cutAt? mark text = some (before, behind) ↔
      text = before ++ mark :: behind ∧ mark ∉ before := by
  constructor
  · intro found
    have split := List.takeWhile_append_dropWhile (p := (· != mark)) (l := text)
    have clean : mark ∉ text.takeWhile (· != mark) := by
      intro member
      have passes := List.all_takeWhile (p := (· != mark)) (l := text)
      simpa using List.all_eq_true.mp passes mark member
    unfold cutAt? at found
    cases rest : text.dropWhile (· != mark) with
    | nil => simp [rest] at found
    | cons c after =>
        simp only [rest, Option.some.injEq, Prod.mk.injEq] at found
        have head := List.head?_dropWhile_not (· != mark) text
        simp only [rest, List.head?_cons] at head
        obtain ⟨rfl, rfl⟩ := found
        have marked : c = mark := by simpa using head
        rw [rest, marked] at split
        exact ⟨split.symm, clean⟩
  · rintro ⟨rfl, fresh⟩
    have parts := takeWhile_bne_append_cons behind fresh
    simp [cutAt?, parts]

/-- A text can not be cut exactly where it holds no mark. -/
theorem cutAt?_eq_none_iff {mark : Char} {text : List Char} :
    cutAt? mark text = none ↔ mark ∉ text := by
  constructor
  · intro uncut member
    obtain ⟨before, behind, rfl, fresh⟩ := List.eq_append_cons_of_mem member
    rw [cutAt?_eq_some_iff.mpr ⟨rfl, fresh⟩] at uncut
    cases uncut
  · intro fresh
    cases found : cutAt? mark text with
    | none => rfl
    | some parts =>
        have split := (@cutAt?_eq_some_iff mark text parts.1 parts.2).mp found
        rw [split.1] at fresh
        simp at fresh

/-- Cutting after some bytes splits the text and measures the first part. -/
theorem cutBytes?_eq_some_iff {size : Nat} {text first rest : List Char} :
    cutBytes? size text = some (first, rest) ↔ text = first ++ rest ∧ utf8Size first = size := by
  induction text generalizing size first with
  | nil => cases size <;> cases first <;> simp [cutBytes?, utf8Size, eq_comm]
  | cons c text ih =>
      cases size with
      | zero =>
          cases first with
          | nil => simp [cutBytes?, utf8Size]
          | cons d first =>
              have := d.utf8Size_pos
              simp [cutBytes?, utf8Size]
              omega
      | succ size =>
          cases first with
          | nil => simp [cutBytes?, utf8Size]
          | cons d first =>
              have measure : utf8Size (d :: first) = d.utf8Size + utf8Size first := by
                simp [utf8Size]
              by_cases fits : c.utf8Size ≤ size + 1
              · have remaining := @ih (size + 1 - c.utf8Size) first
                simp only [cutBytes?, fits, if_true, Option.map_eq_some_iff, Prod.mk.injEq,
                  List.cons.injEq, List.cons_append, measure]
                constructor
                · rintro ⟨parts, found, ⟨rfl, rfl⟩, rfl⟩
                  obtain ⟨split, size_eq⟩ := remaining.mp found
                  exact ⟨⟨rfl, split⟩, by omega⟩
                · rintro ⟨⟨rfl, split⟩, size_eq⟩
                  exact ⟨(first, rest), remaining.mpr ⟨split, by omega⟩, ⟨rfl, rfl⟩, rfl⟩
              · simp only [cutBytes?, fits, if_false, reduceCtorEq, List.cons.injEq,
                  List.cons_append, measure, false_iff]
                rintro ⟨⟨rfl, -⟩, size_eq⟩
                omega

end ScriptDisassembler.Text
