import Mathlib.Data.List.DropRight
import Mathlib.Data.List.Infix
import ScriptDisassembler.Text.Blank
import ScriptDisassembler.Text.Cut
import ScriptDisassembler.Text.Lines

/-!
# Pieces of a text

What stripping, cutting and dividing into lines leave of a text, and which texts they leave alone.
A text is its own strip exactly if it neither begins nor ends with a blank (`strip_eq_self_iff`).
Lines that hold no line feed and end in no carriage return are the lines of the text in which each
is ended by a line feed (`lines_flatMap_newline`).  A line feed between two texts keeps their lines
apart, up to a return that ends the first and a line that is empty
(`filterMap_lines_append_newline`), and a return in front of a line feed makes no difference but to
the end of its line (`map_lines_withReturns`).
-/

namespace ScriptDisassembler.Text

/-! ## Stripping -/

theorem stripEnd_eq_rdropWhile (text : List Char) : stripEnd text = text.rdropWhile isBlank :=
  rfl

theorem mem_of_mem_strip {c : Char} {text : List Char} (member : c ∈ strip text) : c ∈ text := by
  have inner : c ∈ text.dropWhile isBlank := (List.rdropWhile_prefix isBlank _).subset member
  exact (List.dropWhile_suffix isBlank).subset inner

theorem isBlank_of_head?_strip {c : Char} {text : List Char} (head : (strip text).head? = some c) :
    isBlank c = false := by
  rcases List.rdropWhile_prefix isBlank (l := text.dropWhile isBlank) with ⟨blanks, split⟩
  have first : (text.dropWhile isBlank).head? = some c := by
    rw [← split, List.head?_append]
    change (strip text).head?.or _ = _
    rw [head, Option.some_or]
  have solid := List.head?_dropWhile_not isBlank text
  simpa [first] using solid

theorem isBlank_of_getLast?_strip {c : Char} {text : List Char}
    (last : (strip text).getLast? = some c) : isBlank c = false := by
  have nonempty : strip text ≠ [] := by
    intro empty
    rw [empty] at last
    cases last
  have solid := List.rdropWhile_last_not isBlank (text.dropWhile isBlank) nonempty
  rw [List.getLast?_eq_getLast_of_ne_nil nonempty, Option.some.injEq] at last
  change ¬ isBlank ((strip text).getLast nonempty) = true at solid
  simpa [last] using solid

/-- Stripping changes exactly the texts that begin or end with a blank. -/
theorem strip_eq_self_iff {text : List Char} :
    strip text = text ↔
      (∀ c, text.head? = some c → isBlank c = false) ∧
        ∀ c, text.getLast? = some c → isBlank c = false := by
  constructor
  · intro same
    constructor
    · intro c head
      rw [← same] at head
      exact isBlank_of_head?_strip head
    · intro c last
      rw [← same] at last
      exact isBlank_of_getLast?_strip last
  · rintro ⟨solidHead, solidLast⟩
    have kept : text.dropWhile isBlank = text := by
      cases text with
      | nil => rfl
      | cons c rest => simp [solidHead c rfl]
    rw [strip, kept, stripEnd_eq_rdropWhile, List.rdropWhile_eq_self_iff]
    intro nonempty
    simp [solidLast _ (List.getLast?_eq_getLast_of_ne_nil nonempty)]

@[simp]
theorem strip_strip (text : List Char) : strip (strip text) = strip text :=
  strip_eq_self_iff.mpr ⟨fun _ => isBlank_of_head?_strip, fun _ => isBlank_of_getLast?_strip⟩

/-- A text without blanks has nothing to strip. -/
theorem strip_of_solid {text : List Char} (solid : ∀ c ∈ text, isBlank c = false) :
    strip text = text := by
  apply strip_eq_self_iff.mpr
  constructor
  · intro c head
    exact solid c (List.mem_of_mem_head? head)
  · intro c last
    exact solid c (List.mem_of_mem_getLast? last)

theorem strip_cons_blank {c : Char} (blank : isBlank c = true) (text : List Char) :
    strip (c :: text) = strip text := by
  simp [strip, blank]

theorem strip_append_blank {c : Char} (blank : isBlank c = true) (text : List Char) :
    strip (text ++ [c]) = strip text := by
  rw [strip, strip, List.dropWhile_append]
  split
  · rename_i empty
    rw [List.isEmpty_iff.mp empty]
    simp [blank]
  · rw [stripEnd_eq_rdropWhile, List.rdropWhile_concat_pos isBlank _ c blank]
    rfl

/-- Whether a text holds no other characters than blanks. -/
def AllBlank (text : List Char) : Prop :=
  ∀ c ∈ text, isBlank c = true

instance : DecidablePred AllBlank := fun text =>
  decidable_of_iff (text.all isBlank = true) List.all_eq_true

theorem AllBlank.notMem {text : List Char} (blank : AllBlank text) {c : Char}
    (solid : isBlank c = false) : c ∉ text :=
  fun member => Bool.false_ne_true (solid.symm.trans (blank c member))

/-- Stripping takes blanks away at both ends. -/
theorem exists_strip (text : List Char) :
    ∃ front back, AllBlank front ∧ AllBlank back ∧ text = front ++ strip text ++ back := by
  refine ⟨text.takeWhile isBlank, (text.dropWhile isBlank).rtakeWhile isBlank,
    fun _ => List.mem_takeWhile_imp, fun _ => List.mem_rtakeWhile_imp, ?_⟩
  rw [strip, stripEnd_eq_rdropWhile, List.append_assoc, List.rdropWhile_append_rtakeWhile,
    List.takeWhile_append_dropWhile]

/-- Nothing is left of exactly the texts that are blank. -/
theorem strip_eq_nil_iff {text : List Char} : strip text = [] ↔ AllBlank text := by
  constructor
  · intro empty
    obtain ⟨front, back, frontBlank, backBlank, split⟩ := exists_strip text
    rw [split, empty, List.append_nil]
    exact fun c member => (List.mem_append.mp member).elim (frontBlank c) (backBlank c)
  · intro blank
    rw [strip, List.dropWhile_eq_nil_iff.mpr blank]
    rfl

/-- Blanks in front of a text are stripped with those of the text. -/
theorem AllBlank.strip_append {blanks : List Char} (blank : AllBlank blanks) (text : List Char) :
    strip (blanks ++ text) = strip text := by
  rw [strip, List.dropWhile_append_of_pos blank]
  rfl

/-- A text that does not begin with a blank keeps its first character. -/
theorem head?_strip_cons {c : Char} (solid : isBlank c = false) (text : List Char) :
    (strip (c :: text)).head? = some c := by
  obtain ⟨front, back, blank, -, split⟩ := exists_strip (c :: text)
  cases front with
  | cons first rest =>
      have same : c = first := by simpa using congrArg List.head? split
      exact absurd (same ▸ List.mem_cons_self) (blank.notMem solid)
  | nil =>
      cases stripped : strip (c :: text) with
      | nil => exact absurd List.mem_cons_self ((strip_eq_nil_iff.mp stripped).notMem solid)
      | cons first rest =>
          rw [stripped] at split
          simpa using (congrArg List.head? split).symm

/-! ## Plain characters -/

/-- Whether a character neither divides the parts of a line nor starts a comment. -/
def IsPlain (c : Char) : Prop :=
  isBlank c = false ∧ c ∉ ['(', ')', ';']

instance : DecidablePred IsPlain := fun _ => inferInstanceAs (Decidable (_ ∧ _))

theorem isPlain_of_all {text : List Char} (all : text.all (fun c => decide (IsPlain c)) = true) :
    ∀ c ∈ text, IsPlain c := by
  intro c member
  exact of_decide_eq_true (List.all_eq_true.mp all c member)

theorem newline_notMem_of_plain {text : List Char} (plain : ∀ c ∈ text, IsPlain c) :
    '\n' ∉ text := by
  intro member
  exact absurd (plain _ member).1 (by decide)

theorem mark_notMem_of_plain {text : List Char} (plain : ∀ c ∈ text, IsPlain c) {mark : Char}
    (marks : mark ∈ ['(', ')', ';']) : mark ∉ text :=
  fun member => (plain mark member).2 marks

/-! ## Cutting -/

theorem upTo_of_notMem {mark : Char} {text : List Char} (fresh : mark ∉ text) :
    upTo mark text = text := by
  rw [upTo, List.takeWhile_eq_self_iff]
  intro c member
  have differs : c ≠ mark := fun same => fresh (same ▸ member)
  simpa using differs

theorem notMem_upTo (mark : Char) (text : List Char) : mark ∉ upTo mark text := by
  intro member
  have passes := List.all_takeWhile (p := (· != mark)) (l := text)
  simpa using List.all_eq_true.mp passes mark member

theorem mem_of_mem_upTo {c mark : Char} {text : List Char} (member : c ∈ upTo mark text) :
    c ∈ text :=
  (List.takeWhile_prefix _).subset member

/-- A text and its strip are cut at the same mark; the blanks stay in the outer parts. -/
theorem exists_cutAt?_strip {mark : Char} (solid : isBlank mark = false) (text : List Char) :
    ∃ front back, AllBlank front ∧ AllBlank back ∧
      cutAt? mark text =
        (cutAt? mark (strip text)).map fun parts => (front ++ parts.1, parts.2 ++ back) := by
  obtain ⟨front, back, frontBlank, backBlank, split⟩ := exists_strip text
  refine ⟨front, back, frontBlank, backBlank, ?_⟩
  have frontFresh := frontBlank.notMem solid
  have backFresh := backBlank.notMem solid
  cases cut : cutAt? mark (strip text) with
  | none =>
      have fresh := cutAt?_eq_none_iff.mp cut
      rw [Option.map_none, cutAt?_eq_none_iff, split]
      simp [frontFresh, fresh, backFresh]
  | some parts =>
      obtain ⟨middle, fresh⟩ := cutAt?_eq_some_iff.mp (cut : _ = some (parts.1, parts.2))
      rw [Option.map_some, cutAt?_eq_some_iff]
      constructor
      · rw [split, middle]
        simp
      · simp [frontFresh, fresh]

/-- A blank at the end of a text is stripped, also from what stands in front of a mark. -/
theorem strip_upTo_append_blank {mark c : Char} (blank : isBlank c = true) (text : List Char) :
    strip (upTo mark (text ++ [c])) = strip (upTo mark text) := by
  by_cases marked : mark ∈ text
  · obtain ⟨before, behind, rfl, fresh⟩ := List.eq_append_cons_of_mem marked
    rw [List.append_assoc, List.cons_append, upTo, upTo,
      (takeWhile_bne_append_cons _ fresh).1, (takeWhile_bne_append_cons _ fresh).1]
  · by_cases same : mark = c
    · rw [same] at marked ⊢
      rw [upTo, (takeWhile_bne_append_cons [] marked).1, upTo_of_notMem marked]
    · have fresh : mark ∉ text ++ [c] := by simp [marked, same]
      rw [upTo_of_notMem fresh, upTo_of_notMem marked, strip_append_blank blank]

/-! ## Lines -/

theorem mem_of_mem_withoutReturn {c : Char} {line : List Char} (member : c ∈ withoutReturn line) :
    c ∈ line := by
  unfold withoutReturn at member
  split at member
  · exact List.mem_of_mem_dropLast member
  · exact member

theorem notMem_of_mem_splitOn {mark : Char} {text piece : List Char}
    (member : piece ∈ text.splitOn mark) : mark ∉ piece := by
  induction text generalizing piece with
  | nil =>
      rw [List.splitOn_nil, List.mem_singleton] at member
      simp [member]
  | cons c text ih =>
      rw [List.splitOn_cons_eq_if_modifyHead] at member
      split at member
      · rcases List.mem_cons.mp member with rfl | later
        · simp
        · exact ih later
      · rename_i differs
        rcases List.exists_cons_of_ne_nil (List.splitOn_ne_nil mark text) with ⟨first, rest, pieces⟩
        rw [pieces, List.modifyHead_cons] at member
        rcases List.mem_cons.mp member with rfl | later
        · have fresh : mark ∉ first := ih (pieces ▸ List.mem_cons_self)
          have other : mark ≠ c := fun same => differs (by simp [same])
          simp [fresh, other]
        · exact ih (pieces ▸ List.mem_cons_of_mem first later)

/-- No line holds a line feed. -/
theorem newline_notMem_of_mem_lines {text line : List Char} (member : line ∈ lines text) :
    '\n' ∉ line := by
  have ended : ∀ line ∈ (text.splitOn '\n').dropLast.map withoutReturn, '\n' ∉ line := by
    intro line member
    rcases List.mem_map.mp member with ⟨piece, stored, rfl⟩
    intro newline
    exact notMem_of_mem_splitOn (List.mem_of_mem_dropLast stored)
      (mem_of_mem_withoutReturn newline)
  unfold lines at member
  dsimp only at member
  split at member
  · rename_i c rest last
    rcases List.mem_append.mp member with earlier | final
    · exact ended line earlier
    · rw [List.mem_singleton] at final
      rw [final]
      exact notMem_of_mem_splitOn (List.mem_of_mem_getLast? last)
  · exact ended line member

/-- Lines that are each ended by a line feed are found again. -/
theorem lines_flatMap_newline {texts : List (List Char)}
    (unbroken : ∀ text ∈ texts, '\n' ∉ text)
    (unreturned : ∀ text ∈ texts, text.getLast? ≠ some '\r') :
    lines (texts.flatMap (· ++ ['\n'])) = texts := by
  induction texts with
  | nil => rfl
  | cons text texts ih =>
      have joined : (text :: texts).flatMap (· ++ ['\n']) =
          text ++ '\n' :: texts.flatMap (· ++ ['\n']) := by
        simp
      have kept : withoutReturn text = text := if_neg (unreturned text List.mem_cons_self)
      rw [joined, lines_append_cons _ _ (unbroken text List.mem_cons_self), kept,
        ih (fun later member => unbroken later (List.mem_cons_of_mem text member))
          (fun later member => unreturned later (List.mem_cons_of_mem text member))]

/-- A text without a line feed is one line, unless it is empty. -/
theorem lines_of_notMem {text : List Char} (unbroken : '\n' ∉ text) :
    lines text = if text = [] then [] else [text] := by
  rw [lines, List.splitOn_eq_singleton unbroken]
  cases text <;> rfl

/-- What holds of a text without a line feed, and of a text whenever it holds of what stands behind
its first line feed, holds of every text. -/
@[elab_as_elim]
theorem lines_induction {motive : List Char → Prop}
    (unbroken : ∀ text, '\n' ∉ text → motive text)
    (line : ∀ front rest, '\n' ∉ front → motive rest → motive (front ++ '\n' :: rest))
    (text : List Char) : motive text := by
  induction size : text.length using Nat.strongRecOn generalizing text with
  | ind bound ih =>
      by_cases broken : '\n' ∈ text
      · obtain ⟨front, rest, rfl, fresh⟩ := List.eq_append_cons_of_mem broken
        rw [List.length_append, List.length_cons] at size
        exact line front rest fresh (ih rest.length (by omega) rest rfl)
      · exact unbroken text broken

/-- A text in front of a line feed loses at most the carriage return of its last line, which may be
empty and then was none before. -/
theorem exists_lines_append_newline (first : List Char) :
    ∃ ended last, lines first = ended ++ (if last = [] then [] else [last]) ∧
      ∀ second, lines (first ++ '\n' :: second) =
        ended ++ withoutReturn last :: lines second := by
  induction first using lines_induction with
  | unbroken first broken =>
      exact ⟨[], first, lines_of_notMem broken, fun second => lines_append_cons _ _ broken⟩
  | line front rest fresh ih =>
      obtain ⟨ended, last, alone, joined⟩ := ih
      refine ⟨withoutReturn front :: ended, last, ?_, fun second => ?_⟩
      · rw [lines_append_cons _ _ fresh, alone, List.cons_append]
      · rw [List.append_assoc, List.cons_append, lines_append_cons _ _ fresh, joined,
          List.cons_append]

/-- What is made of the lines of a text, if nothing is made of empty lines and carriage returns at
line ends do not matter, is made of the lines of two texts that a line feed divides. -/
theorem filterMap_lines_append_newline {α : Type} {make : List Char → Option α}
    (empty : make [] = none) (unreturned : ∀ line, make (withoutReturn line) = make line)
    (first second : List Char) :
    (lines (first ++ '\n' :: second)).filterMap make =
      (lines first).filterMap make ++ (lines second).filterMap make := by
  obtain ⟨ended, last, alone, joined⟩ := exists_lines_append_newline first
  rw [alone, joined, List.filterMap_append, List.filterMap_append, List.append_assoc]
  congr 1
  by_cases missing : last = []
  · rw [if_pos missing, missing, List.filterMap_cons_none (by rw [unreturned, empty])]
    rfl
  · rw [if_neg missing, List.filterMap_cons, unreturned]
    cases kept : make last <;> simp [kept]

/-- A text with a carriage return put in front of every line feed. -/
def withReturns (text : List Char) : List Char :=
  text.flatMap fun c => if c = '\n' then ['\r', '\n'] else [c]

theorem withReturns_of_notMem {text : List Char} (unbroken : '\n' ∉ text) :
    withReturns text = text := by
  have each : text.flatMap (fun c => if c = '\n' then ['\r', '\n'] else [c]) =
      text.flatMap List.singleton := by
    apply List.flatMap_congr
    intro c member
    have differs : c ≠ '\n' := fun same => unbroken (same ▸ member)
    exact if_neg differs
  rw [withReturns, each]
  exact List.flatMap_singleton' text

theorem withReturns_append_cons {front : List Char} (rest : List Char) (unbroken : '\n' ∉ front) :
    withReturns (front ++ '\n' :: rest) = front ++ ['\r'] ++ '\n' :: withReturns rest := by
  have kept := withReturns_of_notMem unbroken
  rw [withReturns] at kept
  simp [withReturns, kept]

/-- A carriage return that is put at the end of a line is the one that the line loses. -/
theorem withoutReturn_append_return (line : List Char) : withoutReturn (line ++ ['\r']) = line := by
  simp [withoutReturn]

/-- What is made of the lines of a text, if carriage returns at line ends do not matter, is made of
them also when a carriage return is put in front of every line feed. -/
theorem map_lines_withReturns {α : Type} {make : List Char → α}
    (unreturned : ∀ line, make (withoutReturn line) = make line) (text : List Char) :
    (lines (withReturns text)).map make = (lines text).map make := by
  induction text using lines_induction with
  | unbroken text broken => rw [withReturns_of_notMem broken]
  | line front rest fresh ih =>
      have returned : '\n' ∉ front ++ ['\r'] := by simp [fresh]
      rw [withReturns_append_cons rest fresh, lines_append_cons _ _ returned,
        withoutReturn_append_return, lines_append_cons _ _ fresh, List.map_cons, List.map_cons,
        unreturned, ih]

end ScriptDisassembler.Text
