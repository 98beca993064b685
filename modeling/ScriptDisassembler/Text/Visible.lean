/-!
# Text without terminal control

What would steer a terminal is left out of a text: control characters, and control sequences from
the escape character that opens them to the character that ends them.  The program leaves its
notices to `env_logger`, which does this to each of them where the error channel is no terminal.
The scanner looks at one character at a time; its position says where in a sequence it stands.

Tabs, line ends and page ends are shown also inside a sequence.  What stands behind them is shown
too, up to the next character that is not visible; there the sequence goes on.

`visible_eq_self` says that a text of visible characters is shown as it is, and
`isVisible_of_mem_visible` that nothing else is ever shown.
-/

namespace ScriptDisassembler.Text

/-- Whether a control character only sets text apart: a tab, a line end or a page end. -/
def isSpacing (c : Char) : Bool :=
  c == '\t' || c == '\n' || c == '\x0c' || c == '\r'

/-- Whether a character can be shown.  The control characters of ASCII can not, unless they only
set text apart. -/
def isVisible (c : Char) : Bool :=
  isSpacing c || (0x20 ≤ c.toNat && c.toNat != 0x7f)

/-- Where the next character stands. -/
inductive ControlPosition
  /-- Outside of all sequences. -/
  | outside
  /-- Behind an escape character. -/
  | escape
  /-- Behind an escape character and punctuation. -/
  | escapeIntermediate
  /-- Inside a control sequence. -/
  | sequence
  /-- At the start of a device control string. -/
  | deviceStart
  /-- Behind parameters of a device control string. -/
  | deviceParameters
  /-- Behind punctuation of a device control string. -/
  | deviceIntermediate
  /-- Inside a string that the byte `9c` ends. -/
  | string
  /-- Inside a command to the operating system, which a bell ends. -/
  | command
deriving DecidableEq, Repr

namespace ControlPosition

/-- Whether a character lies in a range of code points. -/
def within (low high : Nat) (c : Char) : Bool :=
  low ≤ c.toNat && c.toNat ≤ high

/-- The position behind a character right after an escape character. -/
def afterEscape (c : Char) : ControlPosition :=
  if c = '[' then sequence
  else if c = ']' then command
  else if c = 'P' then deviceStart
  else if c = 'X' ∨ c = '^' ∨ c = '_' then string
  else if within 0x20 0x2f c then escapeIntermediate
  else if within 0x30 0x7e c then outside
  else escape

/-- The position behind a character that does not break off a sequence. -/
def advance (position : ControlPosition) (c : Char) : ControlPosition :=
  match position with
  | outside => outside
  | escape => afterEscape c
  | escapeIntermediate => if within 0x30 0x7e c then outside else escapeIntermediate
  | sequence => if within 0x40 0x7e c then outside else sequence
  | deviceStart =>
      if within 0x20 0x2f c then deviceIntermediate
      else if within 0x30 0x3f c then deviceParameters
      else if within 0x40 0x7e c then string
      else deviceStart
  | deviceParameters =>
      if within 0x20 0x2f c then deviceIntermediate
      else if within 0x3c 0x7e c then string
      else deviceParameters
  | deviceIntermediate => if within 0x30 0x7e c then string else deviceIntermediate
  | string => if 0x9c ∈ String.utf8EncodeChar c then outside else string
  | command => if c = '\x07' then outside else command

/-- The position behind a character.  An escape character begins anew everywhere, and the two
characters that cancel break off everything. -/
def next (position : ControlPosition) (c : Char) : ControlPosition :=
  if c = '\x1b' then escape
  else if c = '\x18' ∨ c = '\x1a' then outside
  else position.advance c

/-- Whether a character is shown at a position. -/
def shows (position : ControlPosition) (c : Char) : Bool :=
  match position with
  | outside => isVisible c
  | escape | escapeIntermediate | sequence => isSpacing c
  | _ => false

end ControlPosition

/-- A text that is scanned for control sequences. -/
structure VisibleScan where
  /-- What is shown. -/
  text : String
  /-- Where the next character stands. -/
  position : ControlPosition
  /-- Whether the character before was shown. -/
  showing : Bool
deriving DecidableEq, Repr

namespace VisibleScan

/-- Nothing is scanned yet. -/
def start : VisibleScan :=
  ⟨"", .outside, false⟩

/-- Scan one character.  Once a character is shown, every visible one behind it is; a character
beyond ASCII ends the sequence around it. -/
def read (scan : VisibleScan) (c : Char) : VisibleScan :=
  if scan.showing && isVisible c then
    ⟨scan.text.push c, if c.toNat < 0x80 then scan.position else .outside, true⟩
  else if scan.position.shows c then ⟨scan.text.push c, scan.position.next c, true⟩
  else ⟨scan.text, scan.position.next c, false⟩

end VisibleScan

/-- What a text shows. -/
def visible (text : String) : String :=
  (text.toList.foldl VisibleScan.read VisibleScan.start).text

theorem isVisible_of_shows {position : ControlPosition} {c : Char}
    (shown : position.shows c = true) : isVisible c = true := by
  cases position <;> simp_all [ControlPosition.shows, isVisible]

/-- A scan shows what it has shown before and perhaps one visible character more. -/
theorem VisibleScan.text_read (scan : VisibleScan) (c : Char) :
    (scan.read c).text = scan.text ∨
      (scan.read c).text = scan.text.push c ∧ isVisible c = true := by
  unfold read
  split
  · rename_i both
    exact Or.inr ⟨rfl, (Bool.and_eq_true_iff.mp both).2⟩
  · split
    · rename_i shown
      exact Or.inr ⟨rfl, isVisible_of_shows shown⟩
    · exact Or.inl rfl

/-- Only visible characters are shown. -/
theorem isVisible_of_mem_visible {text : String} {c : Char} (member : c ∈ (visible text).toList) :
    isVisible c = true := by
  have scanned : ∀ (rest : List Char) (scan : VisibleScan),
      (∀ c ∈ scan.text.toList, isVisible c = true) →
        ∀ c ∈ (rest.foldl VisibleScan.read scan).text.toList, isVisible c = true := by
    intro rest
    induction rest with
    | nil => exact fun _ clean => clean
    | cons d rest ih =>
        intro scan clean
        apply ih
        rcases scan.text_read d with same | ⟨more, shown⟩
        · rwa [same]
        · intro c shownBefore
          rw [more, String.toList_push, List.mem_append, List.mem_singleton] at shownBefore
          rcases shownBefore with old | rfl
          · exact clean c old
          · exact shown
  exact scanned text.toList VisibleScan.start (by simp [VisibleScan.start]) c member

theorem VisibleScan.read_outside {text : String} {showing : Bool} {c : Char}
    (shown : isVisible c = true) :
    VisibleScan.read ⟨text, .outside, showing⟩ c = ⟨text.push c, .outside, true⟩ := by
  have opens : c ≠ '\x1b' := by
    rintro rfl
    simp [isVisible, isSpacing] at shown
  simp [read, ControlPosition.shows, ControlPosition.next, ControlPosition.advance, shown, opens]

/-- A text of visible characters is shown as it is. -/
theorem visible_eq_self {text : String} (clean : ∀ c ∈ text.toList, isVisible c = true) :
    visible text = text := by
  have scanned : ∀ (rest : List Char) (before : String) (showing : Bool),
      (∀ c ∈ rest, isVisible c = true) →
        (rest.foldl VisibleScan.read ⟨before, .outside, showing⟩).text
          = before ++ String.ofList rest := by
    intro rest
    induction rest with
    | nil => simp
    | cons d rest ih =>
        intro before showing shown
        rw [List.foldl_cons, VisibleScan.read_outside (shown d List.mem_cons_self),
          ih _ _ fun c member => shown c (List.mem_cons_of_mem d member)]
        apply String.toList_inj.mp
        simp
  have whole := scanned text.toList "" false clean
  simpa [visible, VisibleScan.start] using whole

end ScriptDisassembler.Text
