import ScriptDisassembler.Proofs.Instruction.Relocation

/-!
# Scripts that are cut off

No instruction is the beginning of another one: where a script that can be decoded is cut off, the
instructions that are complete are decoded as before, and one that is not is missed for want of
bytes and never taken for a shorter one.  So a cut is noticed unless it falls between two
instructions (`Decoder.items_extract`).
-/

namespace ScriptDisassembler

/-- The position behind the last byte of an instruction. -/
def Instruction.stop (instruction : Instruction) : Nat :=
  instruction.offset + instruction.size

/-- The failure is that bytes are missing at the end of a script of this size. -/
def Error.MissesEnd (size : Nat) (error : Error) : Prop :=
  ∃ offset requested available, error.root = .truncated offset requested available ∧
    offset ≤ size ∧ offset + available = size ∧ available < requested

/-- What becomes of instructions from `start` on if only `size` bytes of their script are left:
those that are complete are decoded, and then, unless the cut is in front of them or behind one of
them, there is one failure for missing bytes. -/
def CutOff (start size : Nat) (instructions : List Instruction)
    (results : List (Except Error Instruction)) : Prop :=
  ∃ ending, results =
      (instructions.filter fun instruction => instruction.stop ≤ size).map .ok ++ ending ∧
    if size = start ∨ ∃ instruction ∈ instructions, instruction.stop = size then ending = []
    else ∃ error, ending = [.error error] ∧ error.MissesEnd size

namespace CutOff

variable {start size : Nat} {instructions : List Instruction}

theorem filter_eq_nil (beyond : ∀ instruction ∈ instructions, size < instruction.stop) :
    instructions.filter (fun instruction => instruction.stop ≤ size) = [] := by
  rw [List.filter_eq_nil_iff]
  intro instruction member
  have further := beyond instruction member
  simp only [decide_eq_true_eq]
  omega

/-- In front of all instructions nothing is left. -/
theorem front (beyond : ∀ instruction ∈ instructions, start < instruction.stop) :
    CutOff start start instructions [] :=
  ⟨[], by rw [filter_eq_nil beyond]; rfl, by rw [if_pos (.inl rfl)]⟩

/-- In front of the end of all instructions only the failure is left. -/
theorem within {error : Error} (later : start < size)
    (beyond : ∀ instruction ∈ instructions, size < instruction.stop)
    (misses : error.MissesEnd size) : CutOff start size instructions [.error error] := by
  refine ⟨[.error error], by rw [filter_eq_nil beyond]; rfl, ?_⟩
  have notBetween : ¬ (size = start ∨ ∃ instruction ∈ instructions, instruction.stop = size) := by
    rintro (rfl | ⟨instruction, member, stop_eq⟩)
    · exact absurd later (Nat.lt_irrefl size)
    · exact Nat.ne_of_gt (beyond instruction member) stop_eq
  rw [if_neg notBetween]
  exact ⟨error, rfl, misses⟩

/-- An instruction that is complete comes first. -/
theorem cons {instruction : Instruction} {results : List (Except Error Instruction)}
    (later : start < size) (complete : instruction.stop ≤ size)
    (rest : CutOff instruction.stop size instructions results) :
    CutOff start size (instruction :: instructions) (.ok instruction :: results) := by
  obtain ⟨ending, rfl, closing⟩ := rest
  refine ⟨ending, ?_, ?_⟩
  · rw [List.filter_cons, if_pos (decide_eq_true complete)]
    rfl
  · have between :
        (size = start ∨ ∃ other ∈ instruction :: instructions, other.stop = size) ↔
          (size = instruction.stop ∨ ∃ other ∈ instructions, other.stop = size) := by
      simp [Nat.ne_of_gt later, eq_comm]
    simpa only [between] using closing

end CutOff

namespace Decoder

variable {decoder : Decoder}

/-- Everything that is decoded through from a cursor on ends behind it. -/
theorem DecodesThrough.position_lt {cursor after : Cursor} {instructions : List Instruction}
    {notices : List Notice} (through : decoder.DecodesThrough cursor instructions notices after) :
    ∀ instruction ∈ instructions, cursor.position < instruction.stop := by
  induction through with
  | nil cursor => simp
  | @cons cursor middle after instruction instructions noticed later head tail ih =>
      obtain ⟨-, stop_eq, moved⟩ := extent_of_decode head
      have later : cursor.position < middle.position := by omega
      intro other member
      rcases List.mem_cons.mp member with rfl | member
      · rwa [Instruction.stop, stop_eq]
      · exact Nat.lt_trans later (ih other member)

/-- An instruction that is decoded with more bytes behind the data, and ends before these, is
decoded without them. -/
theorem decode_of_withBack_of_le {cursor beyond : Cursor} {back : Array UInt8}
    {instruction : Instruction} {notices : List Notice}
    (inside : cursor.position ≤ cursor.data.size)
    (success : decoder.decode (cursor.withBack back) = ⟨.ok instruction, beyond, notices⟩)
    (complete : beyond.position ≤ cursor.data.size) :
    ∃ after, beyond = after.withBack back ∧
      decoder.decode cursor = ⟨.ok instruction, after, notices⟩ := by
  rcases decoder.decode_withBack inside back with same | ⟨error, -, -, beyondEnd⟩
  · rw [success] at same
    rcases outcome : decoder.decode cursor with ⟨result, after, noticed⟩
    rw [outcome] at same
    cases same
    exact ⟨after, rfl, rfl⟩
  · have later := beyondEnd instruction (by rw [success])
    rw [success] at later
    exact absurd complete (Nat.not_le.mpr later)

/-- An instruction that is decoded with more bytes behind the data, and takes some of these, is
missed without them. -/
theorem decode_of_withBack_of_lt {cursor beyond : Cursor} {back : Array UInt8}
    {instruction : Instruction} {notices : List Notice}
    (inside : cursor.position ≤ cursor.data.size)
    (success : decoder.decode (cursor.withBack back) = ⟨.ok instruction, beyond, notices⟩)
    (cut : cursor.data.size < beyond.position) :
    ∃ error, (decoder.decode cursor).result = .error error ∧
      error.MissesEnd cursor.data.size := by
  obtain ⟨data_eq, -, bounded⟩ := decoder.forward_decode cursor
  rcases decoder.decode_withBack inside back with same | ⟨error, failure, starves, -⟩
  · rw [success] at same
    have ended : beyond.position = (decoder.decode cursor).cursor.position :=
      congrArg (fun decoding => decoding.cursor.position) same
    omega
  · obtain ⟨requested, missing, root_eq⟩ := starves
    rw [Cursor.remaining, data_eq] at missing
    refine ⟨error, failure, _, requested, _, root_eq, ?_⟩
    rw [Cursor.remaining, data_eq]
    omega

/-- A script that is decoded through with more bytes behind the data is cut off without them. -/
theorem DecodesThrough.cutOff {cursor after : Cursor} {back : Array UInt8}
    {instructions : List Instruction} {notices : List Notice}
    (through : decoder.DecodesThrough (cursor.withBack back) instructions notices after)
    (done : after.hasMore = false) (inside : cursor.position ≤ cursor.data.size) :
    CutOff cursor.position cursor.data.size instructions
      ((decoder.items cursor).map Decoding.result) := by
  generalize whole : cursor.withBack back = start at through
  induction through generalizing cursor with
  | nil start =>
      subst whole
      have atEnd : cursor.position = cursor.data.size := by
        simp only [Cursor.hasMore, Cursor.withBack, Array.size_append,
          decide_eq_false_iff_not] at done
        omega
      have nothing : cursor.hasMore = false := by simp [Cursor.hasMore, atEnd]
      rw [items_of_done nothing, atEnd]
      exact .front (by simp)
  | @cons start middle after instruction instructions noticed later head tail ih =>
      subst whole
      have beyond := (DecodesThrough.cons head tail).position_lt
      rcases Nat.eq_or_lt_of_le inside with atEnd | more
      · have nothing : cursor.hasMore = false := by simp [Cursor.hasMore, atEnd]
        rw [items_of_done nothing, ← atEnd]
        exact .front beyond
      have stop_eq : instruction.stop = middle.position := (extent_of_decode head).2.1
      by_cases complete : middle.position ≤ cursor.data.size
      · obtain ⟨there, rfl, decoded⟩ := decode_of_withBack_of_le inside head complete
        have data_eq : there.data = cursor.data := by
          have forward := (decoder.forward_decode cursor).1
          rwa [decoded] at forward
        have rest := ih done (data_eq ▸ complete) rfl
        rw [data_eq] at rest
        have success : (decoder.decode cursor).result = .ok instruction := by rw [decoded]
        rw [items_of_ok success, decoded]
        exact .cons more (stop_eq ▸ complete) (stop_eq ▸ rest)
      · obtain ⟨error, failure, misses⟩ :=
          decode_of_withBack_of_lt inside head (Nat.not_le.mp complete)
        have present : cursor.hasMore = true := by simp [Cursor.hasMore, more]
        rw [items_of_error present failure, List.map_singleton, failure]
        refine .within more ?_ misses
        intro other member
        rcases List.mem_cons.mp member with rfl | member
        · exact stop_eq ▸ Nat.not_le.mp complete
        · exact Nat.lt_trans (Nat.not_le.mp complete) (tail.position_lt other member)

/-! ## Main result -/

/-- A script that can be decoded, cut off anywhere, gives those of its instructions that are
complete, and then one failure for the missing bytes unless the cut is between two instructions. -/
theorem items_extract (decoder : Decoder) {script : Array UInt8} {instructions : List Instruction}
    (success : (decoder.decodeAll (Cursor.start script)).result = .ok instructions) {size : Nat}
    (inside : size ≤ script.size) :
    CutOff 0 size instructions
      ((decoder.items (Cursor.start (script.extract 0 size))).map Decoding.result) := by
  rcases outcome : decoder.decodeAll (Cursor.start script) with ⟨result, after, notices⟩
  rw [outcome] at success
  cases success
  rcases decodeAll_eq_ok_iff.mp outcome with ⟨through, done⟩
  have parts : script.extract 0 size ++ script.extract size script.size = script := by
    rw [Array.extract_append_extract, Nat.zero_min, Nat.max_eq_right inside, Array.extract_size]
  have whole : Cursor.start script =
      (Cursor.start (script.extract 0 size)).withBack (script.extract size script.size) := by
    rw [Cursor.withBack, Cursor.start, Cursor.start, parts]
  rw [whole] at through
  have size_eq : (script.extract 0 size).size = size := by
    rw [Array.size_extract]
    omega
  have cut := through.cutOff done (Nat.zero_le _)
  simpa only [Cursor.start, size_eq] using cut

/-- A cut between the length of a text and its last byte, behind an instruction that is complete. -/
theorem items_extract_text :
    let decoder : Decoder := ⟨Lookup.ofPairs [(1, .unnamed 1 (.fixed 1))], .strict⟩
    let script : Array UInt8 := #[0x01, 0x80, 0x04, 0xff, 0x01, 0x00, 0x0e, 0x02, 0x48, 0x69]
    let instructions : List Instruction :=
      [⟨0, 4, 1, true, [.ofTag .signed8 (.integer (-1))]⟩,
        ⟨4, 6, 1, false, [.ofTag .variableString (.text "Hi")]⟩]
    (decoder.decodeAll (Cursor.start script)).result = .ok instructions ∧ 9 ≤ script.size ∧
      CutOff 0 9 instructions
        ((decoder.items (Cursor.start (script.extract 0 9))).map Decoding.result) := by
  intro decoder script instructions
  have first : decoder.decode (Cursor.start script) =
      ⟨.ok ⟨0, 4, 1, true, [.ofTag .signed8 (.integer (-1))]⟩, ⟨script, 4⟩, []⟩ := by
    simp only [decoder, script]
    rfl
  have second : decoder.decode ⟨script, 4⟩ =
      ⟨.ok ⟨4, 6, 1, false, [.ofTag .variableString (.text "Hi")]⟩, ⟨script, 10⟩, []⟩ := by
    simp only [decoder, script]
    rfl
  have success : (decoder.decodeAll (Cursor.start script)).result = .ok instructions := by
    rw [decodeAll_eq_ok_iff.mpr ⟨.cons first (.cons second (.nil _)), rfl⟩]
  have inside : 9 ≤ script.size := by decide
  exact ⟨success, inside, items_extract decoder success inside⟩

end Decoder

end ScriptDisassembler
