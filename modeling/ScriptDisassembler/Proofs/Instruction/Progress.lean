import ScriptDisassembler.Proofs.Instruction.Tiling
import ScriptDisassembler.Proofs.Operand.Counted

/-!
# Decoding goes on

A caller may decode single instructions again and again without looking at the outcomes.  As long
as a header is there, every decoding takes at least its two bytes, whether it fails or not; then the
cursor stands still and every further decoding misses the same header
(`Decoder.decode_persist_of_enough`).  So half as many decodings as bytes come to the end, and a walk
gives no more instructions than that (`Tiles.start_add_le`).
-/

namespace ScriptDisassembler

/-- Instructions of at least a header each need two bytes for each. -/
theorem Tiles.start_add_le {start stop : Nat} {instructions : List Instruction}
    (tiles : Tiles start instructions stop) : start + 2 * instructions.length ≤ stop := by
  induction instructions generalizing start with
  | nil => exact Nat.le_of_eq tiles
  | cons instruction rest ih =>
      obtain ⟨offset_eq, header, others⟩ := tiles
      have further := ih others
      simp only [Instruction.stop] at further
      rw [List.length_cons]
      omega

namespace Decoder

variable {decoder : Decoder} {cursor : Cursor} {calls : Nat}

/-- The cursor that is left after a number of decodings, each of which starts where the one before
stopped, failed or not. -/
def persist (decoder : Decoder) : Nat → Cursor → Cursor
  | 0, cursor => cursor
  | calls + 1, cursor => persist decoder calls (decoder.decode cursor).cursor

/-! ## One decoding -/

/-- A header that is there takes two bytes of those that are left. -/
theorem remaining_decode_add_two_le (decoder : Decoder) (header : 2 ≤ cursor.remaining) :
    (decoder.decode cursor).cursor.remaining + 2 ≤ cursor.remaining := by
  have moved := decoder.position_add_two_le_decode header
  have forward := decoder.forward_decode cursor
  simp only [Cursor.remaining, forward.1] at header ⊢
  omega

/-! ## Many decodings -/

/-- Decoding again and again keeps the data and never moves backwards or past the end. -/
theorem forward_persist (decoder : Decoder) (calls : Nat) (cursor : Cursor) :
    (decoder.persist calls cursor).data = cursor.data ∧
      cursor.position ≤ (decoder.persist calls cursor).position ∧
      (decoder.persist calls cursor).position ≤ max cursor.position cursor.data.size := by
  induction calls generalizing cursor with
  | zero => exact ⟨rfl, Nat.le_refl _, Nat.le_max_left _ _⟩
  | succ calls ih =>
      have first := decoder.forward_decode cursor
      have others := ih (decoder.decode cursor).cursor
      rw [first.1] at others
      exact ⟨others.1, Nat.le_trans first.2.1 others.2.1, by rw [persist]; omega⟩

theorem persist_add (decoder : Decoder) (first second : Nat) (cursor : Cursor) :
    decoder.persist (first + second) cursor =
      decoder.persist second (decoder.persist first cursor) := by
  induction first generalizing cursor with
  | zero => rw [Nat.zero_add, persist]
  | succ first ih => rw [Nat.succ_add, persist, persist, ih]

/-- Without a header the cursor stands still. -/
theorem persist_of_remaining_lt (decoder : Decoder) (short : cursor.remaining < 2)
    (calls : Nat) : decoder.persist calls cursor = cursor := by
  induction calls with
  | zero => rfl
  | succ calls ih => rw [persist, decode_of_remaining_lt decoder short, ih]

/-- Every decoding has taken two bytes, unless too few are left for a header. -/
theorem remaining_persist_le_or (decoder : Decoder) (calls : Nat) (cursor : Cursor) :
    (decoder.persist calls cursor).remaining + 2 * calls ≤ cursor.remaining ∨
      (decoder.persist calls cursor).remaining < 2 := by
  induction calls generalizing cursor with
  | zero => exact .inl (Nat.le_refl _)
  | succ calls ih =>
      by_cases header : 2 ≤ cursor.remaining
      · have taken := decoder.remaining_decode_add_two_le header
        rw [persist]
        rcases ih (decoder.decode cursor).cursor with bounded | short
        · exact .inl (by omega)
        · exact .inr short
      · have short : cursor.remaining < 2 := Nat.not_le.mp header
        rw [decoder.persist_of_remaining_lt short]
        exact .inr short

/-- Half as many decodings as bytes leave too few for a header. -/
theorem remaining_persist_lt (decoder : Decoder) (enough : cursor.remaining / 2 ≤ calls) :
    (decoder.persist calls cursor).remaining < 2 := by
  rcases decoder.remaining_persist_le_or calls cursor with bounded | short
  · omega
  · exact short

/-- From then on the cursor stands still, and every decoding misses the same header. -/
theorem decode_persist_of_enough (decoder : Decoder) (enough : cursor.remaining / 2 ≤ calls) :
    let stop := decoder.persist (cursor.remaining / 2) cursor
    decoder.decode (decoder.persist calls cursor) = ⟨.error (stop.shortfall 2), stop, []⟩ := by
  intro stop
  have short : stop.remaining < 2 := decoder.remaining_persist_lt (Nat.le_refl _)
  obtain ⟨more, rfl⟩ := Nat.exists_eq_add_of_le enough
  rw [persist_add, decoder.persist_of_remaining_lt short, decode_of_remaining_lt decoder short]

/-! ## A walk -/

/-- A walk gives at most half as many instructions as there are bytes. -/
theorem Covers.length_le {instructions : List Instruction} {failure : Option Error}
    (covers : decoder.Covers cursor instructions failure) :
    instructions.length ≤ cursor.remaining / 2 := by
  obtain ⟨stop, tiles, ends⟩ := covers.tiles
  have within : stop ≤ cursor.data.size := by
    cases failure with
    | none => exact Nat.le_of_eq ends.1
    | some error =>
        have more := Cursor.hasMore_iff.mp ends.1
        simp only [Cursor.remaining] at more
        omega
  have bounded := tiles.start_add_le
  simp only [Cursor.remaining]
  omega

theorem Covers.length_items {instructions : List Instruction} {failure : Option Error}
    (covers : decoder.Covers cursor instructions failure) :
    (decoder.items cursor).length = instructions.length + failure.toList.length := by
  have counted := congrArg List.length covers.results
  simpa using counted

/-! ## Main result -/

/-- Let single instructions be decoded again and again from a cursor inside the script, whatever
comes of it.  If two bytes are left, the next decoding takes at least two and does not pass the end;
otherwise it leaves the cursor alone and misses a header.  After half as many decodings as there
were bytes, all further ones miss the same header.  A walk gives at most so many instructions, then
perhaps a failure, and then nothing.  Wherever an open-ended operand list starts, it ends after at
most one read more than there are bytes. -/
theorem decode_persist (decoder : Decoder) (inside : cursor.position ≤ cursor.data.size) :
    let stop := decoder.persist (cursor.remaining / 2) cursor
    (∀ calls,
      let here := decoder.persist calls cursor
      let outcome := decoder.decode here
      here.data = cursor.data ∧ here.position ≤ cursor.data.size ∧
        (2 ≤ here.remaining → outcome.cursor.data = cursor.data ∧
          here.position + 2 ≤ outcome.cursor.position ∧
          outcome.cursor.position ≤ cursor.data.size) ∧
        (here.remaining < 2 →
          outcome = ⟨.error (.truncated here.position 2 here.remaining), here, []⟩)) ∧
      (stop.remaining < 2 ∧ ∀ calls, cursor.remaining / 2 ≤ calls →
        decoder.decode (decoder.persist calls cursor) =
          ⟨.error (.truncated stop.position 2 stop.remaining), stop, []⟩) ∧
      (∃ (instructions : List Instruction) (failure : Option Error),
        instructions.length ≤ cursor.remaining / 2 ∧
        (decoder.items cursor).map Decoding.result =
          instructions.map .ok ++ failure.toList.map .error) ∧
      (∀ calls, cursor.remaining / 2 < calls →
        (((Walk.start cursor).after decoder calls).next decoder).1 = none) ∧
      ∀ start : Cursor, ∃ operands, operands.length ≤ start.remaining ∧
        Operand.StopsBehind start operands := by
  intro stop
  obtain ⟨instructions, failure, covers⟩ := decoder.exists_covers inside
  refine ⟨?_, ⟨decoder.remaining_persist_lt (Nat.le_refl _),
    fun _ enough => decoder.decode_persist_of_enough enough⟩,
    ⟨instructions, failure, covers.length_le, covers.results⟩, ?_, Operand.exists_stopsBehind⟩
  · intro calls here outcome
    have reached := decoder.forward_persist calls cursor
    have step := decoder.forward_decode here
    have within : here.position ≤ cursor.data.size := by
      change (decoder.persist calls cursor).position ≤ cursor.data.size
      omega
    refine ⟨reached.1, within, fun header => ?_, decode_of_remaining_lt decoder⟩
    have same : here.data = cursor.data := reached.1
    rw [same] at step
    exact ⟨step.1, decoder.position_add_two_le_decode header,
      Nat.le_trans step.2.2 (Nat.max_le.mpr ⟨within, Nat.le_refl _⟩)⟩
  · intro calls enough
    obtain ⟨failed, yields⟩ := Walk.yields_items decoder cursor
    have few : failure.toList.length ≤ 1 := by cases failure <;> simp
    have bounded := covers.length_le
    rw [yields.next_after, List.getElem?_eq_none_iff, covers.length_items]
    omega

/-- An unknown opcode, an operand that starts with a byte that is no tag, and a second operand that
is too short.  After these three failures every further decoding misses a header. -/
theorem decode_persist_failing :
    let decoder : Decoder :=
      ⟨Lookup.ofPairs [(1, .unnamed 1 (.fixed 1)), (2, .unnamed 2 (.fixed 2))], .strict⟩
    let cursor := Cursor.start
      #[0x07, 0x00, 0x01, 0x00, 0x63, 0x02, 0x00, 0x04, 0x05, 0x05, 0x01]
    cursor.position ≤ cursor.data.size ∧
      (decoder.persist 2 cursor).position = 5 ∧
      2 ≤ (decoder.persist 2 cursor).remaining ∧
      (decoder.persist 2 cursor).position + 2 ≤
        (decoder.decode (decoder.persist 2 cursor)).cursor.position ∧
      (decoder.decode (decoder.persist 1000000 cursor)).result = .error (.truncated 10 2 1) := by
  intro decoder cursor
  have inside : cursor.position ≤ cursor.data.size := by decide
  have ⟨steps, ⟨_, rest⟩, _⟩ := decode_persist decoder inside
  have third : decoder.persist 2 cursor = ⟨cursor.data, 5⟩ := by
    simp only [decoder, cursor]
    rfl
  have header : 2 ≤ (decoder.persist 2 cursor).remaining := by
    rw [third]
    decide
  have last : decoder.persist (cursor.remaining / 2) cursor = ⟨cursor.data, 10⟩ := by
    simp only [decoder, cursor]
    rfl
  refine ⟨inside, congrArg Cursor.position third, header, ((steps 2).2.2.1 header).2.1, ?_⟩
  rw [rest 1000000 (by decide), last]
  rfl

end Decoder

end ScriptDisassembler
