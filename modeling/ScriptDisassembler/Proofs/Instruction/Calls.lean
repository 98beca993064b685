import ScriptDisassembler.Instruction.Stream
import ScriptDisassembler.Proofs.Bytes.Checked
import ScriptDisassembler.Proofs.Bytes.Numbers
import ScriptDisassembler.Proofs.Operand.Visits

/-!
# Any calls in any order

A script is read by calls that may follow each other in any order, from single reads to the decoding
of all that is left, and that may fail (`Call`).  No call moves the cursor backwards or past the end.
So the cursor is inside the data whenever a call begins (`Call.reaches_runAll`) and at each of the
single reads that calls are composed of, and there both ways to test the bounds agree
(`Call.reads_inside`).
-/

namespace ScriptDisassembler

/-! ## Decoders as readers -/

namespace Decoder

/-- Read one instruction; what is noticed is passed over. -/
def readInstruction (decoder : Decoder) : Reader Instruction :=
  fun cursor => ((decoder.decode cursor).result, (decoder.decode cursor).cursor)

/-- Read all instructions; what is noticed is passed over. -/
def readStream (decoder : Decoder) : Reader (List Instruction) :=
  fun cursor => ((decoder.decodeAll cursor).result, (decoder.decodeAll cursor).cursor)

/-- Read an instruction whose header has been read. -/
def readBehind (decoder : Decoder) (offset : Nat) (header : UInt16) : Reader Instruction := do
  let declared ← Reader.ofExcept (decoder.operandCount (Header.opcode header) offset)
  let operands ← Reader.recast (Except.mapError (.instruction (Header.opcode header) offset))
    (Operand.readAll declared.1)
  Reader.look fun here =>
    .ok ⟨offset, here.position - offset, Header.opcode header, Header.inverts header, operands⟩

variable (decoder : Decoder) (cursor : Cursor)

theorem readBehind_apply (offset : Nat) (header : UInt16) :
    decoder.readBehind offset header cursor =
      ((decoder.decodeBehind offset header cursor).result,
        (decoder.decodeBehind offset header cursor).cursor) := by
  rw [readBehind, Reader.bind_apply, Reader.ofExcept_apply, decodeBehind]
  cases declared : decoder.operandCount (Header.opcode header) offset with
  | error error => rfl
  | ok count =>
      simp only [Reader.bind_apply, Reader.recast]
      rcases Operand.readAll count.1 cursor with ⟨result, after⟩
      cases result <;> rfl

theorem readInstruction_eq :
    decoder.readInstruction = (do
      let offset ← Reader.look fun here => .ok here.position
      let header ← Reader.word
      decoder.readBehind offset header) := by
  funext cursor
  rw [readInstruction, decode, Reader.bind_apply]
  simp only [Reader.look, Reader.bind_apply]
  rcases Reader.word cursor with ⟨result, behind⟩
  cases result with
  | error error => rfl
  | ok header => exact (decoder.readBehind_apply behind cursor.position header).symm

theorem readStream_eq :
    decoder.readStream = (do
      let more ← Reader.look fun here => .ok here.hasMore
      if more then return (← decoder.readInstruction) :: (← decoder.readStream)
      else return []) := by
  funext cursor
  rw [readStream, decodeAll_eq, Reader.bind_apply]
  simp only [Reader.look]
  cases more : cursor.hasMore with
  | false => rfl
  | true =>
      simp only [if_true, Reader.bind_apply, readInstruction]
      cases (decoder.decode cursor).result with
      | error error => rfl
      | ok instruction =>
          simp only [readStream]
          cases (decoder.decodeAll (decoder.decode cursor).cursor).result <;> rfl

/-! ## The single reads of decoders -/

open Reader

theorem exists_visits_readInstruction :
    ∃ stops, Visits cursor decoder.readInstruction stops := by
  rw [readInstruction_eq]
  apply exists_visits_bind ⟨_, .look _ cursor⟩
  intro offset start _
  apply exists_visits_bind (exists_visits_map_unsigned 2 UInt16.ofNat start)
  intro header behind _
  apply exists_visits_bind (exists_visits_ofExcept _ behind)
  intro declared here _
  obtain ⟨stops, visits⟩ := (Operand.composed_readAll declared.1 here).exists_visits
  exact exists_visits_bind ⟨stops, .recast _ visits⟩ fun operands after _ => ⟨_, .look _ after⟩

theorem exists_visits_readStream : ∃ stops, Visits cursor decoder.readStream stops := by
  induction left : cursor.remaining using Nat.strongRecOn generalizing cursor with
  | ind bound ih =>
      rw [readStream_eq]
      apply exists_visits_bind ⟨_, .look _ cursor⟩
      intro more here outcome
      obtain rfl : cursor = here := congrArg Prod.snd outcome
      cases more with
      | false => exact exists_visits_pure [] cursor
      | true =>
          apply exists_visits_bind (decoder.exists_visits_readInstruction cursor)
          intro instruction after success
          obtain ⟨result, rfl⟩ := Prod.mk.inj success
          have fewer := remaining_lt_of_decode result
          apply exists_visits_bind (ih _ (left ▸ fewer) _ rfl)
          exact fun instructions final _ => exists_visits_pure (instruction :: instructions) final

end Decoder

/-! ## Calls -/

/-- A call by which a script is read. -/
inductive Call
  /-- Look at the next byte. -/
  | peek
  /-- Read a number. -/
  | number (form : Number)
  /-- Read so many bytes as they stand. -/
  | bytes (count : Nat)
  /-- Read an operand. -/
  | operand
  /-- Read an instruction. -/
  | instruction (decoder : Decoder)
  /-- Read all instructions to the end. -/
  | stream (decoder : Decoder)

namespace Call

/-- What a call gives, unless it fails. -/
def Result : Call → Type
  | .peek => UInt8
  | .number form => form.Value
  | .bytes _ => List UInt8
  | .operand => Operand
  | .instruction _ => Instruction
  | .stream _ => List Instruction

/-- What a call does. -/
def run : (call : Call) → Reader call.Result
  | .peek => Reader.peek
  | .number form => form.read
  | .bytes count => Reader.bytes count
  | .operand => Operand.read
  | .instruction decoder => decoder.readInstruction
  | .stream decoder => decoder.readStream

/-- The cursor that is left after calls, each of which starts where the one before stopped, failed
or not. -/
def runAll (calls : List Call) (cursor : Cursor) : Cursor :=
  calls.foldl (fun here call => (call.run here).2) cursor

variable {cursor : Cursor}

theorem exists_visits (call : Call) (cursor : Cursor) :
    ∃ stops, Reader.Visits cursor call.run stops := by
  cases call with
  | peek =>
      have looks : Reader.peek = Reader.look fun here => (Reader.peek here).1 := by
        funext here
        simp only [Reader.look, Reader.peek]
        cases here.data[here.position]? <;> rfl
      refine ⟨[cursor], ?_⟩
      rw [run, looks]
      exact .look _ cursor
  | number form =>
      cases form <;> exact Reader.exists_visits_map_unsigned _ _ cursor
  | bytes count => exact ⟨_, .bytes count cursor⟩
  | operand => exact (Operand.composed_read cursor).exists_visits
  | instruction decoder => exact decoder.exists_visits_readInstruction cursor
  | stream decoder => exact decoder.exists_visits_readStream cursor

/-- A call that starts inside the data stays there and does not go back. -/
theorem reaches (call : Call) (inside : cursor.position ≤ cursor.data.size) :
    cursor.Reaches (call.run cursor).2 := by
  obtain ⟨stops, visits⟩ := call.exists_visits cursor
  exact (visits.reaches inside).1

/-- Calls that start inside the data stay there and do not go back. -/
theorem reaches_runAll (calls : List Call) (inside : cursor.position ≤ cursor.data.size) :
    cursor.Reaches (runAll calls cursor) := by
  induction calls generalizing cursor with
  | nil => exact .refl inside
  | cons call calls ih =>
      have first := call.reaches inside
      exact first.trans (ih first.inside)

/-! ## Main result -/

/-- Let a script be read from its start by any calls, whatever comes of them.  Then the cursor is
inside the data, and what is left is the difference of two positions.  The next call does not go
back and stays inside; it is composed of single reads, and however it is, all of them are made
inside the data, where no difference of words falls below zero, no sum is too great and no slice is
outside of the data.  A read of bytes passes as many as it wants or fails where it stands, and a
read of a number does the same with the bytes of the number. -/
theorem reads_inside {data : Array UInt8} (word : data.size < 2 ^ 64) (calls : List Call) :
    let here := runAll calls (Cursor.start data)
    (here.data = data ∧ here.position ≤ data.size ∧
        here.position + here.remaining = data.size) ∧
      (∀ call : Call,
        here.Reaches (call.run here).2 ∧
          (∃ stops, Reader.Visits here call.run stops) ∧
          ∀ stops, Reader.Visits here call.run stops →
            ∀ stop ∈ stops, here.Reaches stop ∧ stop.Sound) ∧
      (∀ count,
        (count ≤ here.remaining →
          Reader.bytes count here =
            (.ok ((data.toList.drop here.position).take count), ⟨data, here.position + count⟩)) ∧
        (here.remaining < count →
          Reader.bytes count here =
            (.error (.truncated here.position count (data.size - here.position)), here))) ∧
      ∀ form : Number,
        form.read here =
          ((Reader.bytes form.size here).1.map form.ofBytes, (Reader.bytes form.size here).2) := by
  intro here
  have start : (Cursor.start data).position ≤ (Cursor.start data).data.size := Nat.zero_le _
  have reached : (Cursor.start data).Reaches here := reaches_runAll calls start
  have data_eq : here.data = data := reached.data_eq
  have inside : here.position ≤ data.size := data_eq ▸ reached.inside
  refine ⟨⟨data_eq, inside, ?_⟩, fun call => ?_, fun count => ⟨fun fits => ?_, fun short => ?_⟩,
    fun form => form.read_eq here⟩
  · rw [Cursor.remaining, data_eq]
    exact Nat.add_sub_cancel' inside
  · refine ⟨call.reaches reached.inside, call.exists_visits here, fun stops visits stop member => ?_⟩
    have visited := (visits.reaches reached.inside).2 stop member
    have small : stop.data.size < 2 ^ 64 := by rwa [visited.data_eq, data_eq]
    exact ⟨visited, Cursor.sound small visited.inside⟩
  · rw [Reader.bytes_of_le fits, Cursor.rest, Cursor.advance, data_eq]
  · rw [Reader.bytes_of_lt short, Cursor.shortfall, Cursor.remaining, data_eq]

/-- A string that is cut off leaves the cursor behind its length byte, where neither a number nor as
many bytes as there may be are left. -/
theorem reads_inside_cutOff :
    let data : Array UInt8 := #[0x01, 0x00, 0x0e, 0x05, 0x61]
    let decoder : Decoder := ⟨Lookup.ofPairs [(1, .unnamed 1 (.fixed 1))], .strict⟩
    let here : Cursor := ⟨data, 4⟩
    data.size < 2 ^ 64 ∧
      runAll [.instruction decoder, .bytes (2 ^ 64 - 1), .peek] (Cursor.start data) = here ∧
      Reader.bytes (2 ^ 64 - 1) here = (.error (.truncated 4 (2 ^ 64 - 1) 1), here) ∧
      Number.signed32.read here = (.error (.truncated 4 4 1), here) ∧ here.Sound := by
  intro data decoder here
  have word : data.size < 2 ^ 64 := by decide
  have place :
      runAll [.instruction decoder, .bytes (2 ^ 64 - 1), .peek] (Cursor.start data) = here := by
    simp only [decoder, data, here]
    rfl
  have ⟨_, steps, reads, numbers⟩ :=
    reads_inside word [.instruction decoder, .bytes (2 ^ 64 - 1), .peek]
  rw [place] at steps reads numbers
  have four := (reads 4).2 (by decide)
  have number := numbers .signed32
  rw [Number.size, four] at number
  have sound := (steps (.bytes 1)).2.2 [here] (.bytes 1 here) here List.mem_cons_self
  exact ⟨word, place, (reads _).2 (by decide), number, sound.2⟩

end Call

end ScriptDisassembler
