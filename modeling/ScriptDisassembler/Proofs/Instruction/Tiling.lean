import ScriptDisassembler.Proofs.Instruction.Failure
import ScriptDisassembler.Proofs.Instruction.Truncation

/-!
# Instructions without gaps

The instructions of a script lie one behind the other from where decoding starts: each begins where
the one before it stops, up to the end of the script or to the header of an instruction that can not
be decoded (`Decoder.exists_covers`).  It makes no difference how the script is gone through, in one
walk, as a whole, or by decoding single instructions again and again (`Decoder.items_tile`).
-/

namespace ScriptDisassembler

/-- The position in the script that a failure of decoding an instruction names. -/
def Error.position? : Error → Option Nat
  | truncated offset _ _ => some offset
  | unknownOpcode _ offset => some offset
  | instruction _ offset _ => some offset
  | _ => none

/-- Whether instructions of at least a header each lie one behind the other from `start` to
`stop`. -/
def Tiles : Nat → List Instruction → Nat → Prop
  | start, [], stop => start = stop
  | start, instruction :: rest, stop =>
      instruction.offset = start ∧ 2 ≤ instruction.size ∧ Tiles instruction.stop rest stop

namespace Walk

variable {decoder : Decoder} {walk last : Walk} {items : List (Decoding Instruction)}

/-- The walk that is left after a number of calls. -/
def after (decoder : Decoder) : Nat → Walk → Walk
  | 0, walk => walk
  | calls + 1, walk => after decoder calls (walk.next decoder).2

theorem after_of_ended (ended : walk.next decoder = (none, walk)) (calls : Nat) :
    walk.after decoder calls = walk := by
  induction calls with
  | zero => rfl
  | succ calls ih => rw [after, ended, ih]

/-- Each call gives the next outcome, and when there are no more, none. -/
theorem Yields.next_after (yields : Yields decoder walk items last) (calls : Nat) :
    ((walk.after decoder calls).next decoder).1 = items[calls]? := by
  induction yields generalizing calls with
  | done ended => rw [after_of_ended ended, ended, List.getElem?_nil]
  | step head tail ih =>
      cases calls with
      | zero => rw [after, head, List.getElem?_cons_zero]
      | succ calls => rw [after, head, ih, List.getElem?_cons_succ]

/-- Behind the last outcome the walk stands still. -/
theorem Yields.after_eq (yields : Yields decoder walk items last) {calls : Nat}
    (enough : items.length ≤ calls) : walk.after decoder calls = last := by
  induction yields generalizing calls with
  | done ended => exact after_of_ended ended calls
  | step head tail ih =>
      cases calls with
      | zero => exact absurd enough (Nat.not_succ_le_zero _)
      | succ calls => rw [after, head, ih (Nat.le_of_succ_le_succ enough)]

end Walk

namespace Decoder

variable {decoder : Decoder} {cursor : Cursor}

/-! ## Single instructions again and again -/

/-- The outcomes of decoding single instructions while there is more, until one fails, and the
cursor that is left. -/
inductive Repeats (decoder : Decoder) : Cursor → List (Decoding Instruction) → Cursor → Prop
  | done {cursor : Cursor} (ended : cursor.hasMore = false) : Repeats decoder cursor [] cursor
  | error {cursor : Cursor} {error : Error} (more : cursor.hasMore = true)
      (failure : (decoder.decode cursor).result = .error error) :
      Repeats decoder cursor [decoder.decode cursor] (decoder.decode cursor).cursor
  | ok {cursor last : Cursor} {items : List (Decoding Instruction)} {instruction : Instruction}
      (more : cursor.hasMore = true)
      (success : (decoder.decode cursor).result = .ok instruction)
      (rest : Repeats decoder (decoder.decode cursor).cursor items last) :
      Repeats decoder cursor (decoder.decode cursor :: items) last

theorem repeats_items (decoder : Decoder) (cursor : Cursor) :
    decoder.Repeats cursor (decoder.items cursor) (decoder.finish cursor) := by
  induction cursor using decoder.induction with
  | done cursor done =>
      rw [items_of_done done, finish_of_done done]
      exact .done done
  | error cursor error more failure =>
      rw [items_of_error more failure, finish_of_error more failure]
      exact .error more failure
  | ok cursor instruction success ih =>
      rw [items_of_ok success, finish_of_ok success]
      exact .ok (hasMore_of_decode success) success ih

/-- Decoding single instructions comes to the same outcomes, and to no others. -/
theorem repeats_iff {items : List (Decoding Instruction)} {last : Cursor} :
    decoder.Repeats cursor items last ↔
      items = decoder.items cursor ∧ last = decoder.finish cursor := by
  constructor
  · intro repeats
    induction repeats with
    | done ended => exact ⟨(items_of_done ended).symm, (finish_of_done ended).symm⟩
    | error more failure =>
        exact ⟨(items_of_error more failure).symm, (finish_of_error more failure).symm⟩
    | ok more success rest ih =>
        rw [items_of_ok success, finish_of_ok success, ← ih.1, ← ih.2]
        exact ⟨rfl, rfl⟩
  · rintro ⟨rfl, rfl⟩
    exact decoder.repeats_items cursor

/-! ## From the start to the end -/

/-- A failure names the position of the header. -/
theorem position?_of_decode {error : Error}
    (failure : (decoder.decode cursor).result = .error error) :
    error.position? = some cursor.position := by
  have fault := fault_of_decode failure
  cases error with
  | truncated offset requested available => exact congrArg some fault.1
  | unknownOpcode opcode offset =>
      obtain ⟨_, _, _, offset_eq, _⟩ := fault
      exact congrArg some offset_eq
  | instruction opcode offset source =>
      obtain ⟨_, _, _, _, offset_eq, _⟩ := fault
      exact congrArg some offset_eq
  | invalidTag | unrenderable | operatorArity | malformed | file => exact fault.elim

/-- Whether the outcomes from a cursor on come to their end at `stop`, which without a failure is
the end of the script, and otherwise the header of the instruction that fails. -/
def EndsAt (decoder : Decoder) (cursor : Cursor) (stop : Nat) : Option Error → Prop
  | none => stop = cursor.data.size ∧ decoder.finish cursor = ⟨cursor.data, stop⟩
  | some error =>
      let header : Cursor := ⟨cursor.data, stop⟩
      header.hasMore = true ∧ (decoder.decode header).result = .error error ∧
        error.position? = some stop ∧ decoder.finish cursor = (decoder.decode header).cursor

/-- The outcomes from a cursor on are instructions that lie one behind the other, and then perhaps a
failure; decoding the whole script gives either the instructions or the failure. -/
structure Covers (decoder : Decoder) (cursor : Cursor) (instructions : List Instruction)
    (failure : Option Error) : Prop where
  results : (decoder.items cursor).map Decoding.result =
    instructions.map .ok ++ failure.toList.map .error
  tiles : ∃ stop, Tiles cursor.position instructions stop ∧ decoder.EndsAt cursor stop failure
  whole : decoder.decodeAll cursor =
    ⟨failure.elim (.ok instructions) .error, decoder.finish cursor,
      (decoder.items cursor).flatMap Decoding.notices⟩

theorem covers_of_done (inside : cursor.position ≤ cursor.data.size)
    (done : cursor.hasMore = false) : decoder.Covers cursor [] none := by
  have atEnd : cursor.position = cursor.data.size := by
    simp only [Cursor.hasMore, decide_eq_false_iff_not] at done
    omega
  constructor
  · rw [items_of_done done]
    rfl
  · exact ⟨cursor.position, rfl, atEnd, finish_of_done done⟩
  · rw [decodeAll_of_done done, items_of_done done, finish_of_done done]
    rfl

theorem covers_of_error (more : cursor.hasMore = true) {error : Error}
    (failure : (decoder.decode cursor).result = .error error) :
    decoder.Covers cursor [] (some error) := by
  constructor
  · rw [items_of_error more failure, List.map_singleton, failure]
    rfl
  · exact ⟨cursor.position, rfl, more, failure, position?_of_decode failure,
      finish_of_error more failure⟩
  · rw [decodeAll_of_error more failure, items_of_error more failure,
      finish_of_error more failure, List.flatMap_singleton]
    rfl

/-- An instruction goes in front of those behind it. -/
theorem Covers.cons {instruction : Instruction} {instructions : List Instruction}
    {failure : Option Error} (success : (decoder.decode cursor).result = .ok instruction)
    (rest : decoder.Covers (decoder.decode cursor).cursor instructions failure) :
    decoder.Covers cursor (instruction :: instructions) failure := by
  have data_eq := (decoder.forward_decode cursor).1
  obtain ⟨offset_eq, stop_eq, header⟩ := extent_of_decode (decode_eq_of_ok success)
  obtain ⟨stop, tiles, ends⟩ := rest.tiles
  constructor
  · rw [items_of_ok success, List.map_cons, success, rest.results]
    rfl
  · refine ⟨stop, ⟨offset_eq, by omega, ?_⟩, ?_⟩
    · rw [Instruction.stop, stop_eq]
      exact tiles
    · cases failure <;>
        simpa only [EndsAt, finish_of_ok success, data_eq] using ends
  · rw [decodeAll_of_ok success, rest.whole, items_of_ok success, finish_of_ok success,
      List.flatMap_cons]
    cases failure <;> rfl

/-- From a cursor inside the script the outcomes cover it up to the end or a failure. -/
theorem exists_covers (decoder : Decoder) (inside : cursor.position ≤ cursor.data.size) :
    ∃ instructions failure, decoder.Covers cursor instructions failure := by
  induction cursor using decoder.induction with
  | done cursor done => exact ⟨[], none, covers_of_done inside done⟩
  | error cursor error more failure => exact ⟨[], some error, covers_of_error more failure⟩
  | ok cursor instruction success ih =>
      obtain ⟨data_eq, -, bounded⟩ := decoder.forward_decode cursor
      obtain ⟨instructions, failure, covers⟩ := ih (by rw [data_eq]; omega)
      exact ⟨instruction :: instructions, failure, covers.cons success⟩

/-! ## Main result -/

/-- From a cursor inside the script, a walk gives finitely many outcomes and then none ever after.
They are instructions that lie one behind the other, and then perhaps one failure; decoding the
whole script comes to the same end.  So does decoding single instructions while there is more, until
one fails. -/
theorem items_tile (decoder : Decoder) {cursor : Cursor}
    (inside : cursor.position ≤ cursor.data.size) :
    (∃ instructions failure, decoder.Covers cursor instructions failure) ∧
      (∀ calls, (((Walk.start cursor).after decoder calls).next decoder).1 =
        (decoder.items cursor)[calls]?) ∧
      (∀ calls, (decoder.items cursor).length ≤ calls →
        ((Walk.start cursor).after decoder calls).cursor = decoder.finish cursor) ∧
      ∀ outcomes last, decoder.Repeats cursor outcomes last ↔
        outcomes = decoder.items cursor ∧ last = decoder.finish cursor := by
  obtain ⟨failed, yields⟩ := Walk.yields_items decoder cursor
  refine ⟨decoder.exists_covers inside, yields.next_after, ?_, fun _ _ => repeats_iff⟩
  intro calls enough
  rw [yields.after_eq enough]

/-- Behind a byte that is not looked at there are an instruction and the header of an opcode that is
refused. -/
theorem items_tile_unknown :
    let decoder : Decoder := ⟨Lookup.ofPairs [(1, .unnamed 1 (.fixed 1))], .strict⟩
    let cursor : Cursor := ⟨#[0xff, 0x01, 0x80, 0x04, 0x05, 0x02, 0x00, 0x03], 1⟩
    cursor.position ≤ cursor.data.size ∧
      (decoder.items cursor)[0]? =
        some ⟨.ok ⟨1, 4, 1, true, [.ofTag .signed8 (.integer 5)]⟩, ⟨cursor.data, 5⟩, []⟩ ∧
      (decoder.items cursor)[1]? =
        some ⟨.error (.unknownOpcode 2 5), ⟨cursor.data, 7⟩, []⟩ ∧
      (decoder.items cursor)[2]? = none ∧
      ∃ instructions failure, decoder.Covers cursor instructions failure := by
  intro decoder cursor
  have inside : cursor.position ≤ cursor.data.size := by decide
  have ⟨covers, given, _, _⟩ := items_tile decoder inside
  refine ⟨inside, ?_, ?_, ?_, covers⟩
  · rw [← given 0]
    simp only [decoder, cursor]
    rfl
  · rw [← given 1]
    simp only [decoder, cursor]
    rfl
  · rw [← given 2]
    simp only [decoder, cursor]
    rfl

end Decoder

end ScriptDisassembler
