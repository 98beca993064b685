import ScriptDisassembler.Instruction.Decoding

/-!
# Decoding a whole script

A script is a sequence of instructions up to its end.  Three ways to decode it stop at the first
failure: one instruction at a time (`Walk.next`), as the list of all outcomes (`Decoder.items`), and
as one result for the whole (`Decoder.decodeAll`).  The last two go through the script in a loop;
`Decoder.items_eq` and `Decoder.decodeAll_eq` say what they do, one instruction at a time.
-/

namespace ScriptDisassembler

/-- A walk through a script: where it stands, and whether it met a failure. -/
structure Walk where
  /-- The cursor in front of the next instruction. -/
  cursor : Cursor
  /-- Whether an instruction could not be decoded. -/
  failed : Bool

namespace Walk

/-- The walk that starts at a cursor. -/
def start (cursor : Cursor) : Walk :=
  ⟨cursor, false⟩

/-- The next outcome, if the walk goes on, and the walk behind it. -/
def next (walk : Walk) (decoder : Decoder) : Option (Decoding Instruction) × Walk :=
  if walk.failed || !walk.cursor.hasMore then (none, walk)
  else
    let item := decoder.decode walk.cursor
    (some item, ⟨item.cursor, !item.result.isOk⟩)

/-- A walk that is over stays over. -/
theorem next_next_of_none {walk : Walk} {decoder : Decoder}
    (ended : (walk.next decoder).1 = none) : ((walk.next decoder).2.next decoder).1 = none := by
  unfold next at ended
  split at ended
  · rename_i stopped
    simp [next, stopped]
  · cases ended

end Walk

namespace Decoder

/-- The outcomes from a cursor on, behind those already seen, which are listed in reverse. -/
def itemsOnto (decoder : Decoder) (seen : List (Decoding Instruction)) (cursor : Cursor) :
    List (Decoding Instruction) :=
  if cursor.hasMore then
    match _ : (decoder.decode cursor).result with
    | .ok _ => decoder.itemsOnto (decoder.decode cursor :: seen) (decoder.decode cursor).cursor
    | .error _ => (decoder.decode cursor :: seen).reverse
  else seen.reverse
termination_by cursor.remaining
decreasing_by exact remaining_lt_of_decode ‹_›

/-- The outcomes from a cursor on, up to the end of the script or the first failure. -/
def items (decoder : Decoder) (cursor : Cursor) : List (Decoding Instruction) :=
  decoder.itemsOnto [] cursor

/-- All instructions from a cursor on, behind those already decoded and the notices already made,
both listed in reverse. -/
def decodeAllOnto (decoder : Decoder) (seen : List Instruction) (heard : List Notice)
    (cursor : Cursor) : Decoding (List Instruction) :=
  if cursor.hasMore then
    match _ : (decoder.decode cursor).result with
    | .ok instruction =>
        decoder.decodeAllOnto (instruction :: seen)
          ((decoder.decode cursor).notices.reverse ++ heard) (decoder.decode cursor).cursor
    | .error error =>
        ⟨.error error, (decoder.decode cursor).cursor,
          heard.reverse ++ (decoder.decode cursor).notices⟩
  else ⟨.ok seen.reverse, cursor, heard.reverse⟩
termination_by cursor.remaining
decreasing_by exact remaining_lt_of_decode ‹_›

/-- All instructions from a cursor on, or the first failure. -/
def decodeAll (decoder : Decoder) (cursor : Cursor) : Decoding (List Instruction) :=
  decoder.decodeAllOnto [] [] cursor

/-! ## The loops one instruction at a time -/

theorem itemsOnto_apply (decoder : Decoder) (seen : List (Decoding Instruction))
    (cursor : Cursor) :
    decoder.itemsOnto seen cursor =
      if cursor.hasMore then
        match (decoder.decode cursor).result with
        | .ok _ => decoder.itemsOnto (decoder.decode cursor :: seen) (decoder.decode cursor).cursor
        | .error _ => (decoder.decode cursor :: seen).reverse
      else seen.reverse := by
  rw [itemsOnto]
  split
  · split <;> simp [*]
  · rfl

/-- Outcomes seen earlier come first. -/
theorem itemsOnto_append (decoder : Decoder) (seen earlier : List (Decoding Instruction))
    (cursor : Cursor) :
    decoder.itemsOnto (seen ++ earlier) cursor =
      earlier.reverse ++ decoder.itemsOnto seen cursor := by
  fun_induction decoder.itemsOnto seen cursor with
  | case1 seen cursor more instruction success ih =>
      rw [itemsOnto_apply, success]
      simpa [more] using ih
  | case2 seen cursor more error failure =>
      rw [itemsOnto_apply, failure]
      simp [more]
  | case3 seen cursor done =>
      rw [itemsOnto_apply]
      simp [done]

/-- The outcomes are those of the next instruction and, if it succeeds, of the rest. -/
theorem items_eq (decoder : Decoder) (cursor : Cursor) :
    decoder.items cursor =
      if cursor.hasMore then
        decoder.decode cursor ::
          if (decoder.decode cursor).result.isOk then
            decoder.items (decoder.decode cursor).cursor
          else []
      else [] := by
  rw [items, itemsOnto_apply]
  cases outcome : (decoder.decode cursor).result with
  | error error => simp [Except.isOk, Except.toBool]
  | ok instruction =>
      have rest := decoder.itemsOnto_append [] [decoder.decode cursor]
        (decoder.decode cursor).cursor
      simp only [List.nil_append, List.reverse_cons, List.reverse_nil] at rest
      simp [rest, items, Except.isOk, Except.toBool]

theorem decodeAllOnto_apply (decoder : Decoder) (seen : List Instruction) (heard : List Notice)
    (cursor : Cursor) :
    decoder.decodeAllOnto seen heard cursor =
      if cursor.hasMore then
        match (decoder.decode cursor).result with
        | .ok instruction =>
            decoder.decodeAllOnto (instruction :: seen)
              ((decoder.decode cursor).notices.reverse ++ heard) (decoder.decode cursor).cursor
        | .error error =>
            ⟨.error error, (decoder.decode cursor).cursor,
              heard.reverse ++ (decoder.decode cursor).notices⟩
      else ⟨.ok seen.reverse, cursor, heard.reverse⟩ := by
  rw [decodeAllOnto]
  split
  · split <;> simp [*]
  · rfl

/-- Instructions decoded and notices made earlier come first. -/
theorem decodeAllOnto_append (decoder : Decoder) (seen before : List Instruction)
    (heard said : List Notice) (cursor : Cursor) :
    decoder.decodeAllOnto (seen ++ before) (heard ++ said) cursor =
      let later := decoder.decodeAllOnto seen heard cursor
      ⟨later.result.map (before.reverse ++ ·), later.cursor, said.reverse ++ later.notices⟩ := by
  fun_induction decoder.decodeAllOnto seen heard cursor with
  | case1 seen heard cursor more instruction success ih =>
      rw [decodeAllOnto_apply, success]
      simpa [more] using ih
  | case2 seen heard cursor more error failure =>
      rw [decodeAllOnto_apply, failure]
      simp [more, Except.map]
  | case3 seen heard cursor done =>
      rw [decodeAllOnto_apply]
      simp [done, Except.map]

/-- The instructions are the next one and, if it is decoded, those of the rest. -/
theorem decodeAll_eq (decoder : Decoder) (cursor : Cursor) :
    decoder.decodeAll cursor =
      if cursor.hasMore then
        match (decoder.decode cursor).result with
        | .ok instruction =>
            let rest := decoder.decodeAll (decoder.decode cursor).cursor
            ⟨rest.result.map (instruction :: ·), rest.cursor,
              (decoder.decode cursor).notices ++ rest.notices⟩
        | .error error =>
            ⟨.error error, (decoder.decode cursor).cursor, (decoder.decode cursor).notices⟩
      else ⟨.ok [], cursor, []⟩ := by
  rw [decodeAll, decodeAllOnto_apply]
  cases outcome : (decoder.decode cursor).result with
  | error error => simp
  | ok instruction =>
      have rest := decoder.decodeAllOnto_append [] [instruction] []
        ((decoder.decode cursor).notices.reverse) (decoder.decode cursor).cursor
      simp only [List.nil_append, List.reverse_cons, List.reverse_nil, List.reverse_reverse,
        List.cons_append] at rest
      simp [rest, decodeAll]

end Decoder

end ScriptDisassembler
