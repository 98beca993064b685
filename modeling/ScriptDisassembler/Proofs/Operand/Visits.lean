import ScriptDisassembler.Proofs.Operand.Composition

/-!
# Where a reader reads

`Reader.Visits` lists the cursors at which a reader makes its single reads: those of bytes, those of
numbers, and looks at where the cursor stands, which read nothing.  What is composed of single reads
does not leave the data: from a cursor inside them, all its reads are made inside them, however it is
composed (`Reader.Visits.reaches`).
-/

namespace ScriptDisassembler

namespace Cursor

/-- Whether a cursor inside the data stands where another one does, or further on in the same
data. -/
structure Reaches (cursor stop : Cursor) : Prop where
  data_eq : stop.data = cursor.data
  position_le : cursor.position ≤ stop.position
  inside : stop.position ≤ stop.data.size

variable {cursor middle stop : Cursor}

theorem Reaches.refl (inside : cursor.position ≤ cursor.data.size) : cursor.Reaches cursor :=
  ⟨rfl, Nat.le_refl _, inside⟩

theorem Reaches.trans (first : cursor.Reaches middle) (second : middle.Reaches stop) :
    cursor.Reaches stop :=
  ⟨second.data_eq.trans first.data_eq, Nat.le_trans first.position_le second.position_le,
    second.inside⟩

end Cursor

namespace Reader

variable {α β : Type} {cursor : Cursor} {reader : Reader α}

theorem Forward.reaches (forward : Forward reader)
    (inside : cursor.position ≤ cursor.data.size) : cursor.Reaches (reader cursor).2 := by
  obtain ⟨data_eq, moved, bounded⟩ := forward cursor
  rw [Nat.max_eq_right inside] at bounded
  exact ⟨data_eq, moved, data_eq ▸ bounded⟩

/-- Look at where the cursor stands, and leave it there. -/
def look (view : Cursor → Except Error α) : Reader α :=
  fun cursor => (view cursor, cursor)

/-- Take over the result of a reader in another form. -/
def recast (form : Except Error α → Except Error β) (reader : Reader α) : Reader β :=
  fun cursor => (form (reader cursor).1, (reader cursor).2)

/-- At this cursor, the reader is composed of single reads at these cursors. -/
inductive Visits : {α : Type} → Cursor → Reader α → List Cursor → Prop
  | look {α : Type} (view : Cursor → Except Error α) (cursor : Cursor) :
      Visits cursor (look view) [cursor]
  | bytes (count : Nat) (cursor : Cursor) : Visits cursor (bytes count) [cursor]
  | unsigned (width : Nat) (cursor : Cursor) : Visits cursor (unsigned width) [cursor]
  | recast {α β : Type} {cursor : Cursor} {reader : Reader α} {stops : List Cursor}
      (form : Except Error α → Except Error β) (visits : Visits cursor reader stops) :
      Visits cursor (recast form reader) stops
  | fail {α β : Type} {cursor after : Cursor} {first : Reader α} {error : Error}
      {stops : List Cursor} (next : α → Reader β) (head : Visits cursor first stops)
      (outcome : first cursor = (.error error, after)) : Visits cursor (first >>= next) stops
  | bind {α β : Type} {cursor middle : Cursor} {first : Reader α} {next : α → Reader β} {a : α}
      {stops further : List Cursor} (head : Visits cursor first stops)
      (outcome : first cursor = (.ok a, middle)) (tail : Visits middle (next a) further) :
      Visits cursor (first >>= next) (stops ++ further)

/-- From a cursor inside the data, all reads are made inside them, and the cursor stays there. -/
theorem Visits.reaches {stops : List Cursor} (visits : Visits cursor reader stops)
    (inside : cursor.position ≤ cursor.data.size) :
    cursor.Reaches (reader cursor).2 ∧ ∀ stop ∈ stops, cursor.Reaches stop := by
  induction visits with
  | look view cursor =>
      have stays := Cursor.Reaches.refl inside
      exact ⟨stays, List.forall_mem_singleton.mpr stays⟩
  | bytes count cursor =>
      have stays := Cursor.Reaches.refl inside
      exact ⟨(forward_bytes count).reaches inside, List.forall_mem_singleton.mpr stays⟩
  | unsigned width cursor =>
      have stays := Cursor.Reaches.refl inside
      exact ⟨(forward_unsigned width).reaches inside, List.forall_mem_singleton.mpr stays⟩
  | recast form visits ih => exact ih inside
  | @fail α β cursor after first error stops next head outcome ih =>
      have reached := ih inside
      rw [bind_apply]
      rw [outcome] at reached ⊢
      exact reached
  | @bind α β cursor middle first next a stops further head outcome tail headReaches tailReaches =>
      obtain ⟨arrives, heads⟩ := headReaches inside
      rw [bind_apply]
      rw [outcome] at arrives ⊢
      obtain ⟨ends, tails⟩ := tailReaches arrives.inside
      refine ⟨arrives.trans ends, fun stop member => ?_⟩
      rcases List.mem_append.mp member with ahead | behind
      · exact heads stop ahead
      · exact arrives.trans (tails stop behind)

/-! ## What is read of operands -/

theorem exists_visits_bind {first : Reader α} {next : α → Reader β}
    (head : ∃ stops, Visits cursor first stops)
    (tail : ∀ a middle, first cursor = (.ok a, middle) → ∃ stops, Visits middle (next a) stops) :
    ∃ stops, Visits cursor (first >>= next) stops := by
  obtain ⟨stops, heads⟩ := head
  rcases outcome : first cursor with ⟨result, after⟩
  cases result with
  | error error => exact ⟨stops, .fail next heads outcome⟩
  | ok a =>
      obtain ⟨further, tails⟩ := tail a after outcome
      exact ⟨stops ++ further, .bind heads outcome tails⟩

theorem exists_visits_ofExcept (result : Except Error α) (cursor : Cursor) :
    ∃ stops, Visits cursor (ofExcept result) stops :=
  ⟨[cursor], .look (fun _ => result) cursor⟩

theorem exists_visits_pure (a : α) (cursor : Cursor) :
    ∃ stops, Visits cursor (pure a : Reader α) stops :=
  exists_visits_ofExcept (.ok a) cursor

theorem exists_visits_map_unsigned (width : Nat) (make : Nat → α) (cursor : Cursor) :
    ∃ stops, Visits cursor (do return make (← unsigned width)) stops :=
  exists_visits_bind ⟨_, .unsigned width cursor⟩ fun number middle _ =>
    exists_visits_pure (make number) middle

/-- A composed reader makes single reads only. -/
theorem Composed.exists_visits (composed : Composed cursor reader) :
    ∃ stops, Visits cursor reader stops := by
  induction composed with
  | pure a cursor => exact exists_visits_pure a cursor
  | bytes count cursor => exact ⟨_, .bytes count cursor⟩
  | tag cursor =>
      exact exists_visits_bind (exists_visits_map_unsigned 1 UInt8.ofNat cursor)
        fun code middle _ => exists_visits_ofExcept _ middle
  | bind head forward tail headVisits tailVisits => exact exists_visits_bind headVisits tailVisits

end Reader

end ScriptDisassembler
