import ScriptDisassembler.Proofs.Prototype.Verdict

/-!
# Every line counts once

A definition text is loaded line by line: a line that says nothing is passed over, an accepted line
makes its update and is counted, and for a rejected line its number and the reason are noted
(`Loading.read`).  `Table.load_accounts` says that this loop is what `Table.load` does, and that
every line is dealt with in exactly one of these ways.
-/

namespace ScriptDisassembler

namespace Format

/-- Whether a line makes an update. -/
def Accepts (format : Format) (line : List Char) : Prop :=
  ∃ update, format.verdict line = .accepted update

/-- Whether a line should have made an update and does not. -/
def Rejects (format : Format) (line : List Char) : Prop :=
  ∃ reason, format.verdict line = .rejected reason

variable (format : Format) (line : List Char)

theorem isSome_update?_iff : (format.verdict line).update?.isSome = true ↔ format.Accepts line := by
  simp only [Option.isSome_iff_exists, Verdict.update?_eq_some_iff, Accepts]

theorem isSome_rejection?_iff :
    (format.verdict line).rejection?.isSome = true ↔ format.Rejects line := by
  simp only [Option.isSome_iff_exists, Verdict.rejection?_eq_some_iff, Rejects]

instance : Decidable (format.Ignores line) :=
  decidable_of_iff (format.verdict line = .ignored) verdict_eq_ignored_iff

instance : Decidable (format.Accepts line) :=
  decidable_of_iff _ (format.isSome_update?_iff line)

instance : Decidable (format.Rejects line) :=
  decidable_of_iff _ (format.isSome_rejection?_iff line)

/-- A line says nothing, or makes an update, or should have done so, and no two of these. -/
theorem ignores_or_accepts_or_rejects :
    (format.Ignores line ∧ ¬ format.Accepts line ∧ ¬ format.Rejects line) ∨
      (¬ format.Ignores line ∧ format.Accepts line ∧ ¬ format.Rejects line) ∨
      (¬ format.Ignores line ∧ ¬ format.Accepts line ∧ format.Rejects line) := by
  rw [← verdict_eq_ignored_iff]
  cases outcome : format.verdict line <;> simp [Accepts, Rejects, outcome]

/-- Each line is counted in one of three ways. -/
theorem length_eq_countP_add (lines : List (List Char)) :
    lines.length = lines.countP (format.Ignores ·) + lines.countP (format.Accepts ·) +
      lines.countP (format.Rejects ·) := by
  induction lines with
  | nil => rfl
  | cons line lines ih =>
      simp only [List.length_cons, List.countP_cons, decide_eq_true_eq]
      rcases format.ignores_or_accepts_or_rejects line with
          ⟨ignored, notAccepted, notRejected⟩ | ⟨notIgnored, accepted, notRejected⟩ |
          ⟨notIgnored, notAccepted, rejected⟩
      · rw [if_pos ignored, if_neg notAccepted, if_neg notRejected]
        omega
      · rw [if_neg notIgnored, if_pos accepted, if_neg notRejected]
        omega
      · rw [if_neg notIgnored, if_neg notAccepted, if_pos rejected]
        omega

end Format

/-! ## Loading line by line -/

namespace Loading

/-- A loading with one more line, which comes with its number. -/
def read (format : Format) (loading : Loading) (numbered : List Char × Nat) : Loading :=
  match format.verdict numbered.1 with
  | .ignored => loading
  | .accepted update =>
      { loading with
        table := loading.table.apply update
        count := loading.count + 1 }
  | .rejected reason =>
      { loading with notices := loading.notices ++ [.skipped format numbered.2 reason] }

/-- A loading behind the last line. -/
def close (format : Format) (loading : Loading) : Loading :=
  { loading with notices := loading.notices ++ [.loaded format loading.count] }

/-- The update of a numbered line. -/
def updateOf? (format : Format) (numbered : List Char × Nat) : Option Update :=
  (format.verdict numbered.1).update?

/-- The number of a rejected line, with the reason. -/
def rejectionOf? (format : Format) (numbered : List Char × Nat) : Option (Nat × Rejection) :=
  (format.verdict numbered.1).rejection?.map fun reason => (numbered.2, reason)

/-- The notice on a rejected line. -/
def notice (format : Format) (rejected : Nat × Rejection) : Notice :=
  .skipped format rejected.1 rejected.2

/-- Several lines make their updates in order, count them, and note what is rejected. -/
theorem foldl_read (format : Format) (loading : Loading) (numbered : List (List Char × Nat)) :
    numbered.foldl (read format) loading =
      { table := loading.table.applyAll (numbered.filterMap (updateOf? format))
        count := loading.count + (numbered.filterMap (updateOf? format)).length
        notices := loading.notices ++
          (numbered.filterMap (rejectionOf? format)).map (notice format) } := by
  induction numbered generalizing loading with
  | nil => simp [Table.applyAll]
  | cons first rest ih =>
      rw [List.foldl_cons, ih]
      cases outcome : format.verdict first.1 with
      | ignored => simp [read, updateOf?, rejectionOf?, outcome, Verdict.update?, Verdict.rejection?]
      | accepted update =>
          simp [read, updateOf?, rejectionOf?, outcome, Verdict.update?, Verdict.rejection?,
            Table.applyAll, Nat.add_assoc, Nat.add_comm 1]
      | rejected reason =>
          simp [read, updateOf?, rejectionOf?, outcome, Verdict.update?, Verdict.rejection?, notice]

end Loading

namespace Format

/-- The numbers of the rejected lines of a text, with the reasons. -/
def rejected (format : Format) (text : String) : List (Nat × Rejection) :=
  ((Text.lines text.toList).zipIdx 1).filterMap (Loading.rejectionOf? format)

theorem updates_eq (format : Format) (text : String) :
    format.updates text =
      ((Text.lines text.toList).zipIdx 1).filterMap (Loading.updateOf? format) := by
  have unnumbered : Loading.updateOf? format =
      (fun line => (format.verdict line).update?) ∘ Prod.fst := rfl
  rw [unnumbered, ← List.filterMap_map, List.zipIdx_map_fst, updates_eq_filterMap]

theorem rejections_eq (format : Format) (text : String) :
    format.rejections text = (format.rejected text).map (Loading.notice format) := by
  rw [rejections, verdicts, rejected, List.zipIdx_map, List.filterMap_map, List.map_filterMap]
  congr 1
  funext numbered
  simp [Loading.rejectionOf?, Function.comp_def, Loading.notice]

/-- As many updates are made as lines are accepted. -/
theorem length_updates (format : Format) (text : String) :
    (format.updates text).length =
      (Text.lines text.toList).countP (format.Accepts ·) := by
  rw [updates_eq_filterMap, List.length_filterMap_eq_countP]
  apply List.countP_congr
  intro line _
  simpa using format.isSome_update?_iff line

theorem length_rejected (format : Format) (text : String) :
    (format.rejected text).length =
      (Text.lines text.toList).countP (format.Rejects ·) := by
  have unnumbered : (fun numbered => (Loading.rejectionOf? format numbered).isSome) =
      (fun line => (format.verdict line).rejection?.isSome) ∘ Prod.fst := by
    funext numbered
    exact Option.isSome_map
  rw [rejected, List.length_filterMap_eq_countP, unnumbered, ← List.countP_map,
    List.zipIdx_map_fst]
  apply List.countP_congr
  intro line _
  simpa using format.isSome_rejection?_iff line

/-- Rejected lines are noted from the first to the last. -/
theorem rejected_ascending (format : Format) (text : String) :
    (format.rejected text).Pairwise fun earlier later => earlier.1 < later.1 := by
  have numbers : ((Text.lines text.toList).zipIdx 1).Pairwise
      fun earlier later => earlier.2 < later.2 := by
    rw [← List.pairwise_map (f := Prod.snd), List.zipIdx_map_snd]
    exact List.pairwise_lt_range' 1
  refine numbers.filterMap _ fun earlier later less first firstEq second secondEq => ?_
  obtain ⟨_, -, rfl⟩ := Option.map_eq_some_iff.mp firstEq
  obtain ⟨_, -, rfl⟩ := Option.map_eq_some_iff.mp secondEq
  exact less

/-- A number is noted with a reason exactly if the line of this number is rejected for it. -/
theorem mem_rejected_iff {format : Format} {text : String} {number : Nat} {reason : Rejection} :
    (number, reason) ∈ format.rejected text ↔
      1 ≤ number ∧ ∃ line, (Text.lines text.toList)[number - 1]? = some line ∧
        format.verdict line = .rejected reason := by
  simp only [rejected, List.mem_filterMap, Prod.exists, List.mk_mem_zipIdx_iff_le_and_getElem?_sub,
    Loading.rejectionOf?, Option.map_eq_some_iff, Verdict.rejection?_eq_some_iff, Prod.mk.injEq]
  constructor
  · rintro ⟨line, _, ⟨positive, stored⟩, _, isRejected, rfl, rfl⟩
    exact ⟨positive, line, stored, isRejected⟩
  · rintro ⟨positive, line, stored, isRejected⟩
    exact ⟨line, number, ⟨positive, stored⟩, reason, isRejected, rfl, rfl⟩

end Format

namespace Table

/-- A text is loaded line by line. -/
theorem load_eq_foldl (table : Table) (format : Format) (text : String) :
    table.load format text =
      (((Text.lines text.toList).zipIdx 1).foldl (Loading.read format) ⟨table, 0, []⟩).close
        format := by
  rw [Loading.foldl_read, ← Format.updates_eq]
  simp only [load, Loading.close, Format.rejections_eq, Format.rejected, Nat.zero_add,
    List.nil_append]

/-! ## Main result -/

/-- Loading a text always gives a table, a number and notices.  Every line says nothing, or is
accepted, or is rejected, and no two of these; the loop passes over it, or makes one update and
counts it, or notes it.  The number is that of the accepted lines.  The notices are one warning for
each rejected line, in ascending order of the line numbers, and then the number; so no line is lost
and none is counted twice. -/
theorem load_accounts (table : Table) (format : Format) (text : String) :
    let lines := Text.lines text.toList
    let loading := table.load format text
    (∀ line,
      (format.Ignores line ∧ ¬ format.Accepts line ∧ ¬ format.Rejects line) ∨
        (¬ format.Ignores line ∧ format.Accepts line ∧ ¬ format.Rejects line) ∨
        (¬ format.Ignores line ∧ ¬ format.Accepts line ∧ format.Rejects line)) ∧
      loading = ((lines.zipIdx 1).foldl (Loading.read format) ⟨table, 0, []⟩).close format ∧
      loading.count = lines.countP (format.Accepts ·) ∧
      ∃ rejected : List (Nat × Rejection),
        loading.notices =
          rejected.map (fun (number, reason) => .skipped format number reason) ++
            [.loaded format loading.count] ∧
        loading.notices.map Notice.level = rejected.map (fun _ => .warning) ++ [.debug] ∧
        (rejected.Pairwise fun earlier later => earlier.1 < later.1) ∧
        (∀ number reason, (number, reason) ∈ rejected ↔
          1 ≤ number ∧ ∃ line, lines[number - 1]? = some line ∧
            format.verdict line = .rejected reason) ∧
        lines.length = lines.countP (format.Ignores ·) + loading.count + rejected.length := by
  intro lines loading
  have count_eq : loading.count = lines.countP (format.Accepts ·) := format.length_updates text
  have notices_eq : loading.notices =
      (format.rejected text).map (Loading.notice format) ++ [.loaded format loading.count] := by
    rw [← Format.rejections_eq]
    rfl
  refine ⟨format.ignores_or_accepts_or_rejects, table.load_eq_foldl format text, count_eq,
    format.rejected text, notices_eq, ?_, format.rejected_ascending text,
    fun _ _ => Format.mem_rejected_iff, ?_⟩
  · rw [notices_eq, List.map_append, List.map_map]
    rfl
  · rw [count_eq, format.length_rejected]
    exact format.length_eq_countP_add lines

end Table

end ScriptDisassembler
