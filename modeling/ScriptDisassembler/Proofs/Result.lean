import Mathlib.Data.List.Forall2

/-!
# Results in several steps

A reading in several steps succeeds exactly if every step does.
-/

namespace ScriptDisassembler

variable {ε α β : Type}

/-- A reading in two steps succeeds exactly if both steps do. -/
theorem except_bind_eq_ok_iff {first : Except ε α} {next : α → Except ε β} {b : β} :
    first >>= next = .ok b ↔ ∃ a, first = .ok a ∧ next a = .ok b := by
  constructor
  · intro success
    cases first with
    | error fault => cases success
    | ok a => exact ⟨a, rfl, success⟩
  · rintro ⟨a, rfl, success⟩
    exact success

/-- A reading in two steps fails exactly if the first step does, or the second one behind it. -/
theorem except_bind_eq_error_iff {first : Except ε α} {next : α → Except ε β} {fault : ε} :
    first >>= next = .error fault ↔
      first = .error fault ∨ ∃ a, first = .ok a ∧ next a = .error fault := by
  cases first with
  | error other =>
      change Except.error other = Except.error fault ↔ _
      simp
  | ok a =>
      change next a = .error fault ↔ _
      simp

/-- Steps one after another succeed as a whole exactly if the last one succeeds where the others
led to. -/
theorem except_foldlM_concat_eq_ok_iff {step : β → α → Except ε β} {start b : β} {list : List α}
    {last : α} :
    (list ++ [last]).foldlM step start = .ok b ↔
      ∃ reached, list.foldlM step start = .ok reached ∧ step reached last = .ok b := by
  rw [List.foldlM_append, except_bind_eq_ok_iff]
  simp only [List.foldlM_cons, List.foldlM_nil, bind_pure]

/-- What is done with every element of a list succeeds as a whole exactly if it does with each, and
then gives their results in order. -/
theorem except_mapM_eq_ok_iff {step : α → Except ε β} {list : List α} {results : List β} :
    list.mapM step = .ok results ↔ List.Forall₂ (fun a b => step a = .ok b) list results := by
  induction list generalizing results with
  | nil =>
      rw [List.mapM_nil, List.forall₂_nil_left_iff]
      constructor
      · intro success
        cases success
        rfl
      · rintro rfl
        rfl
  | cons a list ih =>
      simp only [List.mapM_cons, except_bind_eq_ok_iff, List.forall₂_cons_left_iff, ih]
      constructor
      · rintro ⟨b, first, rest, others, same⟩
        cases same
        exact ⟨b, rest, first, others, rfl⟩
      · rintro ⟨b, rest, first, others, rfl⟩
        exact ⟨b, first, rest, others, rfl⟩

/-- What is done with every element of a list and succeeds as a whole succeeds with each. -/
theorem exists_of_except_mapM_eq_ok {step : α → Except ε β} {list : List α} {results : List β}
    (success : list.mapM step = .ok results) {a : α} (member : a ∈ list) :
    ∃ b, step a = .ok b := by
  have each := except_mapM_eq_ok_iff.mp success
  clear success
  induction each with
  | nil => cases member
  | cons first others ih =>
      rcases List.mem_cons.mp member with rfl | later
      · exact ⟨_, first⟩
      · exact ih later

/-- What is done with every element of a list fails as it does with one of them. -/
theorem exists_of_except_mapM_eq_error {step : α → Except ε β} {list : List α} {fault : ε}
    (failure : list.mapM step = .error fault) : ∃ a ∈ list, step a = .error fault := by
  induction list with
  | nil => cases failure
  | cons a list ih =>
      rw [List.mapM_cons] at failure
      cases first : step a with
      | error other =>
          rw [first] at failure
          cases failure
          exact ⟨a, List.mem_cons_self, first⟩
      | ok b =>
          rw [first] at failure
          cases others : list.mapM step with
          | error other =>
              rw [others] at failure
              cases failure
              obtain ⟨failing, member, fails⟩ := ih others
              exact ⟨failing, List.mem_cons_of_mem a member, fails⟩
          | ok rest =>
              rw [others] at failure
              cases failure

end ScriptDisassembler
