import Mathlib.Data.List.Forall2

/-!
# Mapping a fallible conversion over a list

`iter().map(f).collect::<Result<_, _>>()`: all elements are converted, in order, or
the first error is returned.
-/

namespace VecnoIndexer.Collections

universe u v w

variable {ε : Type u} {α : Type v} {β : Type u} {convert : α → Except ε β}

theorem mapM_eq_ok_iff {values : List α} {results : List β} :
    values.mapM convert = .ok results ↔
      List.Forall₂ (fun value result => convert value = .ok result) values results := by
  induction values generalizing results with
  | nil =>
      rw [List.mapM_nil, List.forall₂_nil_left_iff]
      constructor
      · rintro ⟨⟩
        rfl
      · rintro rfl
        rfl
  | cons value rest ih =>
      rw [List.mapM_cons, List.forall₂_cons_left_iff]
      constructor
      · intro converted
        cases first : convert value with
        | error error =>
            rw [first] at converted
            contradiction
        | ok result =>
            cases others : rest.mapM convert with
            | error error =>
                rw [first, others] at converted
                contradiction
            | ok tail =>
                rw [first, others] at converted
                cases converted
                exact ⟨result, tail, rfl, ih.mp others, rfl⟩
      · rintro ⟨result, tail, first, others, rfl⟩
        rw [first, ih.mpr others]
        rfl

/-- If every element converts, the list does. -/
theorem exists_mapM_eq_ok {values : List α}
    (converts : ∀ value ∈ values, ∃ result, convert value = .ok result) :
    ∃ results, values.mapM convert = .ok results := by
  induction values with
  | nil => exact ⟨[], rfl⟩
  | cons value rest ih =>
      obtain ⟨result, first⟩ := converts value List.mem_cons_self
      obtain ⟨results, others⟩ := ih fun other otherMem =>
        converts other (List.mem_cons_of_mem value otherMem)
      refine ⟨result :: results, ?_⟩
      rw [List.mapM_cons, first, others]
      rfl

theorem mem_of_mapM_eq_ok {values : List α} {results : List β}
    (converted : values.mapM convert = .ok results) {result : β} :
    result ∈ results ↔ ∃ value ∈ values, convert value = .ok result := by
  have related := mapM_eq_ok_iff.mp converted
  clear converted
  induction related with
  | nil => simp
  | cons first _ ih =>
      simp only [List.mem_cons, ih, exists_eq_or_imp, first, Except.ok.injEq]
      rw [eq_comm]

theorem exists_mem_of_mapM_eq_ok {values : List α} {results : List β}
    (converted : values.mapM convert = .ok results) {value : α} (valueMem : value ∈ values) :
    ∃ result ∈ results, convert value = .ok result := by
  have related := mapM_eq_ok_iff.mp converted
  clear converted
  induction related with
  | nil => contradiction
  | cons first _ ih =>
      rcases List.mem_cons.mp valueMem with rfl | inRest
      · exact ⟨_, List.mem_cons_self, first⟩
      · obtain ⟨result, resultMem, valueEq⟩ := ih inRest
        exact ⟨result, List.mem_cons_of_mem _ resultMem, valueEq⟩

/-- The error is that of some element. -/
theorem exists_of_mapM_eq_error {values : List α} {error : ε}
    (failed : values.mapM convert = .error error) :
    ∃ value ∈ values, convert value = .error error := by
  induction values with
  | nil =>
      rw [List.mapM_nil] at failed
      contradiction
  | cons value rest ih =>
      rw [List.mapM_cons] at failed
      cases first : convert value with
      | error other =>
          rw [first] at failed
          cases failed
          exact ⟨value, List.mem_cons_self, first⟩
      | ok result =>
          cases others : rest.mapM convert with
          | error other =>
              rw [first, others] at failed
              cases failed
              obtain ⟨found, inRest, foundError⟩ := ih others
              exact ⟨found, List.mem_cons_of_mem value inRest, foundError⟩
          | ok tail =>
              rw [first, others] at failed
              contradiction

/-! ## Conversions that may have no value -/

section Option

variable {γ : Type u} {δ : Type v} {partially : α → Option γ}

theorem exists_mem_of_mapM_eq_some {values : List α} {results : List γ}
    (converted : values.mapM partially = some results) {value : α} (valueMem : value ∈ values) :
    ∃ result ∈ results, partially value = some result := by
  induction values generalizing results with
  | nil => contradiction
  | cons first rest ih =>
      simp only [List.mapM_cons, Option.bind_eq_bind, Option.bind_eq_some_iff] at converted
      obtain ⟨result, resultEq, others, othersEq, eq⟩ := converted
      cases eq
      rcases List.mem_cons.mp valueMem with rfl | inRest
      · exact ⟨result, List.mem_cons_self, resultEq⟩
      · obtain ⟨other, otherMem, otherEq⟩ := ih othersEq inRest
        exact ⟨other, List.mem_cons_of_mem result otherMem, otherEq⟩

theorem exists_of_mem_mapM_eq_some {values : List α} {results : List γ}
    (converted : values.mapM partially = some results) {result : γ} (resultMem : result ∈ results) :
    ∃ value ∈ values, partially value = some result := by
  induction values generalizing results with
  | nil =>
      cases converted
      contradiction
  | cons first rest ih =>
      simp only [List.mapM_cons, Option.bind_eq_bind, Option.bind_eq_some_iff] at converted
      obtain ⟨head, headEq, others, othersEq, eq⟩ := converted
      cases eq
      rcases List.mem_cons.mp resultMem with rfl | inRest
      · exact ⟨first, List.mem_cons_self, headEq⟩
      · obtain ⟨value, valueMem, valueEq⟩ := ih othersEq inRest
        exact ⟨value, List.mem_cons_of_mem first valueMem, valueEq⟩

/-- Conversions that have a value under a condition convert a list whose elements meet it. -/
theorem mapM_eq_some_iff {condition : α → Prop} [DecidablePred condition] {result : α → γ}
    {values : List α} (converts : ∀ value ∈ values,
      partially value = if condition value then some (result value) else none)
    {results : List γ} :
    values.mapM partially = some results ↔
      (∀ value ∈ values, condition value) ∧ results = values.map result := by
  induction values generalizing results with
  | nil => simp [eq_comm]
  | cons first rest ih =>
      have others := fun value inRest => converts value (List.mem_cons_of_mem first inRest)
      rw [List.mapM_cons, converts first List.mem_cons_self, List.forall_mem_cons]
      by_cases met : condition first
      · simp only [met, if_true, Option.bind_eq_bind, Option.bind_some, Option.bind_eq_some_iff,
          ih others, Option.pure_def, Option.some.injEq, true_and, List.map_cons]
        constructor
        · rintro ⟨_, ⟨all, rfl⟩, rfl⟩
          exact ⟨all, rfl⟩
        · rintro ⟨all, rfl⟩
          exact ⟨_, ⟨all, rfl⟩, rfl⟩
      · simp [met]

/-- If every element converts, the list does. -/
theorem exists_mapM_eq_some {values : List α}
    (converts : ∀ value ∈ values, ∃ result, partially value = some result) :
    ∃ results, values.mapM partially = some results := by
  induction values with
  | nil => exact ⟨[], rfl⟩
  | cons value rest ih =>
      obtain ⟨result, first⟩ := converts value List.mem_cons_self
      obtain ⟨results, others⟩ := ih fun other otherMem =>
        converts other (List.mem_cons_of_mem value otherMem)
      refine ⟨result :: results, ?_⟩
      rw [List.mapM_cons, first, others]
      rfl

/-- Elements that all convert. -/
theorem mapM_eq_some_map {result : α → γ} {values : List α}
    (converts : ∀ value ∈ values, partially value = some (result value)) :
    values.mapM partially = some (values.map result) := by
  induction values with
  | nil => rfl
  | cons first rest ih =>
      rw [List.mapM_cons, converts first List.mem_cons_self,
        ih fun value inRest => converts value (List.mem_cons_of_mem first inRest)]
      rfl

theorem mapM_congr_of_mem {other : α → Option γ} {values : List α}
    (same : ∀ value ∈ values, partially value = other value) :
    values.mapM partially = values.mapM other := by
  induction values with
  | nil => rfl
  | cons first rest ih =>
      rw [List.mapM_cons, List.mapM_cons, same first List.mem_cons_self,
        ih fun value inRest => same value (List.mem_cons_of_mem first inRest)]

/-- Conversions that agree up to a projection, element by element, do so on lists. -/
theorem exists_mapM_of_project {other : α → Option γ} {project : γ → δ}
    (agrees : ∀ value result, partially value = some result →
      ∃ like, other value = some like ∧ project like = project result)
    {values : List α} {results : List γ} (converted : values.mapM partially = some results) :
    ∃ likes, values.mapM other = some likes ∧ likes.map project = results.map project := by
  induction values generalizing results with
  | nil =>
      cases converted
      exact ⟨[], rfl, rfl⟩
  | cons first rest ih =>
      simp only [List.mapM_cons, Option.bind_eq_bind, Option.bind_eq_some_iff] at converted ⊢
      obtain ⟨result, resultEq, tail, tailEq, eq⟩ := converted
      cases eq
      obtain ⟨like, likeEq, sameFirst⟩ := agrees first result resultEq
      obtain ⟨likes, likesEq, sameRest⟩ := ih tailEq
      refine ⟨like :: likes, ⟨like, likeEq, likes, likesEq, rfl⟩, ?_⟩
      rw [List.map_cons, List.map_cons, sameFirst, sameRest]

/-- A conversion of the positions of a list to its elements. -/
theorem mapM_range_eq_some {convert : ℕ → Option γ} {values : List γ}
    (converts : ∀ position, ∀ inside : position < values.length,
      convert position = some values[position]) :
    (List.range values.length).mapM convert = some values := by
  induction values generalizing convert with
  | nil => rfl
  | cons first rest ih =>
      have later : (List.range rest.length).mapM (fun position => convert (position + 1)) =
          some rest :=
        ih fun position inside => converts (position + 1) (Nat.succ_lt_succ inside)
      rw [List.length_cons, List.range_succ_eq_map, List.mapM_cons,
        converts 0 (Nat.zero_lt_succ _), List.mapM_map]
      simp only [Function.comp_def, Nat.succ_eq_add_one, later, Option.bind_eq_bind,
        Option.bind_some, Option.pure_def, List.getElem_cons_zero]

end Option

end VecnoIndexer.Collections
