import Mathlib.Data.List.Forall2

/-!
# Checked computations

How a computation that may fail comes to succeed: all of its parts have succeeded. And how the
error of a computation is reported differently: so are the errors of its parts.
-/

namespace MachineCode

variable {error first second : Type}

theorem exists_of_bind_eq_ok {checked : Except error first} {next : first → Except error second}
    {value : second} (succeeded : (checked >>= next) = .ok value) :
    ∃ middle, checked = .ok middle ∧ next middle = .ok value := by
  cases checked with
  | error reason => contradiction
  | ok middle => exact ⟨middle, rfl, succeeded⟩

theorem exists_of_map_eq_ok {checked : Except error first} {change : first → second}
    {value : second} (succeeded : (change <$> checked) = .ok value) :
    ∃ middle, checked = .ok middle ∧ change middle = value := by
  cases checked with
  | error reason => contradiction
  | ok middle =>
      cases succeeded
      exact ⟨middle, rfl, rfl⟩

/-- A list is checked item by item. -/
theorem mapM_eq_ok_iff {check : first → Except error second} {items : List first}
    {values : List second} :
    items.mapM check = .ok values ↔
      List.Forall₂ (fun item value => check item = .ok value) items values := by
  induction items generalizing values with
  | nil =>
      rw [List.mapM_nil, List.forall₂_nil_left_iff]
      exact ⟨fun equal => by cases equal; rfl, fun equal => by cases equal; rfl⟩
  | cons item rest ih =>
      rw [List.mapM_cons]
      constructor
      · intro succeeded
        obtain ⟨value, itemChecked, succeeded⟩ := exists_of_bind_eq_ok succeeded
        obtain ⟨others, restChecked, returned⟩ := exists_of_bind_eq_ok succeeded
        cases returned
        exact .cons itemChecked (ih.mp restChecked)
      · rintro (_ | ⟨itemChecked, restChecked⟩)
        rw [itemChecked, ih.mpr restChecked]
        rfl

theorem exists_of_mem_of_mapM_eq_ok {check : first → Except error second} {items : List first}
    {values : List second} {value : second} (succeeded : items.mapM check = .ok values)
    (member : value ∈ values) : ∃ item ∈ items, check item = .ok value := by
  have each := mapM_eq_ok_iff.mp succeeded
  clear succeeded
  induction each with
  | nil => contradiction
  | cons checked _ ih =>
      rcases List.mem_cons.mp member with rfl | inRest
      · exact ⟨_, List.mem_cons_self .., checked⟩
      · obtain ⟨item, isItem, itemChecked⟩ := ih inRest
        exact ⟨item, List.mem_cons_of_mem _ isItem, itemChecked⟩

/-- What every step of a fold keeps holds in the end. -/
theorem invariant_of_foldlM_eq_ok {step : second → first → Except error second}
    {invariant : second → Prop} {items : List first} {start finish : second}
    (keeps : ∀ before item after, invariant before → step before item = .ok after →
      invariant after)
    (initial : invariant start) (succeeded : items.foldlM step start = .ok finish) :
    invariant finish := by
  induction items generalizing start with
  | nil =>
      cases succeeded
      exact initial
  | cons item rest ih =>
      rw [List.foldlM_cons] at succeeded
      obtain ⟨middle, stepped, succeeded⟩ := exists_of_bind_eq_ok succeeded
      exact ih (keeps start item middle initial stepped) succeeded

/-! ## Errors that are reported differently -/

section

variable {report : Type} (change : error → report)

theorem mapError_bind (checked : Except error first) (next : first → Except error second) :
    (checked >>= next).mapError change =
      (checked.mapError change >>= fun value => (next value).mapError change) := by
  cases checked <;> rfl

theorem mapError_map (convert : first → second) (checked : Except error first) :
    (convert <$> checked).mapError change = convert <$> checked.mapError change := by
  cases checked <;> rfl

variable {change}

theorem mapM_eq_mapError {check : first → Except error second}
    {checkAnew : first → Except report second} (items : List first)
    (each : ∀ item, checkAnew item = (check item).mapError change) :
    items.mapM checkAnew = (items.mapM check).mapError change := by
  induction items with
  | nil => rfl
  | cons item rest ih =>
      simp only [List.mapM_cons, mapError_bind, each, ih]
      rfl

theorem foldlM_eq_mapError {step : second → first → Except error second}
    {stepAnew : second → first → Except report second} (start : second) (items : List first)
    (each : ∀ value item, stepAnew value item = (step value item).mapError change) :
    items.foldlM stepAnew start = (items.foldlM step start).mapError change := by
  induction items generalizing start with
  | nil => rfl
  | cons item rest ih => simp only [List.foldlM_cons, mapError_bind, each, ih]

end

end MachineCode
