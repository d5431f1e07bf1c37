import MachineCode.Error

/-!
# Sweeping over a list

A pass over a function replaces the items of a list one after the other. When it fails, the
items before the failure have been replaced and those behind it have not. `Sweep` describes how
far such a pass came, and `Sweep.run` performs it.
-/

namespace MachineCode

/-- A list as a sweep leaves it, with the sweep's result or the reason for which it stopped. -/
structure Sweep (item result : Type) where
  items : List item
  outcome : Except CodeError result

namespace Sweep

variable {item state : Type}

def done (items : List item) (result : state) : Sweep item state :=
  ⟨items, .ok result⟩

def stopped (items : List item) (reason : CodeError) : Sweep item state :=
  ⟨items, .error reason⟩

/-- The same sweep behind items that are finished. -/
def prepend (finished : List item) (rest : Sweep item state) : Sweep item state :=
  ⟨finished ++ rest.items, rest.outcome⟩

/-- Replace every item by the items that `step` leaves in its place, threading a state. The
items behind a failing step stay as they are. -/
def run (step : state → item → Sweep item state) : state → List item → Sweep item state
  | current, [] => done [] current
  | current, head :: rest =>
      match step current head with
      | ⟨items, .ok next⟩ => (run step next rest).prepend items
      | ⟨items, .error reason⟩ => stopped (items ++ rest) reason

@[simp] theorem run_nil (step : state → item → Sweep item state) (current : state) :
    run step current [] = done [] current := rfl

/-- A step that succeeds is followed by the sweep over the remaining items. -/
theorem run_cons_ok {step : state → item → Sweep item state} {current next : state}
    {head : item} {items : List item} (stepped : step current head = done items next)
    (rest : List item) :
    run step current (head :: rest) = (run step next rest).prepend items := by
  simp [run, stepped, done]

/-- A step that fails leaves the remaining items untouched. -/
theorem run_cons_error {step : state → item → Sweep item state} {current : state}
    {head : item} {items : List item} {reason : CodeError}
    (stepped : step current head = stopped items reason) (rest : List item) :
    run step current (head :: rest) = stopped (items ++ rest) reason := by
  simp [run, stepped, stopped]

/-- A sweep that succeeds has succeeded at the first item and at the remaining ones. -/
theorem run_cons_eq_done {step : state → item → Sweep item state} {current last : state}
    {head : item} {rest items : List item}
    (ran : run step current (head :: rest) = done items last) :
    ∃ next finished remaining, step current head = done finished next ∧
      run step next rest = done remaining last ∧ items = finished ++ remaining := by
  cases stepped : step current head with
  | mk finished outcome =>
      cases outcome with
      | error reason =>
          rw [run_cons_error stepped] at ran
          cases ran
      | ok next =>
          rw [run_cons_ok stepped] at ran
          cases swept : run step next rest with
          | mk remaining outcome =>
              rw [swept] at ran
              cases ran
              exact ⟨next, finished, remaining, rfl, swept, rfl⟩

theorem run_append_eq_done {step : state → item → Sweep item state} {current last : state}
    {left right items : List item} (ran : run step current (left ++ right) = done items last) :
    ∃ next finished remaining, run step current left = done finished next ∧
      run step next right = done remaining last ∧ items = finished ++ remaining := by
  induction left generalizing current items with
  | nil => exact ⟨current, [], items, rfl, ran, rfl⟩
  | cons head left ih =>
      obtain ⟨next, finished, remaining, stepped, swept, rfl⟩ := run_cons_eq_done ran
      obtain ⟨middle, leftItems, rightItems, leftSwept, rightSwept, rfl⟩ := ih swept
      refine ⟨middle, finished ++ leftItems, rightItems, ?_, rightSwept, ?_⟩
      · rw [run_cons_ok stepped, leftSwept]
        rfl
      · rw [List.append_assoc]

/-- Items that every step leaves alone stay in front of what a sweep makes of the others. -/
theorem run_append_of_inert {step : state → item → Sweep item state} {current : state}
    {left : List item} (inert : ∀ head ∈ left, step current head = done [head] current)
    (right : List item) :
    run step current (left ++ right) = (run step current right).prepend left := by
  induction left with
  | nil => rfl
  | cons head left ih =>
      rw [List.forall_mem_cons] at inert
      rw [List.cons_append, run_cons_ok inert.1, ih inert.2]
      rfl

/-- What every step preserves holds at the end of a sweep that succeeds. The invariant speaks of
the items that are finished, of those that remain and of the state. -/
theorem run_invariant {step : state → item → Sweep item state}
    (invariant : List item → List item → state → Prop)
    (preserved : ∀ finished head rest current next, invariant finished (head :: rest) current →
      (step current head).outcome = .ok next →
        invariant (finished ++ (step current head).items) rest next)
    {items : List item} {current last : state} (initially : invariant [] items current)
    (succeeded : (run step current items).outcome = .ok last) :
    invariant (run step current items).items [] last := by
  suffices general : ∀ finished rest current, invariant finished rest current →
      (run step current rest).outcome = .ok last →
        invariant (finished ++ (run step current rest).items) [] last from
    general [] items current initially succeeded
  intro finished rest
  induction rest generalizing finished with
  | nil =>
      intro current holds succeeded
      rw [run_nil, done, Except.ok.injEq] at succeeded
      subst succeeded
      rwa [run_nil, done, List.append_nil]
  | cons head rest ih =>
      intro current holds succeeded
      cases stepped : step current head with
      | mk replaced outcome =>
          cases outcome with
          | error reason =>
              rw [run_cons_error stepped] at succeeded
              contradiction
          | ok next =>
              rw [run_cons_ok stepped] at succeeded ⊢
              have advanced := preserved finished head rest current next holds (by rw [stepped])
              rw [stepped] at advanced
              have swept := ih _ next advanced succeeded
              rwa [List.append_assoc] at swept

/-- A sweep that puts one item of the same name in the place of every item keeps the names, also if
it stops. -/
theorem map_items_run {label : Type} {name : item → label} {step : state → item → Sweep item state}
    (each : ∀ current head, (step current head).items.map name = [name head]) (current : state)
    (items : List item) : (run step current items).items.map name = items.map name := by
  induction items generalizing current with
  | nil => rfl
  | cons head rest ih =>
      have headName := each current head
      cases stepped : step current head with
      | mk replaced outcome =>
          rw [stepped] at headName
          cases outcome with
          | ok next =>
              rw [run_cons_ok stepped, prepend, List.map_append, headName, ih]
              rfl
          | error reason =>
              rw [run_cons_error stepped, stopped, List.map_append, headName]
              rfl

/-- A property that every step hands on from an item to those in its place holds of all items that
a sweep leaves, also if it stops. -/
theorem forall_mem_items_run {property : item → Prop} {step : state → item → Sweep item state}
    (each : ∀ current head, property head → ∀ left ∈ (step current head).items, property left)
    {items : List item} (all : ∀ head ∈ items, property head) (current : state) :
    ∀ left ∈ (run step current items).items, property left := by
  induction items generalizing current with
  | nil => exact all
  | cons head rest ih =>
      have ofHead := each current head (all head List.mem_cons_self)
      have ofRest := fun other member => all other (List.mem_cons_of_mem head member)
      cases stepped : step current head with
      | mk replaced outcome =>
          rw [stepped] at ofHead
          cases outcome with
          | ok next =>
              rw [run_cons_ok stepped, prepend]
              exact List.forall_mem_append.mpr ⟨ofHead, ih ofRest next⟩
          | error reason =>
              rw [run_cons_error stepped, stopped]
              exact List.forall_mem_append.mpr ⟨ofHead, ofRest⟩

end Sweep

end MachineCode
