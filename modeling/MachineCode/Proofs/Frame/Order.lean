import MachineCode.Proofs.Frame.Origin
import MachineCode.Proofs.Frame.Shape

/-!
# Order in lowered code

That lowering puts an instruction in the right place means that it never stands before, or never
behind, instructions of some kind. What matters of such an order are the parts that code consists
of and whether each of them has instructions of the two kinds. The sweep carries an order over if it
makes instructions of a kind of instructions of that kind only.
-/

namespace MachineCode

section

variable {item state : Type} {first second : item → Bool}

/-- No item of the first kind comes before one of the second. -/
def NeverBefore (first second : item → Bool) (items : List item) : Prop :=
  items.Pairwise fun earlier later => first earlier = true → second later = false

instance NeverBefore.decidable (items : List item) : Decidable (NeverBefore first second items) :=
  inferInstanceAs (Decidable (List.Pairwise _ items))

theorem neverBefore_append {left right : List item} :
    NeverBefore first second (left ++ right) ↔
      NeverBefore first second left ∧ NeverBefore first second right ∧
        (left.any first = true → right.any second = false) := by
  rw [NeverBefore, List.pairwise_append, List.any_eq_true, List.any_eq_false]
  refine and_congr_right fun _ => and_congr_right fun _ => ⟨?_, ?_⟩
  · rintro ordered ⟨earlier, isEarlier, isFirst⟩ later isLater
    rw [ordered earlier isEarlier later isLater isFirst]
    exact Bool.false_ne_true
  · intro ordered earlier isEarlier later isLater isFirst
    exact eq_false_of_ne_true (ordered ⟨earlier, isEarlier, isFirst⟩ later isLater)

theorem neverBefore_of_none_first {items : List item} (none : items.any first = false) :
    NeverBefore first second items := by
  apply List.pairwise_of_forall_mem_list
  intro earlier isEarlier _ _ isFirst
  exact (List.any_eq_false.mp none earlier isEarlier isFirst).elim

theorem neverBefore_of_none_second {items : List item} (none : items.any second = false) :
    NeverBefore first second items := by
  apply List.pairwise_of_forall_mem_list
  intro _ _ later isLater _
  exact eq_false_of_ne_true (List.any_eq_false.mp none later isLater)

/-- Where items of the first kind stand in the middle only, it matters what stands behind them. -/
theorem neverBefore_first_iff {front middle back : List item} (frontFree : front.any first = false)
    (middleFree : middle.any second = false) (backFree : back.any first = false) :
    NeverBefore first second (front ++ middle ++ back) ↔
      (middle.any first = true → back.any second = false) := by
  simp only [neverBefore_append, List.any_append, neverBefore_of_none_first frontFree,
    neverBefore_of_none_second middleFree, neverBefore_of_none_first backFree, frontFree,
    Bool.false_or, true_and, Bool.false_eq_true, false_imp_iff]

/-- Where items of the second kind stand in the middle only, it matters what stands before them. -/
theorem neverBefore_second_iff {front middle back : List item}
    (frontFree : front.any second = false) (middleFree : middle.any first = false)
    (backFree : back.any second = false) :
    NeverBefore first second (front ++ middle ++ back) ↔
      (front.any first = true → middle.any second = false) := by
  simp only [neverBefore_append, List.any_append, neverBefore_of_none_second frontFree,
    neverBefore_of_none_first middleFree, neverBefore_of_none_second backFree, backFree,
    true_and, and_true, implies_true]

/-- Where items of the first kind stand in two places between parts that have none, only what
stands behind each of them matters. -/
theorem neverBefore_interleaved_iff {front released middle restored back ending : List item}
    (frontFree : front.any first = false) (middleFree : middle.any first = false)
    (backFree : back.any first = false) (releasedFree : released.any second = false)
    (restoredFree : restored.any second = false) (endingFree : ending.any second = false) :
    NeverBefore first second (front ++ released ++ middle ++ (restored ++ back) ++ ending) ↔
      (restored.any first = true → back.any second = false) ∧
      (released.any first = true → (middle ++ back).any second = false) := by
  simp only [neverBefore_append, List.any_append, neverBefore_of_none_first frontFree,
    neverBefore_of_none_first middleFree, neverBefore_of_none_first backFree,
    neverBefore_of_none_second releasedFree, neverBefore_of_none_second restoredFree,
    neverBefore_of_none_second endingFree, frontFree, middleFree, releasedFree, restoredFree,
    endingFree, Bool.false_or, Bool.or_false, true_and, and_true, Bool.or_eq_false_iff,
    implies_true]
  tauto

theorem neverBefore_singleton (value : item) : NeverBefore first second [value] :=
  List.pairwise_singleton _ _

variable {step : state → item → Sweep item state} {first' second' : item → Bool}
  {items result : List item} {current last : state}

/-- A sweep keeps an order if it makes the kinds of items that matter only of items of their
kinds. -/
theorem NeverBefore.sweep
    (each : ∀ head ∈ items, ∀ current next finished, step current head = .done finished next →
      (finished.any first' = true → first head = true) ∧
        (finished.any second' = true → second head = true) ∧ NeverBefore first' second' finished)
    (ran : Sweep.run step current items = .done result last)
    (ordered : NeverBefore first second items) :
    NeverBefore first' second' result := by
  suffices both : NeverBefore first' second' result ∧
      (result.any second' = true → items.any second = true) from both.1
  induction items generalizing current result with
  | nil =>
      cases ran
      exact ⟨.nil, id⟩
  | cons head rest ih =>
      rw [List.forall_mem_cons] at each
      obtain ⟨next, finished, remaining, stepped, swept, rfl⟩ := Sweep.run_cons_eq_done ran
      obtain ⟨firsts, seconds, inside⟩ := each.1 _ _ _ stepped
      rw [← List.singleton_append, neverBefore_append] at ordered
      obtain ⟨-, restOrdered, across⟩ := ordered
      obtain ⟨remainingOrdered, restSeconds⟩ := ih each.2 swept restOrdered
      rw [neverBefore_append, List.any_append, List.any_cons]
      refine ⟨⟨inside, remainingOrdered, ?_⟩, ?_⟩
      · intro hasFirst
        have noSecond := across (by simpa using firsts hasFirst)
        by_contra hasSecond
        rw [restSeconds (eq_true_of_ne_false hasSecond)] at noSecond
        contradiction
      · intro hasSecond
        rcases Bool.or_eq_true_iff.mp hasSecond with inFinished | inRemaining
        · rw [seconds inFinished, Bool.true_or]
        · rw [restSeconds inRemaining, Bool.or_true]

/-- Items that are out of order stay so in a sweep that does not drop them. -/
theorem NeverBefore.of_sweep
    (each : ∀ head ∈ items, ∀ current next finished, step current head = .done finished next →
      (first head = true → finished.any first' = true) ∧
        (second head = true → finished.any second' = true))
    (ran : Sweep.run step current items = .done result last)
    (ordered : NeverBefore first' second' result) :
    NeverBefore first second items := by
  suffices both : NeverBefore first second items ∧
      (items.any second = true → result.any second' = true) from both.1
  induction items generalizing current result with
  | nil =>
      cases ran
      exact ⟨.nil, id⟩
  | cons head rest ih =>
      rw [List.forall_mem_cons] at each
      obtain ⟨next, finished, remaining, stepped, swept, rfl⟩ := Sweep.run_cons_eq_done ran
      obtain ⟨firsts, seconds⟩ := each.1 _ _ _ stepped
      rw [neverBefore_append] at ordered
      obtain ⟨-, remainingOrdered, across⟩ := ordered
      obtain ⟨restOrdered, restSeconds⟩ := ih each.2 swept remainingOrdered
      rw [← List.singleton_append, neverBefore_append, List.any_append, List.any_append]
      refine ⟨⟨neverBefore_singleton head, restOrdered, ?_⟩, ?_⟩
      · intro hasFirst
        have noSecond := across (firsts (by simpa using hasFirst))
        by_contra hasSecond
        rw [restSeconds (eq_true_of_ne_false hasSecond)] at noSecond
        contradiction
      · intro hasSecond
        rcases Bool.or_eq_true_iff.mp hasSecond with isHead | inRest
        · rw [seconds (by simpa using isHead), Bool.true_or]
        · rw [restSeconds inRest, Bool.or_true]

end

/-! ## Traced code -/

theorem any_traced (kind : Traced → Bool) (origin : Origin) (instrs : List Instr) :
    (traced origin instrs).any kind = instrs.any fun instr => kind { instr, origin } := by
  rw [traced, List.any_map]
  rfl

theorem any_traced_eq_false {kind : Traced → Bool} {origin : Origin} {instrs : List Instr}
    (none : ∀ instr ∈ instrs, kind { instr, origin } = false) :
    (traced origin instrs).any kind = false := by
  rw [any_traced, List.any_eq_false]
  intro instr member
  rw [none instr member]
  exact Bool.false_ne_true

theorem any_traced_of_forall {kind : Traced → Bool} {origin : Origin} {instrs : List Instr}
    (all : ∀ instr ∈ instrs, kind { instr, origin } = true) :
    (traced origin instrs).any kind = !instrs.isEmpty := by
  cases instrs with
  | nil => rfl
  | cons instr rest =>
      rw [any_traced, List.any_cons, all instr (List.mem_cons_self ..)]
      rfl

theorem lowerTraced_eq_done {options : Options} {frame : Frame} {keeps : Bool}
    {adjustment next : Int64} {item : Traced} {finished : List Traced}
    (stepped : lowerTraced options frame keeps adjustment item = .done finished next) :
    ∃ items, lowerInstr options frame keeps adjustment item.instr = .done items next ∧
      finished = traced item.origin items := by
  cases lowered : lowerInstr options frame keeps adjustment item.instr with
  | mk items outcome =>
      rw [lowerTraced, lowered] at stepped
      cases stepped
      exact ⟨items, rfl, rfl⟩

theorem lowerTraced_of_isPlain {options : Options} {frame : Frame} {keeps : Bool}
    {adjustment next : Int64} {item : Traced} {finished : List Traced}
    (plain : item.instr.isPlain = true)
    (stepped : lowerTraced options frame keeps adjustment item = .done finished next) :
    finished = [item] := by
  obtain ⟨items, lowered, rfl⟩ := lowerTraced_eq_done stepped
  have itself := @run_lowerInstr_of_isPlain options frame keeps adjustment [item.instr]
    (by simpa using plain)
  rw [Sweep.run_cons_ok lowered] at itself
  have itemsEq : items = [item.instr] := by
    simpa [Sweep.prepend, Sweep.done] using congrArg Sweep.items itself
  rw [itemsEq]
  rfl

/-- What the sweep makes of an instruction of a kind that only lowering inserts. -/
theorem any_of_lowerTraced_inserted {options : Options} {frame : Frame} {keeps : Bool}
    {adjustment next : Int64} {item : Traced} {finished : List Traced} {kind : Traced → Bool}
    (inserted : ∀ instr, kind { instr, origin := .body } = false)
    (plain : item.origin ≠ .body → item.instr.isPlain = true)
    (stepped : lowerTraced options frame keeps adjustment item = .done finished next) :
    finished.any kind = kind item := by
  obtain ⟨instr, origin⟩ := item
  by_cases own : origin = .body
  · subst own
    obtain ⟨items, -, rfl⟩ := lowerTraced_eq_done stepped
    rw [any_traced, inserted, List.any_eq_false]
    intro made _
    rw [inserted]
    exact Bool.false_ne_true
  · rw [lowerTraced_of_isPlain (plain own) stepped, List.any_cons, List.any_nil, Bool.or_false]

end MachineCode
