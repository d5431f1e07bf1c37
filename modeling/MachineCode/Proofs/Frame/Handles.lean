import MachineCode.Proofs.Frame.Hooks
import Mathlib.Data.List.Basic

/-!
# Frame indices are stable

Ordinary and fixed objects lie in two rows that grow independently, and one signed index tells both
the row and the place in it. An index that a creation has given out keeps its meaning while further
objects are created, no other index has one, and the slot for the caller's frame pointer, which is
created last, comes below all of them. Up to 2^31 objects of each kind have indices.
-/

namespace MachineCode

/-- A request for a frame object. -/
structure Creation where
  isFixed : Bool
  object : FrameObject
  deriving DecidableEq, Repr

/-- The number of objects of one kind that creations ask for. -/
def requested (isFixed : Bool) (creations : List Creation) : Nat :=
  creations.countP fun creation => creation.isFixed == isFixed

namespace Frame

def create (frame : Frame) (creation : Creation) : FrameIndex × Frame :=
  if creation.isFixed then frame.addFixedObject creation.object
  else frame.addObject creation.object

def createAll (frame : Frame) : List Creation → Frame
  | [] => frame
  | creation :: rest => (frame.create creation).2.createAll rest

/-- The indices that creations give out, each with the request for its object. -/
def handles (frame : Frame) : List Creation → List (FrameIndex × Creation)
  | [] => []
  | creation :: rest =>
      ((frame.create creation).1, creation) :: (frame.create creation).2.handles rest

/-- What the indices that have been given out mean: each of them is one object, the one that was
asked for, all other indices are unknown, and the lowest index is the one that the frame reports. -/
structure Resolves (frame : Frame) (handles : List (FrameIndex × Creation)) : Prop where
  distinct : (handles.map Prod.fst).Nodup
  negative_iff : ∀ handle ∈ handles, handle.1 < 0 ↔ handle.2.isFixed = true
  found : ∀ handle ∈ handles, frame.object handle.1 = .ok handle.2.object
  unknown : ∀ index ∉ handles.map Prod.fst,
    frame.object index = .error (.unknownFrameIndex index)
  lowest_le : ∀ handle ∈ handles, frame.lowestIndex ≤ handle.1
  lowest_mem : handles ≠ [] → frame.lowestIndex ∈ handles.map Prod.fst

/-! ## Rows of objects -/

/-- The objects of one kind, in the order of their creation. -/
def row (frame : Frame) (isFixed : Bool) : List FrameObject :=
  if isFixed then frame.fixedObjects else frame.objects

/-- The index of the object of one kind at a position. -/
def indexAt (isFixed : Bool) (position : Nat) : FrameIndex :=
  if isFixed then fixedIndex position else objectIndex position

/-- There are no more objects of either kind than there are indices. -/
def IsSmall (frame : Frame) : Prop :=
  ∀ isFixed, (frame.row isFixed).length ≤ 2147483648

theorem toInt_objectIndex {position : Nat} (inRange : position < 2147483648) :
    (objectIndex position).toInt = position :=
  Int32.toInt_ofNat_of_lt inRange

theorem toInt_fixedIndex {position : Nat} (inRange : position < 2147483648) :
    (fixedIndex position).toInt = -(position + 1) := by
  have asInt : fixedIndex position = .ofInt (-((position + 1 : Nat) : Int)) := by
    rw [fixedIndex, Int32.ofInt_neg, Int32.ofInt_eq_ofNat]
  rw [asInt, Int32.toInt_ofInt_of_le (by omega) (by omega)]
  omega

theorem indexAt_neg_iff {isFixed : Bool} {position : Nat} (inRange : position < 2147483648) :
    indexAt isFixed position < 0 ↔ isFixed = true := by
  rw [Int32.lt_iff_toInt_lt, Int32.toInt_zero]
  cases isFixed with
  | true =>
      rw [indexAt, if_pos rfl, toInt_fixedIndex inRange]
      exact iff_of_true (by omega) rfl
  | false =>
      rw [indexAt, if_neg Bool.false_ne_true, toInt_objectIndex inRange]
      exact iff_of_false (by omega) Bool.false_ne_true

/-- An index finds the object of its kind at its position. -/
theorem object?_indexAt (frame : Frame) (isFixed : Bool) {position : Nat}
    (inRange : position < 2147483648) :
    frame.object? (indexAt isFixed position) = (frame.row isFixed)[position]? := by
  have kind : FrameIndex.isFixed (indexAt isFixed position) = isFixed := by
    rw [FrameIndex.isFixed, Bool.eq_iff_iff, decide_eq_true_eq]
    exact indexAt_neg_iff inRange
  rw [object?, kind]
  cases isFixed with
  | true =>
      rw [if_pos rfl, indexAt, if_pos rfl, toInt_fixedIndex inRange]
      congr 1
      omega
  | false =>
      rw [if_neg Bool.false_ne_true, indexAt, if_neg Bool.false_ne_true, toInt_objectIndex inRange]
      rfl

/-- Every index is the index of some position. -/
theorem exists_indexAt (index : FrameIndex) :
    ∃ isFixed position, position < 2147483648 ∧ indexAt isFixed position = index := by
  have lower := index.le_toInt
  have upper := index.toInt_lt
  by_cases negative : index.toInt < 0
  · have inRange : (-index.toInt - 1).toNat < 2147483648 := by omega
    refine ⟨true, _, inRange, Int32.toInt_inj.mp ?_⟩
    rw [indexAt, if_pos rfl, toInt_fixedIndex inRange]
    omega
  · have inRange : index.toInt.toNat < 2147483648 := by omega
    refine ⟨false, _, inRange, Int32.toInt_inj.mp ?_⟩
    rw [indexAt, if_neg Bool.false_ne_true, toInt_objectIndex inRange]
    omega

theorem object_eq_ok_iff {frame : Frame} {index : FrameIndex} {object : FrameObject} :
    frame.object index = .ok object ↔ frame.object? index = some object := by
  unfold Frame.object
  cases frame.object? index with
  | none => simp
  | some found => simp

theorem object_eq_error_iff {frame : Frame} {index : FrameIndex} :
    frame.object index = .error (.unknownFrameIndex index) ↔ frame.object? index = none := by
  unfold Frame.object
  cases frame.object? index with
  | none => simp
  | some found => simp

theorem indexAt_inj {isFixed other : Bool} {position place : Nat}
    (inRange : position < 2147483648) (placeInRange : place < 2147483648)
    (same : indexAt isFixed position = indexAt other place) :
    isFixed = other ∧ position = place := by
  have sameKind : isFixed = other := by
    rw [Bool.eq_iff_iff, ← indexAt_neg_iff inRange, ← indexAt_neg_iff placeInRange, same]
  subst sameKind
  refine ⟨rfl, ?_⟩
  have sameInt := congrArg Int32.toInt same
  cases isFixed with
  | true =>
      simp only [indexAt, if_true, toInt_fixedIndex inRange, toInt_fixedIndex placeInRange]
        at sameInt
      omega
  | false =>
      simp only [indexAt, Bool.false_eq_true, if_false, toInt_objectIndex inRange,
        toInt_objectIndex placeInRange] at sameInt
      omega

/-! ## The lowest index -/

theorem toInt_lowestIndex {frame : Frame} (small : frame.IsSmall) :
    frame.lowestIndex.toInt = -(frame.fixedObjects.length : Int) := by
  have bound : frame.fixedObjects.length ≤ 2147483648 := small true
  rw [lowestIndex]
  cases count : frame.fixedObjects.length with
  | zero => rfl
  | succ last =>
      rw [← fixedIndex, toInt_fixedIndex (by omega)]
      omega

theorem lowestIndex_le {frame : Frame} (small : frame.IsSmall) {index : FrameIndex}
    {object : FrameObject} (found : frame.object? index = some object) :
    frame.lowestIndex ≤ index := by
  obtain ⟨isFixed, position, inRange, rfl⟩ := exists_indexAt index
  rw [object?_indexAt frame isFixed inRange] at found
  have inRow := (List.getElem?_eq_some_iff.mp found).1
  rw [Int32.le_iff_toInt_le, toInt_lowestIndex small]
  cases isFixed with
  | true =>
      change position < frame.fixedObjects.length at inRow
      rw [indexAt, if_pos rfl, toInt_fixedIndex inRange]
      omega
  | false =>
      rw [indexAt, if_neg Bool.false_ne_true, toInt_objectIndex inRange]
      omega

/-- A frame that has objects has one at its lowest index. -/
theorem exists_object?_lowestIndex {frame : Frame} (small : frame.IsSmall) {index : FrameIndex}
    {object : FrameObject} (found : frame.object? index = some object) :
    ∃ lowest, frame.object? frame.lowestIndex = some lowest := by
  obtain ⟨isFixed, position, inRange, rfl⟩ := exists_indexAt index
  rw [object?_indexAt frame isFixed inRange] at found
  have inRow := (List.getElem?_eq_some_iff.mp found).1
  have bound : frame.fixedObjects.length ≤ 2147483648 := small true
  cases count : frame.fixedObjects.length with
  | zero =>
      cases isFixed with
      | true =>
          change position < frame.fixedObjects.length at inRow
          omega
      | false =>
          have isZero : frame.lowestIndex = indexAt false 0 := by
            rw [lowestIndex, count]
            rfl
          rw [isZero, object?_indexAt frame false (by decide)]
          exact ⟨_, List.getElem?_eq_getElem (Nat.zero_lt_of_lt inRow)⟩
  | succ last =>
      have isLast : frame.lowestIndex = indexAt true last := by
        rw [lowestIndex, count]
        rfl
      have inFixed : last < (frame.row true).length := by
        change last < frame.fixedObjects.length
        omega
      rw [isLast, object?_indexAt frame true (by omega)]
      exact ⟨_, List.getElem?_eq_getElem inFixed⟩

/-! ## Creations -/

theorem create_fst (frame : Frame) (creation : Creation) :
    (frame.create creation).1 =
      indexAt creation.isFixed (frame.row creation.isFixed).length := by
  unfold create indexAt row
  split <;> rfl

theorem row_create (frame : Frame) (creation : Creation) (isFixed : Bool) :
    (frame.create creation).2.row isFixed =
      if isFixed = creation.isFixed then frame.row isFixed ++ [creation.object]
      else frame.row isFixed := by
  obtain ⟨createsFixed, object⟩ := creation
  cases isFixed <;> cases createsFixed <;> rfl

/-- A creation gives a meaning to the index that it returns and changes no other. -/
theorem object?_create {frame : Frame} {creation : Creation}
    (room : (frame.row creation.isFixed).length < 2147483648) (index : FrameIndex) :
    (frame.create creation).2.object? index =
      if index = (frame.create creation).1 then some creation.object else frame.object? index := by
  obtain ⟨isFixed, position, inRange, rfl⟩ := exists_indexAt index
  rw [create_fst, object?_indexAt _ _ inRange, object?_indexAt _ _ inRange, row_create]
  by_cases sameKind : isFixed = creation.isFixed
  · subst sameKind
    rw [if_pos rfl]
    by_cases isNew : position = (frame.row creation.isFixed).length
    · rw [if_pos (congrArg _ isNew), isNew, List.getElem?_concat_length]
    · have different : indexAt creation.isFixed position ≠
          indexAt creation.isFixed (frame.row creation.isFixed).length :=
        fun same => isNew (indexAt_inj inRange room same).2
      rw [if_neg different]
      rcases Nat.lt_or_gt_of_ne isNew with inside | outside
      · exact List.getElem?_append_left inside
      · rw [List.getElem?_eq_none (Nat.le_of_lt outside)]
        exact List.getElem?_eq_none (by rw [List.length_append]; exact outside)
  · have different : indexAt isFixed position ≠
        indexAt creation.isFixed (frame.row creation.isFixed).length :=
      fun same => sameKind (indexAt_inj inRange room same).1
    rw [if_neg sameKind, if_neg different]

/-- The index that a creation returns had no meaning before. -/
theorem object?_create_fst {frame : Frame} {creation : Creation}
    (room : (frame.row creation.isFixed).length < 2147483648) :
    frame.object? (frame.create creation).1 = none := by
  rw [create_fst, object?_indexAt _ _ room]
  exact List.getElem?_eq_none (Nat.le_refl _)

theorem IsSmall.create {frame : Frame} (small : frame.IsSmall) {creation : Creation}
    (room : (frame.row creation.isFixed).length < 2147483648) :
    (frame.create creation).2.IsSmall := by
  intro isFixed
  rw [row_create]
  split
  next same =>
    rw [List.length_append, same]
    exact room
  next => exact small isFixed

/-- A creation adds one meaning. -/
theorem Resolves.create {frame : Frame} {handles : List (FrameIndex × Creation)}
    (resolves : frame.Resolves handles) (small : frame.IsSmall) {creation : Creation}
    (room : (frame.row creation.isFixed).length < 2147483648) :
    (frame.create creation).2.Resolves (handles ++ [((frame.create creation).1, creation)]) := by
  have isNew : ∀ handle ∈ handles, handle.1 ≠ (frame.create creation).1 := by
    intro handle member same
    have known := object_eq_ok_iff.mp (resolves.found handle member)
    rw [same, object?_create_fst room] at known
    contradiction
  have found : ∀ handle ∈ handles ++ [((frame.create creation).1, creation)],
      (frame.create creation).2.object? handle.1 = some handle.2.object := by
    intro handle member
    rw [object?_create room]
    rcases List.mem_append.mp member with old | new
    · rw [if_neg (isNew handle old)]
      exact object_eq_ok_iff.mp (resolves.found handle old)
    · cases List.mem_singleton.mp new
      exact if_pos rfl
  have unknown : ∀ index ∉ (handles ++ [((frame.create creation).1, creation)]).map Prod.fst,
      (frame.create creation).2.object? index = none := by
    intro index notGiven
    rw [List.map_append, List.mem_append, not_or, List.map_singleton, List.mem_singleton]
      at notGiven
    rw [object?_create room, if_neg notGiven.2]
    exact object_eq_error_iff.mp (resolves.unknown index notGiven.1)
  have smaller := small.create room
  exact {
    distinct := by
      rw [List.map_append, List.map_singleton, List.nodup_append]
      refine ⟨resolves.distinct, List.pairwise_singleton _ _, ?_⟩
      intro index given new isLast
      obtain ⟨handle, member, rfl⟩ := List.mem_map.mp given
      rw [List.mem_singleton.mp isLast]
      exact isNew handle member
    negative_iff := by
      intro handle member
      rcases List.mem_append.mp member with old | new
      · exact resolves.negative_iff handle old
      · cases List.mem_singleton.mp new
        rw [create_fst]
        exact indexAt_neg_iff room
    found := fun handle member => object_eq_ok_iff.mpr (found handle member)
    unknown := fun index notGiven => object_eq_error_iff.mpr (unknown index notGiven)
    lowest_le := fun handle member => lowestIndex_le smaller (found handle member)
    lowest_mem := by
      intro _
      obtain ⟨lowest, lowestFound⟩ := exists_object?_lowestIndex smaller
        (found _ (List.mem_append_right handles (List.mem_singleton_self _)))
      by_contra notGiven
      rw [unknown _ notGiven] at lowestFound
      contradiction }

/-- Nothing has been given out by a frame without objects. -/
theorem Resolves.of_bare {frame : Frame} (noObjects : frame.objects = [])
    (noFixedObjects : frame.fixedObjects = []) : frame.Resolves [] where
  distinct := List.nodup_nil
  negative_iff := nofun
  found := nofun
  unknown index _ := by
    rw [object_eq_error_iff, object?, noObjects, noFixedObjects, List.getElem?_nil,
      List.getElem?_nil, ite_self]
  lowest_le := nofun
  lowest_mem nonempty := absurd rfl nonempty

theorem handles_append (frame : Frame) (first second : List Creation) :
    frame.handles (first ++ second) =
      frame.handles first ++ (frame.createAll first).handles second := by
  induction first generalizing frame with
  | nil => rfl
  | cons creation rest ih => exact congrArg (_ :: ·) (ih _)

theorem length_row_createAll (frame : Frame) (creations : List Creation) (isFixed : Bool) :
    ((frame.createAll creations).row isFixed).length =
      (frame.row isFixed).length + requested isFixed creations := by
  induction creations generalizing frame with
  | nil => rfl
  | cons creation rest ih =>
      rw [createAll, ih, row_create, requested, requested, List.countP_cons]
      by_cases same : isFixed = creation.isFixed
      · rw [if_pos same, if_pos (beq_iff_eq.mpr same.symm), List.length_append,
          List.length_singleton]
        omega
      · rw [if_neg same, if_neg fun equal => same (beq_iff_eq.mp equal).symm]
        rfl

/-- Creations add one meaning each. -/
theorem Resolves.createAll {frame : Frame} {handles : List (FrameIndex × Creation)}
    (resolves : frame.Resolves handles) {creations : List Creation}
    (room : (frame.createAll creations).IsSmall) :
    (frame.createAll creations).Resolves (handles ++ frame.handles creations) := by
  induction creations generalizing frame handles with
  | nil => rwa [Frame.handles, List.append_nil]
  | cons creation rest ih =>
      have small : frame.IsSmall := by
        intro isFixed
        have bound := room isFixed
        rw [length_row_createAll] at bound
        omega
      have fits : (frame.row creation.isFixed).length < 2147483648 := by
        have bound := room creation.isFixed
        rw [length_row_createAll, requested, List.countP_cons, if_pos (beq_self_eq_true _)] at bound
        omega
      rw [Frame.handles, List.append_cons]
      exact ih (resolves.create small fits) room

/-- A new fixed object gets the lowest index. -/
theorem Resolves.addFixedObject {frame : Frame} {handles : List (FrameIndex × Creation)}
    (resolves : frame.Resolves handles) (small : frame.IsSmall)
    (room : frame.fixedObjects.length < 2147483648) (object : FrameObject) :
    (frame.addFixedObject object).2.Resolves
      (handles ++ [((frame.addFixedObject object).2.lowestIndex, ⟨true, object⟩)]) := by
  rw [← frame.addFixedObject_fst]
  exact @Resolves.create frame handles resolves small ⟨true, object⟩ room

/-- What indices mean does not depend on the decision about the frame pointer. -/
theorem Resolves.decideFramePointer {frame : Frame} {handles : List (FrameIndex × Creation)}
    (resolves : frame.Resolves handles) (options : Options) :
    (frame.decideFramePointer options).Resolves handles :=
  ⟨resolves.distinct, resolves.negative_iff, resolves.found, resolves.unknown, resolves.lowest_le,
    resolves.lowest_mem⟩

end Frame

/-- A frame without objects gives out indices, and at every point of the creations these and no
others have their meanings. The slot for the caller's frame pointer, if there is one, then gets the
lowest index, and all other indices keep their meanings. -/
theorem frameIndices_stable {function : Function} (noObjects : function.frame.objects = [])
    (noFixedObjects : function.frame.fixedObjects = []) {creations : List Creation}
    (few : ∀ isFixed, requested isFixed creations < 2147483648) (options : Options) :
    (∀ earlier later, earlier ++ later = creations →
      (function.frame.createAll earlier).Resolves (function.frame.handles earlier) ∧
        function.frame.handles earlier <+: function.frame.handles creations) ∧
    ∃ final,
      (addFramePointerSlot options).run
          { function with frame := function.frame.createAll creations } = .ok () final ∧
        final.frame.Resolves (function.frame.handles creations ++
          if (function.frame.createAll creations).hasFramePointer options then
            [(final.frame.lowestIndex, ⟨true, framePointerSlot⟩)]
          else []) := by
  have bare : ∀ isFixed, function.frame.row isFixed = [] := by
    intro isFixed
    cases isFixed with
    | true => exact noFixedObjects
    | false => exact noObjects
  have initially := Frame.Resolves.of_bare noObjects noFixedObjects
  have counted (made : List Creation) (isFixed : Bool) :
      ((function.frame.createAll made).row isFixed).length = requested isFixed made := by
    rw [Frame.length_row_createAll, bare, List.length_nil, Nat.zero_add]
  have resolvesAt (earlier later : List Creation) (whole : earlier ++ later = creations) :
      (function.frame.createAll earlier).Resolves (function.frame.handles earlier) := by
    refine initially.createAll fun isFixed => ?_
    have bound := few isFixed
    rw [← whole, requested, List.countP_append] at bound
    rw [counted, requested]
    omega
  refine ⟨fun earlier later whole => ⟨resolvesAt earlier later whole, ?_⟩, ?_⟩
  · rw [← whole, Frame.handles_append]
    exact List.prefix_append _ _
  · refine ⟨_, run_addFramePointerSlot options _, ?_⟩
    have decided := (resolvesAt creations [] (List.append_nil _)).decideFramePointer options
    have room (isFixed : Bool) :
        ((function.frame.createAll creations).row isFixed).length < 2147483648 := by
      rw [counted]
      exact few isFixed
    have small : ((function.frame.createAll creations).decideFramePointer options).IsSmall :=
      fun isFixed => Nat.le_of_lt (room isFixed)
    cases (function.frame.createAll creations).hasFramePointer options with
    | false =>
        rw [if_neg Bool.false_ne_true, if_neg Bool.false_ne_true, List.append_nil]
        exact decided
    | true =>
        rw [if_pos rfl, if_pos rfl]
        exact decided.addFixedObject small (room true) framePointerSlot

/-- A function that keeps a frame pointer because its address escapes. -/
def escaping : Function where
  name := "escaping"
  frame := { isAddressTaken := true }

/-- Creations of both kinds in turn. -/
def interleaved : List Creation :=
  [⟨true, ⟨2, 0⟩⟩, ⟨false, ⟨4, -8⟩⟩, ⟨true, ⟨2, 2⟩⟩, ⟨false, ⟨2, -8⟩⟩]

def interleavedHandles : List (FrameIndex × Creation) :=
  [(-1, ⟨true, ⟨2, 0⟩⟩), (0, ⟨false, ⟨4, -8⟩⟩), (-2, ⟨true, ⟨2, 2⟩⟩), (1, ⟨false, ⟨2, -8⟩⟩)]

theorem frameIndices_stable_interleaved :
    (∀ isFixed, requested isFixed interleaved < 2147483648) ∧
      escaping.frame.handles interleaved = interleavedHandles ∧
      (escaping.frame.createAll interleaved).Resolves interleavedHandles ∧
      ∃ final,
        (addFramePointerSlot {}).run
            { escaping with frame := escaping.frame.createAll interleaved } = .ok () final ∧
          final.frame.Resolves (interleavedHandles ++ [(-3, ⟨true, framePointerSlot⟩)]) := by
  have few : ∀ isFixed, requested isFixed interleaved < 2147483648 := by decide
  obtain ⟨resolves, final, ran, slotted⟩ :=
    @frameIndices_stable escaping rfl rfl interleaved few {}
  refine ⟨few, by decide, ?_, final, ran, ?_⟩
  · exact (resolves interleaved [] (List.append_nil _)).1
  · cases ran
    exact slotted

end MachineCode
