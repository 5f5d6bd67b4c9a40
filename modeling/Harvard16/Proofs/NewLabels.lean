import Harvard16.Assembly.Labels
import Mathlib.Data.List.Induction
import Mathlib.Data.List.Nodup

/-! The labels of a source. The table holds the first definition of each name, in the order of the lines
that define them. So every line with a label either adds it to the table or is in error, and a label
that was defined before is always one of an earlier line. -/
namespace Harvard16.Assembly

theorem LabelTable.toList_foldl_define {definitions : List Label} (distinct : definitions.Nodup) :
    (definitions.foldl LabelTable.define .empty).toList =
      definitions.filter fun label => definitions.find? (·.name == label.name) = some label := by
  -- From the end: whether a definition is new depends on those before it.
  induction definitions using List.reverseRecOn with
  | nil => rfl
  | append_singleton definitions last ih =>
    rw [← List.concat_eq_append, List.nodup_concat] at distinct
    obtain ⟨new, earlier⟩ := distinct
    have found (name : String) :
        (definitions.foldl LabelTable.define .empty).lookup? name =
          definitions.find? (·.name == name) := by
      rw [lookup?_foldl_define, lookup?_eq_find?]
      rfl
    have kept : (definitions.filter fun label =>
        (definitions ++ [last]).find? (·.name == label.name) = some label) =
          definitions.filter fun label => definitions.find? (·.name == label.name) = some label := by
      apply List.filter_congr
      intro label member
      have some : (definitions.find? (·.name == label.name)).isSome = true :=
        List.find?_isSome.2 ⟨label, member, by simp⟩
      rw [List.find?_append, Option.or_of_isSome some]
    rw [List.foldl_append, List.foldl_cons, List.foldl_nil, toList_define, found, ih earlier,
      List.filter_append, kept, List.filter_singleton, List.find?_append]
    cases taken : definitions.find? (·.name == last.name) with
    | none => simp
    | some first =>
      have other : first ≠ last := by
        rintro rfl
        exact new (List.mem_of_find?_eq_some taken)
      simp [other]

namespace PlacedLine

theorem definition?_eq_some {placed : PlacedLine} {label : Label} :
    placed.definition? = some label ↔
      ∃ name, placed.line.label = some name ∧ isLabelName name = true ∧
        placed.address < addressSpace ∧
        label = ⟨String.ofList name, placed.address, placed.line.number⟩ := by
  constructor
  · intro defined
    obtain ⟨name, named, rest⟩ := Option.bind_eq_some_iff.1 defined
    split at rest
    · rename_i valid
      cases rest
      exact ⟨name, named, valid.1, valid.2, rfl⟩
    · cases rest
  · rintro ⟨name, named, wellFormed, word, rfl⟩
    simp [definition?, named, wellFormed, word]

/-- The label that a line adds to the table. -/
def newLabel? (labels : LabelTable) (placed : PlacedLine) : Option Label :=
  placed.definition?.filter fun label => labels.lookup? label.name = some label

theorem exists_of_newLabel? {labels : LabelTable} {placed : PlacedLine} {label : Label}
    (h : placed.newLabel? labels = some label) :
    ∃ name, placed.line.label = some name ∧ isLabelName name = true ∧
      placed.address < addressSpace ∧
      label = ⟨String.ofList name, placed.address, placed.line.number⟩ :=
  definition?_eq_some.1 (Option.filter_eq_some_iff.1 h).1

theorem silent_of_label_eq_none {placed : PlacedLine} (h : placed.line.label = none) (labels : LabelTable) :
    placed.newLabel? labels = none ∧ placed.labelCause? labels = none := by
  simp [newLabel?, definition?, labelCause?, h]

end PlacedLine

variable {lines : List PlacedLine}

theorem ordered_definitions (ordered : lines.Pairwise (·.line.number < ·.line.number)) :
    (lines.filterMap (·.definition?)).Pairwise (·.line < ·.line) := by
  refine List.pairwise_filterMap.2 (ordered.imp ?_)
  intro a b before label defined later definedLater
  obtain ⟨_, _, _, _, rfl⟩ := PlacedLine.definition?_eq_some.1 defined
  obtain ⟨_, _, _, _, rfl⟩ := PlacedLine.definition?_eq_some.1 definedLater
  exact before

theorem distinct_definitions (ordered : lines.Pairwise (·.line.number < ·.line.number)) :
    (lines.filterMap (·.definition?)).Nodup :=
  (ordered_definitions ordered).imp fun before same => Nat.ne_of_lt before (congrArg Label.line same)

theorem toList_collectLabels (ordered : lines.Pairwise (·.line.number < ·.line.number)) :
    (collectLabels lines).toList = lines.filterMap (·.newLabel? (collectLabels lines)) := by
  have distinct := distinct_definitions ordered
  simp only [PlacedLine.newLabel?, lookup?_collectLabels]
  rw [collectLabels, LabelTable.toList_foldl_define distinct, List.filter_filterMap]

theorem distinct_names (ordered : lines.Pairwise (·.line.number < ·.line.number)) :
    ((collectLabels lines).toList.map (·.name)).Nodup := by
  have distinct := distinct_definitions ordered
  rw [collectLabels, LabelTable.toList_foldl_define distinct]
  apply List.Nodup.map_on _ (distinct.filter _)
  intro a memberA b memberB same
  have firstA := of_decide_eq_true (List.mem_filter.1 memberA).2
  have firstB := of_decide_eq_true (List.mem_filter.1 memberB).2
  rw [same] at firstA
  exact Option.some_inj.1 (firstA.symm.trans firstB)

theorem lookup?_of_definition {placed : PlacedLine} (member : placed ∈ lines) {label : Label}
    (defined : placed.definition? = some label) :
    ∃ first, (collectLabels lines).lookup? label.name = some first := by
  have listed : label ∈ lines.filterMap (·.definition?) := List.mem_filterMap.2 ⟨placed, member, defined⟩
  rw [lookup?_collectLabels]
  exact Option.isSome_iff_exists.1 (List.find?_isSome.2 ⟨label, listed, by simp⟩)

/-- The name of a definition stands for that definition or for one on an earlier line. -/
theorem exists_first_definition (ordered : lines.Pairwise (·.line.number < ·.line.number))
    {placed : PlacedLine} (member : placed ∈ lines) {label : Label}
    (defined : placed.definition? = some label) :
    ∃ first ∈ (collectLabels lines).toList,
      first.name = label.name ∧ (collectLabels lines).lookup? label.name = some first ∧
        (first = label ∨ first.line < label.line) := by
  have listed : label ∈ lines.filterMap (·.definition?) := List.mem_filterMap.2 ⟨placed, member, defined⟩
  obtain ⟨first, lookup⟩ := lookup?_of_definition member defined
  have found := (lookup?_collectLabels lines label.name).symm.trans lookup
  obtain ⟨named, earlier, later, whole, others⟩ := List.find?_eq_some_iff_append.1 found
  have held : first ∈ (collectLabels lines).toList := by
    rw [LabelTable.lookup?_eq_find?] at lookup
    exact List.mem_of_find?_eq_some lookup
  refine ⟨first, held, by simpa using named, lookup, ?_⟩
  -- No definition before the first has the name, and those behind it are on later lines.
  have sorted := ordered_definitions ordered
  rw [whole] at listed sorted
  rcases List.mem_append.1 listed with before | here
  · simpa using others label before
  · rcases List.mem_cons.1 here with same | behind
    · exact .inl same.symm
    · exact .inr ((List.pairwise_cons.1 (List.pairwise_append.1 sorted).2.1).1 label behind)

theorem newLabel?_isSome (ordered : lines.Pairwise (·.line.number < ·.line.number)) {placed : PlacedLine}
    (member : placed ∈ lines) {name : List Char} (named : placed.line.label = some name) :
    (placed.newLabel? (collectLabels lines)).isSome =
      (placed.labelCause? (collectLabels lines)).isNone := by
  by_cases valid : isLabelName name = true ∧ placed.address < addressSpace
  · obtain ⟨wellFormed, room⟩ := valid
    have defined := PlacedLine.definition?_eq_some.2 ⟨name, named, wellFormed, room, rfl⟩
    obtain ⟨first, -, -, found, own | earlier⟩ := exists_first_definition ordered member defined
    · simp [PlacedLine.newLabel?, PlacedLine.labelCause?, defined, named, found, own, wellFormed, room]
    · have other : first ≠ ⟨String.ofList name, placed.address, placed.line.number⟩ := by
        rintro rfl
        exact Nat.lt_irrefl _ earlier
      simp [PlacedLine.newLabel?, PlacedLine.labelCause?, defined, named, found, other, Nat.ne_of_lt earlier,
        wellFormed, Nat.not_le.2 room]
  · have undefined : placed.definition? = none := by simp [PlacedLine.definition?, named, valid]
    simp only [PlacedLine.newLabel?, undefined, PlacedLine.labelCause?, named, Option.bind_some]
    by_cases wellFormed : isLabelName name = true
    · have beyond : addressSpace ≤ placed.address := Nat.not_lt.1 fun room => valid ⟨wellFormed, room⟩
      simp [wellFormed, beyond]
    · simp [wellFormed]

end Harvard16.Assembly
