import Harvard16.Assembly.Error
import Harvard16.Assembly.Line
import Std.Data.ExtTreeMap.Lemmas

/-! Labels. A label stands for the address of the line that defines it, which must be a word. The first
definition of a name wins, and a later one is an error that leaves the table as it is. The
table lists the labels in the order of their definitions, each name once. -/
namespace Harvard16.Assembly

structure Label where
  name : String
  address : Nat
  line : Nat
  deriving DecidableEq, Repr

/-- Letters, digits, `_` and `.`, and no digit first; ASCII only. -/
def isLabelName : List Char → Bool
  | [] => false
  | c :: cs => starts c && cs.all fun c => starts c || c.isDigit
where
  starts (c : Char) : Bool := c.isAlpha || c == '_' || c == '.'

/-- Labels in the order of their definitions, with an index by name. The index holds nothing that
the list does not say, so two tables with the same labels are the same. -/
structure LabelTable where
  latestFirst : List Label
  byName : Std.ExtTreeMap String Label
  getElem?_byName : ∀ name, byName[name]? = latestFirst.reverse.find? (·.name == name)

namespace LabelTable

def empty : LabelTable := ⟨[], ∅, by simp⟩

def toList (table : LabelTable) : List Label := table.latestFirst.reverse

def lookup? (table : LabelTable) (name : String) : Option Label := table.byName[name]?

theorem lookup?_eq_find? (table : LabelTable) (name : String) :
    table.lookup? name = table.toList.find? (·.name == name) := table.getElem?_byName name

theorem eq_of_toList_eq {a b : LabelTable} (h : a.toList = b.toList) : a = b := by
  have index : a.byName = b.byName := Std.ExtTreeMap.ext_getElem? fun name => by
    rw [a.getElem?_byName, b.getElem?_byName]
    exact congrArg _ h
  cases a
  cases b
  cases index
  cases List.reverse_inj.1 h
  rfl

instance : DecidableEq LabelTable := fun a b =>
  decidable_of_iff (a.toList = b.toList) ⟨eq_of_toList_eq, congrArg toList⟩

instance : Repr LabelTable := ⟨fun table => reprPrec table.toList⟩

def define (table : LabelTable) (label : Label) : LabelTable :=
  if fresh : table.lookup? label.name = none then
    { latestFirst := label :: table.latestFirst
      byName := table.byName.insert label.name label
      getElem?_byName := by
        intro name
        rw [Std.ExtTreeMap.getElem?_insert, List.reverse_cons, List.find?_append,
          ← table.getElem?_byName, List.find?_singleton]
        by_cases h : label.name = name
        · subst h
          rw [show table.byName[label.name]? = none from fresh]
          simp
        · simp [h] }
  else table

theorem toList_define (table : LabelTable) (label : Label) :
    (table.define label).toList =
      if table.lookup? label.name = none then table.toList ++ [label] else table.toList := by
  unfold define
  split
  · simp [toList]
  · rfl

theorem lookup?_define (table : LabelTable) (label : Label) (name : String) :
    (table.define label).lookup? name =
      (table.lookup? name).or (if label.name = name then some label else none) := by
  rw [lookup?_eq_find?, toList_define, lookup?_eq_find? table name]
  split
  · simp [List.find?_append, List.find?_singleton]
  · rename_i taken
    by_cases h : label.name = name
    · subst h
      obtain ⟨_, found⟩ := Option.ne_none_iff_exists'.1 taken
      rw [← lookup?_eq_find?]
      simp [found]
    · simp [h]

theorem lookup?_foldl_define (definitions : List Label) (table : LabelTable) (name : String) :
    (definitions.foldl define table).lookup? name =
      (table.lookup? name).or (definitions.find? (·.name == name)) := by
  induction definitions generalizing table with
  | nil => simp
  | cons label definitions ih =>
    rw [List.foldl_cons, ih, lookup?_define, Option.or_assoc, List.find?_cons]
    by_cases h : label.name = name
    · simp [h]
    · have differs : (label.name == name) = false := by simpa using h
      simp [h, differs]

end LabelTable

def PlacedLine.definition? (placed : PlacedLine) : Option Label :=
  placed.line.label.bind fun name =>
    if isLabelName name ∧ placed.address < addressSpace then
      some ⟨String.ofList name, placed.address, placed.line.number⟩
    else none

def collectLabels (lines : List PlacedLine) : LabelTable :=
  (lines.filterMap (·.definition?)).foldl LabelTable.define .empty

theorem lookup?_collectLabels (lines : List PlacedLine) (name : String) :
    (collectLabels lines).lookup? name =
      (lines.filterMap (·.definition?)).find? (·.name == name) := by
  rw [collectLabels, LabelTable.lookup?_foldl_define, LabelTable.lookup?_eq_find?]
  simp [LabelTable.toList, LabelTable.empty]

/-- What is wrong with the label of a line, given the labels of the whole source. -/
def PlacedLine.labelCause? (labels : LabelTable) (placed : PlacedLine) : Option Cause :=
  placed.line.label.bind fun name =>
    if !isLabelName name then some (.invalidLabel (String.ofList name))
    else if addressSpace ≤ placed.address then some .programTooLarge
    else
      match labels.lookup? (String.ofList name) with
      | some first =>
        if first.line = placed.line.number then none
        else some (.duplicateLabel (String.ofList name) first.line)
      | none => none

end Harvard16.Assembly
