import Harvard16.Proofs.LetterCase
import Mathlib.Data.List.Forall2

/-! Lines under other numbers. An assembly tells the number of a line where it lists an instruction, where a
label is defined and where it reports an error, and for nothing else it looks at numbers than to tell lines
apart. So the lines of a source can be given other numbers, and instructions that are judged alike, and what
is left of the assembly without its numbers and texts stays the same. Lines that have neither a label nor an
instruction can be left out. -/
namespace Harvard16.Assembly

/-- What an assembly says, line numbers and texts aside: its words, the addresses of its labels and of its
listing, and what kinds of errors there are, all in their order. -/
structure Gist where
  words : List UInt16
  labels : List (String × Nat)
  addresses : List Nat
  errors : List Cause.Kind
  deriving DecidableEq, Repr

def gist (assembly : Assembly) : Gist where
  words := assembly.words
  labels := assembly.labels.toList.map fun label => (label.name, label.address)
  addresses := assembly.listing.map (·.address)
  errors := assembly.errors.map (·.cause.kind)

def Label.renumbered (renumber : Nat → Nat) (label : Label) : Label :=
  { label with line := renumber label.line }

/-- Lines with the same label whose instructions are judged alike. The second has another number. -/
structure Line.Alike (renumber : Nat → Nat) (a b : Line) : Prop where
  number : b.number = renumber a.number
  label : b.label = a.label
  hasInstruction : b.hasInstruction = a.hasInstruction
  verdict : ∀ labels address,
    SameVerdict (parseInstruction labels address a.text) (parseInstruction labels address b.text)

structure PlacedLine.Alike (renumber : Nat → Nat) (a b : PlacedLine) : Prop where
  address : b.address = a.address
  line : a.line.Alike renumber b.line

section

variable {renumber : Nat → Nat}

theorem alike_placeFrom {as bs : List Line} (alike : List.Forall₂ (Line.Alike renumber) as bs)
    (start : Nat) : List.Forall₂ (PlacedLine.Alike renumber) (placeFrom start as) (placeFrom start bs) := by
  induction alike generalizing start with
  | nil => exact .nil
  | @cons a b _ _ head _ ih =>
    have next : b.next start = a.next start := by rw [Line.next, Line.next, head.hasInstruction]
    rw [placeFrom_cons, placeFrom_cons, next]
    exact .cons ⟨rfl, head⟩ (ih _)

theorem PlacedLine.Alike.definition? {a b : PlacedLine} (alike : a.Alike renumber b) :
    b.definition? = a.definition?.map (Label.renumbered renumber) := by
  rw [PlacedLine.definition?, PlacedLine.definition?, alike.address, alike.line.label, alike.line.number]
  cases a.line.label with
  | none => rfl
  | some name =>
    simp only [Option.bind_some]
    split <;> rfl

theorem definitions_alike {as bs : List PlacedLine} (alike : List.Forall₂ (PlacedLine.Alike renumber) as bs) :
    bs.filterMap (·.definition?) = (as.filterMap (·.definition?)).map (Label.renumbered renumber) := by
  induction alike with
  | nil => rfl
  | @cons a b _ _ head _ ih =>
    rw [List.filterMap_cons, List.filterMap_cons, head.definition?, ih]
    cases a.definition? <;> rfl

def LabelTable.Renumbered (renumber : Nat → Nat) (labels others : LabelTable) : Prop :=
  others.toList = labels.toList.map (Label.renumbered renumber)

theorem LabelTable.Renumbered.lookup? {labels others : LabelTable} (same : labels.Renumbered renumber others)
    (name : String) : others.lookup? name = (labels.lookup? name).map (Label.renumbered renumber) := by
  rw [lookup?_eq_find?, lookup?_eq_find?, same, List.find?_map]
  rfl

theorem LabelTable.Renumbered.define {labels others : LabelTable} (same : labels.Renumbered renumber others)
    (label : Label) :
    (labels.define label).Renumbered renumber (others.define (label.renumbered renumber)) := by
  have taken : others.lookup? label.name = none ↔ labels.lookup? label.name = none := by
    rw [same.lookup?, Option.map_eq_none_iff]
  have name : (label.renumbered renumber).name = label.name := rfl
  rw [Renumbered, toList_define, toList_define, name, same]
  simp only [taken]
  split <;> simp

theorem LabelTable.Renumbered.foldl_define {labels others : LabelTable}
    (same : labels.Renumbered renumber others) (definitions : List Label) :
    (definitions.foldl LabelTable.define labels).Renumbered renumber
      ((definitions.map (Label.renumbered renumber)).foldl LabelTable.define others) := by
  induction definitions generalizing labels others with
  | nil => exact same
  | cons label definitions ih => exact ih (same.define label)

theorem renumbered_collectLabels {as bs : List PlacedLine}
    (alike : List.Forall₂ (PlacedLine.Alike renumber) as bs) :
    (collectLabels as).Renumbered renumber (collectLabels bs) := by
  have none : LabelTable.empty.Renumbered renumber .empty := rfl
  rw [collectLabels, collectLabels, definitions_alike alike]
  exact none.foldl_define _

section

variable {labels others : LabelTable} (same : labels.Renumbered renumber others)
include same

theorem branchTarget_renumbered (field : Field) (address : Nat) (text : List Char) :
    branchTarget others field address text = branchTarget labels field address text := by
  rw [branchTarget, branchTarget, same.lookup?]
  cases labels.lookup? (String.ofList text) <;> rfl

theorem parseInstruction_renumbered (address : Nat) (text : List Char) :
    parseInstruction others address text = parseInstruction labels address text := by
  simp only [parseInstruction, instructionOf, branchTarget_renumbered same]

end

section

variable {labels others : LabelTable} (same : labels.Renumbered renumber others) {a b : PlacedLine}
  (alike : a.Alike renumber b)
include same alike

theorem PlacedLine.Alike.instruction : SameVerdict (a.instruction labels) (b.instruction others) := by
  rw [PlacedLine.instruction, PlacedLine.instruction, alike.address, parseInstruction_renumbered same]
  split
  · exact .error rfl
  · exact alike.line.verdict labels a.address

theorem PlacedLine.Alike.listed? :
    (b.listed? others).map (fun entry => (entry.address, entry.word)) =
      (a.listed? labels).map fun entry => (entry.address, entry.word) := by
  have verdict := alike.instruction same
  rw [PlacedLine.listed?, PlacedLine.listed?, alike.line.hasInstruction]
  generalize a.instruction labels = first, b.instruction others = second at verdict
  split
  · cases verdict with
    | ok instruction => simp [alike.address]
    | error kinds => rfl
  · rfl

theorem PlacedLine.Alike.instructionCause? :
    (b.instructionCause? others).map Cause.kind = (a.instructionCause? labels).map Cause.kind := by
  have verdict := alike.instruction same
  rw [PlacedLine.instructionCause?, PlacedLine.instructionCause?, alike.line.hasInstruction]
  generalize a.instruction labels = first, b.instruction others = second at verdict
  split
  · cases verdict with
    | ok instruction => rfl
    | error kinds => exact congrArg some kinds.symm
  · rfl

variable (injective : renumber.Injective)
include injective

theorem PlacedLine.Alike.labelCause? :
    (b.labelCause? others).map Cause.kind = (a.labelCause? labels).map Cause.kind := by
  rw [PlacedLine.labelCause?, PlacedLine.labelCause?, alike.address, alike.line.label, alike.line.number]
  cases a.line.label with
  | none => rfl
  | some name =>
    simp only [Option.bind_some]
    split
    · rfl
    · split
      · rfl
      · rw [same.lookup?]
        cases labels.lookup? (String.ofList name) with
        | none => rfl
        | some first =>
          simp only [Option.map_some, Label.renumbered, injective.eq_iff]
          split <;> rfl

theorem PlacedLine.Alike.errors :
    (b.errors others).map (·.cause.kind) = (a.errors labels).map (·.cause.kind) := by
  have label := congrArg Option.toList (alike.labelCause? same injective)
  have instruction := congrArg Option.toList (alike.instructionCause? same)
  rw [Option.toList_map, Option.toList_map] at label instruction
  have kinds (placed : PlacedLine) (table : LabelTable) :
      (placed.errors table).map (·.cause.kind) =
        (placed.labelCause? table).toList.map Cause.kind ++
          (placed.instructionCause? table).toList.map Cause.kind := by
    rw [PlacedLine.errors, List.map_map, List.map_append]
    rfl
  rw [kinds, kinds, label, instruction]

end

theorem listing_alike {labels others : LabelTable} (same : labels.Renumbered renumber others)
    {as bs : List PlacedLine} (alike : List.Forall₂ (PlacedLine.Alike renumber) as bs) :
    (bs.filterMap (·.listed? others)).map (fun entry => (entry.address, entry.word)) =
      (as.filterMap (·.listed? labels)).map fun entry => (entry.address, entry.word) := by
  rw [List.map_filterMap, List.map_filterMap]
  induction alike with
  | nil => rfl
  | cons head _ ih => rw [List.filterMap_cons, List.filterMap_cons, head.listed? same, ih]

theorem errors_alike {labels others : LabelTable} (same : labels.Renumbered renumber others)
    (injective : renumber.Injective) {as bs : List PlacedLine}
    (alike : List.Forall₂ (PlacedLine.Alike renumber) as bs) :
    (bs.flatMap (·.errors others)).map (·.cause.kind) = (as.flatMap (·.errors labels)).map (·.cause.kind) := by
  rw [List.map_flatMap, List.map_flatMap]
  induction alike with
  | nil => rfl
  | cons head _ ih => rw [List.flatMap_cons, List.flatMap_cons, head.errors same injective, ih]

theorem gist_ofLines (injective : renumber.Injective) {as bs : List PlacedLine}
    (alike : List.Forall₂ (PlacedLine.Alike renumber) as bs) : (ofLines bs).gist = (ofLines as).gist := by
  have same := renumbered_collectLabels alike
  have listing := listing_alike same alike
  have labels : (collectLabels bs).toList.map (fun label => (label.name, label.address)) =
      (collectLabels as).toList.map fun label => (label.name, label.address) := by
    rw [same, List.map_map]
    rfl
  have words := congrArg (List.map Prod.snd) listing
  have addresses := congrArg (List.map Prod.fst) listing
  rw [List.map_map, List.map_map] at words addresses
  exact Gist.mk.injEq .. |>.mpr ⟨words, labels, addresses, errors_alike same injective alike⟩

end

theorem ofLines_silent {before added after : List PlacedLine}
    (silent : ∀ placed ∈ added, placed.line.label = none ∧ placed.line.hasInstruction = false) :
    ofLines (before ++ (added ++ after)) = ofLines (before ++ after) := by
  have definitions : added.filterMap (·.definition?) = [] := by
    rw [List.filterMap_eq_nil_iff]
    intro placed member
    simp [PlacedLine.definition?, (silent placed member).1]
  have labels : collectLabels (before ++ (added ++ after)) = collectLabels (before ++ after) := by
    rw [collectLabels, collectLabels, List.filterMap_append, List.filterMap_append, definitions,
      List.nil_append, List.filterMap_append]
  have listing : added.filterMap (·.listed? (collectLabels (before ++ after))) = [] := by
    rw [List.filterMap_eq_nil_iff]
    intro placed member
    simp [PlacedLine.listed?, (silent placed member).2]
  have errors : added.flatMap (·.errors (collectLabels (before ++ after))) = [] := by
    rw [List.flatMap_eq_nil_iff]
    intro placed member
    obtain ⟨unlabelled, none⟩ := silent placed member
    simp [PlacedLine.errors, PlacedLine.labelCause?, PlacedLine.instructionCause?, unlabelled, none]
  simp only [ofLines, labels, List.filterMap_append, List.flatMap_append, listing, errors, List.nil_append]

theorem ofLines_insert {before added after : List Line}
    (silent : ∀ line ∈ added, line.label = none ∧ line.hasInstruction = false) :
    ofLines (place (before ++ (added ++ after))) = ofLines (place (before ++ after)) := by
  have passed (start : Nat) : added.foldl Line.next start = start := by
    have none : added.filter Line.hasInstruction = [] :=
      List.filter_eq_nil_iff.2 fun line member => by simp [(silent line member).2]
    rw [foldl_next, none]
    rfl
  rw [place, place, placeFrom_append, placeFrom_append, placeFrom_append, passed]
  apply ofLines_silent
  intro placed member
  apply silent
  rw [← map_line_placeFrom (before.foldl Line.next 0) added]
  exact List.mem_map_of_mem member

end Harvard16.Assembly
