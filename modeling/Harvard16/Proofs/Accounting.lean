import Harvard16.Proofs.Listing
import Harvard16.Proofs.NewLabels
import Harvard16.Proofs.SourceLines

/-! What each line of a source gives. Whatever the other lines hold, an instruction line gives one entry or
one error, a labelled line one new label or one error, and no line gives anything else. The
table, the listing and the errors are put together line by line, so nothing changes its place. -/
namespace Harvard16.Assembly

def Cause.ofInstruction : Cause → Bool
  | .invalidLabel _ | .duplicateLabel .. | .programTooLarge => false
  | _ => true

/-- A reading that fails on nothing but the text of an instruction. -/
def ReadsInstruction {α : Type} (reading : Except Cause α) : Prop :=
  ∀ cause, reading = .error cause → cause.ofInstruction = true

namespace ReadsInstruction

variable {α β : Type}

theorem ok (value : α) : ReadsInstruction (.ok value) := by
  intro cause failed
  cases failed

theorem error {cause : Cause} (h : cause.ofInstruction = true) :
    ReadsInstruction (.error cause : Except Cause α) := by
  rintro _ ⟨⟩
  exact h

theorem bind {first : Except Cause α} {next : α → Except Cause β} (h : ReadsInstruction first)
    (rest : ∀ value, ReadsInstruction (next value)) : ReadsInstruction (first >>= next) := by
  intro cause failed
  cases first with
  | error =>
    cases failed
    exact h _ rfl
  | ok value => exact rest value cause failed

theorem register (text : List Char) : ReadsInstruction (register text) := by
  unfold Assembly.register
  split
  · exact ok _
  · exact error rfl

theorem immediate (field : Field) (text : List Char) : ReadsInstruction (immediate field text) := by
  unfold Assembly.immediate
  split
  · exact error rfl
  · split
    · exact ok _
    · exact error rfl

theorem branchTarget (labels : LabelTable) (field : Field) (address : Nat) (text : List Char) :
    ReadsInstruction (branchTarget labels field address text) := by
  unfold Assembly.branchTarget
  split
  · exact immediate field text
  · split
    · exact ok _
    · exact error rfl

theorem memoryOperand (field : Field) (text : List Char) : ReadsInstruction (memoryOperand field text) := by
  unfold Assembly.memoryOperand
  dsimp only
  split
  · exact error rfl
  · split
    · exact bind (ok _) fun _ => bind (register _) fun _ => ok _
    · exact bind (immediate field _) fun _ => bind (register _) fun _ => ok _

theorem memoryForm (op : Opcode) (operands : List (List Char)) :
    ReadsInstruction (memoryForm op operands) := by
  unfold Assembly.memoryForm
  split
  · exact bind (register _) fun _ => bind (memoryOperand _ _) fun _ => ok _
  · exact error rfl

theorem instructionOf (labels : LabelTable) (address : Nat) (op : Opcode)
    (operands : List (List Char)) : ReadsInstruction (instructionOf labels address op operands) := by
  unfold Assembly.instructionOf
  split
  case h_1 => exact bind (register _) fun _ => bind (register _) fun _ => bind (register _) fun _ => ok _
  case h_2 =>
    split
    · exact bind (memoryForm _ _) fun _ => ok _
    · split
      · exact bind (register _) fun _ => bind (register _) fun _ => bind (immediate _ _) fun _ => ok _
      · exact error rfl
  case h_3 => exact bind (memoryForm _ _) fun _ => ok _
  case h_4 =>
    exact bind (register _) fun _ => bind (register _) fun _ => bind (branchTarget _ _ _ _) fun _ => ok _
  case h_5 => exact bind (register _) fun _ => bind (branchTarget _ _ _ _) fun _ => ok _
  case h_6 => exact ok _
  all_goals exact error rfl

theorem parseInstruction (labels : LabelTable) (address : Nat) (text : List Char) :
    ReadsInstruction (parseInstruction labels address text) := by
  unfold Assembly.parseInstruction
  dsimp only
  split
  · exact error rfl
  · exact instructionOf _ _ _ _

end ReadsInstruction

/-- `Yields good bad expected results causes`: where anything is expected, there is one good result or
one bad cause, and elsewhere there is nothing. -/
inductive Yields {α : Type} (good : α → Prop) (bad : Cause → Prop) :
    Bool → List α → List Cause → Prop
  | result {result : α} (h : good result) : Yields good bad true [result] []
  | error {cause : Cause} (h : bad cause) : Yields good bad true [] [cause]
  | nothing : Yields good bad false [] []

theorem Yields.of_options {α : Type} {good : α → Prop} {bad : Cause → Prop} {expected : Bool}
    {result? : Option α} {cause? : Option Cause}
    (one : expected = true → result?.isSome = cause?.isNone)
    (none : expected = false → result? = none ∧ cause? = none)
    (results : ∀ result, result? = some result → good result)
    (causes : ∀ cause, cause? = some cause → bad cause) :
    Yields good bad expected result?.toList cause?.toList := by
  cases expected with
  | false =>
    obtain ⟨rfl, rfl⟩ := none rfl
    exact .nothing
  | true =>
    have one := one rfl
    cases result? with
    | none =>
      obtain ⟨cause, rfl⟩ := Option.isSome_iff_exists.1 (by simpa using one : cause?.isSome = true)
      exact .error (causes cause rfl)
    | some result =>
      obtain rfl : cause? = .none := by simpa using one
      exact .result (results result rfl)

section

variable (source : String) (number : Nat)

/-- The label of a line: the name before its first `:`, for the number of instruction lines before it. -/
def lineLabel : Label :=
  ⟨String.ofList (labelText (rawLine source number)), instructionsBefore source number, number⟩

structure NewLabel (label : Label) : Prop where
  label_eq : label = lineLabel source number
  wellFormed : isLabelName (labelText (rawLine source number)) = true
  room : label.address < 65536

/-- What can be wrong with the label of a line. -/
inductive LabelFault : Cause → Prop
  | invalid (malformed : isLabelName (labelText (rawLine source number)) = false) :
      LabelFault (.invalidLabel (lineLabel source number).name)
  | exhausted (beyond : 65536 ≤ instructionsBefore source number) : LabelFault .programTooLarge
  | duplicate {first : Label} (defined : first ∈ (ofSource source).labels.toList)
      (named : first.name = (lineLabel source number).name) (earlier : first.line < number) :
      LabelFault (.duplicateLabel (lineLabel source number).name first.line)

def lineInstruction : Except Cause Instruction :=
  parseInstruction (ofSource source).labels (instructionsBefore source number)
    (instructionText (rawLine source number))

structure LineEntry (entry : ListingEntry) : Prop where
  address_eq : entry.address = instructionsBefore source number
  room : entry.address < 65536
  source_eq : entry.source = String.ofList (instructionText (rawLine source number))
  spelled : ∃ instruction, lineInstruction source number = .ok instruction ∧
    entry.word = instruction.encode

/-- What can be wrong with the instruction of a line; outside of the address space it is the place. -/
inductive InstructionFault : Cause → Prop
  | exhausted (beyond : 65536 ≤ instructionsBefore source number) : InstructionFault .programTooLarge
  | misspelled {cause : Cause} (room : instructionsBefore source number < 65536)
      (failed : lineInstruction source number = .error cause) (kind : cause.ofInstruction = true) :
      InstructionFault cause

/-- What line `number` gives. A labelled line gives its label, which is new, or one error, and after it an
instruction line gives its entry or one error. -/
def LineAccount : Prop :=
  ∃ labelCauses instructionCauses,
    Yields (NewLabel source number) (LabelFault source number)
      (isLabelled (rawLine source number))
      ((ofSource source).labels.toList.filter (·.line = number)) labelCauses ∧
    Yields (LineEntry source number) (InstructionFault source number)
      (isInstructionLine (rawLine source number))
      ((ofSource source).listing.filter (·.line = number)) instructionCauses ∧
    (ofSource source).errors.filter (·.line = number) =
      (labelCauses ++ instructionCauses).map (⟨number, ·⟩)

end

section

variable {β : Type} {give : PlacedLine → List β} {key : β → Nat}
  (keyed : ∀ placed, ∀ b ∈ give placed, key b = placed.line.number)
include keyed

theorem filter_flatMap_number (lines : List PlacedLine) (number : Nat) :
    (lines.flatMap give).filter (key · = number) =
      (lines.filter (·.line.number = number)).flatMap give := by
  induction lines with
  | nil => rfl
  | cons placed lines ih =>
    rw [List.flatMap_cons, List.filter_append, ih, List.filter_cons]
    by_cases here : placed.line.number = number
    · have all : (give placed).filter (key · = number) = give placed := by
        rw [List.filter_eq_self]
        intro b member
        simpa [keyed placed b member] using here
      simp [here, all]
    · have none : (give placed).filter (key · = number) = [] := by
        rw [List.filter_eq_nil_iff]
        intro b member
        simpa [keyed placed b member] using here
      simp [here, none]

theorem filter_flatMap_place
    (silent : ∀ placed, placed.line.label = none → placed.line.hasInstruction = false → give placed = [])
    (source : String) (number : Nat) :
    ((place (sourceLines source.toList)).flatMap give).filter (key · = number) =
      give (placedLine source number) := by
  rw [filter_flatMap_number keyed]
  rcases filter_number_place source number with one | ⟨none, empty⟩
  · simp [one]
  · rw [none, List.flatMap_nil]
    symm
    apply silent
    · simp only [placedLine, empty, read_eq]
      rfl
    · simp only [placedLine, empty, hasInstruction_read]
      rfl

end

namespace PlacedLine

def labelErrors (labels : LabelTable) (placed : PlacedLine) : List LineError :=
  (placed.labelCause? labels).toList.map (⟨placed.line.number, ·⟩)

def instructionErrors (labels : LabelTable) (placed : PlacedLine) : List LineError :=
  (placed.instructionCause? labels).toList.map (⟨placed.line.number, ·⟩)

theorem line_of_mem_errors {labels : LabelTable} {placed : PlacedLine} {error : LineError}
    (member : error ∈ placed.errors labels) : error.line = placed.line.number := by
  obtain ⟨_, -, rfl⟩ := List.mem_map.1 member
  rfl

theorem errors_eq_append (labels : LabelTable) (placed : PlacedLine) :
    placed.errors labels = placed.labelErrors labels ++ placed.instructionErrors labels :=
  List.map_append

theorem silent_of_hasInstruction_eq_false {placed : PlacedLine} (h : placed.line.hasInstruction = false)
    (labels : LabelTable) : placed.listed? labels = none ∧ placed.instructionCause? labels = none := by
  simp [listed?, instructionCause?, h]

end PlacedLine

variable (source : String) (number : Nat)

theorem labels_of_number : (ofSource source).labels.toList.filter (·.line = number) =
    ((placedLine source number).newLabel? (ofSource source).labels).toList := by
  have collected : (ofSource source).labels.toList = _ := toList_collectLabels (pairwise_place source)
  rw [collected, List.filterMap_eq_flatMap_toList]
  apply filter_flatMap_place
  · intro placed label member
    obtain ⟨_, -, -, -, rfl⟩ := PlacedLine.exists_of_newLabel? (Option.mem_toList.1 member)
    rfl
  · intro placed unlabelled _
    rw [(PlacedLine.silent_of_label_eq_none unlabelled _).1]
    rfl

theorem listing_of_number : (ofSource source).listing.filter (·.line = number) =
    ((placedLine source number).listed? (ofSource source).labels).toList := by
  have listed : (ofSource source).listing =
      (place (sourceLines source.toList)).filterMap (·.listed? (ofSource source).labels) := rfl
  rw [listed, List.filterMap_eq_flatMap_toList]
  apply filter_flatMap_place
  · intro placed entry member
    obtain ⟨_, -, -, rfl⟩ := exists_of_listed? (Option.mem_toList.1 member)
    rfl
  · intro placed _ bare
    rw [(PlacedLine.silent_of_hasInstruction_eq_false bare _).1]
    rfl

theorem errors_of_number : (ofSource source).errors.filter (·.line = number) =
    (placedLine source number).errors (ofSource source).labels := by
  apply filter_flatMap_place
  · exact fun _ _ => PlacedLine.line_of_mem_errors
  · intro placed unlabelled bare
    simp [PlacedLine.errors, PlacedLine.silent_of_label_eq_none unlabelled,
      PlacedLine.silent_of_hasInstruction_eq_false bare]

theorem ordered_errors {lines : List PlacedLine} (ordered : lines.Pairwise (·.line.number < ·.line.number))
    (labels : LabelTable) : (lines.flatMap (·.errors labels)).Pairwise (·.line ≤ ·.line) := by
  refine List.pairwise_flatMap.2 ⟨?_, ordered.imp ?_⟩
  · intro placed _
    rw [PlacedLine.errors, List.pairwise_map]
    exact List.pairwise_of_forall fun _ _ => le_rfl
  · intro a b before error member later memberLater
    rw [PlacedLine.line_of_mem_errors member, PlacedLine.line_of_mem_errors memberLater]
    exact before.le

theorem label_placedLine : (placedLine source number).line.label =
    if isLabelled (rawLine source number) then some (labelText (rawLine source number)) else none := by
  rw [placedLine, read_eq]

theorem text_placedLine : (placedLine source number).line.text = instructionText (rawLine source number) := by
  rw [placedLine, read_eq]

theorem number_placedLine : (placedLine source number).line.number = number := number_read _ _

variable {source number}

theorem mem_place_of_isLabelled (h : isLabelled (rawLine source number) = true) :
    placedLine source number ∈ place (sourceLines source.toList) := by
  rcases filter_number_place source number with one | ⟨-, empty⟩
  · exact (List.mem_filter.1 (one ▸ List.mem_singleton_self _)).1
  · rw [empty] at h
    cases h

theorem newLabel_of_newLabel? {label : Label}
    (h : (placedLine source number).newLabel? (ofSource source).labels = some label) :
    NewLabel source number label := by
  obtain ⟨name, named, wellFormed, room, rfl⟩ := PlacedLine.exists_of_newLabel? h
  rw [label_placedLine] at named
  split at named
  · cases named
    exact ⟨congrArg (Label.mk _ _) (number_placedLine source number), wellFormed, room⟩
  · cases named

theorem labelFault_of_labelCause? {cause : Cause}
    (h : (placedLine source number).labelCause? (ofSource source).labels = some cause) :
    LabelFault source number cause := by
  have named := label_placedLine source number
  split at named
  · rename_i labelled
    rw [PlacedLine.labelCause?, named, Option.bind_some] at h
    split at h
    · rename_i malformed
      cases h
      exact .invalid (by simpa using malformed)
    · rename_i wellFormed
      split at h
      · rename_i beyond
        cases h
        exact .exhausted beyond
      · rename_i room
        have defined := PlacedLine.definition?_eq_some.2
          ⟨_, named, by simpa using wellFormed, Nat.not_le.1 room, rfl⟩
        rw [number_placedLine] at defined
        obtain ⟨first, held, same, found, own⟩ :=
          exists_first_definition (pairwise_place source) (mem_place_of_isLabelled labelled) defined
        have lookup : (ofSource source).labels.lookup?
            (String.ofList (labelText (rawLine source number))) = some first := found
        simp only [lookup, number_placedLine] at h
        split at h
        · cases h
        · rename_i elsewhere
          cases h
          rcases own with rfl | earlier
          · exact absurd rfl elsewhere
          · exact .duplicate held same earlier
  · rw [(PlacedLine.silent_of_label_eq_none named _).2] at h
    cases h

theorem lineEntry_of_listed? {entry : ListingEntry}
    (h : (placedLine source number).listed? (ofSource source).labels = some entry) :
    LineEntry source number entry := by
  obtain ⟨instruction, spelled, room, rfl⟩ := exists_of_listed? h
  have text := text_placedLine source number
  rw [text] at spelled
  exact ⟨rfl, room, congrArg String.ofList text, instruction, spelled, rfl⟩

theorem instructionFault_of_instructionCause? {cause : Cause}
    (h : (placedLine source number).instructionCause? (ofSource source).labels = some cause) :
    InstructionFault source number cause := by
  unfold PlacedLine.instructionCause? at h
  split at h
  · split at h
    · cases h
    · rename_i failed
      cases h
      unfold PlacedLine.instruction at failed
      split at failed
      · rename_i beyond
        cases failed
        exact .exhausted beyond
      · rename_i room
        have kind := ReadsInstruction.parseInstruction _ _ _ _ failed
        rw [text_placedLine] at failed
        exact .misspelled (Nat.not_le.1 room) failed kind
  · cases h

theorem instruction_placedLine (room : instructionsBefore source number < 65536) :
    (placedLine source number).instruction (ofSource source).labels = lineInstruction source number := by
  have inside : ¬addressSpace ≤ (placedLine source number).address := Nat.not_le.2 room
  rw [PlacedLine.instruction, if_neg inside, text_placedLine]
  rfl

theorem line_of_spelled (used : isInstructionLine (rawLine source number) = true)
    (room : instructionsBefore source number < 65536) {instruction : Instruction}
    (spelled : lineInstruction source number = .ok instruction) :
    (ofSource source).listing.filter (·.line = number) =
        [⟨instructionsBefore source number, number, String.ofList (instructionText (rawLine source number)),
          instruction.encode⟩] ∧
      (ofSource source).errors.filter (·.line = number) =
        (placedLine source number).labelErrors (ofSource source).labels := by
  have filled : (placedLine source number).line.hasInstruction = true :=
    (hasInstruction_read _ _).trans used
  have read := (instruction_placedLine room).trans spelled
  constructor
  · rw [listing_of_number, PlacedLine.listed?, if_pos filled, read, number_placedLine, text_placedLine]
    rfl
  · rw [errors_of_number, PlacedLine.errors_eq_append]
    simp [PlacedLine.instructionErrors, PlacedLine.instructionCause?, filled, read]

theorem line_of_failed (used : isInstructionLine (rawLine source number) = true)
    (room : instructionsBefore source number < 65536) {cause : Cause}
    (failed : lineInstruction source number = .error cause) :
    (ofSource source).listing.filter (·.line = number) = [] ∧
      (ofSource source).errors.filter (·.line = number) =
        (placedLine source number).labelErrors (ofSource source).labels ++ [⟨number, cause⟩] := by
  have filled : (placedLine source number).line.hasInstruction = true :=
    (hasInstruction_read _ _).trans used
  have read := (instruction_placedLine room).trans failed
  constructor
  · rw [listing_of_number, PlacedLine.listed?, if_pos filled, read]
    rfl
  · rw [errors_of_number, PlacedLine.errors_eq_append]
    simp [PlacedLine.instructionErrors, PlacedLine.instructionCause?, filled, read, number_placedLine]

variable (source number)

theorem lineAccount : LineAccount source number := by
  have used : (placedLine source number).line.hasInstruction = isInstructionLine (rawLine source number) :=
    hasInstruction_read _ _
  refine ⟨((placedLine source number).labelCause? (ofSource source).labels).toList,
    ((placedLine source number).instructionCause? (ofSource source).labels).toList, ?_, ?_, ?_⟩
  · rw [labels_of_number]
    refine .of_options ?_ ?_ (fun _ => newLabel_of_newLabel?) (fun _ => labelFault_of_labelCause?)
    · intro labelled
      have named := (label_placedLine source number).trans (if_pos labelled)
      exact newLabel?_isSome (pairwise_place source) (mem_place_of_isLabelled labelled) named
    · intro unlabelled
      have unnamed := (label_placedLine source number).trans (if_neg (by simp [unlabelled]))
      exact PlacedLine.silent_of_label_eq_none unnamed _
  · rw [listing_of_number]
    refine .of_options ?_ ?_ (fun _ => lineEntry_of_listed?)
      (fun _ => instructionFault_of_instructionCause?)
    · intro instruction
      exact PlacedLine.listed?_isSome _ _ (used.trans instruction)
    · intro bare
      exact PlacedLine.silent_of_hasInstruction_eq_false (used.trans bare) _
  · rw [errors_of_number, PlacedLine.errors, placedLine, number_read]

/-- Line by line, an assembly accounts for its source. What all lines together give stands in their order,
and without errors each entry stands at its address. -/
theorem accounts_for_every_line (source : String) :
    (∀ number, LineAccount source number) ∧
    (ofSource source).words = (ofSource source).listing.map (·.word) ∧
    (ofSource source).listing.Pairwise (·.line < ·.line) ∧
    ((ofSource source).labels.toList.map (·.name)).Nodup ∧
    (ofSource source).errors.Pairwise (·.line ≤ ·.line) ∧
    ((ofSource source).errors = [] →
      (ofSource source).listing.map (·.address) = List.range (ofSource source).listing.length ∧
      (ofSource source).words.length = (Text.lines source.toList).countP isInstructionLine) := by
  have ordered := pairwise_place source
  refine ⟨lineAccount source, rfl, ?_, distinct_names ordered, ?_, ?_⟩
  · refine List.pairwise_filterMap.2 (ordered.imp ?_)
    intro a b before entry listed later listedLater
    obtain ⟨_, -, -, rfl⟩ := exists_of_listed? listed
    obtain ⟨_, -, -, rfl⟩ := exists_of_listed? listedLater
    exact before
  · exact ordered_errors ordered _
  · intro correct
    refine ⟨addresses_of_correct correct, ?_⟩
    rw [words, List.length_map, ← countP_hasInstruction]
    exact length_listing_of_correct correct

def labelled : String := "go: halt # done\n\n nop\nend:"

def mislabelled : String := "go: addi t0, t0, 1 # count\n\ngo: frob\n: halt"

theorem accounts_for_every_line_mislabelled :
    (ofSource labelled).errors = [] ∧
    (ofSource labelled).words.length = 2 ∧
    LineAccount mislabelled 3 ∧
    (ofSource mislabelled).errors =
      [⟨3, .duplicateLabel "go" 1⟩, ⟨3, .unknownMnemonic "frob"⟩, ⟨4, .invalidLabel ""⟩] := by
  have correct : (ofSource labelled).errors = [] := by decide +kernel
  obtain ⟨-, -, -, -, -, complete⟩ := accounts_for_every_line labelled
  obtain ⟨each, -⟩ := accounts_for_every_line mislabelled
  refine ⟨correct, ?_, each 3, by decide +kernel⟩
  rw [(complete correct).2]
  decide +kernel

end Harvard16.Assembly
