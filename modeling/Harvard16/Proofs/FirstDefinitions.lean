import Harvard16.Proofs.Accounting
import Mathlib.Data.List.Sort

/-! The label table of a source is told by its lines: it has the names that some line defines, each for the
first line that defines it. Main statement: this, what is reported of every other line with a label,
and that the table depends on the labels of the lines and on where instructions are, and not on what
the instructions say. -/
namespace Harvard16.Assembly

/-- The label of the line has this name, which is well formed, and its address is a word. -/
structure Defines (source : String) (number : Nat) (name : String) : Prop where
  labelled : isLabelled (rawLine source number) = true
  named : String.ofList (labelText (rawLine source number)) = name
  wellFormed : isLabelName (labelText (rawLine source number)) = true
  room : instructionsBefore source number ≤ 65535

structure FirstDefines (source : String) (number : Nat) (name : String) : Prop where
  defines : Defines source number name
  earliest : ∀ earlier < number, ¬Defines source earlier name

instance (source : String) (number : Nat) (name : String) : Decidable (Defines source number name) :=
  decidable_of_iff
    (isLabelled (rawLine source number) = true ∧ String.ofList (labelText (rawLine source number)) = name ∧
      isLabelName (labelText (rawLine source number)) = true ∧ instructionsBefore source number ≤ 65535)
    ⟨fun ⟨labelled, named, wellFormed, room⟩ => ⟨labelled, named, wellFormed, room⟩,
      fun ⟨labelled, named, wellFormed, room⟩ => ⟨labelled, named, wellFormed, room⟩⟩

instance (source : String) (number : Nat) (name : String) : Decidable (FirstDefines source number name) :=
  decidable_of_iff (Defines source number name ∧ ∀ earlier < number, ¬Defines source earlier name)
    ⟨fun ⟨defines, earliest⟩ => ⟨defines, earliest⟩, fun ⟨defines, earliest⟩ => ⟨defines, earliest⟩⟩

/-- The errors of the line are these, and behind them what its instruction has against it. -/
def LabelErrors (source : String) (number : Nat) (causes : List Cause) : Prop :=
  (ofSource source).errors.filter (·.line = number) =
    causes.map (⟨number, ·⟩) ++ (placedLine source number).instructionErrors (ofSource source).labels

def outline (raw : List Char) : Option (List Char) × Bool :=
  (if isLabelled raw then some (labelText raw) else none, isInstructionLine raw)

section

variable {source : String} {number : Nat}

theorem eq_placedLine_of_mem {placed : PlacedLine} (member : placed ∈ place (sourceLines source.toList)) :
    placed = placedLine source placed.line.number := by
  have own : placed ∈ (place (sourceLines source.toList)).filter (·.line.number = placed.line.number) :=
    List.mem_filter.2 ⟨member, decide_eq_true rfl⟩
  rcases filter_number_place source placed.line.number with one | ⟨none, -⟩
  · rw [one] at own
    exact List.mem_singleton.1 own
  · rw [none] at own
    cases own

theorem label_of_isLabelled (labelled : isLabelled (rawLine source number) = true) :
    (placedLine source number).line.label = some (labelText (rawLine source number)) :=
  (label_placedLine source number).trans (if_pos labelled)

theorem Defines.definition? {name : String} (defines : Defines source number name) :
    (placedLine source number).definition? = some ⟨name, instructionsBefore source number, number⟩ := by
  obtain ⟨labelled, named, wellFormed, room⟩ := defines
  refine PlacedLine.definition?_eq_some.2
    ⟨_, label_of_isLabelled labelled, wellFormed, Nat.lt_succ_of_le room, ?_⟩
  rw [named, number_placedLine]
  rfl

theorem defines_of_definition? {label : Label}
    (defined : (placedLine source number).definition? = some label) :
    Defines source number label.name ∧ label = ⟨label.name, instructionsBefore source number, number⟩ := by
  obtain ⟨name, named, wellFormed, room, rfl⟩ := PlacedLine.definition?_eq_some.1 defined
  rw [label_placedLine, Option.ite_none_right_eq_some, Option.some_inj] at named
  obtain ⟨labelled, text⟩ := named
  rw [number_placedLine]
  exact ⟨⟨labelled, congrArg String.ofList text, text ▸ wellFormed, Nat.le_of_lt_succ room⟩, rfl⟩

theorem labels_ofSource (source : String) :
    (ofSource source).labels = collectLabels (place (sourceLines source.toList)) := rfl

theorem mem_definitions {label : Label} :
    label ∈ (place (sourceLines source.toList)).filterMap (·.definition?) ↔
      Defines source label.line label.name ∧ label.address = instructionsBefore source label.line := by
  rw [List.mem_filterMap]
  constructor
  · rintro ⟨placed, member, defined⟩
    rw [eq_placedLine_of_mem member] at defined
    obtain ⟨defines, whole⟩ := defines_of_definition? defined
    rw [whole]
    exact ⟨defines, rfl⟩
  · rintro ⟨defines, address⟩
    refine ⟨_, mem_place_of_isLabelled defines.labelled, ?_⟩
    rw [defines.definition?, ← address]

theorem defines_of_lookup? {name : String} {label : Label}
    (found : (ofSource source).labels.lookup? name = some label) :
    Defines source label.line name ∧
      label = ⟨name, instructionsBefore source label.line, label.line⟩ := by
  rw [labels_ofSource, lookup?_collectLabels] at found
  obtain rfl : label.name = name := by simpa using List.find?_some found
  obtain ⟨defines, address⟩ := mem_definitions.1 (List.mem_of_find?_eq_some found)
  rw [← address]
  exact ⟨defines, rfl⟩

theorem Defines.exists_lookup? {name : String} (defines : Defines source number name) :
    ∃ first, (ofSource source).labels.lookup? name = some first ∧
      (first = ⟨name, instructionsBefore source number, number⟩ ∨ first.line < number) := by
  obtain ⟨first, -, -, found, own⟩ := exists_first_definition (pairwise_place source)
    (mem_place_of_isLabelled defines.labelled) defines.definition?
  rw [labels_ofSource]
  exact ⟨first, found, own⟩

theorem lookup?_labels {name : String} {label : Label} :
    (ofSource source).labels.lookup? name = some label ↔
      FirstDefines source label.line name ∧
        label = ⟨name, instructionsBefore source label.line, label.line⟩ := by
  constructor
  · intro found
    obtain ⟨defines, whole⟩ := defines_of_lookup? found
    refine ⟨⟨defines, fun earlier before definesToo => ?_⟩, whole⟩
    obtain ⟨other, foundToo, own⟩ := definesToo.exists_lookup?
    rw [found, Option.some_inj] at foundToo
    rcases own with same | sooner
    · exact Nat.ne_of_gt before (congrArg Label.line (foundToo.trans same))
    · rw [← foundToo] at sooner
      exact Nat.lt_asymm before sooner
  · rintro ⟨⟨defines, earliest⟩, whole⟩
    obtain ⟨other, found, own | sooner⟩ := defines.exists_lookup?
    · rw [found, own, ← whole]
    · exact absurd (defines_of_lookup? found).1 (earliest _ sooner)

theorem lookup?_of_firstDefines {name : String} (first : FirstDefines source number name) :
    (ofSource source).labels.lookup? name = some ⟨name, instructionsBefore source number, number⟩ :=
  lookup?_labels.2 ⟨first, rfl⟩

theorem exists_firstDefines {name : String} (defines : Defines source number name) :
    ∃ first, FirstDefines source first name := by
  obtain ⟨label, found, -⟩ := defines.exists_lookup?
  exact ⟨label.line, (lookup?_labels.1 found).1⟩

theorem mem_labels {label : Label} :
    label ∈ (ofSource source).labels.toList ↔
      FirstDefines source label.line label.name ∧
        label.address = instructionsBefore source label.line := by
  have kept : label ∈ (ofSource source).labels.toList ↔
      (ofSource source).labels.lookup? label.name = some label := by
    constructor
    · intro member
      rw [labels_ofSource] at member ⊢
      rw [toList_collectLabels (pairwise_place source)] at member
      obtain ⟨placed, -, new⟩ := List.mem_filterMap.1 member
      exact of_decide_eq_true (Option.filter_eq_some_iff.1 new).2
    · intro found
      rw [LabelTable.lookup?_eq_find?] at found
      exact List.mem_of_find?_eq_some found
  rw [kept, lookup?_labels]
  obtain ⟨name, address, line⟩ := label
  simp

theorem labels_congr {other : String}
    (definitions : ∀ number name, FirstDefines other number name ↔ FirstDefines source number name)
    (addresses : ∀ number, instructionsBefore other number = instructionsBefore source number) :
    (ofSource other).labels = (ofSource source).labels := by
  have ordered (source : String) : (ofSource source).labels.toList.Pairwise (·.line < ·.line) := by
    rw [labels_ofSource, collectLabels,
      LabelTable.toList_foldl_define (distinct_definitions (pairwise_place source))]
    exact (ordered_definitions (pairwise_place source)).filter _
  have irreflexive : Std.Irrefl fun a b : Label => a.line < b.line := ⟨fun _ => Nat.lt_irrefl _⟩
  have antisymmetric : Std.Antisymm fun a b : Label => a.line < b.line :=
    ⟨fun _ _ before after => absurd before (Nat.lt_asymm after)⟩
  apply LabelTable.eq_of_toList_eq
  refine (ordered other).eq_of_mem_iff (ordered source) fun label => ?_
  rw [mem_labels, mem_labels, definitions, addresses]

theorem instructionsBefore_succ (source : String) (number : Nat) :
    instructionsBefore source (number + 1) =
      instructionsBefore source number + if isInstructionLine (rawLine source number) then 1 else 0 := by
  cases number with
  | zero => rfl
  | succ n =>
    simp only [instructionsBefore, rawLine, Nat.add_sub_cancel, List.take_add_one, List.countP_append]
    have blank : isInstructionLine [] = false := by decide
    cases (Text.lines source.toList)[n]? with
    | none => simp [blank]
    | some raw => simp

theorem instructionsBefore_congr {other : String}
    (same : ∀ line, isInstructionLine (rawLine other line) = isInstructionLine (rawLine source line))
    (number : Nat) : instructionsBefore other number = instructionsBefore source number := by
  induction number with
  | zero => rfl
  | succ number ih => rw [instructionsBefore_succ, instructionsBefore_succ, ih, same]

theorem defines_iff_outline {name : String} :
    Defines source number name ↔
      ∃ text, (outline (rawLine source number)).1 = some text ∧ String.ofList text = name ∧
        isLabelName text = true ∧ instructionsBefore source number ≤ 65535 := by
  constructor
  · rintro ⟨labelled, named, wellFormed, room⟩
    exact ⟨_, if_pos labelled, named, wellFormed, room⟩
  · rintro ⟨text, found, named, wellFormed, room⟩
    rw [outline, Option.ite_none_right_eq_some, Option.some_inj] at found
    obtain ⟨labelled, rfl⟩ := found
    exact ⟨labelled, named, wellFormed, room⟩

/-- A line that is no first definition can lose its label, and instructions can change, and the table
stays as it is. -/
theorem labels_of_outline {other : String}
    (same : ∀ line, outline (rawLine other line) = outline (rawLine source line) ∨
      (∀ name, ¬FirstDefines source line name) ∧
        outline (rawLine other line) = (none, (outline (rawLine source line)).2)) :
    (ofSource other).labels = (ofSource source).labels := by
  have addresses : ∀ line, instructionsBefore other line = instructionsBefore source line := by
    apply instructionsBefore_congr
    intro line
    rcases same line with whole | ⟨-, dropped⟩
    · simpa only [outline] using congrArg Prod.snd whole
    · simpa only [outline] using congrArg Prod.snd dropped
  have fewer {line : Nat} {name : String} (defines : Defines other line name) : Defines source line name := by
    rw [defines_iff_outline, addresses] at defines
    rcases same line with whole | ⟨-, dropped⟩
    · rw [whole] at defines
      exact defines_iff_outline.2 defines
    · obtain ⟨text, found, -⟩ := defines
      rw [dropped] at found
      cases found
  have kept {line : Nat} {name : String} (first : FirstDefines source line name) :
      Defines other line name := by
    rcases same line with whole | ⟨later, -⟩
    · rw [defines_iff_outline, addresses, whole]
      exact defines_iff_outline.1 first.defines
    · exact absurd first (later name)
  apply labels_congr _ addresses
  intro line name
  constructor
  · intro first
    refine ⟨fewer first.defines, fun earlier before defines => ?_⟩
    -- The first line of the source that defines the name does so in the other source as well.
    obtain ⟨leading, leads⟩ := exists_firstDefines defines
    have upTo : leading ≤ earlier := Nat.le_of_not_lt fun after => leads.earliest earlier after defines
    exact first.earliest leading (Nat.lt_of_le_of_lt upTo before) (kept leads)
  · intro first
    exact ⟨kept first, fun earlier before defines => first.earliest earlier before (fewer defines)⟩

theorem labelErrors_of_labelCause? {causes : List Cause}
    (found : ((placedLine source number).labelCause? (ofSource source).labels).toList = causes) :
    LabelErrors source number causes := by
  rw [LabelErrors, errors_of_number, PlacedLine.errors_eq_append, PlacedLine.labelErrors, found,
    number_placedLine]

theorem labelCause?_of_malformed (labelled : isLabelled (rawLine source number) = true)
    (malformed : isLabelName (labelText (rawLine source number)) = false) :
    (placedLine source number).labelCause? (ofSource source).labels =
      some (.invalidLabel (String.ofList (labelText (rawLine source number)))) := by
  simp [PlacedLine.labelCause?, label_of_isLabelled labelled, malformed]

theorem labelCause?_of_exhausted (labelled : isLabelled (rawLine source number) = true)
    (wellFormed : isLabelName (labelText (rawLine source number)) = true)
    (beyond : 65536 ≤ instructionsBefore source number) :
    (placedLine source number).labelCause? (ofSource source).labels = some .programTooLarge := by
  have exhausted : addressSpace ≤ (placedLine source number).address := beyond
  simp [PlacedLine.labelCause?, label_of_isLabelled labelled, wellFormed, exhausted]

theorem labelCause?_of_defines {name : String} {first : Nat} (defines : Defines source number name)
    (firstDefines : FirstDefines source first name) :
    (placedLine source number).labelCause? (ofSource source).labels =
      if first = number then none else some (.duplicateLabel name first) := by
  have found := lookup?_of_firstDefines firstDefines
  obtain ⟨labelled, rfl, wellFormed, room⟩ := defines
  have inside : ¬addressSpace ≤ (placedLine source number).address :=
    Nat.not_le.2 (Nat.lt_succ_of_le room)
  simp [PlacedLine.labelCause?, label_of_isLabelled labelled, wellFormed, inside, found, number_placedLine]

end

/-- A name is in the table just when a line defines it, for the address of the first such line. That line
is not in error for its label; a later one that defines the name is reported as its duplicate; a
malformed name and a well-formed one behind the last address are reported as such. The table depends
on the outlines of the lines alone, and of these only on the labels that are first definitions. -/
theorem label_table (source : String) :
    (∀ name, (∃ address, (ofSource source).label? name = some address) ↔
      ∃ number, Defines source number name) ∧
    (∀ number name, FirstDefines source number name →
      (ofSource source).label? name = some (instructionsBefore source number) ∧
        LabelErrors source number []) ∧
    (∀ first number name, FirstDefines source first name → Defines source number name → first < number →
      LabelErrors source number [.duplicateLabel name first]) ∧
    (∀ number, isLabelled (rawLine source number) = true →
      (isLabelName (labelText (rawLine source number)) = false →
        LabelErrors source number [.invalidLabel (String.ofList (labelText (rawLine source number)))]) ∧
      (isLabelName (labelText (rawLine source number)) = true → 65536 ≤ instructionsBefore source number →
        LabelErrors source number [.programTooLarge])) ∧
    ∀ other, (∀ line, outline (rawLine other line) = outline (rawLine source line) ∨
        (∀ name, ¬FirstDefines source line name) ∧
          outline (rawLine other line) = (none, (outline (rawLine source line)).2)) →
      (ofSource other).labels = (ofSource source).labels := by
  refine ⟨fun name => ?_, ?_, ?_, ?_, fun _ => labels_of_outline⟩
  · constructor
    · rintro ⟨address, found⟩
      obtain ⟨label, held, -⟩ := Option.map_eq_some_iff.1 found
      exact ⟨label.line, (lookup?_labels.1 held).1.defines⟩
    · rintro ⟨number, defines⟩
      obtain ⟨first, firstDefines⟩ := exists_firstDefines defines
      exact ⟨_, congrArg (Option.map Label.address) (lookup?_of_firstDefines firstDefines)⟩
  · intro number name first
    refine ⟨congrArg (Option.map Label.address) (lookup?_of_firstDefines first), ?_⟩
    apply labelErrors_of_labelCause?
    rw [labelCause?_of_defines first.defines first, if_pos rfl, Option.toList_none]
  · intro first number name firstDefines defines later
    apply labelErrors_of_labelCause?
    rw [labelCause?_of_defines defines firstDefines, if_neg (Nat.ne_of_lt later), Option.toList_some]
  · intro number labelled
    constructor
    · intro malformed
      apply labelErrors_of_labelCause?
      rw [labelCause?_of_malformed labelled malformed, Option.toList_some]
    · intro wellFormed beyond
      apply labelErrors_of_labelCause?
      rw [labelCause?_of_exhausted labelled wellFormed beyond, Option.toList_some]

def redefined : String := "go: addi t0, t0, 1\n1x: nop\n go : frob # again\nend:"

def undisputed : String := "go: halt\n1x: halt\nbeq t0, t0, end\nend: # of it"

theorem label_table_redefined :
    (ofSource redefined).label? "go" = some 0 ∧
      LabelErrors redefined 1 [] ∧ LabelErrors redefined 2 [.invalidLabel "1x"] ∧
      LabelErrors redefined 3 [.duplicateLabel "go" 1] ∧
      (ofSource undisputed).labels = (ofSource redefined).labels := by
  have first : FirstDefines redefined 1 "go" := by decide +kernel
  have again : Defines redefined 3 "go" := by decide +kernel
  have malformed : isLabelled (rawLine redefined 2) = true ∧
      isLabelName (labelText (rawLine redefined 2)) = false := by decide +kernel
  have outlines : ∀ line, outline (rawLine undisputed line) = outline (rawLine redefined line) ∨
      (∀ name, ¬FirstDefines redefined line name) ∧
        outline (rawLine undisputed line) = (none, (outline (rawLine redefined line)).2) := by
    intro line
    have near : ∀ line < 5, outline (rawLine undisputed line) =
        if line = 3 then (none, (outline (rawLine redefined line)).2)
        else outline (rawLine redefined line) := by decide +kernel
    rcases Nat.lt_or_ge line 5 with inside | beyond
    · have here := near line inside
      split at here
      · subst line
        refine .inr ⟨fun name firstToo => ?_, here⟩
        obtain rfl : "go" = name := again.named.symm.trans firstToo.defines.named
        exact firstToo.earliest 1 (by decide) first.defines
      · exact .inl here
    · have lengths : (Text.lines redefined.toList).length = 4 ∧
          (Text.lines undisputed.toList).length = 4 := by decide +kernel
      have blank (source : String) (four : (Text.lines source.toList).length = 4) :
          rawLine source line = [] := by
        rw [rawLine, if_pos (by omega), List.getElem?_eq_none (by omega)]
        rfl
      rw [blank redefined lengths.1, blank undisputed lengths.2]
      exact .inl rfl
  obtain ⟨-, firsts, duplicates, others, outlined⟩ := label_table redefined
  obtain ⟨address, clean⟩ := firsts 1 "go" first
  refine ⟨?_, clean, (others 2 malformed.1).1 malformed.2, duplicates 1 3 "go" first again (by decide),
    outlined undisputed outlines⟩
  rw [address]
  decide +kernel

end Harvard16.Assembly
