import Harvard16.Proofs.Accounting

/-! Assembly in two passes. The first goes through the lines once, counts the addresses up to the end of the
address space, defines the labels and keeps the lines that have an instruction and an address; the second
encodes these lines with the labels of all. Both report into one list, which is sorted by line at the
end. An assembly that judges each line by itself is the same: what a line has against its label shows
in the labels of the lines before it, and the sort is stable. -/
namespace Harvard16.Assembly

/-- What the first pass knows after some lines. -/
structure Scan where
  address : Nat
  labels : LabelTable
  instructions : List PlacedLine
  errors : List LineError

namespace Scan

def start : Scan := ⟨0, .empty, [], []⟩

def report (scan : Scan) (number : Nat) (cause : Cause) : Scan :=
  { scan with errors := scan.errors ++ [⟨number, cause⟩] }

def define (scan : Scan) (number : Nat) (name : List Char) : Scan :=
  if !isLabelName name then scan.report number (.invalidLabel (String.ofList name))
  else if addressSpace ≤ scan.address then scan.report number .programTooLarge
  else
    match scan.labels.lookup? (String.ofList name) with
    | some first => scan.report number (.duplicateLabel (String.ofList name) first.line)
    | none => { scan with labels := scan.labels.define ⟨String.ofList name, scan.address, number⟩ }

def defineLabel (scan : Scan) (line : Line) : Scan :=
  match line.label with
  | some name => scan.define line.number name
  | none => scan

def read (scan : Scan) (line : Line) : Scan :=
  let scan := scan.defineLabel line
  if !line.hasInstruction then scan
  else if addressSpace ≤ scan.address then scan.report line.number .programTooLarge
  else
    { scan with
      address := scan.address + 1
      instructions := scan.instructions ++ [⟨scan.address, line⟩] }

def encode (labels : LabelTable) (found : List ListingEntry × List LineError) (placed : PlacedLine) :
    List ListingEntry × List LineError :=
  match parseInstruction labels placed.address placed.line.text with
  | .ok instruction =>
    (found.1 ++
      [⟨placed.address, placed.line.number, String.ofList placed.line.text, instruction.encode⟩], found.2)
  | .error cause => (found.1, found.2 ++ [⟨placed.line.number, cause⟩])

def finish (scan : Scan) : Assembly :=
  let found := scan.instructions.foldl (encode scan.labels) ([], scan.errors)
  { labels := scan.labels
    listing := found.1
    errors := found.2.mergeSort fun a b => a.line ≤ b.line }

end Scan

def scan (lines : List Line) : Scan := lines.foldl Scan.read .start

namespace PlacedLine

def isKept (placed : PlacedLine) : Bool := placed.line.hasInstruction && placed.address < addressSpace

def isDropped (placed : PlacedLine) : Bool := placed.line.hasInstruction && addressSpace ≤ placed.address

def firstErrors (labels : LabelTable) (placed : PlacedLine) : List LineError :=
  placed.labelErrors labels ++
    if placed.isDropped then [⟨placed.line.number, .programTooLarge⟩] else []

def secondErrors (labels : LabelTable) (placed : PlacedLine) : List LineError :=
  if placed.isKept then placed.instructionErrors labels else []

theorem errors_eq_passes (labels : LabelTable) (placed : PlacedLine) :
    placed.errors labels = placed.firstErrors labels ++ placed.secondErrors labels := by
  rw [errors_eq_append, firstErrors, secondErrors, List.append_assoc]
  refine congrArg (placed.labelErrors labels ++ ·) ?_
  cases used : placed.line.hasInstruction with
  | false => simp [isDropped, isKept, instructionErrors, instructionCause?, used]
  | true =>
    by_cases beyond : addressSpace ≤ placed.address
    · have outside : ¬placed.address < addressSpace := Nat.not_lt.2 beyond
      simp [isDropped, isKept, instructionErrors, instructionCause?, instruction, used, beyond, outside]
    · have inside : placed.address < addressSpace := Nat.not_le.1 beyond
      simp [isDropped, isKept, used, beyond, inside]

variable {labels : LabelTable} {placed : PlacedLine} {error : LineError}

theorem line_of_mem_firstErrors (member : error ∈ placed.firstErrors labels) :
    error.line = placed.line.number := by
  apply line_of_mem_errors
  rw [errors_eq_passes]
  exact List.mem_append_left _ member

theorem line_of_mem_secondErrors (member : error ∈ placed.secondErrors labels) :
    error.line = placed.line.number := by
  apply line_of_mem_errors
  rw [errors_eq_passes]
  exact List.mem_append_right _ member

end PlacedLine

section

variable {lines : List PlacedLine}

theorem labelErrors_append {placed : PlacedLine} (member : placed ∈ lines) (later : List PlacedLine) :
    placed.labelErrors (collectLabels (lines ++ later)) = placed.labelErrors (collectLabels lines) := by
  suffices same : placed.labelCause? (collectLabels (lines ++ later)) =
      placed.labelCause? (collectLabels lines) by
    rw [PlacedLine.labelErrors, same, PlacedLine.labelErrors]
  unfold PlacedLine.labelCause?
  cases named : placed.line.label with
  | none => rfl
  | some name =>
    by_cases valid : isLabelName name = true ∧ placed.address < addressSpace
    · have defined := PlacedLine.definition?_eq_some.2 ⟨name, named, valid.1, valid.2, rfl⟩
      obtain ⟨first, found⟩ := lookup?_of_definition member defined
      have still : (collectLabels (lines ++ later)).lookup? (String.ofList name) = some first := by
        rw [lookup?_collectLabels] at found
        rw [lookup?_collectLabels, List.filterMap_append, List.find?_append, found, Option.some_or]
      simp only [Option.bind_some, still, found]
    · simp only [Option.bind_some]
      split
      · rfl
      · rename_i wellFormed
        have beyond : addressSpace ≤ placed.address :=
          Nat.not_lt.1 fun room => valid ⟨by simpa using wellFormed, room⟩
        simp [beyond]

theorem flatMap_firstErrors_concat (placed : PlacedLine) :
    (lines ++ [placed]).flatMap (·.firstErrors (collectLabels (lines ++ [placed]))) =
      lines.flatMap (·.firstErrors (collectLabels lines)) ++
        placed.firstErrors (collectLabels (lines ++ [placed])) := by
  rw [List.flatMap_append, List.flatMap_singleton]
  refine congrArg (· ++ _) (List.flatMap_congr fun earlier member => ?_)
  rw [PlacedLine.firstErrors, PlacedLine.firstErrors, labelErrors_append member]

/-- The first pass after some lines, where the next one would stand at `address`. -/
def Scan.after (lines : List PlacedLine) (address : Nat) : Scan :=
  { address := min address addressSpace
    labels := collectLabels lines
    instructions := lines.filter (·.isKept)
    errors := lines.flatMap (·.firstErrors (collectLabels lines)) }

theorem collectLabels_concat (placed : PlacedLine) :
    collectLabels (lines ++ [placed]) =
      match placed.definition? with
      | some label => (collectLabels lines).define label
      | none => collectLabels lines := by
  rw [collectLabels, List.filterMap_append, List.foldl_append]
  cases defined : placed.definition? with
  | none => simp [defined, collectLabels]
  | some label => simp [defined, collectLabels]

theorem LabelTable.define_of_taken {table : LabelTable} (label : Label) {first : Label}
    (taken : table.lookup? label.name = some first) : table.define label = table := by
  simp [define, taken]

theorem line_lt_of_lookup? {number : Nat} (ordered : ∀ placed ∈ lines, placed.line.number < number)
    {name : String} {first : Label} (found : (collectLabels lines).lookup? name = some first) :
    first.line < number := by
  rw [lookup?_collectLabels] at found
  obtain ⟨placed, member, defined⟩ := List.mem_filterMap.1 (List.mem_of_find?_eq_some found)
  obtain ⟨_, -, -, -, rfl⟩ := PlacedLine.definition?_eq_some.1 defined
  exact ordered placed member

theorem Scan.defineLabel_after {address : Nat} {line : Line}
    (ordered : ∀ placed ∈ lines, placed.line.number < line.number) :
    (Scan.after lines address).defineLabel line =
      { Scan.after lines address with
        labels := collectLabels (lines ++ [⟨address, line⟩])
        errors := (Scan.after lines address).errors ++
          PlacedLine.labelErrors (collectLabels (lines ++ [⟨address, line⟩])) ⟨address, line⟩ } := by
  rw [collectLabels_concat]
  cases named : line.label with
  | none =>
    have silent : PlacedLine.definition? ⟨address, line⟩ = none := by simp [PlacedLine.definition?, named]
    simp [defineLabel, named, silent, PlacedLine.labelErrors, PlacedLine.labelCause?, after]
  | some name =>
    simp only [defineLabel, named, define]
    by_cases malformed : isLabelName name = false
    · have silent : PlacedLine.definition? ⟨address, line⟩ = none := by
        simp [PlacedLine.definition?, named, malformed]
      simp [malformed, silent, PlacedLine.labelErrors, PlacedLine.labelCause?, named, after, report]
    · have wellFormed : isLabelName name = true := by simpa using malformed
      by_cases beyond : addressSpace ≤ address
      · have silent : PlacedLine.definition? ⟨address, line⟩ = none := by
          simp [PlacedLine.definition?, named, beyond]
        simp [wellFormed, silent, beyond, PlacedLine.labelErrors, PlacedLine.labelCause?, named, after, report]
      · have defined : PlacedLine.definition? ⟨address, line⟩ =
            some ⟨String.ofList name, address, line.number⟩ :=
          PlacedLine.definition?_eq_some.2 ⟨name, named, wellFormed, Nat.not_le.1 beyond, rfl⟩
        have here : min address addressSpace = address := min_eq_left (Nat.not_le.1 beyond).le
        cases found : (collectLabels lines).lookup? (String.ofList name) with
        | none =>
          simp [wellFormed, beyond, here, defined, found, PlacedLine.labelErrors, PlacedLine.labelCause?,
            named, after, LabelTable.lookup?_define]
        | some first =>
          have earlier := line_lt_of_lookup? ordered found
          have same := LabelTable.define_of_taken ⟨String.ofList name, address, line.number⟩ found
          simp [wellFormed, beyond, here, defined, found, PlacedLine.labelErrors, PlacedLine.labelCause?,
            named, after, report, same, Nat.ne_of_lt earlier]

theorem Scan.read_after (address : Nat) {line : Line}
    (ordered : ∀ placed ∈ lines, placed.line.number < line.number) :
    (Scan.after lines address).read line =
      Scan.after (lines ++ [⟨address, line⟩]) (line.next address) := by
  have own (labels : LabelTable) : PlacedLine.firstErrors labels ⟨address, line⟩ =
      PlacedLine.labelErrors labels ⟨address, line⟩ ++
        if PlacedLine.isDropped ⟨address, line⟩ then [⟨line.number, .programTooLarge⟩] else [] := rfl
  rw [read, defineLabel_after ordered]
  simp only [after, flatMap_firstErrors_concat, own, List.filter_append, List.filter_singleton]
  by_cases used : line.hasInstruction = true
  · have next : line.next address = address + 1 := if_pos used
    by_cases beyond : addressSpace ≤ address
    · have full : min (line.next address) addressSpace = min address addressSpace := by omega
      have outside : ¬address < addressSpace := Nat.not_lt.2 beyond
      simp [report, PlacedLine.isKept, PlacedLine.isDropped, used, beyond, outside, full]
    · have inside : address < addressSpace := Nat.not_le.1 beyond
      have here : min address addressSpace = address := by omega
      have room : min (line.next address) addressSpace = address + 1 := by omega
      simp [PlacedLine.isKept, PlacedLine.isDropped, used, beyond, inside, here, room]
  · simp [Line.next, PlacedLine.isKept, PlacedLine.isDropped, used]

end

theorem scan_concat (lines : List Line) (line : Line) : scan (lines ++ [line]) = (scan lines).read line := by
  rw [scan, List.foldl_append]
  rfl

theorem scan_eq {lines : List Line} (ordered : lines.Pairwise (·.number < ·.number)) :
    scan lines = Scan.after (place lines) (lines.foldl Line.next 0) := by
  -- From the end, as the pass goes: whether a label is a duplicate depends on the lines before it alone.
  induction lines using List.reverseRecOn with
  | nil => rfl
  | append_singleton lines line ih =>
    obtain ⟨earlier, -, before⟩ := List.pairwise_append.1 ordered
    have numbered : ∀ placed ∈ place lines, placed.line.number < line.number := by
      intro placed member
      have listed : placed.line ∈ lines := by
        rw [← map_line_placeFrom 0 lines]
        exact List.mem_map_of_mem member
      exact before _ listed line (List.mem_singleton_self line)
    have step := Scan.read_after (lines.foldl Line.next 0) numbered
    have placed : place (lines ++ [line]) = place lines ++ [⟨lines.foldl Line.next 0, line⟩] :=
      placeFrom_append 0 lines [line]
    rw [scan_concat, ih earlier, step, placed, List.foldl_append]
    rfl

theorem foldl_encode (labels : LabelTable) (found : List ListingEntry × List LineError)
    {kept : List PlacedLine} (all : ∀ placed ∈ kept, placed.isKept = true) :
    kept.foldl (Scan.encode labels) found =
      (found.1 ++ kept.filterMap (·.listed? labels),
        found.2 ++ kept.flatMap (·.instructionErrors labels)) := by
  induction kept generalizing found with
  | nil => simp
  | cons placed kept ih =>
    obtain ⟨first, rest⟩ := List.forall_mem_cons.1 all
    obtain ⟨used, inside⟩ : placed.line.hasInstruction = true ∧ ¬addressSpace ≤ placed.address := by
      simpa [PlacedLine.isKept] using first
    rw [List.foldl_cons, ih _ rest, List.filterMap_cons, List.flatMap_cons]
    cases spelled : parseInstruction labels placed.address placed.line.text with
    | ok instruction =>
      simp [Scan.encode, PlacedLine.listed?, PlacedLine.instructionErrors, PlacedLine.instructionCause?,
        PlacedLine.instruction, used, inside, spelled]
    | error cause =>
      simp [Scan.encode, PlacedLine.listed?, PlacedLine.instructionErrors, PlacedLine.instructionCause?,
        PlacedLine.instruction, used, inside, spelled]

theorem filterMap_listed?_isKept (labels : LabelTable) (lines : List PlacedLine) :
    (lines.filter (·.isKept)).filterMap (·.listed? labels) = lines.filterMap (·.listed? labels) := by
  rw [List.filterMap_filter]
  apply List.filterMap_congr
  intro placed _
  split
  · rfl
  · rename_i dropped
    symm
    by_contra listed
    obtain ⟨entry, given⟩ := Option.ne_none_iff_exists'.1 listed
    obtain ⟨_, -, room, -⟩ := exists_of_listed? given
    exact dropped (by simp [PlacedLine.isKept, hasInstruction_of_listed? given, room])

theorem flatMap_secondErrors (labels : LabelTable) (lines : List PlacedLine) :
    lines.flatMap (·.secondErrors labels) =
      (lines.filter (·.isKept)).flatMap (·.instructionErrors labels) := by
  induction lines with
  | nil => rfl
  | cons placed lines ih =>
    rw [List.flatMap_cons, ih, List.filter_cons, PlacedLine.secondErrors]
    split <;> simp

section

variable {α : Type} (key : α → Nat)

/-- A stable sort keeps the order of what has one key. -/
theorem filter_mergeSort (list : List α) (k : Nat) :
    (list.mergeSort fun a b => key a ≤ key b).filter (key · = k) = list.filter (key · = k) := by
  have alike : (list.filter (key · = k)).Pairwise fun a b => decide (key a ≤ key b) = true := by
    apply List.pairwise_of_forall_mem_list
    intro a memberA b memberB
    have sameA : key a = k := by simpa using (List.mem_filter.1 memberA).2
    have sameB : key b = k := by simpa using (List.mem_filter.1 memberB).2
    simp [sameA, sameB]
  have inside := List.sublist_mergeSort (by simpa using fun a b c => Nat.le_trans)
    (by simpa using fun a b => Nat.le_total (key a) (key b)) alike List.filter_sublist
  have within := inside.filter (key · = k)
  rw [List.filter_filter] at within
  simp only [Bool.and_self] at within
  refine (within.eq_of_length ?_).symm
  exact ((List.mergeSort_perm list _).filter _).length_eq.symm

theorem pairwise_mergeSort (list : List α) :
    (list.mergeSort fun a b => key a ≤ key b).Pairwise (key · ≤ key ·) := by
  refine (List.pairwise_mergeSort ?_ ?_ list).imp of_decide_eq_true
  · simpa using fun a b c => Nat.le_trans
  · simpa using fun a b => Nat.le_total (key a) (key b)

variable {key}

theorem mem_iff_of_filter {a b : List α} (same : ∀ k, a.filter (key · = k) = b.filter (key · = k))
    (x : α) : x ∈ a ↔ x ∈ b := by
  have here := congrArg (x ∈ ·) (same (key x))
  simpa using here

/-- Lists in the order of their keys are known by what they hold for each key. -/
theorem eq_of_filter {a b : List α} (sortedA : a.Pairwise (key · ≤ key ·))
    (sortedB : b.Pairwise (key · ≤ key ·))
    (same : ∀ k, a.filter (key · = k) = b.filter (key · = k)) : a = b := by
  induction a generalizing b with
  | nil =>
    symm
    rw [List.eq_nil_iff_forall_not_mem]
    intro x held
    simpa using (mem_iff_of_filter same x).2 held
  | cons x a ih =>
    cases b with
    | nil => simpa using mem_iff_of_filter same x
    | cons y b =>
      obtain ⟨leastA, restA⟩ := List.pairwise_cons.1 sortedA
      obtain ⟨leastB, restB⟩ := List.pairwise_cons.1 sortedB
      have keys : key x = key y := by
        apply Nat.le_antisymm
        · rcases List.mem_cons.1 ((mem_iff_of_filter same y).2 List.mem_cons_self) with rfl | held
          · exact le_rfl
          · exact leastA y held
        · rcases List.mem_cons.1 ((mem_iff_of_filter same x).1 List.mem_cons_self) with rfl | held
          · exact le_rfl
          · exact leastB x held
      have heads := same (key x)
      rw [List.filter_cons_of_pos (by simp), List.filter_cons_of_pos (by simp [keys])] at heads
      obtain ⟨rfl, -⟩ := List.cons.inj heads
      refine congrArg (x :: ·) (ih restA restB fun k => ?_)
      have here := same k
      rw [List.filter_cons, List.filter_cons] at here
      split at here
      · exact (List.cons.inj here).2
      · exact here

end

theorem mergeSort_passes (labels : LabelTable) (source : String) :
    ((place (sourceLines source.toList)).flatMap (·.firstErrors labels) ++
        (place (sourceLines source.toList)).flatMap (·.secondErrors labels)).mergeSort
          (fun a b => a.line ≤ b.line) =
      (place (sourceLines source.toList)).flatMap (·.errors labels) := by
  refine eq_of_filter (pairwise_mergeSort LineError.line _) (ordered_errors (pairwise_place source) labels) ?_
  intro number
  rw [filter_mergeSort LineError.line, List.filter_append,
    filter_flatMap_number fun _ _ => PlacedLine.line_of_mem_firstErrors,
    filter_flatMap_number fun _ _ => PlacedLine.line_of_mem_secondErrors,
    filter_flatMap_number fun _ _ => PlacedLine.line_of_mem_errors]
  rcases filter_number_place source number with one | ⟨none, -⟩
  · simp [one, PlacedLine.errors_eq_passes]
  · simp [none]

/-- Two passes over a source and a stable sort of their errors give its assembly. -/
theorem finish_scan (source : String) : (scan (sourceLines source.toList)).finish = ofSource source := by
  have numbered : (sourceLines source.toList).Pairwise (·.number < ·.number) := by
    rw [← map_line_placeFrom 0 (sourceLines source.toList), List.pairwise_map]
    exact pairwise_place source
  have kept : ∀ placed ∈ (place (sourceLines source.toList)).filter (·.isKept), placed.isKept = true :=
    fun _ member => (List.mem_filter.1 member).2
  rw [scan_eq numbered, Scan.finish]
  simp only [Scan.after, foldl_encode _ _ kept, List.nil_append, filterMap_listed?_isKept,
    ← flatMap_secondErrors, mergeSort_passes]
  rfl

end Harvard16.Assembly
