import Harvard16.Proofs.Listing
import Harvard16.Proofs.NewLabels
import Harvard16.Proofs.SourceLines

/-! Sources one after another. Behind another source, a line stands as many addresses on as that has
instruction lines, and as many line numbers on as it has lines. An instruction asks a label for
nothing but its distance, which does not change when both are moved. So lines that are correct on
their own are so in any source that holds their labels, and give there what they gave, moved. -/
namespace Harvard16

theorem Text.lines_append (before after : List Char) :
    Text.lines (before ++ '\n' :: after) = Text.lines before ++ Text.lines after :=
  List.splitOn_append_cons_self ..

namespace Assembly

def Line.moved (lines : Nat) (line : Line) : Line := { line with number := line.number + lines }

def PlacedLine.moved (words lines : Nat) (placed : PlacedLine) : PlacedLine :=
  ⟨placed.address + words, placed.line.moved lines⟩

def Label.moved (words lines : Nat) (label : Label) : Label :=
  { label with address := label.address + words, line := label.line + lines }

end Assembly

def ListingEntry.moved (words lines : Nat) (entry : ListingEntry) : ListingEntry :=
  { entry with address := entry.address + words, line := entry.line + lines }

theorem ListingEntry.map_word_moved (words lines : Nat) (entries : List ListingEntry) :
    (entries.map (ListingEntry.moved words lines)).map (·.word) = entries.map (·.word) := by
  rw [List.map_map]
  exact List.map_congr_left fun _ _ => rfl

namespace Assembly

theorem read_moved (number lines : Nat) (raw : List Char) :
    Line.read (number + lines) raw = (Line.read number raw).moved lines := by
  rw [read_eq, read_eq]
  rfl

theorem sourceLines_append (before after : List Char) :
    sourceLines (before ++ '\n' :: after) =
      sourceLines before ++ (sourceLines after).map (Line.moved (Text.lines before).length) := by
  rw [sourceLines, Text.lines_append, List.zipIdx_append, List.map_append]
  refine congrArg (sourceLines before ++ ·) ?_
  rw [sourceLines, List.map_map, Nat.add_comm 1, ← List.map_snd_add_zipIdx_eq_zipIdx, List.map_map]
  apply List.map_congr_left
  rintro ⟨raw, number⟩ -
  exact read_moved number _ raw

theorem placeFrom_moved (start words lines : Nat) (ls : List Line) :
    placeFrom (start + words) (ls.map (Line.moved lines)) =
      (placeFrom start ls).map (PlacedLine.moved words lines) := by
  induction ls generalizing start with
  | nil => rfl
  | cons line ls ih =>
    have next : (line.moved lines).next (start + words) = line.next start + words := by
      have used : (line.moved lines).hasInstruction = line.hasInstruction := rfl
      rw [Line.next, Line.next, used]
      split <;> omega
    rw [List.map_cons, placeFrom_cons, placeFrom_cons, List.map_cons, next, ih]
    rfl

theorem place_append (first second : String) :
    place (sourceLines (first ++ "\n" ++ second).toList) =
      place (sourceLines first.toList) ++
        (place (sourceLines second.toList)).map
          (PlacedLine.moved ((sourceLines first.toList).countP Line.hasInstruction)
            (Text.lines first.toList).length) := by
  have text : (first ++ "\n" ++ second).toList = first.toList ++ '\n' :: second.toList := by
    simp [String.toList_append]
  rw [text, place, sourceLines_append, placeFrom_append, foldl_next, ← List.countP_eq_length_filter]
  exact congrArg _ (placeFrom_moved 0 _ _ _)

theorem address_le {lines : List Line} {placed : PlacedLine} {start : Nat}
    (member : placed ∈ placeFrom start lines) :
    placed.address ≤ start + lines.countP Line.hasInstruction := by
  induction lines generalizing start with
  | nil => cases member
  | cons line lines ih =>
    rw [placeFrom_cons] at member
    rw [List.countP_cons]
    rcases List.mem_cons.1 member with rfl | later
    · exact Nat.le_add_right _ _
    · have behind := ih later
      rw [Line.next] at behind
      split at behind <;> rename_i used <;> simp [used] <;> omega

/-- Lines that can be moved so many addresses on inside of the address space. -/
def HasRoom (words : Nat) (part : List PlacedLine) : Prop :=
  ∀ placed ∈ part, placed.address + words < addressSpace

theorem hasRoom_place {words : Nat} {lines : List Line}
    (few : words + lines.countP Line.hasInstruction < addressSpace) : HasRoom words (place lines) := by
  intro placed member
  have within := address_le member
  omega

/-- What finds every label of the first table at the same distance in the second. -/
def Finds (labels : LabelTable) (address : Nat) (others : LabelTable) (place : Nat) : Prop :=
  ∀ name label, labels.lookup? name = some label →
    ∃ other, others.lookup? name = some other ∧
      (other.address : Int) - place = label.address - address

section

variable {labels others : LabelTable} {address place : Nat} (finds : Finds labels address others place)
include finds

theorem branchTarget_of_finds {field : Field} {text : List Char} {offset : Int}
    (found : branchTarget labels field address text = .ok offset) :
    branchTarget others field place text = .ok offset := by
  unfold branchTarget at found ⊢
  split
  · rename_i numeric
    rwa [if_pos numeric] at found
  · rename_i named
    rw [if_neg named] at found
    split at found
    · rename_i label held
      obtain ⟨other, same, equal⟩ := finds _ label held
      rw [same]
      simp only [distance] at found ⊢
      rw [equal, found]
    · cases found

theorem instructionOf_of_finds {op : Opcode} {operands : List (List Char)} {instruction : Instruction}
    (spelled : instructionOf labels address op operands = .ok instruction) :
    instructionOf others place op operands = .ok instruction := by
  unfold instructionOf at spelled
  split at spelled
  -- Nothing but a branch or a jump looks at the labels.
  case h_4 format =>
    obtain ⟨rs1, first, spelled⟩ := bind_eq_ok_iff.1 spelled
    obtain ⟨rs2, second, spelled⟩ := bind_eq_ok_iff.1 spelled
    obtain ⟨offset, found, spelled⟩ := bind_eq_ok_iff.1 spelled
    simp only [instructionOf, format, first, second, branchTarget_of_finds finds found]
    exact spelled
  case h_5 format =>
    obtain ⟨rd, register, spelled⟩ := bind_eq_ok_iff.1 spelled
    obtain ⟨offset, found, spelled⟩ := bind_eq_ok_iff.1 spelled
    simp only [instructionOf, format, register, branchTarget_of_finds finds found]
    exact spelled
  case h_1 format => simpa only [instructionOf, format] using spelled
  case h_2 format => simpa only [instructionOf, format] using spelled
  case h_3 format => simpa only [instructionOf, format] using spelled
  case h_6 format => simpa only [instructionOf, format] using spelled
  all_goals cases spelled

theorem parseInstruction_of_finds {text : List Char} {instruction : Instruction}
    (spelled : parseInstruction labels address text = .ok instruction) :
    parseInstruction others place text = .ok instruction := by
  unfold parseInstruction at spelled ⊢
  dsimp only at spelled ⊢
  split
  · rename_i unknown
    rw [unknown] at spelled
    cases spelled
  · rename_i op known
    rw [known] at spelled
    exact instructionOf_of_finds finds spelled

end

theorem toList_of_correct {lines : List PlacedLine}
    (ordered : lines.Pairwise (·.line.number < ·.line.number)) (correct : (ofLines lines).errors = []) :
    (ofLines lines).labels.toList = lines.filterMap (·.definition?) := by
  have kept : ∀ placed ∈ lines, placed.newLabel? (collectLabels lines) = placed.definition? := by
    intro placed member
    cases defined : placed.definition? with
    | none => simp [PlacedLine.newLabel?, defined]
    | some label =>
      obtain ⟨name, named, -⟩ := PlacedLine.definition?_eq_some.1 defined
      have new := newLabel?_isSome ordered member named
      have silent : placed.labelCause? (collectLabels lines) = none := labelCause?_of_correct correct member
      rw [silent] at new
      obtain ⟨first, found⟩ := Option.isSome_iff_exists.1 new
      have same := (Option.filter_eq_some_iff.1 found).1
      rw [found, ← same, defined]
  exact (toList_collectLabels ordered).trans (List.filterMap_congr kept)

theorem definition?_moved {placed : PlacedLine} {words : Nat}
    (room : placed.address + words < addressSpace) (lines : Nat) :
    (placed.moved words lines).definition? = placed.definition?.map (Label.moved words lines) := by
  have before : placed.address < addressSpace := Nat.lt_of_le_of_lt (Nat.le_add_right _ _) room
  simp only [PlacedLine.definition?, PlacedLine.moved, Line.moved, room, before, and_true]
  cases placed.line.label with
  | none => rfl
  | some name =>
    simp only [Option.bind_some]
    split <;> rfl

theorem definitions_moved {part : List PlacedLine} {words : Nat} (room : HasRoom words part) (lines : Nat) :
    (part.map (PlacedLine.moved words lines)).filterMap (·.definition?) =
      (part.filterMap (·.definition?)).map (Label.moved words lines) := by
  rw [List.filterMap_map, List.map_filterMap]
  exact List.filterMap_congr fun placed member => definition?_moved (room placed member) lines

/-- A table that holds the labels of some lines for where they are moved. -/
structure Hosts (whole : LabelTable) (part : List PlacedLine) (words lines : Nat) : Prop where
  labels : ∀ name label, (collectLabels part).lookup? name = some label →
    whole.lookup? name = some (label.moved words lines)
  room : HasRoom words part

section

variable {whole : LabelTable} {part : List PlacedLine} {words lines : Nat}
  (hosts : Hosts whole part words lines)
include hosts

theorem Hosts.finds (address : Nat) : Finds (collectLabels part) address whole (address + words) := by
  intro name label held
  refine ⟨label.moved words lines, hosts.labels name label held, ?_⟩
  simp only [Label.moved]
  omega

variable (correct : (ofLines part).errors = [])
include correct

theorem Hosts.instruction {placed : PlacedLine} (member : placed ∈ part)
    (used : placed.line.hasInstruction = true) :
    ∃ instruction, placed.instruction (collectLabels part) = .ok instruction ∧
      (placed.moved words lines).instruction whole = .ok instruction := by
  have silent : placed.instructionCause? (collectLabels part) = none :=
    instructionCause?_of_correct correct member
  rw [PlacedLine.instructionCause?, if_pos used] at silent
  split at silent
  · rename_i instruction spelled
    refine ⟨instruction, spelled, ?_⟩
    have room := hosts.room placed member
    have before : ¬addressSpace ≤ placed.address := by omega
    have behind : ¬addressSpace ≤ (placed.moved words lines).address := Nat.not_le.2 room
    rw [PlacedLine.instruction, if_neg before] at spelled
    rw [PlacedLine.instruction, if_neg behind]
    exact parseInstruction_of_finds (hosts.finds placed.address) spelled
  · cases silent

theorem Hosts.listed? {placed : PlacedLine} (member : placed ∈ part) :
    (placed.moved words lines).listed? whole =
      (placed.listed? (collectLabels part)).map (ListingEntry.moved words lines) := by
  have same : (placed.moved words lines).line.hasInstruction = placed.line.hasInstruction := rfl
  cases used : placed.line.hasInstruction with
  | true =>
    obtain ⟨instruction, spelled, moved⟩ := hosts.instruction correct member used
    simp only [PlacedLine.listed?, same, used, if_true, spelled, moved]
    rfl
  | false => simp [PlacedLine.listed?, same, used]

theorem Hosts.instructionCause? {placed : PlacedLine} (member : placed ∈ part) :
    (placed.moved words lines).instructionCause? whole = none := by
  have same : (placed.moved words lines).line.hasInstruction = placed.line.hasInstruction := rfl
  cases used : placed.line.hasInstruction with
  | true =>
    obtain ⟨instruction, -, moved⟩ := hosts.instruction correct member used
    simp only [PlacedLine.instructionCause?, same, used, if_true, moved]
  | false => simp [PlacedLine.instructionCause?, same, used]

theorem Hosts.labelCause? {placed : PlacedLine} (member : placed ∈ part) :
    (placed.moved words lines).labelCause? whole = none := by
  have silent : placed.labelCause? (collectLabels part) = none := labelCause?_of_correct correct member
  have same : (placed.moved words lines).line.label = placed.line.label := rfl
  cases named : placed.line.label with
  | none => simp [PlacedLine.labelCause?, same, named]
  | some name =>
    have room := hosts.room placed member
    have before : placed.address < addressSpace := Nat.lt_of_le_of_lt (Nat.le_add_right _ _) room
    have behind : ¬addressSpace ≤ (placed.moved words lines).address := Nat.not_le.2 room
    simp only [PlacedLine.labelCause?, named, Option.bind_some, if_neg (Nat.not_le.2 before)] at silent
    split at silent
    · cases silent
    · rename_i wellFormed
      obtain ⟨first, held⟩ := lookup?_of_definition member
        (PlacedLine.definition?_eq_some.2 ⟨name, named, by simpa using wellFormed, before, rfl⟩)
      have own : first.line = placed.line.number := by
        simpa [held] using silent
      have moved := hosts.labels _ first held
      have ownMoved : (first.moved words lines).line = (placed.moved words lines).line.number :=
        congrArg (· + lines) own
      simp only [PlacedLine.labelCause?, same, named, Option.bind_some, if_neg wellFormed, if_neg behind, moved,
        if_pos ownMoved]

theorem Hosts.errors :
    (part.map (PlacedLine.moved words lines)).flatMap (·.errors whole) = [] := by
  rw [List.flatMap_map, List.flatMap_eq_nil_iff]
  intro placed member
  rw [PlacedLine.errors, hosts.labelCause? correct member, hosts.instructionCause? correct member]
  rfl

theorem Hosts.listing :
    (part.map (PlacedLine.moved words lines)).filterMap (·.listed? whole) =
      (ofLines part).listing.map (ListingEntry.moved words lines) := by
  have each : part.filterMap (fun placed => (placed.moved words lines).listed? whole) =
      part.filterMap fun placed =>
        (placed.listed? (collectLabels part)).map (ListingEntry.moved words lines) :=
    List.filterMap_congr fun _ member => hosts.listed? correct member
  rw [List.filterMap_map, ofLines, List.map_filterMap]
  exact each

end

section

variable {before after : List PlacedLine} {words : Nat}

theorem lookup?_append (room : HasRoom words after) (lines : Nat) (name : String) :
    (collectLabels (before ++ after.map (PlacedLine.moved words lines))).lookup? name =
      ((collectLabels before).lookup? name).or
        (((collectLabels after).lookup? name).map (Label.moved words lines)) := by
  rw [lookup?_collectLabels, List.filterMap_append, definitions_moved room, List.find?_append, List.find?_map,
    lookup?_collectLabels, lookup?_collectLabels]
  rfl

theorem hosts_before (space : HasRoom 0 before) (room : HasRoom words after) (lines : Nat) :
    Hosts (collectLabels (before ++ after.map (PlacedLine.moved words lines))) before 0 0 := by
  refine ⟨?_, space⟩
  intro name label held
  rw [lookup?_append room lines, held]
  rfl

theorem hosts_after (room : HasRoom words after)
    (disjoint : ∀ name, (ofLines before).label? name = none ∨ (ofLines after).label? name = none)
    (lines : Nat) :
    Hosts (collectLabels (before ++ after.map (PlacedLine.moved words lines))) after words lines := by
  refine ⟨?_, room⟩
  intro name label held
  have absent : (collectLabels before).lookup? name = none := by
    simpa [label?, ofLines, held] using disjoint name
  rw [lookup?_append room lines, absent, held]
  rfl

theorem label?_append (room : HasRoom words after) (lines : Nat) (name : String) :
    (ofLines (before ++ after.map (PlacedLine.moved words lines))).label? name =
      ((ofLines before).label? name).or (((ofLines after).label? name).map (· + words)) := by
  simp only [label?, ofLines, lookup?_append room lines, Option.map_or, Option.map_map]
  rfl

theorem ofLines_append (correct : (ofLines before).errors = [])
    (correctLater : (ofLines after).errors = []) (space : HasRoom 0 before) (room : HasRoom words after)
    (disjoint : ∀ name, (ofLines before).label? name = none ∨ (ofLines after).label? name = none)
    (lines : Nat) :
    (ofLines (before ++ after.map (PlacedLine.moved words lines))).errors = [] ∧
      (ofLines (before ++ after.map (PlacedLine.moved words lines))).listing =
        (ofLines before).listing ++ (ofLines after).listing.map (ListingEntry.moved words lines) := by
  have first := hosts_before space room lines
  have second := hosts_after room disjoint lines
  have still : before.map (PlacedLine.moved 0 0) = before := List.map_id'' (fun _ => rfl) before
  have stillListed : (ofLines before).listing.map (ListingEntry.moved 0 0) = (ofLines before).listing :=
    List.map_id'' (fun _ => rfl) _
  have errors := first.errors correct
  have listing := first.listing correct
  rw [still] at errors listing
  rw [stillListed] at listing
  constructor
  · rw [ofLines, List.flatMap_append, errors, second.errors correctLater]
    rfl
  · rw [ofLines, List.filterMap_append, listing, second.listing correctLater]

theorem labels_append (ordered : before.Pairwise (·.line.number < ·.line.number))
    (orderedLater : after.Pairwise (·.line.number < ·.line.number))
    (correct : (ofLines before).errors = []) (correctLater : (ofLines after).errors = [])
    (room : HasRoom words after) {lines : Nat}
    (orderedAll : (before ++ after.map (PlacedLine.moved words lines)).Pairwise
      (·.line.number < ·.line.number))
    (correctAll : (ofLines (before ++ after.map (PlacedLine.moved words lines))).errors = []) :
    (ofLines (before ++ after.map (PlacedLine.moved words lines))).labels.toList =
      (ofLines before).labels.toList ++ (ofLines after).labels.toList.map (Label.moved words lines) := by
  rw [toList_of_correct orderedAll correctAll, toList_of_correct ordered correct,
    toList_of_correct orderedLater correctLater, List.filterMap_append, definitions_moved room]

end

theorem length_words_of_correct {lines : List Line} (correct : (ofLines (place lines)).errors = []) :
    (ofLines (place lines)).words.length = lines.countP Line.hasInstruction := by
  rw [words, List.length_map, length_listing_of_correct correct, countP_place]

/-- Two sources without errors and without a common label, one after the other, give the words of the first
and then those of the second, and the labels of the second stand as many words on. -/
theorem ofSource_append (first second : String) (correct : (ofSource first).errors = [])
    (correctLater : (ofSource second).errors = [])
    (disjoint : ∀ name, (ofSource first).label? name = none ∨ (ofSource second).label? name = none)
    (room : (ofSource first).words.length + (ofSource second).words.length ≤ 65535) :
    let both := ofSource (first ++ "\n" ++ second)
    let words := (ofSource first).words.length
    let lines := (Text.lines first.toList).length
    both.errors = [] ∧
      both.words = (ofSource first).words ++ (ofSource second).words ∧
      both.listing =
        (ofSource first).listing ++ (ofSource second).listing.map (ListingEntry.moved words lines) ∧
      both.labels.toList =
        (ofSource first).labels.toList ++ (ofSource second).labels.toList.map (Label.moved words lines) ∧
      ∀ name, both.label? name =
        ((ofSource first).label? name).or (((ofSource second).label? name).map (· + words)) := by
  intro both words lines
  have counted : words = (sourceLines first.toList).countP Line.hasInstruction :=
    length_words_of_correct correct
  have countedLater : (ofSource second).words.length =
      (sourceLines second.toList).countP Line.hasInstruction :=
    length_words_of_correct correctLater
  have placed : place (sourceLines (first ++ "\n" ++ second).toList) = place (sourceLines first.toList) ++
      (place (sourceLines second.toList)).map (PlacedLine.moved words lines) := by
    rw [counted]
    exact place_append first second
  have space : HasRoom 0 (place (sourceLines first.toList)) :=
    hasRoom_place (by unfold addressSpace; omega)
  have roomLater : HasRoom words (place (sourceLines second.toList)) :=
    hasRoom_place (by unfold addressSpace; omega)
  have ordered := pairwise_place (first ++ "\n" ++ second)
  have whole := congrArg ofLines placed
  change both = _ at whole
  -- From here on it only matters how the lines are placed.
  clear_value both words lines
  subst whole
  rw [placed] at ordered
  obtain ⟨errors, listing⟩ := ofLines_append correct correctLater space roomLater disjoint lines
  refine ⟨errors, ?_, listing, ?_, fun name => label?_append roomLater lines name⟩
  · rw [Assembly.words, listing, List.map_append, ListingEntry.map_word_moved]
    rfl
  · exact labels_append (pairwise_place first) (pairwise_place second) correct correctLater roomLater ordered
      errors

def looping : String := "go: beq t0, t1, end\n jal x0, go\nend:"

def calling : String := "call: jal ra, done # once\ndone: halt"

theorem ofSource_append_calling :
    (ofSource looping).errors = [] ∧ (ofSource calling).errors = [] ∧
      (ofSource (looping ++ "\n" ++ calling)).errors = [] ∧
      (ofSource (looping ++ "\n" ++ calling)).words = [0xA562, 0xC0FF, 0xC101, 0xF000] ∧
      (ofSource (looping ++ "\n" ++ calling)).label? "end" = some 2 ∧
      (ofSource (looping ++ "\n" ++ calling)).label? "done" = some 3 := by
  have correct : (ofSource looping).errors = [] := by decide +kernel
  have correctLater : (ofSource calling).errors = [] := by decide +kernel
  have labels : (ofSource looping).labels.toList = [⟨"go", 0, 1⟩, ⟨"end", 2, 3⟩] := by decide +kernel
  have labelsLater : (ofSource calling).labels.toList = [⟨"call", 0, 1⟩, ⟨"done", 1, 2⟩] := by decide +kernel
  have words : (ofSource looping).words = [0xA562, 0xC0FF] := by decide +kernel
  have wordsLater : (ofSource calling).words = [0xC101, 0xF000] := by decide +kernel
  have disjoint (name : String) :
      (ofSource looping).label? name = none ∨ (ofSource calling).label? name = none := by
    simp only [label?, LabelTable.lookup?_eq_find?, labels, labelsLater]
    by_cases go : name = "go"
    · subst go
      exact .inr rfl
    · by_cases ends : name = "end"
      · subst ends
        exact .inr rfl
      · left
        simp [Ne.symm go, Ne.symm ends]
  have room : (ofSource looping).words.length + (ofSource calling).words.length ≤ 65535 := by
    rw [words, wordsLater]
    decide
  obtain ⟨errors, both, -, -, found⟩ := ofSource_append looping calling correct correctLater disjoint room
  refine ⟨correct, correctLater, errors, ?_, ?_, ?_⟩
  · rw [both, words, wordsLater]
    rfl
  · rw [found, label?, LabelTable.lookup?_eq_find?, labels]
    rfl
  · rw [found, label?, label?, LabelTable.lookup?_eq_find?, LabelTable.lookup?_eq_find?, labels, labelsLater,
      words]
    rfl

end Assembly

end Harvard16
