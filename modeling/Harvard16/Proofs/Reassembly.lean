import Harvard16.Instruction.Basic
import Harvard16.Proofs.Spelling

/-! Disassembly and assembly. Without its two columns a disassembly is a source text: the heading is
comments, and each row is the text of its word's instruction. Main statement: assembling it
gives the valid words in their order, no labels, and one error for each word that is not valid,
on the line of that word. -/
namespace Harvard16

namespace Text

theorem lines_flatMap {ls : List (List Char)} (whole : ∀ l ∈ ls, '\n' ∉ l) :
    lines (ls.flatMap (· ++ ['\n'])) = ls ++ [[]] := by
  induction ls with
  | nil => rfl
  | cons l ls ih =>
    obtain ⟨first, rest⟩ := List.forall_mem_cons.1 whole
    have tail := ih rest
    unfold lines at tail ⊢
    rw [List.flatMap_cons, List.append_assoc, List.singleton_append, List.splitOn_append_cons_self,
      List.splitOn_eq_singleton first, tail]
    rfl

theorem lines_flatMap_cons {first : List Char} {rest : List (List Char)} (head : '\n' ∉ first)
    (whole : ∀ l ∈ rest, '\n' ∉ l) : lines (first ++ rest.flatMap ('\n' :: ·)) = first :: rest := by
  induction rest generalizing first with
  | nil =>
    rw [List.flatMap_nil, List.append_nil]
    exact List.splitOn_eq_singleton head
  | cons l rest ih =>
    obtain ⟨second, others⟩ := List.forall_mem_cons.1 whole
    have tail := ih second others
    unfold lines at tail ⊢
    rw [List.flatMap_cons, List.cons_append, List.splitOn_append_cons_self, List.splitOn_eq_singleton head,
      tail]
    rfl

end Text

namespace Disassembly

/-- Every row without its address and its word, which take twelve characters; the rows start on the
fourth line. -/
def withoutColumns (text : String) : String :=
  let lines := Text.lines text.toList
  String.ofList (['\n'].intercalate (lines.take 3 ++ (lines.drop 3).map (·.drop 12)))

def headingLines : List (List Char) := ["# RV16 disassembly".toList, "# -----------------".toList, []]

theorem toList_text (words : List UInt16) :
    (text words).toList =
      (headingLines ++ words.zipIdx.map fun pair => (row pair.2 pair.1).toList).flatMap
        (· ++ ['\n']) := by
  have top : heading.toList = headingLines.flatMap (· ++ ['\n']) := by decide
  simp [text, top, String.toList_append, String.toList_join, List.flatMap_map]

theorem newline_text (instruction : Instruction) : '\n' ∉ instruction.text.toList := by
  rw [instruction.text_eq_spell]
  exact Assembly.absent_spell (Assembly.isWord_nameWord _) (Assembly.isWord_operandWords _)
    (fun w h member => absurd (Assembly.isBlank_of_mem h member) (by decide)) (by decide) (by decide)

def columns (address : Nat) (word : UInt16) : List Char :=
  (Text.upperHex 4 address).toList ++ ':' :: ' ' :: (Text.upperHex 4 word.toNat).toList ++ [' ', ' ']

theorem toList_row (address : Nat) (word : UInt16) :
    (row address word).toList = columns address word ++ (Instruction.decode word).text.toList := by
  simp [row, columns, toString]

theorem length_columns {address : Nat} (h : address < 65536) (word : UInt16) :
    (columns address word).length = 12 := by
  simp only [columns, List.length_append, List.length_cons, Assembly.length_upperHex h,
    Assembly.length_upperHex word.toNat_lt]
  rfl

theorem newline_row (address : Nat) (word : UInt16) : '\n' ∉ (row address word).toList := by
  simp [toList_row, columns, Assembly.newline_upperHex, newline_text]

theorem drop_row {address : Nat} (h : address < 65536) (word : UInt16) :
    (row address word).toList.drop 12 = (Instruction.decode word).text.toList := by
  rw [toList_row, List.drop_left' (length_columns h word)]

theorem map_drop_rows (words : List UInt16) {first : Nat} (h : first + words.length ≤ 65536) :
    ((words.zipIdx first).map fun pair => (row pair.2 pair.1).toList).map (·.drop 12) =
      words.map fun word => (Instruction.decode word).text.toList := by
  induction words generalizing first with
  | nil => rfl
  | cons word words ih =>
    rw [List.length_cons] at h
    have address : first < 65536 := by omega
    have rest : first + 1 + words.length ≤ 65536 := by omega
    simp only [List.zipIdx_cons, List.map_cons, drop_row address, ih rest]

theorem newline_headingLines : ∀ l ∈ headingLines, '\n' ∉ l := by decide

theorem lines_withoutColumns {words : List UInt16} (h : words.length ≤ 65536) :
    Text.lines (withoutColumns (text words)).toList =
      headingLines ++ (words.map fun word => (Instruction.decode word).text.toList) ++ [[]] := by
  have written : Text.lines (text words).toList = headingLines ++
      ((words.zipIdx.map fun pair => (row pair.2 pair.1).toList) ++ [[]]) := by
    rw [toList_text, Text.lines_flatMap, List.append_assoc]
    intro l member
    rcases List.mem_append.1 member with inHeading | inRows
    · exact newline_headingLines l inHeading
    · obtain ⟨pair, -, rfl⟩ := List.mem_map.1 inRows
      exact newline_row pair.2 pair.1
  have size : headingLines.length = 3 := rfl
  have inside : 0 + words.length ≤ 65536 := by omega
  have body := map_drop_rows words inside
  have cut : withoutColumns (text words) = String.ofList (['\n'].intercalate
      (headingLines ++ (words.map fun word => (Instruction.decode word).text.toList) ++ [[]])) := by
    simp only [withoutColumns, written, List.take_left' size, List.drop_left' size, List.map_append,
      body, List.append_assoc]
    rfl
  rw [cut, String.toList_ofList, Text.lines, List.splitOn_intercalate]
  · intro l member
    rcases List.mem_append.1 member with above | last
    · rcases List.mem_append.1 above with inHeading | inBody
      · exact newline_headingLines l inHeading
      · obtain ⟨word, -, rfl⟩ := List.mem_map.1 inBody
        exact newline_text _
    · rw [List.mem_singleton.1 last]
      exact List.not_mem_nil
  · simp

end Disassembly

namespace Assembly

theorem read_text (number : Nat) (instruction : Instruction) :
    Line.read number instruction.text.toList = ⟨number, none, instruction.text.toList⟩ := by
  rw [instruction.text_eq_spell]
  exact read_spell number (isWord_nameWord instruction) (isWord_operandWords instruction)

def bodyLines (first : Nat) (words : List UInt16) : List Line :=
  (words.zipIdx first).map fun pair => ⟨pair.2, none, (Instruction.decode pair.1).text.toList⟩

theorem hasInstruction_text (number : Nat) (instruction : Instruction) :
    Line.hasInstruction ⟨number, none, instruction.text.toList⟩ = true := by
  have nonempty : instruction.text.toList ≠ [] := by
    intro empty
    have tokens := tokens_text instruction
    rw [empty] at tokens
    cases tokens
  simp [Line.hasInstruction, nonempty]

variable (labels : LabelTable)

theorem instruction_text {address : Nat} (inside : address < addressSpace) (number : Nat)
    (word : UInt16) :
    PlacedLine.instruction labels ⟨address, ⟨number, none, (Instruction.decode word).text.toList⟩⟩ =
      if (Instruction.decode word).isValid then .ok (Instruction.decode word)
      else .error (.unknownMnemonic "unknown") := by
  rw [PlacedLine.instruction, if_neg (Nat.not_le_of_lt inside)]
  rcases Instruction.wellFormed_decode word with valid | invalid
  · have isValid : (Instruction.decode word).isValid = true := by
      cases shape : Instruction.decode word <;> first | rfl | exact (shape ▸ valid).elim
    rw [parseInstruction_text labels address valid, if_pos isValid]
  · rw [invalid, parseInstruction_invalid]
    rfl

theorem listed?_text {address : Nat} (inside : address < addressSpace) (number : Nat) (word : UInt16) :
    (PlacedLine.listed? labels ⟨address, ⟨number, none, (Instruction.decode word).text.toList⟩⟩).map
        (·.word) =
      if (Instruction.decode word).isValid then some word else none := by
  rw [PlacedLine.listed?, if_pos (hasInstruction_text number _), instruction_text labels inside]
  cases valid : (Instruction.decode word).isValid with
  | false => rfl
  | true => simp [Instruction.encode_decode]

theorem errors_text {address : Nat} (inside : address < addressSpace) (number : Nat) (word : UInt16) :
    PlacedLine.errors labels ⟨address, ⟨number, none, (Instruction.decode word).text.toList⟩⟩ =
      if (Instruction.decode word).isValid then [] else [⟨number, .unknownMnemonic "unknown"⟩] := by
  rw [PlacedLine.errors, PlacedLine.instructionCause?, if_pos (hasInstruction_text number _),
    instruction_text labels inside]
  cases valid : (Instruction.decode word).isValid <;> rfl

theorem body_cons (first : Nat) (word : UInt16) (words : List UInt16) (address : Nat) :
    placeFrom address (bodyLines first (word :: words)) =
      ⟨address, ⟨first, none, (Instruction.decode word).text.toList⟩⟩ ::
        placeFrom (address + 1) (bodyLines (first + 1) words) := by
  simp [bodyLines, Line.next, hasInstruction_text]

theorem words_body {words : List UInt16} {address : Nat} (first : Nat)
    (inside : address + words.length ≤ addressSpace) :
    ((placeFrom address (bodyLines first words)).filterMap (·.listed? labels)).map (·.word) =
      words.filter fun word => (Instruction.decode word).isValid := by
  induction words generalizing address first with
  | nil => rfl
  | cons word words ih =>
    rw [List.length_cons] at inside
    have here : address < addressSpace := by omega
    have rest : address + 1 + words.length ≤ addressSpace := by omega
    have given := listed?_text labels here first word
    have tail := ih (first + 1) rest
    rw [List.map_filterMap] at tail ⊢
    rw [body_cons, List.filterMap_cons, given, tail, List.filter_cons]
    cases (Instruction.decode word).isValid <;> rfl

theorem errors_body {words : List UInt16} {address : Nat} (first : Nat)
    (inside : address + words.length ≤ addressSpace) :
    (placeFrom address (bodyLines first words)).flatMap (·.errors labels) =
      ((words.zipIdx first).filter fun pair => !(Instruction.decode pair.1).isValid).map
        fun pair => ⟨pair.2, .unknownMnemonic "unknown"⟩ := by
  induction words generalizing address first with
  | nil => rfl
  | cons word words ih =>
    rw [List.length_cons] at inside
    have here : address < addressSpace := by omega
    have rest : address + 1 + words.length ≤ addressSpace := by omega
    have given := errors_text labels here first word
    rw [body_cons, List.flatMap_cons, given, ih (first + 1) rest, List.zipIdx_cons, List.filter_cons]
    cases (Instruction.decode word).isValid <;> rfl

def topLines : List Line := [⟨1, none, []⟩, ⟨2, none, []⟩, ⟨3, none, []⟩]

theorem sourceLines_withoutColumns {words : List UInt16} (h : words.length ≤ addressSpace) :
    sourceLines (Disassembly.withoutColumns (Disassembly.text words)).toList =
      topLines ++ (bodyLines 4 words ++ [⟨4 + words.length, none, []⟩]) := by
  have top : (Disassembly.headingLines.zipIdx 1).map (fun pair => Line.read pair.2 pair.1) = topLines := by
    decide
  have size : Disassembly.headingLines.length = 3 := rfl
  have body : ((words.map fun word => (Instruction.decode word).text.toList).zipIdx 4).map
      (fun pair => Line.read pair.2 pair.1) = bodyLines 4 words := by
    simp [List.zipIdx_map, bodyLines, read_text, Function.comp_def]
  rw [sourceLines, Disassembly.lines_withoutColumns h, List.append_assoc, List.zipIdx_append,
    List.map_append, size, List.zipIdx_append, List.map_append, top, body, List.length_map]
  rfl

theorem labels_unlabelled {lines : List Line} (unlabelled : ∀ line ∈ lines, line.label = none) :
    (ofLines (place lines)).labels = .empty := by
  have none : (place lines).filterMap (·.definition?) = [] := by
    rw [List.filterMap_eq_nil_iff]
    intro placed member
    have mapped : placed.line ∈ (place lines).map PlacedLine.line := List.mem_map_of_mem member
    rw [place, map_line_placeFrom] at mapped
    simp [PlacedLine.definition?, unlabelled _ mapped]
  show (List.filterMap _ _).foldl LabelTable.define .empty = .empty
  rw [none]
  rfl

theorem listed?_blank (address number : Nat) :
    PlacedLine.listed? labels ⟨address, ⟨number, none, []⟩⟩ = none := rfl

theorem errors_blank (address number : Nat) :
    PlacedLine.errors labels ⟨address, ⟨number, none, []⟩⟩ = [] := rfl

/-- Blank lines around the body take no address and give nothing. -/
theorem ofLines_around (body : List Line) (number : Nat) :
    let assembly := ofLines (place (topLines ++ (body ++ [⟨number, none, []⟩])))
    assembly.words =
        ((placeFrom 0 body).filterMap (·.listed? assembly.labels)).map (·.word) ∧
      assembly.errors = (placeFrom 0 body).flatMap (·.errors assembly.labels) := by
  intro assembly
  have placed : place (topLines ++ (body ++ [⟨number, none, []⟩])) =
      placeFrom 0 topLines ++ (placeFrom 0 body ++ [⟨body.foldl Line.next 0, ⟨number, none, []⟩⟩]) := by
    rw [place, placeFrom_append, placeFrom_append]
    rfl
  have listing : assembly.listing = (placeFrom 0 body).filterMap (·.listed? assembly.labels) := by
    show (place (topLines ++ (body ++ [⟨number, none, []⟩]))).filterMap (·.listed? assembly.labels) = _
    rw [placed, List.filterMap_append, List.filterMap_append]
    simp [topLines, List.filterMap_cons, listed?_blank, Line.next, Line.hasInstruction]
  have errors : assembly.errors = (placeFrom 0 body).flatMap (·.errors assembly.labels) := by
    show (place (topLines ++ (body ++ [⟨number, none, []⟩]))).flatMap (·.errors assembly.labels) = _
    rw [placed, List.flatMap_append, List.flatMap_append]
    simp [topLines, errors_blank]
  exact ⟨congrArg (List.map ListingEntry.word) listing, errors⟩

/-- A disassembly without its columns assembles to the words that are valid. The word at place `i`
stands on line `i + 4`; if it is not valid, that line has an error, and no other line has one. -/
theorem ofSource_withoutColumns (words : List UInt16) (h : words.length ≤ addressSpace) :
    let assembly := ofSource (Disassembly.withoutColumns (Disassembly.text words))
    assembly.words = words.filter (fun word => (Instruction.decode word).isValid) ∧
      assembly.labels = .empty ∧
      assembly.errors = ((words.zipIdx 4).filter fun pair => !(Instruction.decode pair.1).isValid).map
        (fun pair => ⟨pair.2, .unknownMnemonic "unknown"⟩) ∧
      ((∀ word ∈ words, (Instruction.decode word).isValid = true) →
        assembly.errors = [] ∧ assembly.words = words) := by
  intro assembly
  have inside : 0 + words.length ≤ addressSpace := by omega
  have source : assembly =
      ofLines (place (topLines ++ (bodyLines 4 words ++ [⟨4 + words.length, none, []⟩]))) := by
    rw [← sourceLines_withoutColumns h]
    rfl
  have labels : assembly.labels = .empty := by
    rw [source]
    apply labels_unlabelled
    intro line member
    simp only [topLines, bodyLines, List.mem_append, List.mem_cons, List.mem_map] at member
    grind
  obtain ⟨listed, errors⟩ := ofLines_around (bodyLines 4 words) (4 + words.length)
  rw [← source] at listed errors
  rw [words_body assembly.labels 4 inside] at listed
  rw [errors_body assembly.labels 4 inside] at errors
  refine ⟨listed, labels, errors, fun valid => ?_⟩
  rw [errors, listed]
  constructor
  · have none : ∀ pair ∈ words.zipIdx 4, (Instruction.decode pair.1).isValid = true :=
      fun pair member => valid pair.1 (List.fst_mem_of_mem_zipIdx member)
    simpa using none
  · exact List.filter_eq_self.2 valid

theorem ofSource_withoutColumns_mixed :
    [0x8101, 0xD123, 0xC1FF].length ≤ addressSpace ∧
      (ofSource (Disassembly.withoutColumns (Disassembly.text [0x8101, 0xD123, 0xC1FF]))).words =
        [0x8101, 0xC1FF] ∧
      (ofSource (Disassembly.withoutColumns (Disassembly.text [0x8101, 0xD123, 0xC1FF]))).errors =
        [⟨5, .unknownMnemonic "unknown"⟩] := by
  have short : [0x8101, 0xD123, 0xC1FF].length ≤ addressSpace := by decide
  obtain ⟨words, -, errors, -⟩ := ofSource_withoutColumns [0x8101, 0xD123, 0xC1FF] short
  exact ⟨short, words, errors⟩

end Assembly

end Harvard16
