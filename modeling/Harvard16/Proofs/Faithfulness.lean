import Harvard16.Proofs.Accounting
import Harvard16.Proofs.Reassembly

/-! Faithful words. Each word that an assembly emits decodes to the instruction that its line denotes, whether
other lines are in error or not. So no word is a reserved one or has stray bits, and the disassembly of the
words assembles to them again. -/
namespace Harvard16.Assembly

theorem length_listed_le (labels : LabelTable) (lines : List Line) (start : Nat) :
    ((placeFrom start lines).filterMap (·.listed? labels)).length ≤ addressSpace - start := by
  induction lines generalizing start with
  | nil => exact Nat.zero_le _
  | cons line lines ih =>
    have tail := ih (line.next start)
    rw [placeFrom_cons]
    cases listed : PlacedLine.listed? labels ⟨start, line⟩ with
    | none =>
      have onward : start ≤ line.next start := by
        rw [Line.next]
        split <;> omega
      rw [List.filterMap_cons_none listed]
      exact tail.trans (Nat.sub_le_sub_left onward _)
    | some entry =>
      obtain ⟨_, -, room, -⟩ := exists_of_listed? listed
      have inside : start < addressSpace := room
      have used : line.hasInstruction = true := hasInstruction_of_listed? listed
      rw [Line.next, if_pos used] at tail
      rw [List.filterMap_cons_some listed, List.length_cons, Line.next, if_pos used]
      exact (Nat.add_le_add_right tail 1).trans (by omega)

theorem length_words_le (source : String) : (ofSource source).words.length ≤ addressSpace := by
  rw [words, List.length_map]
  exact length_listed_le _ _ 0

theorem ofSource_disassembled {words : List UInt16} (few : words.length ≤ addressSpace)
    (valid : ∀ word ∈ words, (Instruction.decode word).isValid = true) :
    (ofSource (Disassembly.withoutColumns (Disassembly.text words))).errors = [] ∧
      (ofSource (Disassembly.withoutColumns (Disassembly.text words))).words = words := by
  have inside : 0 + words.length ≤ addressSpace := by omega
  have source : ofSource (Disassembly.withoutColumns (Disassembly.text words)) =
      ofLines (place (topLines ++ (bodyLines 4 words ++ [⟨4 + words.length, none, []⟩]))) := by
    rw [← sourceLines_withoutColumns few]
    rfl
  obtain ⟨listed, errors⟩ := ofLines_around (bodyLines 4 words) (4 + words.length)
  rw [← source, words_body _ 4 inside] at listed
  rw [← source, errors_body _ 4 inside] at errors
  have none : ∀ pair ∈ words.zipIdx 4, (Instruction.decode pair.1).isValid = true :=
    fun pair member => valid pair.1 (List.fst_mem_of_mem_zipIdx member)
  exact ⟨errors.trans (by simpa using none), listed.trans (List.filter_eq_self.2 valid)⟩

/-- The tokens of a line denote an instruction, at the address of the line. -/
def LineDenotes (source : String) (number : Nat) (instruction : Instruction) : Prop :=
  Denotes (ofSource source).labels (instructionsBefore source number)
    (Text.tokens isSeparator (instructionText (rawLine source number))) instruction

/-- An instruction is the one that a line spells and the only one that its tokens denote, and the word of the
line's entry decodes to it. -/
structure Represents (source : String) (entry : ListingEntry) (instruction : Instruction) : Prop where
  spelled : lineInstruction source entry.line = .ok instruction
  denoted : LineDenotes source entry.line instruction
  unique : ∀ other, LineDenotes source entry.line other → other = instruction
  decoded : Instruction.decode entry.word = instruction

theorem exists_represents {source : String} {entry : ListingEntry}
    (listed : entry ∈ (ofSource source).listing) :
    ∃ instruction, Represents source entry instruction := by
  have own : entry ∈ (ofSource source).listing.filter (·.line = entry.line) :=
    List.mem_filter.2 ⟨listed, decide_eq_true rfl⟩
  rw [listing_of_number, Option.mem_toList] at own
  obtain ⟨instruction, spelled, word⟩ := (lineEntry_of_listed? own).spelled
  have denoted := parseInstruction_eq_ok_iff.1 spelled
  refine ⟨instruction, spelled, denoted, fun _ denotedToo => denotedToo.unique denoted, ?_⟩
  rw [word]
  exact Instruction.decode_encode denoted.wellFormed

theorem isValid_of_wellFormed {instruction : Instruction} (h : instruction.WellFormed) :
    instruction.isValid = true := by
  cases instruction with
  | invalid => exact h.elim
  | _ => rfl

theorem code_of_isValid {word : UInt16} (valid : (Instruction.decode word).isValid = true) :
    Field.opcode.bits word ≠ 13 ∧ (14 ≤ Field.opcode.bits word → Field.payload.bits word = 0) := by
  obtain ⟨invalid, -⟩ | ⟨op, code, payload, -⟩ := Instruction.decode_cases word
  · rw [invalid] at valid
    cases valid
  · rw [← code]
    refine ⟨?_, fun special => payload ?_⟩
    · cases op <;> decide
    · revert special
      cases op <;> decide

/-- Each word of an assembly is a valid one that stands for what its line denotes, and the disassembly of
all of them assembles to the same words. -/
theorem words_denoted (source : String) :
    (ofSource source).words = (ofSource source).listing.map (·.word) ∧
    (∀ entry ∈ (ofSource source).listing, ∃ instruction, Represents source entry instruction) ∧
    (∀ word ∈ (ofSource source).words, (Instruction.decode word).isValid = true ∧
      Field.opcode.bits word ≠ 13 ∧ (14 ≤ Field.opcode.bits word → Field.payload.bits word = 0)) ∧
    (ofSource (Disassembly.withoutColumns (Disassembly.text (ofSource source).words))).errors = [] ∧
    (ofSource (Disassembly.withoutColumns (Disassembly.text (ofSource source).words))).words =
      (ofSource source).words := by
  have valid : ∀ word ∈ (ofSource source).words, (Instruction.decode word).isValid = true := by
    intro word emitted
    obtain ⟨entry, listed, rfl⟩ := List.mem_map.1 emitted
    obtain ⟨instruction, represents⟩ := exists_represents listed
    rw [represents.decoded]
    exact isValid_of_wellFormed represents.denoted.wellFormed
  refine ⟨rfl, fun _ => exists_represents, fun word emitted => ?_, ?_⟩
  · exact ⟨valid word emitted, code_of_isValid (valid word emitted)⟩
  · exact ofSource_disassembled (length_words_le source) valid

end Harvard16.Assembly
