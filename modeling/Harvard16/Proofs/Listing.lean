import Harvard16.Assembly.Basic
import Harvard16.Proofs.Denotation

/-! What an assembly's listing holds. Every instruction that a text spells is well formed, so its word
decodes to it again; an entry has the word of what its source spells at its address. When no
line is in error, no address is left out, and the words stand in the listing by address. -/
namespace Harvard16.Assembly

variable {labels : LabelTable} {address : Nat} {text : List Char}

theorem decode_encode_of_parse {instruction : Instruction}
    (h : parseInstruction labels address text = .ok instruction) :
    Instruction.decode instruction.encode = instruction :=
  Instruction.decode_encode (parseInstruction_eq_ok_iff.1 h).wellFormed

theorem exists_of_listed? {placed : PlacedLine} {entry : ListingEntry}
    (h : placed.listed? labels = some entry) :
    ∃ instruction, parseInstruction labels placed.address placed.line.text = .ok instruction ∧
      placed.address < addressSpace ∧
      entry = ⟨placed.address, placed.line.number, String.ofList placed.line.text, instruction.encode⟩ := by
  unfold PlacedLine.listed? at h
  split at h
  · split at h
    · rename_i instruction spelled
      cases h
      unfold PlacedLine.instruction at spelled
      split at spelled
      · cases spelled
      · rename_i room
        exact ⟨instruction, spelled, Nat.not_le.1 room, rfl⟩
    · cases h
  · cases h

theorem hasInstruction_of_listed? {placed : PlacedLine} {entry : ListingEntry}
    (listed : placed.listed? labels = some entry) : placed.line.hasInstruction = true := by
  by_contra bare
  simp [PlacedLine.listed?, bare] at listed

theorem exists_of_mem_listing {lines : List PlacedLine} {entry : ListingEntry}
    (h : entry ∈ (ofLines lines).listing) :
    ∃ instruction, entry.word = instruction.encode ∧
      parseInstruction (ofLines lines).labels entry.address entry.source.toList = .ok instruction := by
  obtain ⟨placed, -, listed⟩ := List.mem_filterMap.1 h
  obtain ⟨instruction, spelled, -, rfl⟩ := exists_of_listed? listed
  refine ⟨instruction, rfl, ?_⟩
  rw [String.toList_ofList]
  exact spelled

theorem addresses_listed {lines : List Line} {start : Nat}
    (correct : ∀ placed ∈ placeFrom start lines, placed.instructionCause? labels = none) :
    ((placeFrom start lines).filterMap (·.listed? labels)).map (·.address) =
      List.range' start ((placeFrom start lines).filterMap (·.listed? labels)).length := by
  induction lines generalizing start with
  | nil => rfl
  | cons line lines ih =>
    rw [placeFrom_cons] at correct ⊢
    obtain ⟨first, rest⟩ := List.forall_mem_cons.1 correct
    have tail := ih rest
    by_cases used : line.hasInstruction = true
    · have some := PlacedLine.listed?_isSome labels ⟨start, line⟩ used
      rw [first] at some
      obtain ⟨entry, listed⟩ := Option.isSome_iff_exists.1 some
      have place : entry.address = start := by
        obtain ⟨_, -, -, rfl⟩ := exists_of_listed? listed
        rfl
      have next : line.next start = start + 1 := if_pos used
      rw [next] at tail ⊢
      rw [List.filterMap_cons_some listed, List.map_cons, tail, place]
      rfl
    · have none : PlacedLine.listed? labels ⟨start, line⟩ = none := by simp [PlacedLine.listed?, used]
      have next : line.next start = start := if_neg used
      rw [next] at tail ⊢
      rwa [List.filterMap_cons_none none]

theorem instructionCause?_of_correct {lines : List PlacedLine} (correct : (ofLines lines).errors = [])
    {placed : PlacedLine} (member : placed ∈ lines) :
    placed.instructionCause? (ofLines lines).labels = none := by
  have none := List.flatMap_eq_nil_iff.1 correct placed member
  simp [PlacedLine.errors] at none
  exact none.2

theorem labelCause?_of_correct {lines : List PlacedLine} (correct : (ofLines lines).errors = [])
    {placed : PlacedLine} (member : placed ∈ lines) :
    placed.labelCause? (ofLines lines).labels = none := by
  have none := List.flatMap_eq_nil_iff.1 correct placed member
  simp [PlacedLine.errors] at none
  exact none.1

theorem addresses_of_correct {lines : List Line} (correct : (ofLines (place lines)).errors = []) :
    (ofLines (place lines)).listing.map (·.address) =
      List.range (ofLines (place lines)).listing.length := by
  rw [List.range_eq_range']
  exact addresses_listed fun _ member => instructionCause?_of_correct correct member

theorem length_listing_of_correct {lines : List PlacedLine} (correct : (ofLines lines).errors = []) :
    (ofLines lines).listing.length = lines.countP (·.line.hasInstruction) := by
  have counted : (ofLines lines).listing.length =
      lines.countP fun placed => (placed.listed? (ofLines lines).labels).isSome :=
    List.length_filterMap_eq_countP
  rw [counted]
  apply List.countP_congr
  intro placed member
  by_cases used : placed.line.hasInstruction = true
  · simp [PlacedLine.listed?_isSome _ _ used, instructionCause?_of_correct correct member, used]
  · simp [PlacedLine.listed?, used]

theorem getElem?_words {lines : List Line} {entry : ListingEntry}
    (correct : (ofLines (place lines)).errors = []) (h : entry ∈ (ofLines (place lines)).listing) :
    (ofLines (place lines)).words[entry.address]? = some entry.word := by
  obtain ⟨i, bound, rfl⟩ := List.mem_iff_getElem.1 h
  have position : (ofLines (place lines)).listing[i].address = i := by
    have both := congrArg (·[i]?) (addresses_of_correct correct)
    simpa [bound] using both
  rw [position]
  simp [words, bound]

end Harvard16.Assembly
