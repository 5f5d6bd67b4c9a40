import Harvard16.Assembly.Line
import Mathlib.Data.List.DropRight

/-! Source lines as they stand in the text. What a line is read as is stated here without the reader: the
text of its instruction is what is left without comment, label and outer blanks. A line has the
address that instruction lines before it have counted up to, and its number picks it out. -/
namespace Harvard16

namespace Text

theorem trimEnd_cons {c : Char} (inked : isBlank c = false) (rest : List Char) :
    trimEnd (c :: rest) = c :: trimEnd rest := by
  rw [trimEnd, List.reverse_cons, List.dropWhile_append]
  split
  · rename_i blank
    have none : rest.reverse.dropWhile isBlank = [] := List.isEmpty_iff.1 blank
    simp [trimEnd, none, inked]
  · simp [trimEnd]

theorem trimStart_trim (cs : List Char) : trimStart (trim cs) = trim cs := by
  cases start : trimStart cs with
  | nil =>
    rw [trim, start]
    rfl
  | cons c rest =>
    have inked : isBlank c = false := by
      have first := List.head?_dropWhile_not isBlank cs
      rwa [show cs.dropWhile isBlank = c :: rest from start] at first
    rw [trim, start, trimEnd_cons inked]
    simp [trimStart, inked]

theorem trim_trim (cs : List Char) : trim (trim cs) = trim cs := by
  have twice : trim (trim cs) = trimEnd (trim cs) := congrArg trimEnd (trimStart_trim cs)
  rw [twice]
  exact List.rdropWhile_idempotent isBlank _

theorem mem_trim {c : Char} (inked : isBlank c = false) {cs : List Char} : c ∈ trim cs ↔ c ∈ cs := by
  have kept (l : List Char) : c ∈ l.dropWhile isBlank ↔ c ∈ l := by
    constructor
    · exact (List.dropWhile_sublist _).mem
    · intro member
      rw [← List.takeWhile_append_dropWhile (p := isBlank) (l := l)] at member
      rcases List.mem_append.1 member with blank | kept
      · rw [List.mem_takeWhile_imp blank] at inked
        cases inked
      · exact kept
  rw [trim, trimEnd, List.mem_reverse, kept, List.mem_reverse]
  exact kept cs

theorem cutAt?_of_mem {mark : Char} {cs : List Char} (h : mark ∈ cs) :
    cutAt? mark cs = some (cs.takeWhile (· != mark), (cs.dropWhile (· != mark)).tail) := by
  unfold cutAt?
  cases rest : cs.dropWhile (· != mark) with
  | nil => simpa using List.dropWhile_eq_nil_iff.1 rest mark h
  | cons => rfl

theorem cutAt?_of_not_mem {mark : Char} {cs : List Char} (h : mark ∉ cs) : cutAt? mark cs = none := by
  have all : cs.dropWhile (· != mark) = [] := by
    rw [List.dropWhile_eq_nil_iff]
    intro c member
    have other : c ≠ mark := by
      rintro rfl
      exact h member
    simpa using other
  rw [cutAt?, all]

theorem bne_of_not_mem {mark : Char} {cs : List Char} (absent : mark ∉ cs) :
    ∀ c ∈ cs, (c != mark) = true := by
  intro c member
  have differs : c ≠ mark := fun same => absent (same ▸ member)
  simpa using differs

theorem cutAt?_append {mark : Char} {before : List Char} (absent : mark ∉ before) (after : List Char) :
    cutAt? mark (before ++ mark :: after) = some (before, after) := by
  have other := bne_of_not_mem absent
  simp [cutAt?, List.dropWhile_append_of_pos other, List.takeWhile_append_of_pos other]

theorem not_mem_of_cutAt? {mark : Char} {cs before after : List Char}
    (h : cutAt? mark cs = some (before, after)) : mark ∉ before := by
  by_cases member : mark ∈ cs
  · rw [cutAt?_of_mem member] at h
    cases h
    intro early
    simpa using List.mem_takeWhile_imp early
  · rw [cutAt?_of_not_mem member] at h
    cases h

end Text

namespace Assembly

def code (raw : List Char) : List Char := Text.trim (raw.takeWhile (· != '#'))

def isLabelled (raw : List Char) : Bool := (raw.takeWhile (· != '#')).contains ':'

def labelText (raw : List Char) : List Char := Text.trim ((code raw).takeWhile (· != ':'))

/-- The text without comment, and without all up to the first `:`. -/
def instructionText (raw : List Char) : List Char :=
  Text.trim (if ':' ∈ code raw then ((code raw).dropWhile (· != ':')).tail else code raw)

def isInstructionLine (raw : List Char) : Bool := !(instructionText raw).isEmpty

theorem isLabelled_iff (raw : List Char) : isLabelled raw = true ↔ ':' ∈ code raw := by
  rw [code, Text.mem_trim (by decide)]
  exact List.contains_iff_mem

theorem read_eq (number : Nat) (raw : List Char) :
    Line.read number raw =
      ⟨number, if isLabelled raw then some (labelText raw) else none, instructionText raw⟩ := by
  have trimmed : Text.trim (code raw) = code raw := Text.trim_trim _
  by_cases h : ':' ∈ code raw
  · have cut := Text.cutAt?_of_mem h
    unfold code at cut
    simp only [Line.read, cut, (isLabelled_iff raw).2 h, if_true, instructionText, h]
    rfl
  · have cut := Text.cutAt?_of_not_mem h
    have unlabelled : isLabelled raw = false := by
      simpa [h] using isLabelled_iff raw
    unfold code at cut
    simp only [Line.read, cut, unlabelled, instructionText, h, if_false, trimmed]
    rfl

@[simp] theorem number_read (number : Nat) (raw : List Char) : (Line.read number raw).number = number := by
  rw [read_eq]

theorem hasInstruction_read (number : Nat) (raw : List Char) :
    (Line.read number raw).hasInstruction = isInstructionLine raw := by
  rw [read_eq]
  rfl

/-- Line `number` of a source, counted from one, and an empty line for any other number. -/
def rawLine (source : String) (number : Nat) : List Char :=
  if 1 ≤ number then (Text.lines source.toList)[number - 1]?.getD [] else []

def instructionsBefore (source : String) (number : Nat) : Nat :=
  ((Text.lines source.toList).take (number - 1)).countP isInstructionLine

def placedLine (source : String) (number : Nat) : PlacedLine :=
  ⟨instructionsBefore source number, .read number (rawLine source number)⟩

theorem filter_number (raws : List (List Char)) (first start number : Nat) :
    (placeFrom start ((raws.zipIdx first).map fun (raw, n) => .read n raw)).filter
        (·.line.number = number) =
      if first ≤ number then
        (raws[number - first]?.map fun raw =>
          (⟨start + (raws.take (number - first)).countP isInstructionLine, .read number raw⟩ :
            PlacedLine)).toList
      else [] := by
  induction raws generalizing first start with
  | nil => simp
  | cons raw raws ih =>
    rw [List.zipIdx_cons, List.map_cons, placeFrom_cons, List.filter_cons, ih, number_read]
    rcases Nat.lt_trichotomy number first with before | rfl | after
    · have other : first ≠ number := by omega
      have notHere : ¬first ≤ number := by omega
      have notLater : ¬first + 1 ≤ number := by omega
      simp [other, notHere, notLater]
    · have notLater : ¬number + 1 ≤ number := by omega
      simp [notLater]
    · have other : first ≠ number := by omega
      have later : first + 1 ≤ number := by omega
      have next : number - first = number - (first + 1) + 1 := by omega
      simp only [other, decide_false, Bool.false_eq_true, if_false, later, if_true, after.le, next,
        List.getElem?_cons_succ, List.take_succ_cons, List.countP_cons, Line.next, hasInstruction_read]
      split <;> simp +arith

/-- The lines of a source that have a number are the one line of that number, or none. -/
theorem filter_number_place (source : String) (number : Nat) :
    (place (sourceLines source.toList)).filter (·.line.number = number) = [placedLine source number] ∨
      (place (sourceLines source.toList)).filter (·.line.number = number) = [] ∧
        rawLine source number = [] := by
  have found := filter_number (Text.lines source.toList) 1 0 number
  rw [place, sourceLines, found]
  unfold placedLine instructionsBefore rawLine
  by_cases positive : 1 ≤ number
  · cases (Text.lines source.toList)[number - 1]? <;> simp [positive]
  · simp [positive]

theorem map_number_place (source : String) :
    (place (sourceLines source.toList)).map (·.line.number) =
      List.range' 1 (Text.lines source.toList).length := by
  have numbers : (sourceLines source.toList).map Line.number =
      List.range' 1 (Text.lines source.toList).length := by
    rw [sourceLines, List.map_map, ← List.zipIdx_map_snd]
    congr 1
    funext ⟨raw, number⟩
    exact number_read number raw
  rw [← numbers, ← congrArg (List.map Line.number) (map_line_placeFrom 0 _), List.map_map]
  rfl

theorem pairwise_place (source : String) :
    (place (sourceLines source.toList)).Pairwise (·.line.number < ·.line.number) := by
  rw [← List.pairwise_map, map_number_place]
  exact List.pairwise_lt_range' 1

theorem countP_place (lines : List Line) :
    (place lines).countP (·.line.hasInstruction) = lines.countP Line.hasInstruction := by
  rw [← congrArg (List.countP _) (map_line_placeFrom 0 lines), List.countP_map]
  rfl

theorem countP_hasInstruction (source : String) :
    (place (sourceLines source.toList)).countP (·.line.hasInstruction) =
      (Text.lines source.toList).countP isInstructionLine := by
  have raws := congrArg (List.countP isInstructionLine)
    (List.zipIdx_map_fst 1 (Text.lines source.toList))
  rw [countP_place, ← raws, sourceLines, List.countP_map, List.countP_map]
  congr 1
  funext ⟨raw, number⟩
  exact hasInstruction_read number raw

end Assembly

end Harvard16
