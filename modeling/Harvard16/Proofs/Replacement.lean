import Harvard16.Proofs.Accounting
import Harvard16.Proofs.Spelling

/-! Lines in error and the lines around them. The instruction of a line can be replaced in place, its label
and its comment kept. An instruction that fails has taken its address all the same, so a correct one in
its place gives an entry where the error was, and nothing else in the assembly changes. -/
namespace Harvard16

namespace Text

theorem newline_of_mem_lines {cs l : List Char} (member : l ∈ lines cs) : '\n' ∉ l := by
  induction cs generalizing l with
  | nil =>
    obtain rfl : l = [] := List.mem_singleton.1 member
    exact List.not_mem_nil
  | cons c cs ih =>
    obtain ⟨first, rest, split⟩ := List.exists_cons_of_ne_nil (List.splitOn_ne_nil '\n' cs)
    rw [lines, List.splitOn_cons_eq_if_modifyHead, split, List.modifyHead_cons] at member
    rw [lines, split] at ih
    obtain ⟨whole, others⟩ := List.forall_mem_cons.1 @ih
    split at member <;> rename_i ends <;> rcases List.mem_cons.1 member with rfl | later
    · exact List.not_mem_nil
    · exact ih later
    · have other : c ≠ '\n' := by simpa using ends
      simp [other.symm, whole]
    · exact others l later

theorem trim_around {before after : List Char} (ahead : ∀ c ∈ before, isBlank c = true)
    (behind : ∀ c ∈ after, isBlank c = true) (cs : List Char) :
    trim (before ++ cs ++ after) = trim cs := by
  have start : trimStart (before ++ cs ++ after) = trimStart (cs ++ after) := by
    rw [List.append_assoc]
    exact List.dropWhile_append_of_pos ahead
  have ending (inner : List Char) : trimEnd (inner ++ after) = trimEnd inner := by
    have reversed : ∀ c ∈ after.reverse, isBlank c = true := fun c member =>
      behind c (List.mem_reverse.1 member)
    rw [trimEnd, List.reverse_append, List.dropWhile_append_of_pos reversed]
    rfl
  rw [trim, start, trimStart, List.dropWhile_append]
  split
  · rename_i blank
    have none : trimStart cs = [] := List.isEmpty_iff.1 blank
    rw [List.dropWhile_eq_nil_iff.2 behind, trim, none]
  · exact ending _

theorem trim_blanks_append {blanks : List Char} (blank : ∀ c ∈ blanks, isBlank c = true)
    (cs : List Char) : trim (blanks ++ cs) = trim cs := by
  have trimmed := trim_around blank (List.forall_mem_nil _) cs
  rwa [List.append_nil] at trimmed

theorem trim_append_blanks {blanks : List Char} (blank : ∀ c ∈ blanks, isBlank c = true)
    (cs : List Char) : trim (cs ++ blanks) = trim cs := trim_around (List.forall_mem_nil _) blank cs

theorem trim_trimStart (cs : List Char) : trim (trimStart cs) = trim cs := by
  have blank : ∀ c ∈ cs.takeWhile isBlank, isBlank c = true := fun _ member => List.mem_takeWhile_imp member
  have inner := trim_blanks_append blank (trimStart cs)
  rwa [trimStart, List.takeWhile_append_dropWhile, eq_comm] at inner

theorem trim_trimEnd (cs : List Char) : trim (trimEnd cs) = trim cs := by
  have blank : ∀ c ∈ cs.rtakeWhile isBlank, isBlank c = true := fun _ member => List.mem_rtakeWhile_imp member
  have inner := trim_append_blanks blank (trimEnd cs)
  have whole : trimEnd cs ++ cs.rtakeWhile isBlank = cs := List.rdropWhile_append_rtakeWhile
  rwa [whole, eq_comm] at inner

theorem trimEnd_append {cs : List Char} (inked : trimEnd cs ≠ []) (before : List Char) :
    trimEnd (before ++ cs) = before ++ trimEnd cs := by
  rw [trimEnd, List.reverse_append, List.dropWhile_append]
  split
  · rename_i blank
    have none : cs.reverse.dropWhile isBlank = [] := List.isEmpty_iff.1 blank
    exact absurd (congrArg List.reverse none) inked
  · simp [trimEnd]

theorem trim_append_cons {c : Char} (inked : isBlank c = false) (before after : List Char) :
    trim (before ++ c :: after) = trimStart before ++ c :: trimEnd after := by
  have start : trimStart (before ++ c :: after) = trimStart before ++ c :: after := by
    rw [trimStart, List.dropWhile_append]
    split
    · rename_i blank
      have none : trimStart before = [] := List.isEmpty_iff.1 blank
      rw [none, List.dropWhile_cons_of_neg (by simp [inked])]
      rfl
    · rfl
  have last : trimEnd (c :: after) ≠ [] := by
    rw [trimEnd_cons inked]
    exact List.cons_ne_nil _ _
  rw [trim, start, trimEnd_append last, trimEnd_cons inked]

def replaceTrimmed (new cs : List Char) : List Char :=
  cs.takeWhile isBlank ++ new ++ (trimStart cs).rtakeWhile isBlank

theorem replaceTrimmed_trim (cs : List Char) : replaceTrimmed (trim cs) cs = cs := by
  have inner : trim cs ++ (trimStart cs).rtakeWhile isBlank = trimStart cs :=
    List.rdropWhile_append_rtakeWhile
  rw [replaceTrimmed, List.append_assoc, inner]
  exact List.takeWhile_append_dropWhile

theorem trim_replaceTrimmed (new cs : List Char) : trim (replaceTrimmed new cs) = trim new :=
  trim_around (fun _ member => List.mem_takeWhile_imp member)
    (fun _ member => List.mem_rtakeWhile_imp member) new

theorem mem_replaceTrimmed {c : Char} {new cs : List Char} (member : c ∈ replaceTrimmed new cs) :
    c ∈ new ∨ c ∈ cs := by
  rcases List.mem_append.1 member with before | behind
  · rcases List.mem_append.1 before with blank | inside
    · exact .inr ((List.takeWhile_sublist _).mem blank)
    · exact .inl inside
  · exact .inr ((List.dropWhile_sublist _).mem ((List.rtakeWhile_suffix isBlank _).mem behind))

end Text

namespace Assembly

/-- A line with another instruction. What stands before its first `:` and from its first `#` on is kept,
and so are the blanks. -/
def withInstruction (text raw : List Char) : List Char :=
  let comment := raw.dropWhile (· != '#')
  match Text.cutAt? ':' (raw.takeWhile (· != '#')) with
  | some (label, rest) => label ++ ':' :: (Text.replaceTrimmed text rest ++ comment)
  | none => Text.replaceTrimmed text (raw.takeWhile (· != '#')) ++ comment

theorem takeWhile_comment (raw : List Char) : (raw.dropWhile (· != '#')).takeWhile (· != '#') = [] := by
  cases rest : raw.dropWhile (· != '#') with
  | nil => rfl
  | cons c cs =>
    have mark : (c != '#') = false := by
      simpa only [rest, List.head?_cons] using List.head?_dropWhile_not (· != '#') raw
    exact List.takeWhile_cons_of_neg (by simp only [mark, Bool.false_eq_true, not_false_eq_true])

theorem code_append {body comment : List Char} (bare : '#' ∉ body)
    (opens : comment.takeWhile (· != '#') = []) : code (body ++ comment) = Text.trim body := by
  rw [code, List.takeWhile_append_of_pos (Text.bne_of_not_mem bare), opens, List.append_nil]

theorem read_labelled (number : Nat) {label rest comment : List Char} (bare : '#' ∉ label ++ ':' :: rest)
    (first : ':' ∉ label) (opens : comment.takeWhile (· != '#') = []) :
    Line.read number (label ++ ':' :: (rest ++ comment)) =
      ⟨number, some (Text.trim label), Text.trim rest⟩ := by
  have coded : code (label ++ ':' :: (rest ++ comment)) =
      Text.trimStart label ++ ':' :: Text.trimEnd rest := by
    have whole := code_append bare opens
    rwa [List.append_assoc, List.cons_append, Text.trim_append_cons (by decide)] at whole
  have early : ':' ∉ Text.trimStart label := fun member => first ((List.dropWhile_sublist _).mem member)
  have member : ':' ∈ code (label ++ ':' :: (rest ++ comment)) := by simp [coded]
  have cut := Text.cutAt?_append early (Text.trimEnd rest)
  rw [← coded, Text.cutAt?_of_mem member, Option.some_inj, Prod.mk.injEq] at cut
  obtain ⟨before, behind⟩ := cut
  rw [read_eq, if_pos ((isLabelled_iff _).2 member), labelText, before, instructionText, if_pos member, behind,
    Text.trim_trimStart, Text.trim_trimEnd]

theorem read_unlabelled (number : Nat) {body comment : List Char} (bare : '#' ∉ body)
    (unlabelled : ':' ∉ body) (opens : comment.takeWhile (· != '#') = []) :
    Line.read number (body ++ comment) = ⟨number, none, Text.trim body⟩ := by
  have coded := code_append bare opens
  have absent : ':' ∉ code (body ++ comment) := by
    rwa [coded, Text.mem_trim (by decide)]
  rw [read_eq, if_neg (mt (isLabelled_iff _).1 absent), instructionText, if_neg absent, coded, Text.trim_trim]

theorem read_withInstruction (number : Nat) {text raw : List Char} (bare : '#' ∉ text)
    (plain : isLabelled raw = false → ':' ∉ text) :
    Line.read number (withInstruction text raw) = { Line.read number raw with text := Text.trim text } := by
  replace plain : ':' ∉ raw.takeWhile (· != '#') → ':' ∉ text := fun absent =>
    plain (by simpa [isLabelled] using absent)
  have opens := takeWhile_comment raw
  have whole : raw.takeWhile (· != '#') ++ raw.dropWhile (· != '#') = raw := List.takeWhile_append_dropWhile
  have body : '#' ∉ raw.takeWhile (· != '#') := fun member => by simpa using List.mem_takeWhile_imp member
  unfold withInstruction
  generalize raw.takeWhile (· != '#') = code, raw.dropWhile (· != '#') = comment at *
  subst whole
  by_cases labelled : ':' ∈ code
  · have cut := Text.cutAt?_of_mem labelled
    have parts := Text.eq_of_cutAt? cut
    have first : ':' ∉ code.takeWhile (· != ':') := fun member => by simpa using List.mem_takeWhile_imp member
    generalize code.takeWhile (· != ':') = label, (code.dropWhile (· != ':')).tail = rest at *
    subst parts
    have bareRest : '#' ∉ label ++ ':' :: Text.replaceTrimmed text rest := by
      simp only [List.mem_append, List.mem_cons, not_or] at body ⊢
      exact ⟨body.1, body.2.1, fun member => (Text.mem_replaceTrimmed member).elim bare body.2.2⟩
    rw [cut, List.append_assoc, List.cons_append]
    dsimp only
    rw [read_labelled number bareRest first opens, read_labelled number body first opens,
      Text.trim_replaceTrimmed]
  · have bareBody : '#' ∉ Text.replaceTrimmed text code := fun member =>
      (Text.mem_replaceTrimmed member).elim bare body
    have unlabelled : ':' ∉ Text.replaceTrimmed text code := fun member =>
      (Text.mem_replaceTrimmed member).elim (plain labelled) labelled
    rw [Text.cutAt?_of_not_mem labelled]
    dsimp only
    rw [read_unlabelled number bareBody unlabelled opens, read_unlabelled number body labelled opens,
      Text.trim_replaceTrimmed]

theorem newline_withInstruction {text raw : List Char} (new : '\n' ∉ text) (old : '\n' ∉ raw) :
    '\n' ∉ withInstruction text raw := by
  have whole : raw.takeWhile (· != '#') ++ raw.dropWhile (· != '#') = raw := List.takeWhile_append_dropWhile
  unfold withInstruction
  generalize raw.takeWhile (· != '#') = code, raw.dropWhile (· != '#') = comment at *
  subst whole
  obtain ⟨inCode, inComment⟩ : '\n' ∉ code ∧ '\n' ∉ comment := by simpa using old
  have kept (cs : List Char) (absent : '\n' ∉ cs) : '\n' ∉ Text.replaceTrimmed text cs := fun member =>
    (Text.mem_replaceTrimmed member).elim new absent
  dsimp only
  split
  · rename_i label rest cut
    rw [Text.eq_of_cutAt? cut] at inCode
    obtain ⟨inLabel, inRest⟩ : '\n' ∉ label ∧ '\n' ∉ rest := by simpa using inCode
    simp [inLabel, kept rest inRest, inComment]
  · simp [kept code inCode, inComment]

def replaceLine (source : String) (number : Nat) (raw : List Char) : String :=
  String.ofList (['\n'].intercalate ((Text.lines source.toList).set (number - 1) raw))

def replaceInstruction (source : String) (number : Nat) (text : String) : String :=
  replaceLine source number (withInstruction text.toList (rawLine source number))

theorem lines_replaceLine (source : String) (number : Nat) {raw : List Char} (one : '\n' ∉ raw) :
    Text.lines (replaceLine source number raw).toList = (Text.lines source.toList).set (number - 1) raw := by
  rw [replaceLine, String.toList_ofList, Text.lines, List.splitOn_intercalate]
  · intro l member
    rcases List.mem_or_eq_of_mem_set member with old | rfl
    · exact Text.newline_of_mem_lines old
    · exact one
  · simp [Text.lines, List.splitOn_ne_nil]

def numbered (first : Nat) (raws : List (List Char)) : List Line :=
  (raws.zipIdx first).map fun (raw, number) => .read number raw

theorem numbered_append (first : Nat) (before : List (List Char)) (raw : List Char)
    (after : List (List Char)) :
    numbered first (before ++ raw :: after) =
      numbered first before ++ .read (first + before.length) raw :: numbered (first + before.length + 1) after := by
  simp only [numbered, List.zipIdx_append, List.zipIdx_cons, List.map_append, List.map_cons]

theorem countP_numbered (first : Nat) (raws : List (List Char)) :
    (numbered first raws).countP Line.hasInstruction = raws.countP isInstructionLine := by
  induction raws generalizing first with
  | nil => rfl
  | cons raw raws ih =>
    have tail := ih (first + 1)
    rw [numbered] at tail ⊢
    rw [List.zipIdx_cons, List.map_cons, List.countP_cons, List.countP_cons, tail, hasInstruction_read]

theorem place_around {source : String} {before after : List (List Char)} {raw : List Char}
    (lines : Text.lines source.toList = before ++ raw :: after) :
    place (sourceLines source.toList) =
      place (numbered 1 before) ++
        ⟨before.countP isInstructionLine, .read (before.length + 1) raw⟩ ::
          placeFrom (before.countP isInstructionLine + if isInstructionLine raw then 1 else 0)
            (numbered (before.length + 2) after) := by
  have all : sourceLines source.toList = numbered 1 (Text.lines source.toList) := rfl
  rw [all, lines, numbered_append, place, placeFrom_append, placeFrom_cons, foldl_next,
    ← List.countP_eq_length_filter, countP_numbered, Nat.zero_add, Line.next, hasInstruction_read,
    Nat.add_comm 1]
  split <;> rfl

variable {source : String} {number : Nat}

theorem exists_around (used : isInstructionLine (rawLine source number) = true) :
    ∃ before after, number = before.length + 1 ∧
      Text.lines source.toList = before ++ rawLine source number :: after ∧
        ∀ raw, (Text.lines source.toList).set (number - 1) raw = before ++ raw :: after := by
  have inside : 1 ≤ number ∧ number - 1 < (Text.lines source.toList).length := by
    by_contra outside
    have none : rawLine source number = [] := by
      rw [rawLine]
      split
      · rename_i positive
        rw [List.getElem?_eq_none (by omega)]
        rfl
      · rfl
    rw [none] at used
    cases used
  obtain ⟨positive, bound⟩ := inside
  have here : rawLine source number = (Text.lines source.toList)[number - 1] := by
    rw [rawLine, if_pos positive, List.getElem?_eq_getElem bound, Option.getD_some]
  refine ⟨(Text.lines source.toList).take (number - 1), (Text.lines source.toList).drop (number - 1 + 1),
    ?_, ?_, ?_⟩
  · rw [List.length_take]
    omega
  · rw [here, List.getElem_cons_drop, List.take_append_drop]
  · intro raw
    rw [List.set_eq_take_append_cons_drop, if_pos bound]

def PlacedLine.withText (text : List Char) (placed : PlacedLine) : PlacedLine :=
  ⟨placed.address, { placed.line with text }⟩

theorem countP_take_congr {raws others : List (List Char)}
    (same : others.map isInstructionLine = raws.map isInstructionLine) (n : Nat) :
    (others.take n).countP isInstructionLine = (raws.take n).countP isInstructionLine := by
  have marks (ls : List (List Char)) :
      (ls.take n).countP isInstructionLine = ((ls.map isInstructionLine).take n).countP id := by
    rw [← List.map_take, List.countP_map]
    rfl
  rw [marks, marks, same]

theorem place_replaceInstruction (used : isInstructionLine (rawLine source number) = true) {text : String}
    (bare : '#' ∉ text.toList) (plain : ':' ∉ text.toList) (one : '\n' ∉ text.toList)
    (filled : Text.trim text.toList ≠ []) :
    (∃ before after, place (sourceLines source.toList) = before ++ placedLine source number :: after ∧
      place (sourceLines (replaceInstruction source number text).toList) =
        before ++ (placedLine source number).withText (Text.trim text.toList) :: after) ∧
      ∀ other, instructionsBefore (replaceInstruction source number text) other =
        instructionsBefore source other := by
  obtain ⟨before, after, counted, old, replaced⟩ := exists_around used
  have member : rawLine source number ∈ Text.lines source.toList := by
    rw [old]
    exact List.mem_append_right _ List.mem_cons_self
  have single := newline_withInstruction one (Text.newline_of_mem_lines member)
  have new : Text.lines (replaceInstruction source number text).toList =
      before ++ withInstruction text.toList (rawLine source number) :: after :=
    (lines_replaceLine source number single).trans (replaced _)
  have address : before.countP isInstructionLine = instructionsBefore source number := by
    rw [instructionsBefore, old, counted, Nat.add_sub_cancel, List.take_left' rfl]
  have still : isInstructionLine (withInstruction text.toList (rawLine source number)) = true := by
    rw [← hasInstruction_read number, read_withInstruction number bare fun _ => plain]
    simpa [Line.hasInstruction] using filled
  have placedOld := place_around old
  have placedNew := place_around new
  rw [address, if_pos used, ← counted] at placedOld
  rw [address, if_pos still, ← counted, read_withInstruction number bare fun _ => plain] at placedNew
  refine ⟨⟨_, _, placedOld, placedNew⟩, fun other => ?_⟩
  rw [instructionsBefore, instructionsBefore]
  apply countP_take_congr
  rw [old, new, List.map_append, List.map_append, List.map_cons, List.map_cons, used, still]

theorem collectLabels_withText (before after : List PlacedLine) (placed : PlacedLine) (text : List Char) :
    collectLabels (before ++ placed.withText text :: after) = collectLabels (before ++ placed :: after) := by
  have same : (placed.withText text).definition? = placed.definition? := rfl
  rw [collectLabels, collectLabels, List.filterMap_append, List.filterMap_append, List.filterMap_cons,
    List.filterMap_cons, same]

section

variable {before after : List PlacedLine} {placed : PlacedLine} {labels : LabelTable}

theorem ofLines_around_failed (known : (ofLines (before ++ placed :: after)).labels = labels)
    (used : placed.line.hasInstruction = true) {cause : Cause}
    (failed : placed.instruction labels = .error cause) :
    (ofLines (before ++ placed :: after)).errors =
        (before.flatMap (·.errors labels) ++ placed.labelErrors labels) ++
          ⟨placed.line.number, cause⟩ :: after.flatMap (·.errors labels) ∧
      (ofLines (before ++ placed :: after)).listing =
        before.filterMap (·.listed? labels) ++ after.filterMap (·.listed? labels) := by
  subst known
  constructor
  · have own : placed.errors (ofLines (before ++ placed :: after)).labels =
        placed.labelErrors (ofLines (before ++ placed :: after)).labels ++ [⟨placed.line.number, cause⟩] := by
      simp only [PlacedLine.errors, PlacedLine.instructionCause?, used, failed, if_true, PlacedLine.labelErrors,
        Option.toList_some, List.map_append, List.map_cons, List.map_nil]
    have all : (ofLines (before ++ placed :: after)).errors =
      (before ++ placed :: after).flatMap (·.errors (ofLines (before ++ placed :: after)).labels) := rfl
    rw [all, List.flatMap_append, List.flatMap_cons, own]
    simp only [List.append_assoc, List.singleton_append]
  · have own : placed.listed? (ofLines (before ++ placed :: after)).labels = none := by
      simp only [PlacedLine.listed?, used, failed, if_true]
    have all : (ofLines (before ++ placed :: after)).listing =
      (before ++ placed :: after).filterMap (·.listed? (ofLines (before ++ placed :: after)).labels) := rfl
    rw [all, List.filterMap_append, List.filterMap_cons_none own]

theorem ofLines_around_spelled (known : (ofLines (before ++ placed :: after)).labels = labels)
    (used : placed.line.hasInstruction = true) {instruction : Instruction}
    (spelled : placed.instruction labels = .ok instruction) :
    (ofLines (before ++ placed :: after)).errors =
        (before.flatMap (·.errors labels) ++ placed.labelErrors labels) ++ after.flatMap (·.errors labels) ∧
      (ofLines (before ++ placed :: after)).listing =
        before.filterMap (·.listed? labels) ++
          ⟨placed.address, placed.line.number, String.ofList placed.line.text, instruction.encode⟩ ::
            after.filterMap (·.listed? labels) := by
  subst known
  constructor
  · have own : placed.errors (ofLines (before ++ placed :: after)).labels =
        placed.labelErrors (ofLines (before ++ placed :: after)).labels := by
      simp only [PlacedLine.errors, PlacedLine.instructionCause?, used, spelled, if_true, PlacedLine.labelErrors,
        Option.toList_none, List.append_nil]
    have all : (ofLines (before ++ placed :: after)).errors =
      (before ++ placed :: after).flatMap (·.errors (ofLines (before ++ placed :: after)).labels) := rfl
    rw [all, List.flatMap_append, List.flatMap_cons, own, List.append_assoc]
  · have own : placed.listed? (ofLines (before ++ placed :: after)).labels =
        some ⟨placed.address, placed.line.number, String.ofList placed.line.text, instruction.encode⟩ := by
      simp only [PlacedLine.listed?, used, spelled, if_true]
    have all : (ofLines (before ++ placed :: after)).listing =
      (before ++ placed :: after).filterMap (·.listed? (ofLines (before ++ placed :: after)).labels) := rfl
    rw [all, List.filterMap_append, List.filterMap_cons_some own]

end

section

variable {part : List PlacedLine} {P : Nat → Prop} (each : ∀ placed ∈ part, P placed.line.number)
  (labels : LabelTable)
include each

theorem forall_line_errors : ∀ error ∈ part.flatMap (·.errors labels), P error.line := by
  intro error member
  obtain ⟨placed, here, given⟩ := List.mem_flatMap.1 member
  obtain ⟨cause, -, rfl⟩ := List.mem_map.1 given
  exact each placed here

theorem forall_line_listing : ∀ entry ∈ part.filterMap (·.listed? labels), P entry.line := by
  intro entry member
  obtain ⟨placed, here, listed⟩ := List.mem_filterMap.1 member
  obtain ⟨_, -, -, rfl⟩ := exists_of_listed? listed
  exact each placed here

end

theorem instruction_nop (labels : LabelTable) {placed : PlacedLine} (room : placed.address < addressSpace) :
    (placed.withText ['n', 'o', 'p']).instruction labels = .ok (.special .nop) := by
  have behind : ¬addressSpace ≤ (placed.withText ['n', 'o', 'p']).address := Nat.not_le.2 room
  rw [PlacedLine.instruction, if_neg behind]
  exact parseInstruction_text labels _ (show (Instruction.special .nop).WellFormed from rfl)

/-- An instruction that fails and is replaced by one that does nothing. The labels stay as they are, the one
error is gone, and at the address of the line there is a new entry. All other errors and entries, and
all addresses, are the same. -/
theorem ofSource_replaceInstruction {cause : Cause}
    (used : isInstructionLine (rawLine source number) = true)
    (room : instructionsBefore source number < 65536)
    (failed : lineInstruction source number = .error cause) :
    let original := ofSource source
    let mended := ofSource (replaceInstruction source number "nop")
    mended.labels = original.labels ∧
      (∃ earlier later, original.errors = earlier ++ ⟨number, cause⟩ :: later ∧
        mended.errors = earlier ++ later ∧
        (∀ error ∈ earlier, error.line ≤ number) ∧ ∀ error ∈ later, number < error.line) ∧
      (∃ earlier later, original.listing = earlier ++ later ∧
        mended.listing = earlier ++ ⟨instructionsBefore source number, number, "nop", 0xE000⟩ :: later ∧
        (∀ entry ∈ earlier, entry.line < number) ∧ ∀ entry ∈ later, number < entry.line) ∧
      ∀ other, instructionsBefore (replaceInstruction source number "nop") other =
        instructionsBefore source other := by
  intro original mended
  have nop : "nop".toList = ['n', 'o', 'p'] := rfl
  obtain ⟨⟨before, after, old, new⟩, addresses⟩ :=
    place_replaceInstruction used (show '#' ∉ "nop".toList by decide) (by decide) (by decide) (by decide)
  rw [nop, show Text.trim ['n', 'o', 'p'] = ['n', 'o', 'p'] from rfl] at new
  have ordered := pairwise_place source
  have counted := number_placedLine source number
  have filled : (placedLine source number).line.hasInstruction = true := (hasInstruction_read _ _).trans used
  have wrong : (placedLine source number).instruction original.labels = .error cause := by
    have inside : ¬addressSpace ≤ (placedLine source number).address := Nat.not_le.2 room
    rw [PlacedLine.instruction, if_neg inside, text_placedLine]
    exact failed
  have right : ((placedLine source number).withText ['n', 'o', 'p']).instruction original.labels =
      .ok (.special .nop) := instruction_nop original.labels room
  rw [old, List.pairwise_append, List.pairwise_cons, counted] at ordered
  obtain ⟨-, ⟨behind, -⟩, ahead⟩ := ordered
  have lower : ∀ placed ∈ before, placed.line.number < number := fun placed member =>
    counted ▸ ahead placed member _ List.mem_cons_self
  have first : original = ofLines (before ++ placedLine source number :: after) := congrArg ofLines old
  have second : mended = ofLines (before ++ (placedLine source number).withText ['n', 'o', 'p'] :: after) :=
    congrArg ofLines new
  have labels : mended.labels = original.labels := by
    rw [first, second]
    exact collectLabels_withText before after _ _
  clear_value original mended
  subst first
  subst second
  obtain ⟨errors, listing⟩ := ofLines_around_failed rfl filled wrong
  obtain ⟨fewer, more⟩ := ofLines_around_spelled labels rfl right
  have entry : (⟨_, _, String.ofList ['n', 'o', 'p'], (Instruction.special .nop).encode⟩ : ListingEntry) =
      ⟨instructionsBefore source number, number, "nop", 0xE000⟩ := rfl
  have line : ((placedLine source number).withText ['n', 'o', 'p']).line.number = number := counted
  rw [counted] at errors
  rw [line] at more
  refine ⟨labels, ⟨_, _, errors, fewer, ?_, forall_line_errors (P := (number < ·)) behind _⟩,
    ⟨_, _, listing, more, forall_line_listing (P := (· < number)) lower _,
      forall_line_listing (P := (number < ·)) behind _⟩, addresses⟩
  intro error member
  rcases List.mem_append.1 member with earlier | own
  · exact (forall_line_errors (P := (· < number)) lower _ error earlier).le
  · obtain ⟨cause, -, rfl⟩ := List.mem_map.1 own
    exact counted.le

/-- A bad instruction behind a label that is used, and a line on which both are wrong. -/
def faulty : String := "go: frob x1 # how?\n jal x0, go\ngo: addi x1, x1, 99 # far"

theorem ofSource_replaceInstruction_faulty :
    replaceInstruction faulty 3 "nop" = "go: frob x1 # how?\n jal x0, go\ngo: nop # far" ∧
      (ofSource faulty).errors =
        [⟨1, .unknownMnemonic "frob"⟩, ⟨3, .duplicateLabel "go" 1⟩, ⟨3, .outOfRange 99 0 15⟩] ∧
      isInstructionLine (rawLine faulty 3) = true ∧ instructionsBefore faulty 3 < 65536 ∧
      lineInstruction faulty 3 = .error (.outOfRange 99 0 15) ∧
      (ofSource (replaceInstruction faulty 3 "nop")).labels = (ofSource faulty).labels ∧
      ⟨2, 3, "nop", 0xE000⟩ ∈ (ofSource (replaceInstruction faulty 3 "nop")).listing ∧
      (ofSource (replaceInstruction faulty 3 "nop")).errors.length = 2 := by
  have errors : (ofSource faulty).errors =
      [⟨1, .unknownMnemonic "frob"⟩, ⟨3, .duplicateLabel "go" 1⟩, ⟨3, .outOfRange 99 0 15⟩] := by
    decide +kernel
  have used : isInstructionLine (rawLine faulty 3) = true := by decide +kernel
  have address : instructionsBefore faulty 3 = 2 := by decide +kernel
  have failed : lineInstruction faulty 3 = .error (.outOfRange 99 0 15) := by decide +kernel
  have room : instructionsBefore faulty 3 < 65536 := by
    rw [address]
    decide
  obtain ⟨labels, ⟨earlier, later, before, after, -⟩, ⟨above, below, -, mended, -⟩, -⟩ :=
    ofSource_replaceInstruction used room failed
  refine ⟨by decide +kernel, errors, used, room, failed, labels, ?_, ?_⟩
  · rw [mended, address]
    exact List.mem_append_right above List.mem_cons_self
  · have count := congrArg List.length before
    rw [errors] at count
    rw [after]
    simp at count ⊢
    omega

end Assembly

end Harvard16
