import Harvard16.Proofs.Renumbering
import Harvard16.Proofs.Replacement

/-! The layout of a source. Blank lines and lines of comment, comments behind a line, blanks at its ends and
around the colon of its label, what parts the tokens of its instruction, the case of letters, and which of
the two common endings lines have: none of this is looked at but for the numbers of lines and the texts
that listings and messages show. Main statement: whatever is edited in one of these ways keeps its words, the
addresses of its labels and of its listing, and the kinds of its errors. -/
namespace Harvard16

namespace Text

def withReturns (cs : List Char) : List Char := cs.flatMap fun c => if c = '\n' then ['\r', '\n'] else [c]

theorem lines_withReturns (cs : List Char) :
    List.Forall₂ (fun raw other => other = raw ∨ other = raw ++ ['\r']) (lines cs)
      (lines (withReturns cs)) := by
  induction cs with
  | nil => exact .cons (.inl rfl) .nil
  | cons c cs ih =>
    have rest : withReturns (c :: cs) = (if c = '\n' then ['\r', '\n'] else [c]) ++ withReturns cs :=
      List.flatMap_cons ..
    rw [rest, lines, lines, List.splitOn_cons_eq_if_modifyHead]
    rw [lines, lines] at ih
    by_cases ends : c = '\n'
    · rw [if_pos ends, if_pos (by simp [ends]), List.cons_append, List.cons_append, List.nil_append,
        List.splitOn_cons_eq_if_modifyHead, List.splitOn_cons_eq_if_modifyHead]
      exact .cons (.inr rfl) ih
    · rw [if_neg ends, if_neg (by simp [ends]), List.cons_append, List.nil_append,
        List.splitOn_cons_eq_if_modifyHead, if_neg (by simp [ends])]
      generalize cs.splitOn '\n' = raws, (withReturns cs).splitOn '\n' = others at ih
      cases ih with
      | nil => exact .nil
      | cons head tail =>
        refine .cons ?_ tail
        rcases head with rfl | rfl
        · exact .inl rfl
        · exact .inr rfl

variable {isSeparator : Char → Bool}

theorem tokens_nil : tokens isSeparator [] = [] := rfl

theorem tokens_append_cons {c : Char} (separator : isSeparator c = true) (before after : List Char) :
    tokens isSeparator (before ++ c :: after) = tokens isSeparator before ++ tokens isSeparator after := by
  rw [tokens, List.splitOnP_append_cons _ _ separator, List.filter_append]
  rfl

theorem tokens_separators_append {run : List Char} (separators : ∀ c ∈ run, isSeparator c = true)
    (after : List Char) : tokens isSeparator (run ++ after) = tokens isSeparator after := by
  induction run with
  | nil => rfl
  | cons c run ih =>
    obtain ⟨first, rest⟩ := List.forall_mem_cons.1 separators
    rw [List.cons_append, tokens_cons first, ih rest]

theorem tokens_around {run : List Char} (nonempty : run ≠ []) (separators : ∀ c ∈ run, isSeparator c = true)
    (before after : List Char) :
    tokens isSeparator (before ++ run ++ after) = tokens isSeparator before ++ tokens isSeparator after := by
  obtain ⟨c, rest, rfl⟩ := List.exists_cons_of_ne_nil nonempty
  obtain ⟨first, others⟩ := List.forall_mem_cons.1 separators
  rw [List.append_assoc, List.cons_append, tokens_append_cons first, tokens_separators_append others]

theorem tokens_append_separators {run : List Char} (separators : ∀ c ∈ run, isSeparator c = true)
    (before : List Char) : tokens isSeparator (before ++ run) = tokens isSeparator before := by
  by_cases none : run = []
  · rw [none, List.append_nil]
  · have parted := tokens_around none separators before []
    rwa [List.append_nil, tokens_nil, List.append_nil] at parted

theorem tokens_trim (blank : ∀ c, isBlank c = true → isSeparator c = true) (cs : List Char) :
    tokens isSeparator (trim cs) = tokens isSeparator cs := by
  have whole := replaceTrimmed_trim cs
  rw [replaceTrimmed] at whole
  rw [← congrArg (tokens isSeparator) whole,
    tokens_append_separators fun c member => blank c (List.mem_rtakeWhile_imp member),
    tokens_separators_append fun c member => blank c (List.mem_takeWhile_imp member)]

end Text

namespace Assembly

theorem isSeparator_of_isBlank (c : Char) (blank : Text.isBlank c = true) : isSeparator c = true := by
  simp [isSeparator, blank]

theorem parseInstruction_trim (labels : LabelTable) (address : Nat) (text : List Char) :
    parseInstruction labels address (Text.trim text) = parseInstruction labels address text := by
  simp only [parseInstruction, Text.tokens_trim isSeparator_of_isBlank]

theorem read_congr {a b : List Char} (same : code a = code b) (number : Nat) :
    Line.read number a = Line.read number b := by
  have labelled : isLabelled a = isLabelled b := by
    rw [Bool.eq_iff_iff, isLabelled_iff, isLabelled_iff, same]
  rw [read_eq, read_eq, labelled, labelText, labelText, instructionText, instructionText, same]

theorem not_mem_of_blank {mark : Char} (inked : Text.isBlank mark = false) {cs : List Char}
    (blank : ∀ c ∈ cs, Text.isBlank c = true) : mark ∉ cs := by
  intro member
  rw [blank mark member] at inked
  cases inked

theorem code_around {before after : List Char} (ahead : ∀ c ∈ before, Text.isBlank c = true)
    (behind : ∀ c ∈ after, Text.isBlank c = true) (core : List Char) :
    code (before ++ core ++ after) = code core := by
  have inked : Text.isBlank '#' = false := by decide
  have bareBefore := Text.bne_of_not_mem (not_mem_of_blank inked ahead)
  have bareAfter := Text.bne_of_not_mem (not_mem_of_blank inked behind)
  rw [code, code, List.append_assoc, List.takeWhile_append_of_pos bareBefore, List.takeWhile_append]
  split
  · rename_i uncommented
    have whole : core.takeWhile (· != '#') = core :=
      (List.takeWhile_prefix _).eq_of_length uncommented
    rw [List.takeWhile_eq_self_iff.2 bareAfter, ← List.append_assoc, Text.trim_around ahead behind, whole]
  · exact Text.trim_blanks_append ahead (core.takeWhile (· != '#'))

theorem code_comment (raw comment : List Char) : code (raw ++ '#' :: comment) = code raw := by
  rw [code, code, List.takeWhile_append]
  split
  · rename_i uncommented
    have whole : raw.takeWhile (· != '#') = raw := (List.takeWhile_prefix _).eq_of_length uncommented
    rw [List.takeWhile_cons_of_neg (by simp), List.append_nil, whole]
  · rfl

theorem read_colon (number : Nat) {label before after : List Char} (bare : '#' ∉ label)
    (first : ':' ∉ label) (ahead : ∀ c ∈ before, Text.isBlank c = true)
    (behind : ∀ c ∈ after, Text.isBlank c = true) (rest : List Char) :
    Line.read number (label ++ before ++ ':' :: (after ++ rest)) =
      ⟨number, some (Text.trim label), Text.trim (rest.takeWhile (· != '#'))⟩ := by
  have whole : rest.takeWhile (· != '#') ++ rest.dropWhile (· != '#') = rest :=
    List.takeWhile_append_dropWhile
  have opens := takeWhile_comment rest
  have body : '#' ∉ rest.takeWhile (· != '#') := fun member => by simpa using List.mem_takeWhile_imp member
  generalize rest.takeWhile (· != '#') = code, rest.dropWhile (· != '#') = comment at *
  subst whole
  have hash : Text.isBlank '#' = false := by decide
  have colon : Text.isBlank ':' = false := by decide
  have plain : '#' ∉ label ++ before ++ ':' :: (after ++ code) := by
    simp [bare, body, not_mem_of_blank hash ahead, not_mem_of_blank hash behind]
  have early : ':' ∉ label ++ before := by simp [first, not_mem_of_blank colon ahead]
  rw [← List.append_assoc after, read_labelled number plain early opens, Text.trim_append_blanks ahead,
    Text.trim_blanks_append behind]

theorem mem_instructionText {c : Char} (inked : Text.isBlank c = false) {raw : List Char}
    (member : c ∈ instructionText raw) : c ∈ raw.takeWhile (· != '#') := by
  rw [instructionText, Text.mem_trim inked] at member
  rw [← Text.mem_trim inked]
  split at member
  · exact (List.dropWhile_sublist _).mem (List.mem_of_mem_tail member)
  · exact member

theorem read_edited (number : Nat) {raw text : List Char} (bare : '#' ∈ text → '#' ∈ instructionText raw)
    (plain : ':' ∈ text → ':' ∈ instructionText raw) :
    Line.read number (withInstruction text raw) = { Line.read number raw with text := Text.trim text } := by
  apply read_withInstruction
  · intro member
    simpa using List.mem_takeWhile_imp (mem_instructionText (by decide) (bare member))
  · intro unlabelled member
    have inside := mem_instructionText (by decide) (plain member)
    rw [isLabelled, List.contains_iff_mem.2 inside] at unlabelled
    cases unlabelled

/-- How a line can be edited: by a comment behind it, by other blanks at its ends or around the colon of its
label, and in its instruction by other separators between two tokens, or by letters of the other case. The
letters of the target of a branch or a jump stay as they are, since it may be a label. -/
inductive LineEdit : List Char → List Char → Prop
  | comment {ending : List Char} (blank : ∀ c ∈ ending, Text.isBlank c = true) (raw text : List Char) :
      LineEdit (raw ++ ending) (raw ++ '#' :: (text ++ ending))
  | ends {before after ahead behind : List Char}
      (blank : ∀ c ∈ before ++ after ++ ahead ++ behind, Text.isBlank c = true) (core : List Char) :
      LineEdit (before ++ core ++ after) (ahead ++ core ++ behind)
  | colon {label before after ahead behind : List Char} (bare : '#' ∉ label) (first : ':' ∉ label)
      (blank : ∀ c ∈ before ++ after ++ ahead ++ behind, Text.isBlank c = true) (rest : List Char) :
      LineEdit (label ++ before ++ ':' :: (after ++ rest)) (label ++ ahead ++ ':' :: (behind ++ rest))
  | separators {raw before run other after : List Char} (whole : instructionText raw = before ++ run ++ after)
      (ahead : ∃ c ∈ before, isSeparator c = false) (behind : ∃ c ∈ after, isSeparator c = false)
      (nonempty : run ≠ [] ∧ other ≠ []) (separators : ∀ c ∈ run ++ other, isSeparator c = true) :
      LineEdit raw (withInstruction (before ++ other ++ after) raw)
  | letters {raw text : List Char} (same : SameLetters (instructionText raw) text)
      (target : target? (instructionText raw) = target? text) : LineEdit raw (withInstruction text raw)

/-- A source and what it becomes by an edit: lines without code are inserted, one line is edited, or all lines
get the longer ending. -/
inductive Edit (source edited : String) : Prop
  | insert {before added after : List (List Char)} (lines : Text.lines source.toList = before ++ after)
      (more : Text.lines edited.toList = before ++ (added ++ after))
      (blank : ∀ raw ∈ added, ∀ c ∈ raw.takeWhile (· != '#'), Text.isBlank c = true)
  | line {before after : List (List Char)} {raw other : List Char}
      (lines : Text.lines source.toList = before ++ raw :: after)
      (changed : Text.lines edited.toList = before ++ other :: after) (edit : LineEdit raw other)
  | returns (text : edited.toList = Text.withReturns source.toList)

def SameLine (raw other : List Char) : Prop :=
  ∀ renumber number, (Line.read number raw).Alike renumber (Line.read (renumber number) other)

theorem sameLine_of_read {raw other : List Char}
    (same : ∀ number, Line.read number other = Line.read number raw) : SameLine raw other := by
  intro renumber number
  rw [same, read_eq, read_eq]
  exact ⟨rfl, rfl, rfl, fun _ _ => .refl _⟩

theorem sameLine_withInstruction {raw text : List Char} (bare : '#' ∈ text → '#' ∈ instructionText raw)
    (plain : ':' ∈ text → ':' ∈ instructionText raw)
    (filled : (Text.trim text).isEmpty = (instructionText raw).isEmpty)
    (verdict : ∀ labels address, SameVerdict (parseInstruction labels address (instructionText raw))
      (parseInstruction labels address text)) : SameLine raw (withInstruction text raw) := by
  intro renumber number
  rw [read_edited _ bare plain, read_eq, read_eq]
  refine ⟨rfl, rfl, congrArg not filled, fun labels address => ?_⟩
  rw [parseInstruction_trim]
  exact verdict labels address

theorem mark_of_separators {mark : Char} (inked : isSeparator mark = false) {before run other after : List Char}
    (separators : ∀ c ∈ run ++ other, isSeparator c = true) (member : mark ∈ before ++ other ++ after) :
    mark ∈ before ++ run ++ after := by
  have outside : mark ∉ other := by
    intro inside
    rw [separators mark (List.mem_append_right _ inside)] at inked
    cases inked
  simp only [List.mem_append, outside, or_false] at member ⊢
  exact member.imp .inl id

theorem isEmpty_trim_of_token {text : List Char} (token : ∃ c ∈ text, isSeparator c = false) :
    (Text.trim text).isEmpty = false := by
  obtain ⟨c, member, plain⟩ := token
  have inked : Text.isBlank c = false := by
    by_contra blank
    rw [isSeparator_of_isBlank c (by simpa using blank)] at plain
    cases plain
  exact List.isEmpty_eq_false_iff_exists_mem.2 ⟨c, (Text.mem_trim inked).2 member⟩

theorem trim_instructionText (raw : List Char) : Text.trim (instructionText raw) = instructionText raw :=
  Text.trim_trim _

theorem LineEdit.sameLine {raw other : List Char} (edit : LineEdit raw other) : SameLine raw other := by
  cases edit with
  | comment blank raw text =>
    have ending := code_around (List.forall_mem_nil _) blank raw
    exact sameLine_of_read (read_congr ((code_comment raw _).trans ending.symm))
  | ends blank core =>
    simp only [List.forall_mem_append] at blank
    obtain ⟨⟨⟨before, after⟩, ahead⟩, behind⟩ := blank
    exact sameLine_of_read (read_congr ((code_around ahead behind core).trans
      (code_around before after core).symm))
  | colon bare first blank rest =>
    simp only [List.forall_mem_append] at blank
    obtain ⟨⟨⟨before, after⟩, ahead⟩, behind⟩ := blank
    refine sameLine_of_read fun number => ?_
    rw [read_colon number bare first ahead behind rest, read_colon number bare first before after rest]
  | @separators _ before run other after whole ahead behind nonempty separators =>
    obtain ⟨c, member, token⟩ := ahead
    obtain ⟨old, new⟩ := List.forall_mem_append.1 separators
    have marks {mark : Char} (inked : isSeparator mark = false) :
        mark ∈ before ++ other ++ after → mark ∈ instructionText raw := by
      rw [whole]
      exact mark_of_separators inked separators
    refine sameLine_withInstruction (marks (by decide)) (marks (by decide)) ?_ fun labels address => ?_
    · rw [isEmpty_trim_of_token ⟨c, by simp [member], token⟩, ← trim_instructionText, whole,
        isEmpty_trim_of_token ⟨c, by simp [member], token⟩]
    · have tokens : Text.tokens isSeparator (before ++ other ++ after) =
          Text.tokens isSeparator (instructionText raw) := by
        rw [whole, Text.tokens_around nonempty.1 old, Text.tokens_around nonempty.2 new]
      rw [parseInstruction, parseInstruction, tokens]
      exact .refl _
  | @letters _ text same target =>
    have marks {mark : Char} (other : mark.isAlpha = false) : mark ∈ text → mark ∈ instructionText raw := by
      rw [← Text.mem_map_toLower_iff other, ← same, Text.mem_map_toLower_iff other]
      exact id
    refine sameLine_withInstruction (marks (by decide)) (marks (by decide)) ?_ fun labels address =>
      parseInstruction_of_letters labels address same target
    rw [← trim_instructionText]
    exact same.trim.isEmpty.symm

theorem numbered_cons (first : Nat) (raw : List Char) (raws : List (List Char)) :
    numbered first (raw :: raws) = .read first raw :: numbered (first + 1) raws := rfl

theorem numbered_join (first : Nat) (before after : List (List Char)) :
    numbered first (before ++ after) = numbered first before ++ numbered (first + before.length) after := by
  simp only [numbered, List.zipIdx_append, List.map_append]

theorem alike_numbered {renumber : Nat → Nat} {raws others : List (List Char)}
    (same : List.Forall₂ SameLine raws others) {first other : Nat}
    (shift : ∀ i < raws.length, renumber (first + i) = other + i) :
    List.Forall₂ (Line.Alike renumber) (numbered first raws) (numbered other others) := by
  induction same generalizing first other with
  | nil => exact .nil
  | cons head _ ih =>
    obtain rfl : renumber first = other := shift 0 (Nat.zero_lt_succ _)
    rw [numbered_cons, numbered_cons]
    refine .cons (head renumber first) (ih fun i inside => ?_)
    have next := shift (i + 1) (Nat.succ_lt_succ inside)
    rwa [Nat.add_right_comm first, Nat.add_right_comm (renumber first)]

theorem sameLines_refl (raws : List (List Char)) : List.Forall₂ SameLine raws raws :=
  List.forall₂_same.2 fun _ _ => sameLine_of_read fun _ => rfl

theorem gist_of_sameLines {source edited : String}
    (same : List.Forall₂ SameLine (Text.lines source.toList) (Text.lines edited.toList)) :
    (ofSource edited).gist = (ofSource source).gist :=
  gist_ofLines Function.injective_id (alike_placeFrom (alike_numbered same fun _ _ => rfl) 0)

theorem silent_of_blank {raw : List Char} (blank : ∀ c ∈ raw.takeWhile (· != '#'), Text.isBlank c = true)
    (number : Nat) :
    (Line.read number raw).label = none ∧ (Line.read number raw).hasInstruction = false := by
  have empty : code raw = code [] := by
    have trimmed := Text.trim_blanks_append blank []
    rwa [List.append_nil] at trimmed
  rw [read_congr empty]
  exact ⟨rfl, rfl⟩

def pushed (first count number : Nat) : Nat := if number < first then number else number + count

theorem pushed_injective (first count : Nat) : (pushed first count).Injective := by
  intro m n same
  unfold pushed at same
  split at same <;> split at same <;> omega

theorem gist_inserted {source edited : String} {before added after : List (List Char)}
    (lines : Text.lines source.toList = before ++ after)
    (more : Text.lines edited.toList = before ++ (added ++ after))
    (blank : ∀ raw ∈ added, ∀ c ∈ raw.takeWhile (· != '#'), Text.isBlank c = true) :
    (ofSource edited).gist = (ofSource source).gist := by
  have silent : ∀ line ∈ numbered (1 + before.length) added,
      line.label = none ∧ line.hasInstruction = false := by
    intro line member
    obtain ⟨⟨raw, number⟩, inside, rfl⟩ := List.mem_map.1 member
    exact silent_of_blank (blank raw (List.fst_mem_of_mem_zipIdx inside)) number
  have ahead : List.Forall₂ (Line.Alike (pushed (1 + before.length) added.length))
      (numbered 1 before) (numbered 1 before) :=
    alike_numbered (sameLines_refl before) fun i inside => if_pos (by omega)
  have behind : List.Forall₂ (Line.Alike (pushed (1 + before.length) added.length))
      (numbered (1 + before.length) after) (numbered (1 + before.length + added.length) after) :=
    alike_numbered (sameLines_refl after) fun i _ => (if_neg (by omega)).trans (Nat.add_right_comm _ _ _)
  have old : ofSource source =
      ofLines (place (numbered 1 before ++ numbered (1 + before.length) after)) := by
    rw [← numbered_join, ← lines]
    rfl
  have new : ofSource edited =
      ofLines (place (numbered 1 before ++ numbered (1 + before.length + added.length) after)) := by
    rw [← ofLines_insert silent, ← numbered_join, ← numbered_join, ← more]
    rfl
  rw [old, new]
  exact gist_ofLines (pushed_injective _ _) (alike_placeFrom (List.rel_append ahead behind) 0)

/-- None of the edits changes what an assembly says. -/
theorem gist_edited {source edited : String} (edit : Edit source edited) :
    (ofSource edited).gist = (ofSource source).gist := by
  cases edit with
  | insert lines more blank => exact gist_inserted lines more blank
  | @line before after raw other lines changed edit =>
    apply gist_of_sameLines
    rw [lines, changed]
    exact List.rel_append (sameLines_refl before) (.cons edit.sameLine (sameLines_refl after))
  | returns text =>
    apply gist_of_sameLines
    rw [text]
    refine (Text.lines_withReturns source.toList).imp ?_
    rintro raw other (rfl | rfl)
    · exact sameLine_of_read fun _ => rfl
    · have blank : ∀ c ∈ ['\r'], Text.isBlank c = true := List.forall_mem_singleton.2 (by decide)
      exact sameLine_of_read (read_congr (code_around (List.forall_mem_nil _) blank raw))

/-- Edited step by step: lines without code are inserted, then the colon gets a blank, letters become capitals
and line endings longer. -/
def unedited : String := "go: lw x1, 4(x2)\nbeq x1, x0, go\nbad x9"

def commented : String := "go: lw x1, 4(x2)\n\n # why\nbeq x1, x0, go\nbad x9"

def spaced : String := "go : lw x1, 4(x2)\n\n # why\nbeq x1, x0, go\nbad x9"

def loud : String := "go : lw x1, 4(x2)\n\n # why\nBEQ X1, X0, go\nbad x9"

def returned : String := "go : lw x1, 4(x2)\r\n\r\n # why\r\nBEQ X1, X0, go\r\nbad x9"

theorem gist_edited_unedited :
    Edit unedited commented ∧ Edit commented spaced ∧ Edit spaced loud ∧ Edit loud returned ∧
      (ofSource returned).gist = (ofSource unedited).gist ∧
      (ofSource unedited).gist = ⟨[0x8124, 0xA10F], [("go", 0)], [0, 1], [.unknownMnemonic]⟩ := by
  have empty : ["".toList, " # why".toList].all (fun raw => (raw.takeWhile (· != '#')).all Text.isBlank) =
      true := by decide +kernel
  have first : Edit unedited commented :=
    @Edit.insert _ _ ["go: lw x1, 4(x2)".toList] ["".toList, " # why".toList]
      ["beq x1, x0, go".toList, "bad x9".toList] (by decide +kernel) (by decide +kernel)
      fun raw member => List.all_eq_true.1 (List.all_eq_true.1 empty raw member)
  have spaces : [' ', ' ', ' '].all Text.isBlank = true := by decide
  have second : Edit commented spaced :=
    @Edit.line _ _ [] ["".toList, " # why".toList, "beq x1, x0, go".toList, "bad x9".toList] _ _
      (by decide +kernel) (by decide +kernel)
      (@LineEdit.colon "go".toList [] [' '] [' '] [' '] (by decide) (by decide)
        (List.all_eq_true.1 spaces) "lw x1, 4(x2)".toList)
  have third : Edit spaced loud :=
    @Edit.line _ _ ["go : lw x1, 4(x2)".toList, "".toList, " # why".toList] ["bad x9".toList]
      "beq x1, x0, go".toList _ (by decide +kernel) (by decide +kernel)
      (@LineEdit.letters _ "BEQ X1, X0, go".toList (by decide +kernel) (by decide +kernel))
  have fourth : Edit loud returned := .returns (by decide +kernel)
  refine ⟨first, second, third, fourth, ?_, by decide +kernel⟩
  exact (gist_edited fourth).trans ((gist_edited third).trans ((gist_edited second).trans (gist_edited first)))

end Assembly

end Harvard16
