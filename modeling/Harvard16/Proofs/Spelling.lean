import Harvard16.Proofs.Listing

/-! How an instruction is spelled and read. Its text is a name and operands, each a word without
separators, with a blank after the name and a comma and a blank between operands. Such a text is
a line of its own without label or comment, and its tokens are its words. Main statement: the
text of a well-formed instruction spells that instruction, whatever the labels and the address. -/
namespace Harvard16

namespace Text

variable {isSeparator : Char → Bool}

theorem tokens_of_word {w : List Char} (nonempty : w ≠ []) (plain : ∀ c ∈ w, isSeparator c = false) :
    tokens isSeparator w = [w] := by
  rw [tokens, List.splitOnP_eq_singleton plain]
  simp [nonempty]

theorem tokens_word_append {w : List Char} (nonempty : w ≠ []) (plain : ∀ c ∈ w, isSeparator c = false)
    {c : Char} (separator : isSeparator c = true) (rest : List Char) :
    tokens isSeparator (w ++ c :: rest) = w :: tokens isSeparator rest := by
  rw [tokens, List.splitOnP_append_cons_of_forall_mem plain c separator]
  simp [nonempty, tokens]

theorem tokens_cons {c : Char} (separator : isSeparator c = true) (rest : List Char) :
    tokens isSeparator (c :: rest) = tokens isSeparator rest := by
  simp [tokens, List.splitOnP_cons_eq_if_modifyHead, separator]

theorem trim_eq_self {cs : List Char} (first : ∀ c ∈ cs.head?, isBlank c = false)
    (last : ∀ c ∈ cs.getLast?, isBlank c = false) : trim cs = cs := by
  have start : trimStart cs = cs := by
    cases cs with
    | nil => rfl
    | cons c cs => simp [trimStart, first c rfl]
  rw [trim, start, trimEnd]
  cases reversed : cs.reverse with
  | nil => simpa using reversed.symm
  | cons c rest =>
    have final : isBlank c = false := by
      apply last
      rw [← List.head?_reverse, reversed]
      rfl
    rw [List.dropWhile_cons_of_neg (by simp [final]), ← reversed, List.reverse_reverse]

end Text

namespace Assembly

/-- A token that opens neither a comment nor a label. -/
structure IsWord (w : List Char) : Prop where
  nonempty : w ≠ []
  plain : ∀ c ∈ w, isSeparator c = false ∧ c ≠ '#' ∧ c ≠ ':'

def spell (name : List Char) : List (List Char) → List Char
  | [] => name
  | first :: rest => name ++ ' ' :: (first ++ rest.flatMap fun w => ',' :: ' ' :: w)

theorem tokens_operands {first : List Char} {rest : List (List Char)} (head : IsWord first)
    (words : ∀ w ∈ rest, IsWord w) :
    Text.tokens isSeparator (first ++ rest.flatMap fun w => ',' :: ' ' :: w) = first :: rest := by
  induction rest generalizing first with
  | nil =>
    rw [List.flatMap_nil, List.append_nil]
    exact Text.tokens_of_word head.nonempty fun c member => (head.plain c member).1
  | cons second rest ih =>
    obtain ⟨next, others⟩ := List.forall_mem_cons.1 words
    rw [List.flatMap_cons, List.cons_append, List.cons_append,
      Text.tokens_word_append head.nonempty (fun c member => (head.plain c member).1) rfl,
      Text.tokens_cons rfl, ih next others]

theorem tokens_spell {name : List Char} {operands : List (List Char)} (head : IsWord name)
    (words : ∀ w ∈ operands, IsWord w) :
    Text.tokens isSeparator (spell name operands) = name :: operands := by
  cases operands with
  | nil => exact Text.tokens_of_word head.nonempty fun c member => (head.plain c member).1
  | cons first rest =>
    obtain ⟨next, others⟩ := List.forall_mem_cons.1 words
    rw [spell, Text.tokens_word_append head.nonempty (fun c member => (head.plain c member).1) rfl,
      tokens_operands next others]

theorem mem_spell {c : Char} {name : List Char} {operands : List (List Char)}
    (member : c ∈ spell name operands) :
    c ∈ name ∨ c = ' ' ∨ c = ',' ∨ ∃ w ∈ operands, c ∈ w := by
  cases operands with
  | nil => exact .inl member
  | cons first rest =>
    simp only [spell, List.mem_append, List.mem_cons, List.mem_flatMap] at member
    grind

theorem absent_spell {mark : Char} {name : List Char} {operands : List (List Char)} (head : IsWord name)
    (words : ∀ w ∈ operands, IsWord w) (unused : ∀ w, IsWord w → mark ∉ w) (blank : mark ≠ ' ')
    (comma : mark ≠ ',') : mark ∉ spell name operands := by
  intro member
  rcases mem_spell member with inName | same | same | ⟨w, used, inOperand⟩
  · exact unused name head inName
  · exact blank same
  · exact comma same
  · exact unused w (words w used) inOperand

theorem isBlank_of_mem {w : List Char} (h : IsWord w) {c : Char} (member : c ∈ w) :
    Text.isBlank c = false := by
  have plain := (h.plain c member).1
  simp [isSeparator] at plain
  exact plain.2

theorem head?_spell {name : List Char} (head : IsWord name) (operands : List (List Char)) :
    (spell name operands).head? = name.head? := by
  obtain ⟨c, cs, rfl⟩ := List.exists_cons_of_ne_nil head.nonempty
  cases operands <;> rfl

theorem last_append (before : List Char) {w : List Char} (h : IsWord w) :
    ∀ c ∈ (before ++ w).getLast?, Text.isBlank c = false := by
  intro c last
  rw [List.getLast?_append, List.getLast?_eq_some_getLast h.nonempty, Option.some_or] at last
  cases last
  exact isBlank_of_mem h (List.getLast_mem h.nonempty)

theorem last_spell {name : List Char} {operands : List (List Char)} (head : IsWord name)
    (words : ∀ w ∈ operands, IsWord w) :
    ∀ c ∈ (spell name operands).getLast?, Text.isBlank c = false := by
  rcases List.eq_nil_or_concat operands with rfl | ⟨others, w, rfl⟩
  · exact last_append [] head
  · have word := words w (by simp)
    cases others with
    | nil => simpa [spell] using last_append (name ++ [' ']) word
    | cons first rest =>
      let middle := rest.flatMap fun w => ',' :: ' ' :: w
      simpa [spell, middle] using last_append (name ++ ' ' :: (first ++ middle ++ [',', ' '])) word

theorem read_spell (number : Nat) {name : List Char} {operands : List (List Char)} (head : IsWord name)
    (words : ∀ w ∈ operands, IsWord w) :
    Line.read number (spell name operands) = ⟨number, none, spell name operands⟩ := by
  have comment : '#' ∉ spell name operands :=
    absent_spell head words (fun w h member => (h.plain _ member).2.1 rfl) (by decide) (by decide)
  have colon : ':' ∉ spell name operands :=
    absent_spell head words (fun w h member => (h.plain _ member).2.2 rfl) (by decide) (by decide)
  have code : (spell name operands ++ []).takeWhile (· != '#') = spell name operands ++ [] :=
    List.takeWhile_append_of_pos (Text.bne_of_not_mem comment)
  have bare : Text.trim (spell name operands) = spell name operands := by
    refine Text.trim_eq_self ?_ (last_spell head words)
    intro c first
    rw [head?_spell head] at first
    exact isBlank_of_mem head (List.mem_of_head? first)
  rw [List.append_nil] at code
  simp only [Line.read, code, bare, Text.cutAt?_of_not_mem colon]

def registerWord (i : Nat) : List Char := 'x' :: Nat.toDigits 10 i

def numberWord (value : Int) : List Char :=
  if 0 ≤ value then Nat.toDigits 10 value.toNat else '-' :: Nat.toDigits 10 (-value).toNat

def memoryWord (offset base : Nat) : List Char :=
  numberWord offset ++ '(' :: (registerWord base ++ [')'])

theorem numberWord_natCast (n : Nat) : numberWord n = Nat.toDigits 10 n := by simp [numberWord]

theorem plain_of_isDigit {c : Char} (h : c.isDigit = true) :
    isSeparator c = false ∧ c ≠ '#' ∧ c ≠ ':' := by
  have bounds : 48 ≤ c.toNat ∧ c.toNat ≤ 57 := by
    simpa [Char.isDigit, UInt32.le_iff_toNat_le] using h
  refine ⟨?_, ?_, ?_⟩
  · have comma : c ≠ ',' := by
      rintro rfl
      exact absurd h (by decide)
    have ascii : c.toNat < 0x80 := by omega
    simp [isSeparator, comma, Text.isBlank, ascii]
    omega
  · rintro rfl
    exact absurd h (by decide)
  · rintro rfl
    exact absurd h (by decide)

theorem isWord_of_all {w : List Char} (nonempty : w ≠ [])
    (plain : w.all (fun c => !isSeparator c && c != '#' && c != ':') = true) : IsWord w where
  nonempty := nonempty
  plain c member := by
    have here := List.all_eq_true.1 plain c member
    simp only [Bool.and_eq_true, Bool.not_eq_true', bne_iff_ne, and_assoc] at here
    exact here

theorem isWord_toDigits (n : Nat) : IsWord (Nat.toDigits 10 n) where
  nonempty := Nat.toDigits_ne_nil
  plain _ member := plain_of_isDigit (Nat.isDigit_of_mem_toDigits (by decide) (by decide) member)

theorem IsWord.append {v w : List Char} (hv : IsWord v) (hw : IsWord w) : IsWord (v ++ w) where
  nonempty := by simp [hv.nonempty]
  plain c member := (List.mem_append.1 member).elim (hv.plain c) (hw.plain c)

theorem IsWord.cons {c : Char} {w : List Char} (plain : isSeparator c = false ∧ c ≠ '#' ∧ c ≠ ':')
    (hw : IsWord w) : IsWord (c :: w) where
  nonempty := by simp
  plain := List.forall_mem_cons.2 ⟨plain, hw.plain⟩

theorem isWord_registerWord (i : Nat) : IsWord (registerWord i) := .cons (by decide) (isWord_toDigits i)

theorem isWord_numberWord (value : Int) : IsWord (numberWord value) := by
  unfold numberWord
  split
  · exact isWord_toDigits _
  · exact .cons (by decide) (isWord_toDigits _)

theorem isWord_memoryWord (offset base : Nat) : IsWord (memoryWord offset base) := by
  have close : IsWord [')'] := isWord_of_all (by simp) (by decide)
  have based : IsWord ('(' :: (registerWord base ++ [')'])) :=
    .cons (by decide) ((isWord_registerWord base).append close)
  exact (isWord_numberWord _).append based

end Assembly

namespace Instruction

open Assembly

def nameWord (instruction : Instruction) : List Char :=
  instruction.opcode?.elim ['u', 'n', 'k', 'n', 'o', 'w', 'n'] Opcode.keyword

def operandWords : Instruction → List (List Char)
  | .r _ rd rs1 rs2 => [registerWord rd, registerWord rs1, registerWord rs2]
  | .i .lw rd rs1 imm => [registerWord rd, memoryWord imm rs1]
  | .i _ rd rs1 imm => [registerWord rd, registerWord rs1, numberWord imm]
  | .s _ rs2 rs1 offset => [registerWord rs2, memoryWord offset rs1]
  | .b _ rs1 rs2 offset => [registerWord rs1, registerWord rs2, numberWord offset]
  | .j _ rd offset => [registerWord rd, numberWord offset]
  | .special _ => []
  | .invalid word => ['0' :: 'x' :: (Text.upperHex 4 word.toNat).toList]

theorem toList_repr (value : Int) : value.repr.toList = numberWord value := by
  rw [Int.repr_eq_if, numberWord]
  split <;> simp

theorem text_eq_spell (instruction : Instruction) :
    instruction.text.toList = spell instruction.nameWord instruction.operandWords := by
  unfold text operandWords
  split <;> simp [spell, nameWord, opcode?, text.name, registerWord, memoryWord, toList_repr,
    numberWord_natCast, toString]

end Instruction

namespace Assembly

theorem index?_registerWord {i : Nat} (h : i < 16) : RegisterName.index? (registerWord i) = some i := by
  have all : ∀ j < 16, RegisterName.index? (registerWord j) = some j := by decide
  exact all i h

theorem head_toDigits (n : Nat) :
    ∃ c cs, Nat.toDigits 10 n = c :: cs ∧ c.isDigit = true ∧ c ≠ '-' ∧ ∀ d ∈ cs, d.isDigit = true := by
  have digits : ∀ c ∈ Nat.toDigits 10 n, c.isDigit = true := fun c member =>
    Nat.isDigit_of_mem_toDigits (by decide) (by decide) member
  obtain ⟨c, cs, shape⟩ := List.exists_cons_of_ne_nil (Nat.toDigits_ne_nil (n := n) (b := 10))
  rw [shape] at digits
  obtain ⟨head, tail⟩ := List.forall_mem_cons.1 digits
  refine ⟨c, cs, shape, head, ?_, tail⟩
  rintro rfl
  exact absurd head (by decide)

theorem magnitude?_toDigits {n : Nat} (h : n < magnitudeBound) :
    magnitude? (Nat.toDigits 10 n) = some n := by
  obtain ⟨c, cs, shape, -, -, tail⟩ := head_toDigits n
  have read := Text.decimal?_toDigits h
  rw [shape] at read ⊢
  unfold magnitude?
  split
  · exact absurd (tail 'x' (by simp_all)) (by decide)
  · exact absurd (tail 'X' (by simp_all)) (by decide)
  · exact read

theorem number?_numberWord {value : Int} (h : value.natAbs < magnitudeBound) :
    number? (numberWord value) = some value := by
  unfold numberWord
  split
  · have read := magnitude?_toDigits (n := value.toNat) (by omega)
    obtain ⟨c, cs, shape, -, minus, -⟩ := head_toDigits value.toNat
    rw [shape] at read ⊢
    simp [number?, minus, read]
    omega
  · have read := magnitude?_toDigits (n := (-value).toNat) (by omega)
    simp [number?, read]
    omega

theorem looksNumeric_numberWord (value : Int) : looksNumeric (numberWord value) = true := by
  unfold numberWord
  split
  · obtain ⟨c, cs, shape, head, minus, -⟩ := head_toDigits value.toNat
    simp [shape, looksNumeric, minus, head]
  · obtain ⟨c, cs, shape, head, minus, -⟩ := head_toDigits (-value).toNat
    simp [shape, looksNumeric, minus, head]

theorem natAbs_lt_of_fits {field : Field} (h : field.InWord) {value : Int}
    (fits : field.fits value = true) : value.natAbs < magnitudeBound := by
  have halves := field.span_eq_half h
  have span := field.span_le h
  simp only [Field.fits, Field.least, Field.greatest] at fits
  unfold magnitudeBound
  cases signed : field.signed <;> simp [signed] at fits <;> omega

theorem denotesOffset_numberWord (labels : LabelTable) (address : Nat) {field : Field} (h : field.InWord)
    {value : Int} (fits : field.fits value = true) :
    DenotesOffset labels address field (numberWord value) value :=
  .literal (looksNumeric_numberWord value) (number?_numberWord (natAbs_lt_of_fits h fits)) fits

theorem number?_small {value : Nat} (h : value < 16) : number? (numberWord value) = some (value : Int) := by
  apply number?_numberWord
  unfold magnitudeBound
  omega

theorem denotesPlace_memoryWord {offset base : Nat} (ho : offset < 16) (hb : base < 16) :
    DenotesPlace (memoryWord offset base) offset base := by
  have whole : memoryWord offset base = numberWord offset ++ '(' :: registerWord base ++ [')'] := by
    simp [memoryWord]
  have opens : '(' ∉ numberWord offset := by
    rw [numberWord_natCast]
    intro member
    exact absurd (Nat.isDigit_of_mem_toDigits (by decide) (by decide) member) (by decide)
  rw [whole]
  exact .offset opens (number?_small ho) ho (index?_registerWord hb)

theorem denotes_words (labels : LabelTable) (address : Nat) {instruction : Instruction}
    (h : instruction.WellFormed) :
    Denotes labels address (instruction.nameWord :: instruction.operandWords) instruction := by
  have name {op : Opcode} (code : instruction.opcode? = some op) :
      Opcode.ofMnemonic? instruction.nameWord = some op := by
    simp [Instruction.nameWord, code]
  have place {offset base : Nat} (ho : offset < 16) (hb : base < 16) :
      DenotesPlace [memoryWord offset base].flatten offset base := by
    rw [List.flatten_singleton]
    exact denotesPlace_memoryWord ho hb
  cases instruction with
  | invalid => exact h.elim
  | r op rd rs1 rs2 =>
    obtain ⟨format, hd, h1, h2⟩ := h
    exact .registers (name rfl) format (index?_registerWord hd) (index?_registerWord h1)
      (index?_registerWord h2)
  | i op rd rs1 imm =>
    obtain ⟨format, hd, h1, himm⟩ := h
    by_cases load : op = .lw
    · subst load
      exact .load (name rfl) (index?_registerWord hd) (place himm h1)
    · have words : (Instruction.i op rd rs1 imm).operandWords =
          [registerWord rd, registerWord rs1, numberWord imm] := by
        cases op <;> first | rfl | exact absurd rfl load
      rw [words]
      exact .immediate (name rfl) format load (index?_registerWord hd) (index?_registerWord h1)
        (number?_small himm) himm
  | s op rs2 rs1 offset =>
    obtain ⟨format, h2, h1, ho⟩ := h
    exact .store (name rfl) format (index?_registerWord h2) (place ho h1)
  | b op rs1 rs2 offset =>
    obtain ⟨format, h1, h2, fits⟩ := h
    exact .branch (name rfl) format (index?_registerWord h1) (index?_registerWord h2)
      (denotesOffset_numberWord labels address (by decide) fits)
  | j op rd offset =>
    obtain ⟨format, hd, fits⟩ := h
    exact .jump (name rfl) format (index?_registerWord hd)
      (denotesOffset_numberWord labels address (by decide) fits)
  | special op => exact .special (name rfl) h

theorem mem_toDigits {base : Nat} (several : 1 < base) {n : Nat} {c : Char}
    (member : c ∈ Nat.toDigits base n) : ∃ d < base, c = Nat.digitChar d := by
  induction n using Nat.strongRecOn with
  | ind n ih =>
    rw [Nat.toDigits_eq_if several] at member
    split at member
    · rename_i small
      exact ⟨n, small, List.mem_singleton.1 member⟩
    · rename_i large
      rcases List.mem_append.1 member with front | last
      · exact ih (n / base) (Nat.div_lt_self (by omega) several) front
      · exact ⟨n % base, Nat.mod_lt n (by omega), List.mem_singleton.1 last⟩

theorem newline_toDigits {base : Nat} (small : 1 < base ∧ base ≤ 16) (n : Nat) :
    '\n' ∉ Nat.toDigits base n := by
  intro member
  obtain ⟨d, bound, same⟩ := mem_toDigits small.1 member
  have other : ∀ d < 16, '\n' ≠ Nat.digitChar d := by decide
  exact other d (by omega) same

theorem mem_upperHex {c : Char} {width n : Nat} (member : c ∈ (Text.upperHex width n).toList) :
    ∃ d < 16, c = (Nat.digitChar d).toUpper := by
  rw [Text.upperHex, String.toList_ofList, List.leftpad, List.mem_append] at member
  rcases member with pad | digit
  · exact ⟨0, by decide, List.eq_of_mem_replicate pad⟩
  · obtain ⟨lower, inDigits, rfl⟩ := List.mem_map.1 digit
    obtain ⟨d, small, rfl⟩ := mem_toDigits (by decide) inDigits
    exact ⟨d, small, rfl⟩

theorem isWord_upperHex (width n : Nat) : IsWord (Text.upperHex width n).toList where
  nonempty := by simp [Text.upperHex, List.leftpad]
  plain c member := by
    have all : ∀ d < 16, isSeparator (Nat.digitChar d).toUpper = false ∧
        (Nat.digitChar d).toUpper ≠ '#' ∧ (Nat.digitChar d).toUpper ≠ ':' := by decide
    obtain ⟨d, small, rfl⟩ := mem_upperHex member
    exact all d small

theorem newline_upperHex (width n : Nat) : '\n' ∉ (Text.upperHex width n).toList := fun member =>
  absurd (isBlank_of_mem (isWord_upperHex width n) member) (by decide)

theorem length_upperHex {n : Nat} (h : n < 65536) : (Text.upperHex 4 n).toList.length = 4 := by
  have short := (Nat.length_toDigits_le_iff (by decide) (by decide)).2 (show n < 16 ^ 4 from h)
  simp [Text.upperHex, List.leftpad]
  omega

theorem isWord_nameWord (instruction : Instruction) : IsWord instruction.nameWord := by
  unfold Instruction.nameWord
  cases instruction.opcode? with
  | none => exact isWord_of_all (by simp) (by decide)
  | some op => cases op <;> exact isWord_of_all (by decide) (by decide)

theorem isWord_operandWords (instruction : Instruction) :
    ∀ w ∈ instruction.operandWords, IsWord w := by
  have hex (word : UInt16) : IsWord ('0' :: 'x' :: (Text.upperHex 4 word.toNat).toList) :=
    .cons (by decide) (.cons (by decide) (isWord_upperHex 4 _))
  unfold Instruction.operandWords
  split <;> simp [isWord_registerWord, isWord_numberWord, isWord_memoryWord, hex]

theorem tokens_text (instruction : Instruction) :
    Text.tokens isSeparator instruction.text.toList = instruction.nameWord :: instruction.operandWords := by
  rw [instruction.text_eq_spell]
  exact tokens_spell (isWord_nameWord instruction) (isWord_operandWords instruction)

theorem parseInstruction_text (labels : LabelTable) (address : Nat) {instruction : Instruction}
    (h : instruction.WellFormed) :
    parseInstruction labels address instruction.text.toList = .ok instruction := by
  rw [parseInstruction_eq_ok_iff, tokens_text]
  exact denotes_words labels address h

theorem parseInstruction_invalid (labels : LabelTable) (address : Nat) (word : UInt16) :
    parseInstruction labels address (Instruction.invalid word).text.toList =
      .error (.unknownMnemonic "unknown") := by
  have name : Opcode.ofMnemonic? (Instruction.invalid word).nameWord = none := by
    show Opcode.ofMnemonic? ['u', 'n', 'k', 'n', 'o', 'w', 'n'] = none
    decide
  simp only [parseInstruction, tokens_text, List.headD_cons, name]
  rfl

end Assembly

end Harvard16
