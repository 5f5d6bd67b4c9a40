import Harvard16.Assembly.Operand
import Harvard16.Proofs.CanonicalForm
import Harvard16.Proofs.SourceLines

/-! What the tokens of a text denote. The mnemonic gives the opcode, each name a register and each numeral
its value, whole and in the range of its field; only the distance to a label may be cut to the width of its
field. Main statement: a text spells an instruction just when its tokens denote it. An instruction that is
denoted is well formed, and no other one is denoted by the same tokens. -/
namespace Harvard16.Assembly

/-- A memory operand denotes the number before its bracket, or zero, and the register in it. -/
inductive DenotesPlace : List Char → Nat → Nat → Prop
  | bare {name : List Char} {base : Nat} (named : RegisterName.index? name = some base) :
      DenotesPlace ('(' :: name ++ [')']) 0 base
  | offset {numeral name : List Char} {value base : Nat} (opens : '(' ∉ numeral)
      (read : number? numeral = some (value : Int)) (small : value < 16)
      (named : RegisterName.index? name = some base) :
      DenotesPlace (numeral ++ '(' :: name ++ [')']) value base

/-- The target of a branch or a jump denotes its number, or the distance to a label as far as its field
can tell. -/
inductive DenotesOffset (labels : LabelTable) (address : Nat) (field : Field) : List Char → Int → Prop
  | literal {numeral : List Char} {value : Int} (numeric : looksNumeric numeral = true)
      (read : number? numeral = some value) (fits : field.fits value = true) :
      DenotesOffset labels address field numeral value
  | label {name : List Char} {label : Label} (named : looksNumeric name = false)
      (found : labels.lookup? (String.ofList name) = some label) :
      DenotesOffset labels address field name (((label.address : Int) - address).bmod field.span)

/-- The tokens of a text denote an instruction at an address. -/
inductive Denotes (labels : LabelTable) (address : Nat) : List (List Char) → Instruction → Prop
  | registers {op : Opcode} {name first second third : List Char} {rd rs1 rs2 : Nat}
      (mnemonic : Opcode.ofMnemonic? name = some op) (format : op.format = .r)
      (named : RegisterName.index? first = some rd) (namedLeft : RegisterName.index? second = some rs1)
      (namedRight : RegisterName.index? third = some rs2) :
      Denotes labels address [name, first, second, third] (.r op rd rs1 rs2)
  | immediate {op : Opcode} {name first second numeral : List Char} {rd rs1 value : Nat}
      (mnemonic : Opcode.ofMnemonic? name = some op) (format : op.format = .i) (other : op ≠ .lw)
      (named : RegisterName.index? first = some rd) (namedLeft : RegisterName.index? second = some rs1)
      (read : number? numeral = some (value : Int)) (small : value < 16) :
      Denotes labels address [name, first, second, numeral] (.i op rd rs1 value)
  | load {name first second : List Char} {rest : List (List Char)} {rd offset base : Nat}
      (mnemonic : Opcode.ofMnemonic? name = some .lw) (named : RegisterName.index? first = some rd)
      (place : DenotesPlace (second :: rest).flatten offset base) :
      Denotes labels address (name :: first :: second :: rest) (.i .lw rd base offset)
  | store {op : Opcode} {name first second : List Char} {rest : List (List Char)} {rs2 offset base : Nat}
      (mnemonic : Opcode.ofMnemonic? name = some op) (format : op.format = .s)
      (named : RegisterName.index? first = some rs2)
      (place : DenotesPlace (second :: rest).flatten offset base) :
      Denotes labels address (name :: first :: second :: rest) (.s op rs2 base offset)
  | branch {op : Opcode} {name first second target : List Char} {rs1 rs2 : Nat} {offset : Int}
      (mnemonic : Opcode.ofMnemonic? name = some op) (format : op.format = .b)
      (named : RegisterName.index? first = some rs1) (namedRight : RegisterName.index? second = some rs2)
      (reached : DenotesOffset labels address .lowSigned target offset) :
      Denotes labels address [name, first, second, target] (.b op rs1 rs2 offset)
  | jump {op : Opcode} {name first target : List Char} {rd : Nat} {offset : Int}
      (mnemonic : Opcode.ofMnemonic? name = some op) (format : op.format = .j)
      (named : RegisterName.index? first = some rd)
      (reached : DenotesOffset labels address .wideSigned target offset) :
      Denotes labels address [name, first, target] (.j op rd offset)
  | special {op : Opcode} {name : List Char} (mnemonic : Opcode.ofMnemonic? name = some op)
      (format : op.format = .special) : Denotes labels address [name] (.special op)

theorem bind_eq_ok_iff {ε α β : Type} {first : Except ε α} {next : α → Except ε β} {result : β} :
    (first >>= next) = .ok result ↔ ∃ value, first = .ok value ∧ next value = .ok result := by
  constructor
  · intro h
    cases first with
    | error => cases h
    | ok value => exact ⟨value, rfl, h⟩
  · rintro ⟨value, rfl, h⟩
    exact h

variable {labels : LabelTable} {address : Nat} {text : List Char}

theorem register_eq_ok_iff {i : Nat} : register text = .ok i ↔ RegisterName.index? text = some i := by
  unfold register
  cases RegisterName.index? text <;> simp

theorem immediate_eq_ok_iff {field : Field} {value : Int} :
    immediate field text = .ok value ↔ number? text = some value ∧ field.fits value = true := by
  unfold immediate
  cases number? text with
  | none => simp
  | some number =>
    by_cases fits : field.fits number = true
    · simp only [if_pos fits, Except.ok.injEq, Option.some.injEq]
      constructor
      · rintro rfl
        exact ⟨rfl, fits⟩
      · exact And.left
    · simp only [if_neg fits, Option.some.injEq, reduceCtorEq, false_iff]
      rintro ⟨rfl, inside⟩
      exact fits inside

theorem immediate_low_eq_ok_iff {value : Int} :
    immediate .low text = .ok value ↔
      ∃ n : Nat, value = n ∧ number? text = some (n : Int) ∧ n < 16 := by
  rw [immediate_eq_ok_iff]
  constructor
  · rintro ⟨read, fits⟩
    have nonneg : 0 ≤ value := by
      simp [Field.fits, Field.least, Field.low] at fits
      exact fits.1
    obtain ⟨n, rfl⟩ := Int.eq_ofNat_of_zero_le nonneg
    exact ⟨n, rfl, read, (Field.fits_natCast (by rfl) n).1 fits⟩
  · rintro ⟨n, rfl, read, small⟩
    exact ⟨read, (Field.fits_natCast (by rfl) n).2 small⟩

theorem distance_eq_bmod {field : Field} (h : field.InWord) (signed : field.signed = true) (address : Nat)
    (label : Label) : distance field address label = ((label.address : Int) - address).bmod field.span := by
  rw [distance, Field.extract_eq_valueOf, Field.bits_pack h, Field.valueOf_residue_signed h signed]

theorem branchTarget_eq_ok_iff {field : Field} (h : field.InWord) (signed : field.signed = true)
    {offset : Int} :
    branchTarget labels field address text = .ok offset ↔ DenotesOffset labels address field text offset := by
  constructor
  · intro found
    unfold branchTarget at found
    split at found
    · rename_i numeric
      obtain ⟨read, fits⟩ := immediate_eq_ok_iff.1 found
      exact .literal numeric read fits
    · rename_i named
      split at found
      · rename_i label held
        cases found
        rw [distance_eq_bmod h signed]
        exact .label (by simpa using named) held
      · cases found
  · intro reached
    cases reached with
    | literal numeric read fits =>
      rw [branchTarget, if_pos numeric]
      exact immediate_eq_ok_iff.2 ⟨read, fits⟩
    | label named found =>
      rw [branchTarget, named, found, ← distance_eq_bmod h signed]
      rfl

theorem memoryOperand_eq_ok_iff {offset base : Nat} :
    memoryOperand .low text = .ok (offset, base) ↔ DenotesPlace text offset base := by
  constructor
  · intro read
    unfold memoryOperand at read
    generalize parts : (if text.getLast? = some ')' then Text.cutAt? '(' text.dropLast else none) = parts?
      at read
    cases parts? with
    | none => cases read
    | some cut =>
      obtain ⟨numeral, name⟩ := cut
      dsimp only at read
      split at parts
      · rename_i last
        have closed : numeral ++ '(' :: name ++ [')'] = text := by
          rw [← Text.eq_of_cutAt? parts]
          exact List.dropLast_append_getLast? _ last
        rw [← closed]
        split at read
        · rename_i missing
          obtain ⟨_, zero, read⟩ := bind_eq_ok_iff.1 read
          obtain ⟨i, found, read⟩ := bind_eq_ok_iff.1 read
          cases zero
          cases read
          rw [List.isEmpty_iff.1 missing]
          exact .bare (register_eq_ok_iff.1 found)
        · obtain ⟨value, number, read⟩ := bind_eq_ok_iff.1 read
          obtain ⟨i, found, read⟩ := bind_eq_ok_iff.1 read
          obtain ⟨n, rfl, numeric, small⟩ := immediate_low_eq_ok_iff.1 number
          cases read
          exact .offset (Text.not_mem_of_cutAt? parts) numeric small (register_eq_ok_iff.1 found)
      · cases parts
  · intro place
    have cut (numeral name : List Char) (opens : '(' ∉ numeral) :
        (if (numeral ++ '(' :: name ++ [')']).getLast? = some ')' then
          Text.cutAt? '(' (numeral ++ '(' :: name ++ [')']).dropLast else none) = some (numeral, name) := by
      rw [if_pos List.getLast?_concat, List.dropLast_concat]
      exact Text.cutAt?_append opens name
    unfold memoryOperand
    cases place with
    | @bare name _ named =>
      have whole := cut [] name (by simp)
      rw [List.nil_append] at whole
      simp only [whole, register_eq_ok_iff.2 named]
      rfl
    | @offset numeral name _ _ opens read small named =>
      have inside := immediate_low_eq_ok_iff.2 ⟨offset, rfl, read, small⟩
      have digits : numeral.isEmpty = false := by
        cases numeral with
        | nil => cases read
        | cons => rfl
      simp only [cut numeral name opens, digits, inside, register_eq_ok_iff.2 named]
      rfl

theorem memoryForm_eq_ok_iff (op : Opcode) {operands : List (List Char)} {i offset base : Nat} :
    memoryForm op operands = .ok (i, offset, base) ↔
      ∃ first second rest, operands = first :: second :: rest ∧ RegisterName.index? first = some i ∧
        DenotesPlace (second :: rest).flatten offset base := by
  constructor
  · intro read
    unfold memoryForm at read
    split at read
    · rename_i first second rest
      obtain ⟨j, named, read⟩ := bind_eq_ok_iff.1 read
      obtain ⟨parts, place, read⟩ := bind_eq_ok_iff.1 read
      cases read
      exact ⟨first, second, rest, rfl, register_eq_ok_iff.1 named, memoryOperand_eq_ok_iff.1 place⟩
    · cases read
  · rintro ⟨first, second, rest, rfl, named, place⟩
    simp only [memoryForm, register_eq_ok_iff.2 named, memoryOperand_eq_ok_iff.2 place]
    rfl

theorem denotes_of_instructionOf {op : Opcode} {name : List Char} {operands : List (List Char)}
    {instruction : Instruction} (mnemonic : Opcode.ofMnemonic? name = some op)
    (spelled : instructionOf labels address op operands = .ok instruction) :
    Denotes labels address (name :: operands) instruction := by
  unfold instructionOf at spelled
  split at spelled
  case h_1 format =>
    obtain ⟨rd, first, spelled⟩ := bind_eq_ok_iff.1 spelled
    obtain ⟨rs1, second, spelled⟩ := bind_eq_ok_iff.1 spelled
    obtain ⟨rs2, third, spelled⟩ := bind_eq_ok_iff.1 spelled
    cases spelled
    exact .registers mnemonic format (register_eq_ok_iff.1 first) (register_eq_ok_iff.1 second)
      (register_eq_ok_iff.1 third)
  case h_2 format =>
    split at spelled
    · rename_i load
      obtain ⟨⟨rd, offset, base⟩, form, spelled⟩ := bind_eq_ok_iff.1 spelled
      obtain ⟨first, second, rest, shape, named, place⟩ := (memoryForm_eq_ok_iff _).1 form
      cases spelled
      subst load shape
      exact .load mnemonic named place
    · rename_i other
      split at spelled
      · obtain ⟨rd, first, spelled⟩ := bind_eq_ok_iff.1 spelled
        obtain ⟨rs1, second, spelled⟩ := bind_eq_ok_iff.1 spelled
        obtain ⟨value, number, spelled⟩ := bind_eq_ok_iff.1 spelled
        obtain ⟨n, rfl, read, small⟩ := immediate_low_eq_ok_iff.1 number
        cases spelled
        exact .immediate mnemonic format other (register_eq_ok_iff.1 first) (register_eq_ok_iff.1 second)
          read small
      · cases spelled
  case h_3 format =>
    obtain ⟨⟨rs2, offset, base⟩, form, spelled⟩ := bind_eq_ok_iff.1 spelled
    obtain ⟨first, second, rest, shape, named, place⟩ := (memoryForm_eq_ok_iff _).1 form
    cases spelled
    subst shape
    exact .store mnemonic format named place
  case h_4 format =>
    obtain ⟨rs1, first, spelled⟩ := bind_eq_ok_iff.1 spelled
    obtain ⟨rs2, second, spelled⟩ := bind_eq_ok_iff.1 spelled
    obtain ⟨offset, found, spelled⟩ := bind_eq_ok_iff.1 spelled
    cases spelled
    exact .branch mnemonic format (register_eq_ok_iff.1 first) (register_eq_ok_iff.1 second)
      ((branchTarget_eq_ok_iff (by decide) rfl).1 found)
  case h_5 format =>
    obtain ⟨rd, first, spelled⟩ := bind_eq_ok_iff.1 spelled
    obtain ⟨offset, found, spelled⟩ := bind_eq_ok_iff.1 spelled
    cases spelled
    exact .jump mnemonic format (register_eq_ok_iff.1 first)
      ((branchTarget_eq_ok_iff (by decide) rfl).1 found)
  case h_6 format =>
    cases spelled
    exact .special mnemonic format
  all_goals cases spelled

theorem instructionOf_of_denotes {tokens : List (List Char)} {instruction : Instruction}
    (denoted : Denotes labels address tokens instruction) :
    ∃ op, Opcode.ofMnemonic? (tokens.headD []) = some op ∧
      instructionOf labels address op tokens.tail = .ok instruction := by
  cases denoted with
  | registers mnemonic format named namedLeft namedRight =>
    refine ⟨_, mnemonic, ?_⟩
    simp [instructionOf, format, register_eq_ok_iff.2 named, register_eq_ok_iff.2 namedLeft,
      register_eq_ok_iff.2 namedRight]
    rfl
  | @immediate _ _ _ _ _ _ _ value mnemonic format other named namedLeft read small =>
    have number := immediate_low_eq_ok_iff.2 ⟨value, rfl, read, small⟩
    refine ⟨_, mnemonic, ?_⟩
    simp [instructionOf, format, other, register_eq_ok_iff.2 named, register_eq_ok_iff.2 namedLeft, number]
    rfl
  | load mnemonic named place =>
    have form (op : Opcode) := (memoryForm_eq_ok_iff op).2 ⟨_, _, _, rfl, named, place⟩
    exact ⟨_, mnemonic, by simp [instructionOf, Opcode.format, form]⟩
  | store mnemonic format named place =>
    have form (op : Opcode) := (memoryForm_eq_ok_iff op).2 ⟨_, _, _, rfl, named, place⟩
    exact ⟨_, mnemonic, by simp [instructionOf, format, form]⟩
  | branch mnemonic format named namedRight reached =>
    have target := (branchTarget_eq_ok_iff (by decide) rfl).2 reached
    refine ⟨_, mnemonic, ?_⟩
    simp [instructionOf, format, register_eq_ok_iff.2 named, register_eq_ok_iff.2 namedRight, target]
    rfl
  | jump mnemonic format named reached =>
    have target := (branchTarget_eq_ok_iff (by decide) rfl).2 reached
    refine ⟨_, mnemonic, ?_⟩
    simp [instructionOf, format, register_eq_ok_iff.2 named, target]
    rfl
  | special mnemonic format => exact ⟨_, mnemonic, by simp [instructionOf, format]⟩

theorem Denotes.unique {tokens : List (List Char)} {instruction other : Instruction}
    (denoted : Denotes labels address tokens instruction) (denotedToo : Denotes labels address tokens other) :
    instruction = other := by
  obtain ⟨op, mnemonic, spelled⟩ := instructionOf_of_denotes denoted
  obtain ⟨otherOp, mnemonicToo, spelledToo⟩ := instructionOf_of_denotes denotedToo
  cases mnemonic.symm.trans mnemonicToo
  exact Except.ok.inj (spelled.symm.trans spelledToo)

theorem parseInstruction_eq_ok_iff {instruction : Instruction} :
    parseInstruction labels address text = .ok instruction ↔
      Denotes labels address (Text.tokens isSeparator text) instruction := by
  unfold parseInstruction
  constructor
  · intro spelled
    dsimp only at spelled
    split at spelled
    · cases spelled
    · rename_i op mnemonic
      cases tokens : Text.tokens isSeparator text with
      | nil =>
        rw [tokens] at mnemonic
        cases mnemonic
      | cons name operands =>
        rw [tokens] at mnemonic spelled
        exact denotes_of_instructionOf mnemonic spelled
  · intro denoted
    obtain ⟨op, mnemonic, spelled⟩ := instructionOf_of_denotes denoted
    simp only [mnemonic, spelled]

theorem DenotesPlace.bounds {offset base : Nat} (place : DenotesPlace text offset base) :
    offset < 16 ∧ base < 16 := by
  cases place with
  | bare named => exact ⟨by decide, RegisterName.index?_lt named⟩
  | offset opens read small named => exact ⟨small, RegisterName.index?_lt named⟩

theorem DenotesOffset.fits {field : Field} (h : field.InWord) (signed : field.signed = true) {offset : Int}
    (reached : DenotesOffset labels address field text offset) : field.fits offset = true := by
  cases reached with
  | literal numeric read fits => exact fits
  | label named found =>
    rw [← distance_eq_bmod h signed]
    exact Field.fits_valueOf h (field.bits_lt _)

theorem Denotes.wellFormed {tokens : List (List Char)} {instruction : Instruction}
    (denoted : Denotes labels address tokens instruction) : instruction.WellFormed := by
  cases denoted with
  | registers mnemonic format named namedLeft namedRight =>
    exact ⟨format, RegisterName.index?_lt named, RegisterName.index?_lt namedLeft,
      RegisterName.index?_lt namedRight⟩
  | immediate mnemonic format other named namedLeft read small =>
    exact ⟨format, RegisterName.index?_lt named, RegisterName.index?_lt namedLeft, small⟩
  | load mnemonic named place => exact ⟨rfl, RegisterName.index?_lt named, place.bounds.2, place.bounds.1⟩
  | store mnemonic format named place =>
    exact ⟨format, RegisterName.index?_lt named, place.bounds.2, place.bounds.1⟩
  | branch mnemonic format named namedRight reached =>
    exact ⟨format, RegisterName.index?_lt named, RegisterName.index?_lt namedRight,
      reached.fits (by decide) rfl⟩
  | jump mnemonic format named reached =>
    exact ⟨format, RegisterName.index?_lt named, reached.fits (by decide) rfl⟩
  | special mnemonic format => exact format

end Harvard16.Assembly
