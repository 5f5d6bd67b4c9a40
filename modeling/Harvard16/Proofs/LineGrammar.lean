import Harvard16.Proofs.Denotation
import Harvard16.Proofs.FirstDefinitions
import Harvard16.Proofs.NumberLiterals

/-! The grammar of instruction lines, loads and stores apart. The mnemonic tells how many operands there are
and of what kind each of them is, and every kind has its own check. Main statement: a line gives an
entry just when its mnemonic is known, the operands are as many as it takes and each one passes the
check of its kind; otherwise its instruction has one error, and that is the first check to fail. -/
namespace Harvard16.Assembly

/-- What an operand can be: a register, a number for a field, or the target of a branch or jump. -/
inductive OperandKind where
  | register
  | number (field : Field)
  | target (field : Field)

def operandKinds? (op : Opcode) : Option (List OperandKind) :=
  match op.format with
  | .r => some [.register, .register, .register]
  | .i => if op = .lw then none else some [.register, .register, .number .low]
  | .s => none
  | .b => some [.register, .register, .target .lowSigned]
  | .j => some [.register, .target .wideSigned]
  | .special => some []

structure Takes (tokens : List (List Char)) (op : Opcode) (kinds : List OperandKind) : Prop where
  known : Opcode.ofMnemonic? (tokens.headD []) = some op
  kinds_eq : operandKinds? op = some kinds

def IsNumber (field : Field) (text : List Char) : Prop :=
  ∃ value, number? text = some value ∧ field.fits value = true

inductive IsNoNumber (field : Field) (text : List Char) : Cause → Prop
  | unread (none : number? text = none) : IsNoNumber field text (.invalidNumber (String.ofList text))
  | outside {value : Int} (read : number? text = some value) (strays : field.fits value = false) :
      IsNoNumber field text (.outOfRange value field.least field.greatest)

/-- A reading that succeeds on what is good, and fails with what is wrong with the rest. -/
inductive Judges {α : Type} (good : Prop) (bad : Cause → Prop) : Except Cause α → Prop
  | ok {value : α} (sound : good) : Judges good bad (.ok value)
  | error {cause : Cause} (fault : bad cause) : Judges good bad (.error cause)

section

variable (source : String)

/-- The check of each kind of operand. A label may be defined on any line. -/
inductive Passes : OperandKind → List Char → Prop
  | register {text : List Char} {i : Nat} (named : RegisterName.index? text = some i) :
      Passes .register text
  | number {field : Field} {text : List Char} (number : IsNumber field text) : Passes (.number field) text
  | distance {field : Field} {text : List Char} (number : IsNumber field text) : Passes (.target field) text
  | label {field : Field} {text : List Char} {line : Nat} (other : looksNumeric text = false)
      (defined : Defines source line (String.ofList text)) : Passes (.target field) text

/-- What is reported of an operand that does not pass. -/
inductive Fails : OperandKind → List Char → Cause → Prop
  | register {text : List Char} (unnamed : RegisterName.index? text = none) :
      Fails .register text (.invalidRegister (String.ofList text))
  | number {field : Field} {text : List Char} {cause : Cause} (fault : IsNoNumber field text cause) :
      Fails (.number field) text cause
  | distance {field : Field} {text : List Char} {cause : Cause} (numeric : looksNumeric text = true)
      (fault : IsNoNumber field text cause) : Fails (.target field) text cause
  | label {field : Field} {text : List Char} (other : looksNumeric text = false)
      (undefined : ∀ line, ¬Defines source line (String.ofList text)) :
      Fails (.target field) text (.undefinedLabel (String.ofList text))

/-- The first operand that does not pass, with what is reported of it. -/
inductive FirstFault : List OperandKind → List (List Char) → Cause → Prop
  | here {kind : OperandKind} {kinds : List OperandKind} {text : List Char} {texts : List (List Char)}
      {cause : Cause} (fails : Fails source kind text cause) :
      FirstFault (kind :: kinds) (text :: texts) cause
  | later {kind : OperandKind} {kinds : List OperandKind} {text : List Char} {texts : List (List Char)}
      {cause : Cause} (passes : Passes source kind text) (rest : FirstFault kinds texts cause) :
      FirstFault (kind :: kinds) (text :: texts) cause

def Accepted (tokens : List (List Char)) : Prop :=
  ∃ op kinds, Takes tokens op kinds ∧ List.Forall₂ (Passes source) kinds tokens.tail

/-- The first check that fails: of the mnemonic, of the number of operands, of each operand in turn. -/
inductive Refused (tokens : List (List Char)) : Cause → Prop
  | mnemonic (unknown : Opcode.ofMnemonic? (tokens.headD []) = none) :
      Refused tokens (.unknownMnemonic (String.ofList (tokens.headD [])))
  | count {op : Opcode} {kinds : List OperandKind} (takes : Takes tokens op kinds)
      (miscounted : tokens.tail.length ≠ kinds.length) :
      Refused tokens (.operandCount op kinds.length tokens.tail.length)
  | operand {op : Opcode} {kinds : List OperandKind} {cause : Cause} (takes : Takes tokens op kinds)
      (counted : tokens.tail.length = kinds.length) (fault : FirstFault source kinds tokens.tail cause) :
      Refused tokens cause

end

section

variable {source : String}

theorem looksNumeric_of_number? {text : List Char} {value : Int} (read : number? text = some value) :
    looksNumeric text = true := (number?_eq_some_iff.1 read).1.looksNumeric

theorem IsNoNumber.not_isNumber {field : Field} {text : List Char} {cause : Cause}
    (fault : IsNoNumber field text cause) : ¬IsNumber field text := by
  rintro ⟨value, read, fits⟩
  cases fault with
  | unread none =>
    rw [none] at read
    cases read
  | outside readToo strays =>
    rw [readToo, Option.some_inj] at read
    rw [read, fits] at strays
    cases strays

theorem IsNoNumber.unique {field : Field} {text : List Char} {cause other : Cause}
    (fault : IsNoNumber field text cause) (again : IsNoNumber field text other) : cause = other := by
  cases fault <;> cases again <;> simp_all

theorem Passes.not_fails {kind : OperandKind} {text : List Char} {cause : Cause}
    (passes : Passes source kind text) : ¬Fails source kind text cause := by
  intro fails
  cases passes with
  | register named =>
    cases fails with
    | register unnamed =>
      rw [unnamed] at named
      cases named
  | number number =>
    cases fails with
    | number fault => exact fault.not_isNumber number
  | distance number =>
    cases fails with
    | distance numeric fault => exact fault.not_isNumber number
    | label other undefined =>
      obtain ⟨value, read, -⟩ := number
      rw [looksNumeric_of_number? read] at other
      cases other
  | label other defined =>
    cases fails with
    | distance numeric fault =>
      rw [numeric] at other
      cases other
    | label other undefined => exact undefined _ defined

theorem Fails.unique {kind : OperandKind} {text : List Char} {cause other : Cause}
    (fails : Fails source kind text cause) (again : Fails source kind text other) : cause = other := by
  cases fails with
  | register unnamed =>
    cases again
    rfl
  | number fault =>
    cases again with
    | number faultToo => exact fault.unique faultToo
  | distance numeric fault =>
    cases again with
    | distance numericToo faultToo => exact fault.unique faultToo
    | label named undefined =>
      rw [numeric] at named
      cases named
  | label named undefined =>
    cases again with
    | distance numeric fault =>
      rw [numeric] at named
      cases named
    | label namedToo undefinedToo => rfl

theorem FirstFault.not_passes {kinds : List OperandKind} {texts : List (List Char)} {cause : Cause}
    (fault : FirstFault source kinds texts cause) : ¬List.Forall₂ (Passes source) kinds texts := by
  intro all
  induction fault with
  | here fails => exact (List.forall₂_cons.1 all).1.not_fails fails
  | later passes rest ih => exact ih (List.forall₂_cons.1 all).2

theorem FirstFault.unique {kinds : List OperandKind} {texts : List (List Char)} {cause other : Cause}
    (fault : FirstFault source kinds texts cause) (again : FirstFault source kinds texts other) :
    cause = other := by
  induction fault with
  | here fails =>
    cases again with
    | here failsToo => exact fails.unique failsToo
    | later passes rest => exact absurd fails passes.not_fails
  | later passes rest ih =>
    cases again with
    | here fails => exact absurd fails passes.not_fails
    | later passesToo restToo => exact ih restToo

theorem Takes.unique {tokens : List (List Char)} {op other : Opcode} {kinds others : List OperandKind}
    (takes : Takes tokens op kinds) (again : Takes tokens other others) : op = other ∧ kinds = others := by
  obtain rfl : op = other := Option.some_inj.1 (takes.known.symm.trans again.known)
  exact ⟨rfl, Option.some_inj.1 (takes.kinds_eq.symm.trans again.kinds_eq)⟩

theorem Takes.not_unknown {tokens : List (List Char)} {op : Opcode} {kinds : List OperandKind}
    (takes : Takes tokens op kinds) : Opcode.ofMnemonic? (tokens.headD []) ≠ none := by
  rw [takes.known]
  exact Option.some_ne_none op

theorem Refused.not_accepted {tokens : List (List Char)} {cause : Cause}
    (refused : Refused source tokens cause) : ¬Accepted source tokens := by
  rintro ⟨op, kinds, taken, all⟩
  cases refused with
  | mnemonic unknown => exact taken.not_unknown unknown
  | count takes miscounted =>
    obtain ⟨rfl, rfl⟩ := taken.unique takes
    exact miscounted all.length_eq.symm
  | operand takes counted fault =>
    obtain ⟨rfl, rfl⟩ := taken.unique takes
    exact fault.not_passes all

theorem Refused.unique {tokens : List (List Char)} {cause other : Cause}
    (refused : Refused source tokens cause) (again : Refused source tokens other) : cause = other := by
  cases refused with
  | mnemonic unknown =>
    cases again with
    | mnemonic => rfl
    | count takes | operand takes => exact absurd unknown takes.not_unknown
  | count takes miscounted =>
    cases again with
    | mnemonic unknown => exact absurd unknown takes.not_unknown
    | count takesToo =>
      obtain ⟨rfl, rfl⟩ := takes.unique takesToo
      rfl
    | operand takesToo counted =>
      obtain ⟨rfl, rfl⟩ := takes.unique takesToo
      exact absurd counted miscounted
  | operand takes counted fault =>
    cases again with
    | mnemonic unknown => exact absurd unknown takes.not_unknown
    | count takesToo miscounted =>
      obtain ⟨rfl, rfl⟩ := takes.unique takesToo
      exact absurd counted miscounted
    | operand takesToo countedToo faultToo =>
      obtain ⟨rfl, rfl⟩ := takes.unique takesToo
      exact fault.unique faultToo

theorem Judges.imp {α : Type} {good sound : Prop} {bad faulty : Cause → Prop} {reading : Except Cause α}
    (judges : Judges good bad reading) (accept : good → sound) (refuse : ∀ cause, bad cause → faulty cause) :
    Judges sound faulty reading := by
  cases judges with
  | ok good => exact .ok (accept good)
  | error bad => exact .error (refuse _ bad)

theorem judges_register (text : List Char) :
    Judges (Passes source .register text) (Fails source .register text) (register text) := by
  unfold register
  split
  · rename_i named
    exact .ok (.register named)
  · rename_i unnamed
    exact .error (.register unnamed)

theorem judges_number (field : Field) (text : List Char) :
    Judges (IsNumber field text) (IsNoNumber field text) (immediate field text) := by
  unfold immediate
  split
  · rename_i none
    exact .error (.unread none)
  · rename_i value read
    split
    · rename_i fits
      exact .ok ⟨value, read, fits⟩
    · rename_i strays
      exact .error (.outside read (Bool.eq_false_of_not_eq_true strays))

theorem judges_immediate (field : Field) (text : List Char) :
    Judges (Passes source (.number field) text) (Fails source (.number field) text)
      (immediate field text) :=
  (judges_number field text).imp .number fun _ => .number

theorem judges_branchTarget (field : Field) (address : Nat) (text : List Char) :
    Judges (Passes source (.target field) text) (Fails source (.target field) text)
      (branchTarget (ofSource source).labels field address text) := by
  unfold branchTarget
  split
  · rename_i numeric
    exact (judges_number field text).imp .distance fun _ => .distance numeric
  · rename_i named
    have other : looksNumeric text = false := Bool.eq_false_of_not_eq_true named
    split
    · rename_i label found
      exact .ok (.label other (defines_of_lookup? found).1)
    · rename_i missing
      refine .error (.label other fun line defines => ?_)
      obtain ⟨first, found, -⟩ := defines.exists_lookup?
      rw [missing] at found
      cases found

theorem Judges.bind {α β : Type} {kind : OperandKind} {kinds : List OperandKind} {text : List Char}
    {texts : List (List Char)} {first : Except Cause α} {next : α → Except Cause β}
    (judges : Judges (Passes source kind text) (Fails source kind text) first)
    (rest : ∀ value, Judges (List.Forall₂ (Passes source) kinds texts) (FirstFault source kinds texts)
      (next value)) :
    Judges (List.Forall₂ (Passes source) (kind :: kinds) (text :: texts))
      (FirstFault source (kind :: kinds) (text :: texts)) (first >>= next) := by
  cases judges with
  | error fails => exact .error (.here fails)
  | @ok value passes => exact (rest value).imp (.cons passes) fun _ => .later passes

theorem instructionOf_cases {op : Opcode} {kinds : List OperandKind} (takes : operandKinds? op = some kinds)
    (address : Nat) (operands : List (List Char)) :
    operands.length = kinds.length ∧
        Judges (List.Forall₂ (Passes source) kinds operands) (FirstFault source kinds operands)
          (instructionOf (ofSource source).labels address op operands) ∨
      operands.length ≠ kinds.length ∧ instructionOf (ofSource source).labels address op operands =
        .error (.operandCount op kinds.length operands.length) := by
  unfold operandKinds? at takes
  unfold instructionOf
  split
  case h_1 rd rs1 rs2 format =>
    rw [format] at takes
    cases takes
    exact .inl ⟨rfl, (judges_register rd).bind fun _ => (judges_register rs1).bind fun _ =>
      (judges_register rs2).bind fun _ => .ok .nil⟩
  case h_2 format =>
    rw [format] at takes
    dsimp only at takes
    split at takes
    · cases takes
    · rename_i other
      cases takes
      rw [if_neg other]
      split
      · rename_i rd rs1 imm
        exact .inl ⟨rfl, (judges_register rd).bind fun _ => (judges_register rs1).bind fun _ =>
          (judges_immediate .low imm).bind fun _ => .ok .nil⟩
      · rename_i miscounted
        refine .inr ⟨fun counted => ?_, rfl⟩
        obtain ⟨rd, rs1, imm, three⟩ := List.length_eq_three.1 counted
        exact miscounted rd rs1 imm three
  case h_3 format =>
    rw [format] at takes
    cases takes
  case h_4 rs1 rs2 target format =>
    rw [format] at takes
    cases takes
    exact .inl ⟨rfl, (judges_register rs1).bind fun _ => (judges_register rs2).bind fun _ =>
      (judges_branchTarget .lowSigned address target).bind fun _ => .ok .nil⟩
  case h_5 rd target format =>
    rw [format] at takes
    cases takes
    exact .inl ⟨rfl, (judges_register rd).bind fun _ =>
      (judges_branchTarget .wideSigned address target).bind fun _ => .ok .nil⟩
  case h_6 format =>
    rw [format] at takes
    cases takes
    exact .inl ⟨rfl, .ok .nil⟩
  case h_7 format miscounted =>
    rw [format] at takes
    cases takes
    refine .inr ⟨fun counted => ?_, rfl⟩
    obtain ⟨rd, rs1, rs2, three⟩ := List.length_eq_three.1 counted
    exact miscounted rd rs1 rs2 three
  case h_8 format miscounted =>
    rw [format] at takes
    cases takes
    refine .inr ⟨fun counted => ?_, rfl⟩
    obtain ⟨rs1, rs2, target, three⟩ := List.length_eq_three.1 counted
    exact miscounted rs1 rs2 target three
  case h_9 format miscounted =>
    rw [format] at takes
    cases takes
    refine .inr ⟨fun counted => ?_, rfl⟩
    obtain ⟨rd, target, two⟩ := List.length_eq_two.1 counted
    exact miscounted rd target two
  case h_10 format miscounted =>
    rw [format] at takes
    cases takes
    exact .inr ⟨fun counted => miscounted (List.length_eq_zero_iff.1 counted), rfl⟩

theorem exists_operandKinds? {op : Opcode} (load : op ≠ .lw) (store : op ≠ .sw) :
    ∃ kinds, operandKinds? op = some kinds := by
  cases op with
  | lw => exact absurd rfl load
  | sw => exact absurd rfl store
  | _ => exact ⟨_, rfl⟩

theorem judges_parseInstruction {text : List Char}
    (load : Opcode.ofMnemonic? ((Text.tokens isSeparator text).headD []) ≠ some .lw)
    (store : Opcode.ofMnemonic? ((Text.tokens isSeparator text).headD []) ≠ some .sw) (address : Nat) :
    Judges (Accepted source (Text.tokens isSeparator text)) (Refused source (Text.tokens isSeparator text))
      (parseInstruction (ofSource source).labels address text) := by
  unfold parseInstruction
  generalize Text.tokens isSeparator text = tokens at load store ⊢
  cases known : Opcode.ofMnemonic? (tokens.headD []) with
  | none =>
    simp only [known]
    exact .error (.mnemonic known)
  | some op =>
    rw [known, ne_eq, Option.some_inj] at load store
    obtain ⟨kinds, takes⟩ := exists_operandKinds? load store
    simp only [known]
    obtain ⟨counted, judges⟩ | ⟨miscounted, failed⟩ :=
      @instructionOf_cases source op kinds takes address tokens.tail
    · exact judges.imp (fun all => ⟨op, kinds, ⟨known, takes⟩, all⟩)
        fun _ => .operand ⟨known, takes⟩ counted
    · rw [failed]
      exact .error (.count ⟨known, takes⟩ miscounted)

end

def lineTokens (source : String) (number : Nat) : List (List Char) :=
  Text.tokens isSeparator (instructionText (rawLine source number))

/-- Let a line have an instruction, at an address that is a word, and not be a load or store. It gives an
entry just when its tokens are accepted, and then nothing but its label can be in error. If they are not,
a check refuses them, and that is the one error of the instruction. -/
theorem line_accepted_iff {source : String} {number : Nat}
    (used : isInstructionLine (rawLine source number) = true)
    (room : instructionsBefore source number < 65536)
    (load : Opcode.ofMnemonic? ((lineTokens source number).headD []) ≠ some .lw)
    (store : Opcode.ofMnemonic? ((lineTokens source number).headD []) ≠ some .sw) :
    ((∃ entry ∈ (ofSource source).listing, entry.line = number) ↔
      Accepted source (lineTokens source number)) ∧
    (Accepted source (lineTokens source number) →
      (ofSource source).errors.filter (·.line = number) =
        (placedLine source number).labelErrors (ofSource source).labels) ∧
    (¬Accepted source (lineTokens source number) →
      ∃ cause, Refused source (lineTokens source number) cause) ∧
    ∀ cause, Refused source (lineTokens source number) cause →
      (ofSource source).errors.filter (·.line = number) =
        (placedLine source number).labelErrors (ofSource source).labels ++ [⟨number, cause⟩] := by
  have judges : Judges (Accepted source (lineTokens source number))
      (Refused source (lineTokens source number)) (lineInstruction source number) :=
    judges_parseInstruction load store _
  have picked : (∃ entry ∈ (ofSource source).listing, entry.line = number) ↔
      (ofSource source).listing.filter (·.line = number) ≠ [] := by
    simp [List.filter_eq_nil_iff]
  rw [picked]
  cases read : lineInstruction source number with
  | ok instruction =>
    rw [read] at judges
    cases judges with
    | ok accepted =>
      obtain ⟨listed, clean⟩ := line_of_spelled used room read
      rw [listed]
      exact ⟨by simpa using accepted, fun _ => clean, fun refused => absurd accepted refused,
        fun cause refused => absurd accepted refused.not_accepted⟩
  | error cause =>
    rw [read] at judges
    cases judges with
    | error refused =>
      obtain ⟨silent, reported⟩ := line_of_failed used room read
      rw [silent]
      refine ⟨by simpa using refused.not_accepted, fun accepted => absurd accepted refused.not_accepted,
        fun _ => ⟨cause, refused⟩, fun other refusedToo => ?_⟩
      rw [reported, refused.unique refusedToo]

/-- A branch to a label of a later line, behind a label without a good name; and two bad operands. -/
def stumbling : String := "1go: BNE x1,, t2 end # leave\n Xor x1, y2, 99\nend:"

theorem line_accepted_iff_stumbling :
    (∃ entry ∈ (ofSource stumbling).listing, entry.line = 1) ∧
      (ofSource stumbling).errors.filter (·.line = 1) = [⟨1, .invalidLabel "1go"⟩] ∧
      (¬∃ entry ∈ (ofSource stumbling).listing, entry.line = 2) ∧
      (ofSource stumbling).errors.filter (·.line = 2) = [⟨2, .invalidRegister "y2"⟩] := by
  have used : isInstructionLine (rawLine stumbling 1) = true ∧
      isInstructionLine (rawLine stumbling 2) = true := by decide +kernel
  have room : instructionsBefore stumbling 1 < 65536 ∧ instructionsBefore stumbling 2 < 65536 := by
    decide +kernel
  have branch : lineTokens stumbling 1 = ["BNE".toList, "x1".toList, "t2".toList, "end".toList] := by
    decide +kernel
  have xor : lineTokens stumbling 2 = ["Xor".toList, "x1".toList, "y2".toList, "99".toList] := by
    decide +kernel
  have labels : (placedLine stumbling 1).labelErrors (ofSource stumbling).labels =
        [⟨1, .invalidLabel "1go"⟩] ∧
      (placedLine stumbling 2).labelErrors (ofSource stumbling).labels = [] := by decide +kernel
  have accepted : Accepted stumbling (lineTokens stumbling 1) := by
    have passes : Passes stumbling .register "x1".toList ∧ Passes stumbling .register "t2".toList ∧
        Passes stumbling (.target .lowSigned) "end".toList :=
      ⟨@Passes.register _ _ 1 rfl, @Passes.register _ _ 7 rfl,
        @Passes.label _ _ _ 3 rfl (by decide +kernel)⟩
    rw [branch]
    exact ⟨.bne, _, ⟨rfl, rfl⟩, .cons passes.1 (.cons passes.2.1 (.cons passes.2.2 .nil))⟩
  have refused : Refused stumbling (lineTokens stumbling 2) (.invalidRegister "y2") := by
    rw [xor]
    exact @Refused.operand _ _ .xor _ _ ⟨rfl, rfl⟩ rfl
      (.later (@Passes.register _ _ 1 rfl) (.here (.register rfl)))
  obtain ⟨first, clean, -⟩ :=
    line_accepted_iff used.1 room.1 (by rw [branch]; decide) (by rw [branch]; decide)
  obtain ⟨second, -, -, reported⟩ :=
    line_accepted_iff used.2 room.2 (by rw [xor]; decide) (by rw [xor]; decide)
  refine ⟨first.2 accepted, ?_, fun entry => refused.not_accepted (second.1 entry), ?_⟩
  · rw [clean accepted, labels.1]
  · rw [reported _ refused, labels.2]
    rfl

end Harvard16.Assembly
