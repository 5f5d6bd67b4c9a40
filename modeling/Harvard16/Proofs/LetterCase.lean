import Harvard16.Proofs.SourceLines
import Harvard16.Proofs.Spelling
import Mathlib.Data.List.Forall2

/-! Letters of either case. Mnemonics, names of registers and hexadecimal digits are read alike in upper and in
lower case, and what parts an instruction into tokens is no letter. The one text that is taken as it stands is
the target of a branch or a jump, which may be the name of a label. Main statement: two instructions that
differ in the case of letters only, and have the same target, are judged alike. -/
namespace Harvard16

namespace Text

def capitals : List Char := (List.range' 65 26).map Char.ofNat

theorem toLower_eq_or_mem_capitals (c : Char) : c.toLower = c ∨ c ∈ capitals := by
  unfold Char.toLower
  split
  · rename_i upper
    refine .inr (List.mem_map.2 ⟨c.toNat, ?_, Char.ofNat_toNat c⟩)
    obtain ⟨least, greatest⟩ : 65 ≤ c.toNat ∧ c.toNat ≤ 90 := by
      simpa [UInt32.le_iff_toNat_le] using upper
    rw [List.mem_range'_1]
    omega
  · exact .inl rfl

theorem forall_toLower {P : Char → Char → Prop} [∀ c small, Decidable (P c small)] (same : ∀ c, P c c)
    (capital : capitals.all (fun c => P c c.toLower) = true) (c : Char) : P c c.toLower := by
  rcases toLower_eq_or_mem_capitals c with unchanged | member
  · rw [unchanged]
    exact same c
  · exact of_decide_eq_true (List.all_eq_true.1 capital c member)

theorem isBlank_toLower (c : Char) : isBlank c.toLower = isBlank c :=
  forall_toLower (P := fun c small => isBlank small = isBlank c) (fun _ => rfl) (by decide) c

theorem isDigit_toLower (c : Char) : c.toLower.isDigit = c.isDigit :=
  forall_toLower (P := fun c small => small.isDigit = c.isDigit) (fun _ => rfl) (by decide) c

theorem hexDigit?_toLower (c : Char) : hexDigit? c.toLower = hexDigit? c :=
  forall_toLower (P := fun c small => hexDigit? small = hexDigit? c) (fun _ => rfl) (by decide) c

theorem toLower_eq_iff {mark : Char} (other : mark.isAlpha = false) (c : Char) :
    c.toLower = mark ↔ c = mark := by
  have letters : capitals.all (fun c => c.isAlpha && c.toLower.isAlpha) = true := by decide
  rcases toLower_eq_or_mem_capitals c with unchanged | capital
  · rw [unchanged]
  · obtain ⟨large, small⟩ := Bool.and_eq_true_iff.1 (List.all_eq_true.1 letters c capital)
    constructor
    · rintro rfl
      exact absurd (small.symm.trans other) (by decide)
    · rintro rfl
      exact absurd (large.symm.trans other) (by decide)

theorem toLower_comp_toLower : Char.toLower ∘ Char.toLower = Char.toLower :=
  funext (forall_toLower (P := fun c small => small.toLower = c.toLower) (fun _ => rfl) (by decide))

theorem mem_map_toLower_iff {mark : Char} (other : mark.isAlpha = false) {cs : List Char} :
    mark ∈ cs.map Char.toLower ↔ mark ∈ cs := by
  simp [toLower_eq_iff other]

theorem trim_map_toLower (cs : List Char) : trim (cs.map Char.toLower) = (trim cs).map Char.toLower := by
  have kept : isBlank ∘ Char.toLower = isBlank := funext isBlank_toLower
  simp only [trim, trimStart, trimEnd, List.dropWhile_map, ← List.map_reverse, kept]

theorem cutAt?_map_toLower {mark : Char} (other : mark.isAlpha = false) (cs : List Char) :
    cutAt? mark (cs.map Char.toLower) =
      (cutAt? mark cs).map (Prod.map (·.map Char.toLower) (·.map Char.toLower)) := by
  have kept : (fun c : Char => c != mark) ∘ Char.toLower = (· != mark) := by
    funext c
    simp [bne, toLower_eq_iff other, Bool.beq_eq_decide_eq]
  rw [cutAt?, cutAt?, List.dropWhile_map, List.takeWhile_map, kept]
  cases cs.dropWhile (· != mark) <;> rfl

theorem splitOnP_map {α β : Type} (f : α → β) (p : β → Bool) (xs : List α) :
    (xs.map f).splitOnP p = (xs.splitOnP (p ∘ f)).map (·.map f) := by
  induction xs with
  | nil => rfl
  | cons x xs ih =>
    rw [List.map_cons, List.splitOnP_cons_eq_if_modifyHead, List.splitOnP_cons_eq_if_modifyHead, ih]
    cases separates : p (f x) with
    | true => simp [separates]
    | false =>
      obtain ⟨first, rest, pieces⟩ := List.exists_cons_of_ne_nil (List.splitOnP_ne_nil (p ∘ f) xs)
      simp [separates, pieces]

theorem tokens_map_toLower {isSeparator : Char → Bool}
    (kept : ∀ c : Char, isSeparator c.toLower = isSeparator c) (cs : List Char) :
    tokens isSeparator (cs.map Char.toLower) = (tokens isSeparator cs).map (·.map Char.toLower) := by
  have same : isSeparator ∘ Char.toLower = isSeparator := funext kept
  rw [tokens, tokens, splitOnP_map, same, List.filter_map]
  congr 2
  funext piece
  simp

theorem toLower_of_isDigit {c : Char} (digit : c.isDigit = true) : c.toLower = c := by
  have letters : capitals.all (!·.isDigit) = true := by decide
  rcases toLower_eq_or_mem_capitals c with unchanged | capital
  · exact unchanged
  · simpa [digit] using List.all_eq_true.1 letters c capital

theorem decimal?_map_toLower (bound : Nat) (cs : List Char) :
    decimal? bound (cs.map Char.toLower) = decimal? bound cs := by
  have same : Char.isDigit ∘ Char.toLower = Char.isDigit := funext isDigit_toLower
  rw [decimal?, decimal?, List.all_map, same, List.isEmpty_map]
  split
  · rename_i number
    rw [Bool.and_eq_true, List.all_eq_true] at number
    have unchanged : cs.map Char.toLower = cs.map id :=
      List.map_congr_left fun c member => toLower_of_isDigit (number.2 c member)
    rw [unchanged, List.map_id]
  · rfl

theorem hexadecimal?_map_toLower (bound : Nat) (cs : List Char) :
    hexadecimal? bound (cs.map Char.toLower) = hexadecimal? bound cs := by
  simp only [hexadecimal?, cappedValue, List.all_map, List.isEmpty_map, List.foldl_map, Function.comp_def,
    hexDigit?_toLower]

end Text

namespace Assembly

/-- What is wrong, apart from the details. -/
inductive Cause.Kind where
  | unknownMnemonic
  | operandCount
  | invalidRegister
  | invalidNumber
  | outOfRange
  | invalidMemoryOperand
  | undefinedLabel
  | invalidLabel
  | duplicateLabel
  | programTooLarge
  deriving DecidableEq, Repr

def Cause.kind : Cause → Cause.Kind
  | unknownMnemonic _ => .unknownMnemonic
  | operandCount .. => .operandCount
  | invalidRegister _ => .invalidRegister
  | invalidNumber _ => .invalidNumber
  | outOfRange .. => .outOfRange
  | invalidMemoryOperand _ => .invalidMemoryOperand
  | undefinedLabel _ => .undefinedLabel
  | invalidLabel _ => .invalidLabel
  | duplicateLabel .. => .duplicateLabel
  | programTooLarge => .programTooLarge

/-- Two readings that give the same, or fail for causes of one kind. -/
inductive SameVerdict {α : Type} : Except Cause α → Except Cause α → Prop
  | ok (value : α) : SameVerdict (.ok value) (.ok value)
  | error {first second : Cause} (kinds : first.kind = second.kind) :
      SameVerdict (.error first) (.error second)

theorem SameVerdict.refl {α : Type} (reading : Except Cause α) : SameVerdict reading reading := by
  cases reading with
  | ok value => exact .ok value
  | error cause => exact .error rfl

theorem SameVerdict.bind {α β : Type} {first second : Except Cause α} (same : SameVerdict first second)
    {next other : α → Except Cause β} (rest : ∀ value, SameVerdict (next value) (other value)) :
    SameVerdict (first >>= next) (second >>= other) := by
  cases same with
  | ok value => exact rest value
  | error kinds => exact .error kinds

theorem isSeparator_toLower (c : Char) : isSeparator c.toLower = isSeparator c :=
  Text.forall_toLower (P := fun c small => isSeparator small = isSeparator c) (fun _ => rfl) (by decide) c

theorem magnitude?_eq (cs : List Char) :
    magnitude? cs =
      if (cs.take 2).map Char.toLower = ['0', 'x'] then Text.hexadecimal? magnitudeBound (cs.drop 2)
      else Text.decimal? magnitudeBound cs := by
  have twoLetters (c : Char) : c.toLower = 'x' → c = 'x' ∨ c = 'X' :=
    Text.forall_toLower (P := fun c small => small = 'x' → c = 'x' ∨ c = 'X') (fun _ => .inl) (by decide) c
  unfold magnitude?
  split
  · rfl
  · rfl
  · rename_i small capital
    rw [if_neg]
    intro marked
    rcases cs with _ | ⟨c, _ | ⟨d, rest⟩⟩
    · cases marked
    · simp at marked
    · obtain ⟨zero, mark⟩ : c.toLower = '0' ∧ d.toLower = 'x' := by simpa using marked
      obtain rfl := (Text.toLower_eq_iff (by decide) c).1 zero
      rcases twoLetters d mark with rfl | rfl
      · exact small rest rfl
      · exact capital rest rfl

theorem magnitude?_map_toLower (cs : List Char) : magnitude? (cs.map Char.toLower) = magnitude? cs := by
  rw [magnitude?_eq, magnitude?_eq, ← List.map_take, List.map_map, Text.toLower_comp_toLower, ← List.map_drop,
    Text.hexadecimal?_map_toLower, Text.decimal?_map_toLower]

theorem number?_eq (cs : List Char) :
    number? cs =
      if cs.head? = some '-' then (magnitude? cs.tail).map fun n => -(n : Int)
      else (magnitude? cs).map fun n => (n : Int) := by
  unfold number?
  split
  · rfl
  · rename_i unsigned
    rw [if_neg]
    intro marked
    obtain ⟨digits, rfl⟩ := List.head?_eq_some_iff.1 marked
    exact unsigned digits rfl

theorem number?_map_toLower (cs : List Char) : number? (cs.map Char.toLower) = number? cs := by
  have marked : (cs.map Char.toLower).head? = some '-' ↔ cs.head? = some '-' := by
    simp [List.head?_map, Text.toLower_eq_iff]
  rw [number?_eq, number?_eq, ← List.map_tail, magnitude?_map_toLower, magnitude?_map_toLower]
  simp only [marked]

def SameLetters (a b : List Char) : Prop := a.map Char.toLower = b.map Char.toLower

instance (a b : List Char) : Decidable (SameLetters a b) :=
  inferInstanceAs (Decidable (a.map Char.toLower = b.map Char.toLower))

section

variable {a b : List Char} (same : SameLetters a b)
include same

theorem SameLetters.isEmpty : a.isEmpty = b.isEmpty := by
  have mapped := congrArg List.isEmpty same
  rwa [List.isEmpty_map, List.isEmpty_map] at mapped

theorem SameLetters.number? : number? a = number? b := by
  rw [← number?_map_toLower, same, number?_map_toLower]

theorem SameLetters.trim : SameLetters (Text.trim a) (Text.trim b) := by
  rw [SameLetters, ← Text.trim_map_toLower, same, Text.trim_map_toLower]

theorem SameLetters.register : SameVerdict (register a) (register b) := by
  have names : (Text.trim a).map Char.toLower = (Text.trim b).map Char.toLower := same.trim
  have index : RegisterName.index? a = RegisterName.index? b := by
    simp only [RegisterName.index?, names]
  rw [Assembly.register, Assembly.register, index]
  cases RegisterName.index? b with
  | some i => exact .ok i
  | none => exact .error rfl

theorem SameLetters.immediate (field : Field) : SameVerdict (immediate field a) (immediate field b) := by
  rw [Assembly.immediate, Assembly.immediate, same.number?]
  cases Assembly.number? b with
  | none => exact .error rfl
  | some value => exact .refl _

end

def memoryParts? (text : List Char) : Option (List Char × List Char) :=
  if text.getLast? = some ')' then Text.cutAt? '(' text.dropLast else none

theorem memoryParts?_map_toLower (text : List Char) :
    memoryParts? (text.map Char.toLower) =
      (memoryParts? text).map (Prod.map (·.map Char.toLower) (·.map Char.toLower)) := by
  have closed : (text.map Char.toLower).getLast? = some ')' ↔ text.getLast? = some ')' := by
    simp [List.getLast?_map, Text.toLower_eq_iff]
  have opening : '('.isAlpha = false := by decide
  simp only [memoryParts?, closed, ← List.map_dropLast, Text.cutAt?_map_toLower opening]
  split <;> rfl

theorem memoryOperand_eq (field : Field) (text : List Char) :
    memoryOperand field text =
      match memoryParts? text with
      | none => .error (.invalidMemoryOperand (String.ofList text))
      | some (offset, base) => do
        let offset ← if offset.isEmpty then .ok 0 else immediate field offset
        let base ← register base
        return (offset.toNat, base) := rfl

theorem SameLetters.memoryOperand {a b : List Char} (same : SameLetters a b) (field : Field) :
    SameVerdict (memoryOperand field a) (memoryOperand field b) := by
  have parts := congrArg memoryParts? same
  rw [memoryParts?_map_toLower, memoryParts?_map_toLower] at parts
  rw [memoryOperand_eq, memoryOperand_eq]
  generalize memoryParts? a = first, memoryParts? b = second at parts
  rcases first with _ | ⟨offset, base⟩ <;> rcases second with _ | ⟨otherOffset, otherBase⟩
  · exact .error rfl
  · cases parts
  · cases parts
  · obtain ⟨offsets, bases⟩ := Prod.mk.inj (Option.some.inj parts)
    have offsets : SameLetters offset otherOffset := offsets
    have bases : SameLetters base otherBase := bases
    have named := bases.register
    dsimp only
    rw [offsets.isEmpty]
    split
    · exact named.bind fun _ => .refl _
    · exact (offsets.immediate field).bind fun _ => named.bind fun _ => .refl _

theorem sameLetters_flatten {as bs : List (List Char)} (same : List.Forall₂ SameLetters as bs) :
    SameLetters as.flatten bs.flatten := by
  induction same with
  | nil => rfl
  | cons head _ ih =>
    rw [SameLetters, List.flatten_cons, List.flatten_cons, List.map_append, List.map_append, head, ih]

theorem memoryForm_of_letters (op : Opcode) {as bs : List (List Char)} (same : List.Forall₂ SameLetters as bs) :
    SameVerdict (memoryForm op as) (memoryForm op bs) := by
  rcases same with _ | ⟨first, _ | ⟨second, rest⟩⟩
  · exact .error rfl
  · exact .error rfl
  · have operand := sameLetters_flatten (.cons second rest)
    exact first.register.bind fun _ => (operand.memoryOperand .low).bind fun _ => .refl _

def targetOperand? (op : Opcode) (operands : List (List Char)) : Option (List Char) :=
  match op.format with
  | .b => operands[2]?
  | .j => operands[1]?
  | .r | .i | .s | .special => none

/-- Operands in other letters are read alike. A target is taken as it stands, since it may be a label. -/
theorem instructionOf_of_letters (labels : LabelTable) (address : Nat) (op : Opcode)
    {as bs : List (List Char)} (same : List.Forall₂ SameLetters as bs)
    (target : targetOperand? op as = targetOperand? op bs) :
    SameVerdict (instructionOf labels address op as) (instructionOf labels address op bs) := by
  unfold instructionOf
  unfold targetOperand? at target
  -- A wrong number of operands is wrong on both sides, before anything is read.
  cases format : op.format with
  | r =>
    rcases same with _ | ⟨rd, _ | ⟨rs1, _ | ⟨rs2, _ | ⟨_, _⟩⟩⟩⟩ <;> try exact .error rfl
    exact rd.register.bind fun _ => rs1.register.bind fun _ => rs2.register.bind fun _ => .refl _
  | i =>
    dsimp only
    split
    · exact (memoryForm_of_letters op same).bind fun _ => .refl _
    · rcases same with _ | ⟨rd, _ | ⟨rs1, _ | ⟨imm, _ | ⟨_, _⟩⟩⟩⟩ <;> try exact .error rfl
      exact rd.register.bind fun _ => rs1.register.bind fun _ => (imm.immediate .low).bind fun _ => .refl _
  | s => exact (memoryForm_of_letters op same).bind fun _ => .refl _
  | b =>
    rcases same with _ | ⟨rs1, _ | ⟨rs2, _ | ⟨_, _ | ⟨_, _⟩⟩⟩⟩ <;> try exact .error rfl
    rw [format] at target
    cases target
    exact rs1.register.bind fun _ => rs2.register.bind fun _ => .refl _
  | j =>
    rcases same with _ | ⟨rd, _ | ⟨_, _ | ⟨_, _⟩⟩⟩ <;> try exact .error rfl
    rw [format] at target
    cases target
    exact rd.register.bind fun _ => .refl _
  | special =>
    rcases same with _ | ⟨_, _⟩
    · exact .refl _
    · exact .error rfl

def target? (text : List Char) : Option (List Char) :=
  let tokens := Text.tokens isSeparator text
  (Opcode.ofMnemonic? (tokens.headD [])).bind (targetOperand? · tokens.tail)

theorem tokens_of_letters {a b : List Char} (same : SameLetters a b) :
    List.Forall₂ SameLetters (Text.tokens isSeparator a) (Text.tokens isSeparator b) := by
  have tokens := congrArg (Text.tokens isSeparator) same
  rw [Text.tokens_map_toLower isSeparator_toLower, Text.tokens_map_toLower isSeparator_toLower] at tokens
  have lowered : List.Forall₂ (· = ·) ((Text.tokens isSeparator a).map (·.map Char.toLower))
      ((Text.tokens isSeparator b).map (·.map Char.toLower)) := by
    rw [tokens]
    exact List.forall₂_refl _
  rw [List.forall₂_map_left_iff, List.forall₂_map_right_iff] at lowered
  exact lowered

theorem parseInstruction_of_letters (labels : LabelTable) (address : Nat) {a b : List Char}
    (same : SameLetters a b) (target : target? a = target? b) :
    SameVerdict (parseInstruction labels address a) (parseInstruction labels address b) := by
  have tokens := tokens_of_letters same
  unfold target? at target
  unfold parseInstruction
  generalize Text.tokens isSeparator a = as, Text.tokens isSeparator b = bs at tokens target ⊢
  have names : SameLetters (as.headD []) (bs.headD []) := by
    cases tokens with
    | nil => rfl
    | cons head _ => exact head
  have operands : List.Forall₂ SameLetters as.tail bs.tail := by
    cases tokens with
    | nil => exact .nil
    | cons _ tail => exact tail
  have mnemonic : Opcode.ofMnemonic? (as.headD []) = Opcode.ofMnemonic? (bs.headD []) :=
    Opcode.ofMnemonic?_congr names
  dsimp only at target ⊢
  rw [mnemonic] at target ⊢
  cases known : Opcode.ofMnemonic? (bs.headD []) with
  | none => exact .error rfl
  | some op =>
    rw [known] at target
    exact instructionOf_of_letters labels address op operands target

end Assembly

end Harvard16
