import Harvard16.Proofs.LineGrammar
import Mathlib.Data.List.SplitBy

/-! The grammar of loads and stores. Behind the register the tokens of such a line are joined before they
are read, so separators stand wherever they like in the rest: also inside of the number and of the
name. Main statement: with each bracket a token of its own, a line gives an entry just when its tokens
are a register, the pieces of a number from 0 to 15 or none, and in brackets the pieces of the name of
a register. A line in which the number is in two pieces is an example. -/
namespace Harvard16

def isBracket (c : Char) : Bool := c == '(' || c == ')'

theorem not_isBracket_of_ne {c : Char} (opening : c ≠ '(') (closing : c ≠ ')') : isBracket c = false := by
  simp [isBracket, opening, closing]

theorem not_isBracket_of_numeral {base n : Nat} (small : base ≤ 16) {digits : List Char}
    (numeral : Text.Numeral base digits n) {c : Char} (member : c ∈ digits) : isBracket c = false := by
  obtain ⟨d, bound, spelled⟩ := numeral.exists_digit c member
  have read := Text.isDigit_sixteen.1 ⟨bound.trans_le small, spelled⟩
  exact not_isBracket_of_ne (by rintro rfl; cases read) (by rintro rfl; cases read)

theorem toLower_of_isBracket {c : Char} (bracket : isBracket c = true) : c.toLower = c := by
  simp only [isBracket, Bool.or_eq_true, beq_iff_eq] at bracket
  rcases bracket with rfl | rfl <;> rfl

theorem mem_map_toLower {c : Char} (bracket : isBracket c = true) {cs : List Char} (member : c ∈ cs) :
    c ∈ cs.map Char.toLower :=
  List.mem_map.2 ⟨c, member, toLower_of_isBracket bracket⟩

theorem Opcode.not_isBracket_of_ofMnemonic? {name : List Char} {op : Opcode}
    (known : ofMnemonic? name = some op) {c : Char} (member : c ∈ name) : isBracket c = false := by
  have plain : op.keyword.all (!isBracket ·) = true := by cases op <;> decide
  have keyword : op.keyword = name.map Char.toLower := by simpa using List.find?_some known
  by_contra bracket
  rw [Bool.not_eq_false] at bracket
  have inside := mem_map_toLower bracket member
  rw [← keyword] at inside
  simpa [bracket] using List.all_eq_true.1 plain c inside

theorem RegisterName.not_isBracket_of_index? {text : List Char} {i : Nat} (named : index? text = some i)
    {c : Char} (member : c ∈ text) : isBracket c = false := by
  by_contra bracket
  rw [Bool.not_eq_false] at bracket
  have inked : Text.isBlank c = false := by
    simp only [isBracket, Bool.or_eq_true, beq_iff_eq] at bracket
    rcases bracket with rfl | rfl <;> decide
  have inside := mem_map_toLower bracket ((Text.mem_trim inked).2 member)
  simp only [index?] at named
  generalize (Text.trim text).map Char.toLower = lower at named inside
  split at named
  · rename_i numbered
    unfold number? at numbered
    split at numbered
    · rcases List.mem_cons.1 inside with rfl | digit
      · cases bracket
      · obtain ⟨numeral, -⟩ := Text.decimal?_eq_some_iff_numeral.1 numbered
        rw [not_isBracket_of_numeral (by decide) numeral digit] at bracket
        cases bracket
    · cases numbered
  · have plain : all.all (fun entry => entry.abiName.toList.all (!isBracket ·)) = true := by decide
    obtain ⟨inTable, same, -⟩ := List.findIdx?_eq_some_iff_getElem.1 named
    have letters := List.all_eq_true.1 plain _ (List.getElem_mem inTable)
    rw [beq_iff_eq.1 same] at letters
    simpa [bracket] using List.all_eq_true.1 letters c inside

namespace Assembly

def cutBrackets (token : List Char) : List (List Char) :=
  token.splitBy fun a b => !isBracket a && !isBracket b

def bracketTokens (text : List Char) : List (List Char) :=
  (Text.tokens isSeparator text).flatMap cutBrackets

theorem cutBrackets_of_plain {token : List Char} (filled : token ≠ [])
    (plain : ∀ c ∈ token, isBracket c = false) : cutBrackets token = [token] := by
  apply List.splitBy_of_isChain filled
  apply List.Pairwise.isChain
  rw [List.pairwise_iff_forall_sublist]
  intro a b pair
  simp [plain a (pair.mem (by simp)), plain b (pair.mem (by simp))]

theorem flatten_cutBrackets (tokens : List (List Char)) :
    (tokens.flatMap cutBrackets).flatten = tokens.flatten := by
  induction tokens with
  | nil => rfl
  | cons token tokens ih =>
    rw [List.flatMap_cons, List.flatten_append, ih, cutBrackets, List.flatten_splitBy, List.flatten_cons]

theorem eq_of_mem_cutBrackets {tokens : List (List Char)} {piece : List Char}
    (cut : piece ∈ tokens.flatMap cutBrackets) {mark : Char} (bracket : isBracket mark = true) :
    piece = [mark] ∨ mark ∉ piece := by
  obtain ⟨token, -, cut⟩ := List.mem_flatMap.1 cut
  have chain := List.isChain_of_mem_splitBy cut
  by_cases member : mark ∈ piece
  · obtain ⟨before, after, rfl⟩ := List.append_of_mem member
    obtain ⟨-, behind, joint⟩ := List.isChain_append.1 chain
    have last : after = [] := by
      cases after with
      | nil => rfl
      | cons next after =>
        have neighbours := (List.isChain_cons_cons.1 behind).1
        simp [bracket] at neighbours
    have first : before = [] := by
      rcases List.eq_nil_or_concat before with rfl | ⟨front, previous, rfl⟩
      · rfl
      · have neighbours := joint previous (by simp) mark (by simp)
        simp [bracket] at neighbours
    rw [first, last]
    exact .inl rfl
  · exact .inr member

theorem nil_not_mem_cutBrackets (tokens : List (List Char)) : [] ∉ tokens.flatMap cutBrackets := by
  intro member
  obtain ⟨token, -, cut⟩ := List.mem_flatMap.1 member
  exact List.nil_notMem_splitBy _ _ cut

section

variable {mark : Char} {tokens : List (List Char)}

theorem exists_around_mark (apart : ∀ token ∈ tokens, token = [mark] ∨ mark ∉ token)
    {before after : List Char} (whole : tokens.flatten = before ++ mark :: after) (first : mark ∉ before) :
    ∃ pieces rest, tokens = pieces ++ [mark] :: rest ∧ pieces.flatten = before ∧ rest.flatten = after := by
  induction tokens generalizing before with
  | nil => simp at whole
  | cons token tokens ih =>
    obtain ⟨own, others⟩ := List.forall_mem_cons.1 apart
    rw [List.flatten_cons] at whole
    rcases own with rfl | absent
    · cases before with
      | nil =>
        cases whole
        exact ⟨[], tokens, rfl, rfl, rfl⟩
      | cons c before =>
        rw [List.singleton_append, List.cons_append, List.cons.injEq] at whole
        exact absurd (whole.1 ▸ List.mem_cons_self) first
    · obtain ⟨left, rfl, others_eq⟩ | ⟨right, rfl, others_eq⟩ := List.append_eq_append_iff.1 whole
      · obtain ⟨pieces, rest, rfl, joined, behind⟩ := ih others others_eq
          (fun member => first (List.mem_append_right _ member))
        exact ⟨token :: pieces, rest, rfl, by rw [List.flatten_cons, joined], behind⟩
      · cases right with
        | nil =>
          have onward : tokens.flatten = [] ++ mark :: after := others_eq.symm
          obtain ⟨pieces, rest, rfl, joined, behind⟩ := ih others onward List.not_mem_nil
          exact ⟨(before ++ []) :: pieces, rest, rfl, by simp [joined], behind⟩
        | cons c right =>
          cases others_eq
          exact absurd (List.mem_append_right _ List.mem_cons_self) absent

theorem exists_before_mark (apart : ∀ token ∈ tokens, token = [mark] ∨ mark ∉ token)
    (filled : [] ∉ tokens) {before : List Char} (whole : tokens.flatten = before ++ [mark]) :
    ∃ pieces, tokens = pieces ++ [[mark]] ∧ pieces.flatten = before := by
  rcases List.eq_nil_or_concat tokens with rfl | ⟨pieces, last, rfl⟩
  · simp at whole
  · rcases List.eq_nil_or_concat last with rfl | ⟨front, c, rfl⟩
    · exact absurd (by simp) filled
    · rw [List.concat_eq_append, List.flatten_append, List.flatten_singleton, List.concat_eq_append,
        ← List.append_assoc] at whole
      obtain ⟨joined, ending⟩ := List.append_inj' whole rfl
      cases ending
      rcases apart (front.concat mark) (by simp) with own | absent
      · obtain rfl : front = [] := by simpa using own
        exact ⟨pieces, List.concat_eq_append, by rw [← joined, List.append_nil]⟩
      · exact absurd (by simp) absent

end

theorem Magnitude.not_isBracket {digits : List Char} {n : Nat} (magnitude : Magnitude digits n) {c : Char}
    (member : c ∈ digits) : isBracket c = false := by
  cases magnitude with
  | decimal numeral => exact not_isBracket_of_numeral (by decide) numeral member
  | hexadecimal marked numeral =>
    rcases List.mem_cons.1 member with rfl | member
    · rfl
    · rcases List.mem_cons.1 member with rfl | inside
      · rcases marked with rfl | rfl <;> rfl
      · exact not_isBracket_of_numeral (Nat.le_refl 16) numeral inside

theorem not_isBracket_of_number? {text : List Char} {value : Int} (read : number? text = some value)
    {c : Char} (member : c ∈ text) : isBracket c = false := by
  obtain ⟨literal, -⟩ := number?_eq_some_iff.1 read
  cases literal with
  | positive magnitude => exact magnitude.not_isBracket member
  | negative magnitude =>
    rcases List.mem_cons.1 member with rfl | inside
    · rfl
    · exact magnitude.not_isBracket inside

/-- The pieces of a number denote it, and no pieces denote zero. -/
inductive DenotesOffsetPieces : List (List Char) → Nat → Prop
  | none : DenotesOffsetPieces [] 0
  | number {pieces : List (List Char)} {value : Nat} (read : number? pieces.flatten = some (value : Int))
      (small : value < 16) : DenotesOffsetPieces pieces value

/-- A text has the tokens of a load or store: a mnemonic and a register, each with a separator behind it, then
the pieces of an offset and, in brackets, those of the name of a register. -/
structure MemoryTokens (text : List Char) (pieces names : List (List Char)) (i offset base : Nat) : Prop where
  shape : ∃ name first, bracketTokens text = name :: first :: (pieces ++ ['('] :: (names ++ [[')']])) ∧
    (Text.tokens isSeparator text)[1]? = some first ∧ RegisterName.index? first = some i
  offset : DenotesOffsetPieces pieces offset
  base : RegisterName.index? names.flatten = some base

theorem denotesPlace_iff_pieces {operands : List (List Char)} {offset base : Nat} :
    DenotesPlace operands.flatten offset base ↔
      ∃ pieces names, operands.flatMap cutBrackets = pieces ++ ['('] :: (names ++ [[')']]) ∧
        DenotesOffsetPieces pieces offset ∧ RegisterName.index? names.flatten = some base := by
  constructor
  · intro place
    have whole : ∃ numeral name, operands.flatten = numeral ++ '(' :: (name ++ [')']) ∧ '(' ∉ numeral ∧
        (numeral = [] ∧ offset = 0 ∨ number? numeral = some (offset : Int) ∧ offset < 16) ∧
        RegisterName.index? name = some base := by
      generalize operands.flatten = text at place
      cases place with
      | @bare name _ named => exact ⟨[], name, rfl, by simp, .inl ⟨rfl, rfl⟩, named⟩
      | @offset numeral name _ _ opens read small named =>
        exact ⟨numeral, name, by simp, opens, .inr ⟨read, small⟩, named⟩
    obtain ⟨numeral, name, whole, opens, value, named⟩ := whole
    rw [← flatten_cutBrackets] at whole
    obtain ⟨pieces, rest, cut, joined, behind⟩ :=
      exists_around_mark (fun piece member => eq_of_mem_cutBrackets member rfl) whole opens
    have own : ∀ piece ∈ rest, piece = [')'] ∨ ')' ∉ piece := by
      intro piece member
      refine @eq_of_mem_cutBrackets operands _ ?_ _ rfl
      rw [cut]
      simp [member]
    have filled : [] ∉ rest := by
      intro member
      refine nil_not_mem_cutBrackets operands ?_
      rw [cut]
      simp [member]
    obtain ⟨names, rfl, spelled⟩ := exists_before_mark own filled behind
    refine ⟨pieces, names, cut, ?_, by rw [spelled, named]⟩
    rcases value with ⟨rfl, rfl⟩ | ⟨read, small⟩
    · cases pieces with
      | nil => exact .none
      | cons piece pieces =>
        obtain rfl : piece = [] := (List.append_eq_nil_iff.1 joined).1
        exact absurd (by simp [cut]) (nil_not_mem_cutBrackets operands)
    · exact .number (joined ▸ read) small
  · rintro ⟨pieces, names, cut, value, named⟩
    have whole := congrArg List.flatten cut
    rw [flatten_cutBrackets] at whole
    simp only [List.flatten_append, List.flatten_cons, List.flatten_nil, List.append_nil,
      List.singleton_append] at whole
    rw [whole]
    cases value with
    | none => exact .bare named
    | number read small =>
      have opens : '(' ∉ pieces.flatten := by
        intro member
        cases not_isBracket_of_number? read member
      have place := DenotesPlace.offset opens read small named
      rwa [List.append_assoc] at place

def accessOf (op : Opcode) (i base offset : Nat) : Instruction :=
  if op = .lw then .i .lw i base offset else .s .sw i base offset

section

variable {labels : LabelTable} {address : Nat} {op : Opcode}

theorem denotes_access {name : List Char} (known : Opcode.ofMnemonic? name = some op)
    (accesses : op = .lw ∨ op = .sw) {operands : List (List Char)} {instruction : Instruction} :
    Denotes labels address (name :: operands) instruction ↔
      ∃ first rest i offset base, operands = first :: rest ∧ RegisterName.index? first = some i ∧
        DenotesPlace rest.flatten offset base ∧ instruction = accessOf op i base offset := by
  have unlike {other : Opcode} (mnemonic : Opcode.ofMnemonic? name = some other) : other = op :=
    Option.some_inj.1 (mnemonic.symm.trans known)
  constructor
  · intro denotes
    cases denotes with
    | load mnemonic named place =>
      obtain rfl := unlike mnemonic
      exact ⟨_, _, _, _, _, rfl, named, place, rfl⟩
    | store mnemonic format named place =>
      obtain rfl := unlike mnemonic
      rcases accesses with rfl | rfl
      · cases format
      · exact ⟨_, _, _, _, _, rfl, named, place, rfl⟩
    | immediate mnemonic format other =>
      obtain rfl := unlike mnemonic
      rcases accesses with rfl | rfl
      · exact absurd rfl other
      · cases format
    | registers mnemonic format | branch mnemonic format | jump mnemonic format
    | special mnemonic format =>
      obtain rfl := unlike mnemonic
      rcases accesses with rfl | rfl <;> cases format
  · rintro ⟨first, rest, i, offset, base, rfl, named, place, rfl⟩
    cases rest with
    | nil =>
      generalize none : ([] : List (List Char)).flatten = text at place
      cases place <;> simp at none
    | cons second rest =>
      rcases accesses with rfl | rfl
      · exact .load known named place
      · exact .store known rfl named place

theorem cutBrackets_mnemonic {name : List Char} (known : Opcode.ofMnemonic? name = some op) :
    cutBrackets name = [name] := by
  refine cutBrackets_of_plain ?_ fun _ => Opcode.not_isBracket_of_ofMnemonic? known
  rintro rfl
  cases known

theorem cutBrackets_register {name : List Char} {i : Nat} (named : RegisterName.index? name = some i) :
    cutBrackets name = [name] := by
  refine cutBrackets_of_plain ?_ fun _ => RegisterName.not_isBracket_of_index? named
  rintro rfl
  cases named

theorem parseInstruction_access {text : List Char}
    (known : Opcode.ofMnemonic? ((Text.tokens isSeparator text).headD []) = some op)
    (accesses : op = .lw ∨ op = .sw) {instruction : Instruction} :
    parseInstruction labels address text = .ok instruction ↔
      ∃ pieces names i offset base, MemoryTokens text pieces names i offset base ∧
        instruction = accessOf op i base offset := by
  rw [parseInstruction_eq_ok_iff]
  have cut : bracketTokens text = (Text.tokens isSeparator text).flatMap cutBrackets := rfl
  cases tokens : Text.tokens isSeparator text with
  | nil =>
    rw [tokens] at known
    cases known
  | cons name operands =>
    rw [tokens, List.flatMap_cons, cutBrackets_mnemonic (by rwa [tokens] at known)] at cut
    rw [tokens, List.headD_cons] at known
    rw [denotes_access known accesses]
    constructor
    · rintro ⟨first, rest, i, offset, base, rfl, named, place, rfl⟩
      obtain ⟨pieces, names, behind, value, spelled⟩ := denotesPlace_iff_pieces.1 place
      rw [List.flatMap_cons, cutBrackets_register named, behind] at cut
      refine ⟨pieces, names, i, offset, base, ⟨⟨name, first, cut, ?_, named⟩, value, spelled⟩, rfl⟩
      rw [tokens]
      rfl
    · rintro ⟨pieces, names, i, offset, base, ⟨⟨mnemonic, first, shape, second, named⟩, value, spelled⟩, rfl⟩
      rw [tokens] at second
      cases operands with
      | nil => cases second
      | cons register rest =>
        obtain rfl : register = first := Option.some_inj.1 second
        rw [cut, List.flatMap_cons, cutBrackets_register named] at shape
        have behind := (List.cons.inj (List.cons.inj shape).2).2
        exact ⟨register, rest, i, offset, base, rfl, named,
          denotesPlace_iff_pieces.2 ⟨pieces, names, behind, value, spelled⟩, rfl⟩

end

/-- Let the mnemonic of a line be that of a load or a store. Its entry has the register, the offset and the
base that its tokens tell, joined from their pieces. It has one if its tokens are of that shape and its
address is a word; and if they are not, it has none, and is in error. -/
theorem memory_line_iff {source : String} {number : Nat} {op : Opcode}
    (known : Opcode.ofMnemonic? ((lineTokens source number).headD []) = some op)
    (accesses : op = .lw ∨ op = .sw) :
    let text := instructionText (rawLine source number)
    (∀ entry ∈ (ofSource source).listing, entry.line = number →
      ∃ pieces names i offset base, MemoryTokens text pieces names i offset base ∧
        Instruction.decode entry.word = accessOf op i base offset) ∧
    (∀ pieces names i offset base, MemoryTokens text pieces names i offset base →
      instructionsBefore source number < 65536 →
      ∃ entry ∈ (ofSource source).listing, entry.line = number ∧
        Instruction.decode entry.word = accessOf op i base offset) ∧
    ((¬∃ pieces names i offset base, MemoryTokens text pieces names i offset base) →
      (∀ entry ∈ (ofSource source).listing, entry.line ≠ number) ∧
        ∃ error ∈ (ofSource source).errors, error.line = number) := by
  intro text
  have spells (instruction : Instruction) : lineInstruction source number = .ok instruction ↔
      ∃ pieces names i offset base, MemoryTokens text pieces names i offset base ∧
        instruction = accessOf op i base offset := parseInstruction_access known accesses
  have used : isInstructionLine (rawLine source number) = true := by
    by_contra bare
    have empty : text = [] := by simpa [isInstructionLine] using bare
    have none : lineTokens source number = [] := congrArg (Text.tokens isSeparator) empty
    rw [none] at known
    cases known
  have picked {entry : ListingEntry} (listed : entry ∈ (ofSource source).listing)
      (here : entry.line = number) :
      entry ∈ (ofSource source).listing.filter (·.line = number) :=
    List.mem_filter.2 ⟨listed, decide_eq_true here⟩
  have first (entry : ListingEntry) (listed : entry ∈ (ofSource source).listing)
      (here : entry.line = number) :
      ∃ pieces names i offset base, MemoryTokens text pieces names i offset base ∧
        Instruction.decode entry.word = accessOf op i base offset := by
    have own := picked listed here
    rw [listing_of_number, Option.mem_toList] at own
    obtain ⟨instruction, spelled, word⟩ := (lineEntry_of_listed? own).spelled
    have decoded : Instruction.decode entry.word = instruction := by
      rw [word]
      exact decode_encode_of_parse spelled
    obtain ⟨pieces, names, i, offset, base, tokens, same⟩ := (spells instruction).1 spelled
    exact ⟨pieces, names, i, offset, base, tokens, decoded.trans same⟩
  refine ⟨first, ?_, ?_⟩
  · intro pieces names i offset base tokens room
    have spelled := (spells _).2 ⟨pieces, names, i, offset, base, tokens, rfl⟩
    obtain ⟨listed, -⟩ := line_of_spelled used room spelled
    obtain ⟨member, here⟩ := List.mem_filter.1 (listed ▸ List.mem_singleton_self _)
    exact ⟨_, member, of_decide_eq_true here, decode_encode_of_parse spelled⟩
  · intro misshapen
    have silent : ∀ entry ∈ (ofSource source).listing, entry.line ≠ number := by
      intro entry listed here
      obtain ⟨pieces, names, i, offset, base, tokens, -⟩ := first entry listed here
      exact misshapen ⟨pieces, names, i, offset, base, tokens⟩
    refine ⟨silent, ?_⟩
    obtain ⟨labelCauses, causes, -, account, errors⟩ := lineAccount source number
    rw [used] at account
    generalize entries : (ofSource source).listing.filter (·.line = number) = listed at account
    cases account with
    | @result entry =>
      obtain ⟨member, here⟩ := List.mem_filter.1 (entries ▸ List.mem_singleton_self entry)
      exact absurd (of_decide_eq_true here) (silent entry member)
    | @error cause =>
      have reported : ⟨number, cause⟩ ∈ (ofSource source).errors.filter (·.line = number) := by
        rw [errors]
        simp
      exact ⟨_, (List.mem_filter.1 reported).1, rfl⟩

/-- A load with a blank before its bracket, a store without brackets, and one in pieces. -/
def scattered : String := "lw x2, 0x3 (x1)\nsw x1, x2\nsw t0 1 0,(s , p )"

theorem memory_line_iff_scattered :
    (∃ entry ∈ (ofSource scattered).listing, entry.line = 3 ∧
      Instruction.decode entry.word = .s .sw 5 2 10) ∧
    (∀ entry ∈ (ofSource scattered).listing, entry.line ≠ 2) ∧
    ∃ error ∈ (ofSource scattered).errors, error.line = 2 := by
  have store : Opcode.ofMnemonic? ((lineTokens scattered 2).headD []) = some .sw ∧
      Opcode.ofMnemonic? ((lineTokens scattered 3).headD []) = some .sw := by decide +kernel
  have room : instructionsBefore scattered 3 < 65536 := by decide +kernel
  have tokens : MemoryTokens (instructionText (rawLine scattered 3)) ["1".toList, "0".toList]
      ["s".toList, "p".toList] 5 10 2 := by
    refine ⟨⟨"sw".toList, "t0".toList, by decide +kernel, by decide +kernel, by decide +kernel⟩,
      .number ?_ (by decide), ?_⟩
    · decide +kernel
    · decide +kernel
  have misshapen : ¬∃ pieces names i offset base,
      MemoryTokens (instructionText (rawLine scattered 2)) pieces names i offset base := by
    rintro ⟨pieces, names, i, offset, base, ⟨name, first, shape, -⟩, -⟩
    have few : (bracketTokens (instructionText (rawLine scattered 2))).length = 3 := by decide +kernel
    rw [shape] at few
    simp at few
    omega
  obtain ⟨-, complete, -⟩ := memory_line_iff store.2 (.inr rfl)
  obtain ⟨-, -, refused⟩ := memory_line_iff store.1 (.inr rfl)
  exact ⟨complete _ _ _ _ _ tokens room, refused misshapen⟩

/-- An operand with its offset in two pieces is read as one with both of them joined. -/
def joined : String := "lw x1, 1 2(x0)"

theorem memory_line_joined :
    bracketTokens joined.toList = ["lw", "x1", "1", "2", "(", "x0", ")"].map String.toList ∧
    (ofSource joined).errors = [] ∧ (ofSource joined).words = [0x810C] ∧
    ¬∀ (source : String), ∀ entry ∈ (ofSource source).listing,
      Opcode.ofMnemonic? ((lineTokens source entry.line).headD []) = some .lw →
      ∃ pieces names i offset base, pieces.length ≤ 1 ∧ names.length = 1 ∧
        MemoryTokens (instructionText (rawLine source entry.line)) pieces names i offset base := by
  have cut : bracketTokens joined.toList = ["lw", "x1", "1", "2", "(", "x0", ")"].map String.toList := by
    decide +kernel
  refine ⟨cut, by decide +kernel, by decide +kernel, fun strict => ?_⟩
  have listed : (⟨0, 1, joined, 0x810C⟩ : ListingEntry) ∈ (ofSource joined).listing := by decide +kernel
  have load : Opcode.ofMnemonic? ((lineTokens joined 1).headD []) = some .lw := by decide +kernel
  obtain ⟨pieces, names, i, offset, base, one, -, ⟨name, first, shape, -⟩, -⟩ := strict joined _ listed load
  have text : instructionText (rawLine joined 1) = joined.toList := by decide +kernel
  rw [text, cut] at shape
  have rest := (List.cons.inj (List.cons.inj shape).2).2
  cases pieces with
  | nil => cases rest
  | cons piece pieces =>
    obtain rfl : pieces = [] := by simpa using one
    cases rest

end Assembly

end Harvard16
