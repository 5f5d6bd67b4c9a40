import Harvard16.Image
import Harvard16.Proofs.Replacement

/-! The grammar of bit dumps. Of the lines of a text those that are neither blank nor comments are rows, and a
row gives the index that is due and the bits of a word. Indices count rows and numbers count lines, so the two
run apart where lines are skipped. Main statement: a text is read as words just when its rows spell them
one by one, and otherwise the first row that does not is reported with its number and the first check that
fails on it. -/
namespace Harvard16

namespace Text

theorem ofDigitChars_two_lt {cs : List Char} (binary : ∀ c ∈ cs, c = '0' ∨ c = '1') (n : Nat) :
    Nat.ofDigitChars 2 cs n < (n + 1) * 2 ^ cs.length := by
  induction cs generalizing n with
  | nil => simp
  | cons c cs ih =>
    obtain ⟨first, rest⟩ := List.forall_mem_cons.1 binary
    have digit : c.toNat - '0'.toNat ≤ 1 := by rcases first with rfl | rfl <;> decide
    have next : 2 * n + (c.toNat - '0'.toNat) + 1 ≤ (n + 1) * 2 := by omega
    rw [Nat.ofDigitChars_cons, List.length_cons, Nat.pow_succ', ← Nat.mul_assoc]
    exact (ih rest _).trans_le (Nat.mul_le_mul_right _ next)

theorem cutAt?_trim_append {mark : Char} (inked : isBlank mark = false) {before : List Char}
    (absent : mark ∉ before) (after : List Char) :
    cutAt? mark (trim (before ++ mark :: after)) = some (trimStart before, trimEnd after) := by
  have trimmed : mark ∉ trimStart before := fun member =>
    absent ((List.dropWhile_sublist _).mem member)
  rw [trim_append_cons inked, cutAt?_append trimmed]

theorem head?_trim (cs : List Char) : (trim cs).head? = cs.find? (!isBlank ·) := by
  rw [List.find?_not_eq_head?_dropWhile, trim, trimStart]
  cases start : cs.dropWhile isBlank with
  | nil => rfl
  | cons c rest =>
    have inked : isBlank c = false := by
      have head := List.head?_dropWhile_not isBlank cs
      rwa [start] at head
    rw [trimEnd_cons inked]
    rfl

theorem find?_of_blank {cs : List Char} (blank : ∀ c ∈ cs, isBlank c = true) :
    cs.find? (!isBlank ·) = none := by
  simpa using blank

end Text

namespace Image.BitDump

/-- A numeral of a value: decimal digits behind at most one plus sign. Zeros in front do not count. -/
def IsNumeral (text : List Char) (value : Nat) : Prop :=
  ∃ digits, (text = digits ∨ text = '+' :: digits) ∧ digits ≠ [] ∧ (∀ c ∈ digits, c.isDigit = true) ∧
    Nat.ofDigitChars 10 digits 0 = value

structure IsBits (text : List Char) (word : UInt16) : Prop where
  length : text.length = 16
  binary : ∀ c ∈ text, c = '0' ∨ c = '1'
  value : Nat.ofDigitChars 2 text 0 = word.toNat

structure Columns (raw before after : List Char) : Prop where
  whole : raw = before ++ ':' :: after
  first : ':' ∉ before

/-- The row of a word at an index: a numeral of the index, a colon, and the bits of the word. Blanks around
either column do not count. -/
def Spells (index : Nat) (raw : List Char) (word : UInt16) : Prop :=
  ∃ before after, Columns raw before after ∧ IsNumeral (Text.trim before) index ∧
    IsBits (Text.trim after) word

/-- The first check that fails on a row where `index` is due: of its colon, of its index, which must be a
number of 64 bits and then the one that is due, and of its bits. -/
inductive Fails (index : Nat) (raw : List Char) : RowError → Prop
  | noColon (absent : ':' ∉ raw) : Fails index raw .noColon
  | badIndex {before after : List Char} (columns : Columns raw before after)
      (unread : ∀ n < Text.counterBound, ¬IsNumeral (Text.trim before) n) :
      Fails index raw (.badIndex (Text.trim before))
  | wrongIndex {before after : List Char} {found : Nat} (columns : Columns raw before after)
      (numeral : IsNumeral (Text.trim before) found) (small : found < Text.counterBound)
      (other : found ≠ index) : Fails index raw (.wrongIndex index found)
  | badDigits {before after : List Char} (columns : Columns raw before after)
      (numeral : IsNumeral (Text.trim before) index) (small : index < Text.counterBound)
      (unread : ∀ word, ¬IsBits (Text.trim after) word) : Fails index raw (.badDigits (Text.trim after))

def isRow (raw : List Char) : Bool := !isSkipped (Text.trim raw)

/-- Lines whose rows spell words, the first of them at index `first` and each other one at the next. No
index is above those of 64 bits, which is more rows than any memory holds. -/
structure Legible (first : Nat) (raws : List (List Char)) (words : List UInt16) : Prop where
  spelled : List.Forall₂ (fun row word => Spells row.2 row.1 word) ((raws.filter isRow).zipIdx first) words
  few : first + words.length ≤ Text.counterBound

/-- The first bad line: legible lines are before it, and it is a row on which a check fails. -/
def FirstBad (first : Nat) (raws : List (List Char)) (number : Nat) (error : RowError) : Prop :=
  ∃ before raw after words, raws = before ++ raw :: after ∧ before.length = number ∧
    Legible first before words ∧ isRow raw = true ∧ Fails (first + words.length) raw error

section

variable {text raw before after : List Char} {word : UInt16} {index n : Nat}

theorem counter?_eq_some_iff :
    Text.counter? text = some n ↔ IsNumeral text n ∧ n < Text.counterBound := by
  unfold Text.counter? IsNumeral
  split
  · rename_i digits
    rw [Text.decimal?_eq_some_iff, and_congr_left_iff]
    intro
    constructor
    · intro numeral
      exact ⟨digits, .inr rfl, numeral⟩
    · rintro ⟨signed, rfl | same, nonempty, all, value⟩
      · exact absurd (all '+' List.mem_cons_self) (by decide)
      · cases same
        exact ⟨nonempty, all, value⟩
  · rename_i unsigned
    rw [Text.decimal?_eq_some_iff, and_congr_left_iff]
    intro
    constructor
    · intro numeral
      exact ⟨_, .inl rfl, numeral⟩
    · rintro ⟨digits, rfl | signed, numeral⟩
      · exact numeral
      · exact absurd signed (unsigned digits)

theorem counter?_eq_none_iff :
    Text.counter? text = none ↔ ∀ n < Text.counterBound, ¬IsNumeral text n := by
  simp only [Option.eq_none_iff_forall_ne_some, ne_eq, counter?_eq_some_iff, not_and, not_lt]
  exact forall_congr' fun n => ⟨fun h small numeral => absurd small (h numeral).not_gt,
    fun h numeral => Nat.not_lt.1 fun small => h small numeral⟩

theorem bits?_eq_some_iff : bits? text = some word ↔ IsBits text word := by
  have digits : text.all (fun c => c == '0' || c == '1') = true ↔ ∀ c ∈ text, c = '0' ∨ c = '1' := by
    simp
  constructor
  · intro read
    obtain ⟨length, n, value, rfl⟩ :
        text.length = 16 ∧ ∃ n, Text.binary? text = some n ∧ UInt16.ofNat n = word := by
      simpa [bits?] using read
    obtain ⟨binary, rfl⟩ : (∀ c ∈ text, c = '0' ∨ c = '1') ∧ Nat.ofDigitChars 2 text 0 = n := by
      simpa [Text.binary?] using value
    have small := Text.ofDigitChars_two_lt binary 0
    rw [length] at small
    exact ⟨length, binary, (UInt16.toNat_ofNat_of_lt small).symm⟩
  · intro bits
    rw [bits?, if_pos bits.length, Text.binary?, if_pos (digits.2 bits.binary), bits.value]
    simp

theorem bits?_eq_none_iff : bits? text = none ↔ ∀ word, ¬IsBits text word := by
  simp only [Option.eq_none_iff_forall_ne_some, ne_eq, bits?_eq_some_iff]

theorem exists_columns (colon : ':' ∈ raw) : ∃ before after, Columns raw before after := by
  have cut := Text.cutAt?_of_mem colon
  exact ⟨_, _, Text.eq_of_cutAt? cut, Text.not_mem_of_cutAt? cut⟩

theorem Columns.cut (columns : Columns raw before after) :
    Text.cutAt? ':' (Text.trim raw) = some (Text.trimStart before, Text.trimEnd after) := by
  obtain ⟨rfl, first⟩ := columns
  exact Text.cutAt?_trim_append (by decide) first after

theorem uncut (absent : ':' ∉ raw) : Text.cutAt? ':' (Text.trim raw) = none :=
  Text.cutAt?_of_not_mem fun member => absent ((Text.mem_trim (by decide)).1 member)

theorem readRow_of_spells (spells : Spells index raw word) (small : index < Text.counterBound) :
    readRow index (Text.trim raw) = .ok word := by
  obtain ⟨before, after, columns, numeral, bits⟩ := spells
  simp only [readRow, columns.cut, Text.trim_trimStart, Text.trim_trimEnd,
    counter?_eq_some_iff.2 ⟨numeral, small⟩, if_true, bits?_eq_some_iff.2 bits]

theorem readRow_of_fails {error : RowError} (fails : Fails index raw error) :
    readRow index (Text.trim raw) = .error error := by
  cases fails with
  | noColon absent => simp only [readRow, uncut absent]
  | badIndex columns unread =>
    simp only [readRow, columns.cut, Text.trim_trimStart, counter?_eq_none_iff.2 unread]
  | wrongIndex columns numeral small other =>
    simp only [readRow, columns.cut, Text.trim_trimStart, counter?_eq_some_iff.2 ⟨numeral, small⟩,
      if_neg other]
  | badDigits columns numeral small unread =>
    simp only [readRow, columns.cut, Text.trim_trimStart, Text.trim_trimEnd,
      counter?_eq_some_iff.2 ⟨numeral, small⟩, if_true, bits?_eq_none_iff.2 unread]

theorem spells_iff (first : ':' ∉ before) :
    Spells index (before ++ ':' :: after) word ↔
      IsNumeral (Text.trim before) index ∧ IsBits (Text.trim after) word := by
  constructor
  · rintro ⟨left, right, ⟨whole, early⟩, numeral, bits⟩
    have cut := Text.cutAt?_append first after
    rw [whole, Text.cutAt?_append early] at cut
    cases cut
    exact ⟨numeral, bits⟩
  · rintro ⟨numeral, bits⟩
    exact ⟨before, after, ⟨rfl, first⟩, numeral, bits⟩

theorem not_spells (absent : ':' ∉ raw) : ¬Spells index raw word := by
  rintro ⟨left, right, ⟨rfl, -⟩, -⟩
  simp at absent

theorem isRow_eq (raw : List Char) : isRow raw = (raw.find? (!Text.isBlank ·)).any (· != '#') := by
  rw [isRow, isSkipped, ← Text.head?_trim]
  cases Text.trim raw with
  | nil => rfl
  | cons c rest => simp [bne, beq_eq_decide]

theorem isRow_of_spells (spells : Spells index raw word) : isRow raw = true := by
  obtain ⟨before, after, ⟨rfl, -⟩, ⟨digits, shape, nonempty, digit, -⟩, -⟩ := spells
  obtain ⟨d, rest, rfl⟩ := List.exists_cons_of_ne_nil nonempty
  have start : before.find? (!Text.isBlank ·) = some d ∨ before.find? (!Text.isBlank ·) = some '+' := by
    rw [← Text.head?_trim]
    rcases shape with plain | signed
    · exact .inl (by rw [plain]; rfl)
    · exact .inr (by rw [signed]; rfl)
  have other : d ≠ '#' := by
    rintro rfl
    exact absurd (digit '#' List.mem_cons_self) (by decide)
  rw [isRow_eq, List.find?_append]
  rcases start with plain | signed
  · simpa [plain] using other
  · simp [signed]

theorem spells_or_fails (index : Nat) (raw : List Char) :
    (∃ word, Spells index raw word ∧ index < Text.counterBound) ∨ ∃ error, Fails index raw error := by
  by_cases colon : ':' ∈ raw
  · obtain ⟨before, after, columns⟩ := exists_columns colon
    cases counted : Text.counter? (Text.trim before) with
    | none => exact .inr ⟨_, .badIndex columns (counter?_eq_none_iff.1 counted)⟩
    | some found =>
      obtain ⟨numeral, small⟩ := counter?_eq_some_iff.1 counted
      by_cases due : found = index
      · subst due
        cases read : bits? (Text.trim after) with
        | none => exact .inr ⟨_, .badDigits columns numeral small (bits?_eq_none_iff.1 read)⟩
        | some word =>
          exact .inl ⟨word, ⟨before, after, columns, numeral, bits?_eq_some_iff.1 read⟩, small⟩
      · exact .inr ⟨_, .wrongIndex columns numeral small due⟩
  · exact .inr ⟨_, .noColon colon⟩

end

section

variable {first : Nat} {raw : List Char} {raws : List (List Char)} {words : List UInt16}

theorem legible_congr {others : List (List Char)} (rows : raws.filter isRow = others.filter isRow) :
    Legible first raws words ↔ Legible first others words := by
  constructor
  · rintro ⟨spelled, few⟩
    exact ⟨rows ▸ spelled, few⟩
  · rintro ⟨spelled, few⟩
    exact ⟨rows ▸ spelled, few⟩

theorem legible_note (note : isRow raw = false) :
    Legible first (raw :: raws) words ↔ Legible first raws words :=
  legible_congr (List.filter_cons_of_neg (by simp [note]))

theorem legible_row (row : isRow raw = true) :
    Legible first (raw :: raws) words ↔
      ∃ word others, words = word :: others ∧ Spells first raw word ∧ first < Text.counterBound ∧
        Legible (first + 1) raws others := by
  have rows : ((raw :: raws).filter isRow).zipIdx first =
      (raw, first) :: (raws.filter isRow).zipIdx (first + 1) := by
    rw [List.filter_cons_of_pos row, List.zipIdx_cons]
  constructor
  · rintro ⟨spelled, few⟩
    rw [rows] at spelled
    obtain ⟨word, others, spells, rest, rfl⟩ := List.forall₂_cons_left_iff.1 spelled
    rw [List.length_cons] at few
    exact ⟨word, others, rfl, spells, by omega, rest, by omega⟩
  · rintro ⟨word, others, rfl, spells, -, rest⟩
    have few := rest.few
    refine ⟨?_, by rw [List.length_cons]; omega⟩
    rw [rows]
    exact .cons spells rest.spelled

theorem legible_or_firstBad (raws : List (List Char)) {first : Nat} (room : first ≤ Text.counterBound) :
    (∃ words, Legible first raws words) ∨ ∃ number error, FirstBad first raws number error := by
  induction raws generalizing first with
  | nil => exact .inl ⟨[], .nil, room⟩
  | cons raw raws ih =>
    cases row : isRow raw with
    | false =>
      obtain ⟨words, legible⟩ | ⟨_, error, before, bad, after, words, rfl, -, legible, fault⟩ := ih room
      · exact .inl ⟨words, (legible_note row).2 legible⟩
      · exact .inr ⟨_, error, raw :: before, bad, after, words, rfl, rfl, (legible_note row).2 legible,
          fault⟩
    | true =>
      obtain ⟨word, spells, small⟩ | ⟨error, fails⟩ := spells_or_fails first raw
      · obtain ⟨words, legible⟩ | ⟨_, error, before, bad, after, words, rfl, -, legible, isBad, fails⟩ :=
          ih (Nat.succ_le_of_lt small)
        · exact .inl ⟨word :: words, (legible_row row).2 ⟨word, words, rfl, spells, small, legible⟩⟩
        · refine .inr ⟨_, error, raw :: before, bad, after, word :: words, rfl, rfl,
            (legible_row row).2 ⟨word, words, rfl, spells, small, legible⟩, isBad, ?_⟩
          rwa [List.length_cons, ← Nat.add_assoc, Nat.add_right_comm]
      · exact .inr ⟨0, error, [], raw, raws, [], rfl, rfl, ⟨.nil, room⟩, row, fails⟩

theorem readLines_legible (legible : Legible first raws words) (number : Nat) (done : List UInt16)
    (rest : List (List Char × Nat)) :
    readLines first done (raws.zipIdx number ++ rest) =
      readLines (first + words.length) (words.reverse ++ done) rest := by
  induction raws generalizing first words number done with
  | nil =>
    obtain rfl : words = [] := List.forall₂_nil_left_iff.1 legible.spelled
    rfl
  | cons raw raws ih =>
    rw [List.zipIdx_cons, List.cons_append, readLines]
    cases row : isRow raw with
    | false =>
      have skipped : isSkipped (Text.trim raw) = true := by simpa [isRow] using row
      simp only [skipped, if_true]
      exact ih ((legible_note row).1 legible) (number + 1) done
    | true =>
      have kept : isSkipped (Text.trim raw) = false := by simpa [isRow] using row
      obtain ⟨word, others, rfl, spells, small, below⟩ := (legible_row row).1 legible
      simp only [kept, Bool.false_eq_true, if_false, readRow_of_spells spells small]
      rw [ih below (number + 1) (word :: done), List.length_cons, List.reverse_cons, List.append_assoc,
        Nat.add_right_comm, Nat.add_assoc]
      rfl

theorem read_of_legible {text : List Char} (legible : Legible 0 (Text.lines text) words) :
    read text = .ok words := by
  have all := readLines_legible legible 1 [] []
  rw [List.append_nil, List.append_nil] at all
  rw [read, all, readLines, List.reverse_reverse]

theorem read_of_firstBad {text : List Char} {number : Nat} {error : RowError}
    (bad : FirstBad 0 (Text.lines text) number error) : read text = .error (.badRow (number + 1) error) := by
  obtain ⟨before, raw, after, words, lines, rfl, legible, row, fails⟩ := bad
  have kept : isSkipped (Text.trim raw) = false := by simpa [isRow] using row
  rw [read, lines, List.zipIdx_append, readLines_legible legible, List.zipIdx_cons, readLines]
  simp only [kept, Bool.false_eq_true, if_false, readRow_of_fails fails, Nat.add_comm 1]

theorem read_eq_ok_iff {text : List Char} : read text = .ok words ↔ Legible 0 (Text.lines text) words := by
  constructor
  · intro taken
    obtain ⟨others, legible⟩ | ⟨number, error, bad⟩ :=
      legible_or_firstBad (Text.lines text) (Nat.zero_le Text.counterBound)
    · rw [read_of_legible legible] at taken
      cases taken
      exact legible
    · rw [read_of_firstBad bad] at taken
      cases taken
  · exact read_of_legible

theorem read_eq_error_iff {text : List Char} {refusal : Error} :
    read text = .error refusal ↔
      ∃ number error, FirstBad 0 (Text.lines text) number error ∧ refusal = .badRow (number + 1) error := by
  constructor
  · intro refused
    obtain ⟨words, legible⟩ | ⟨number, error, bad⟩ :=
      legible_or_firstBad (Text.lines text) (Nat.zero_le Text.counterBound)
    · rw [read_of_legible legible] at refused
      cases refused
    · rw [read_of_firstBad bad] at refused
      cases refused
      exact ⟨number, error, bad, rfl⟩
  · rintro ⟨number, error, bad, rfl⟩
    exact read_of_firstBad bad

end

/-- A text is read as words just when its lines are legible as them, and it is refused just when it has a first
bad line: with the number of that line, counted from one, and with the first check that fails on it. -/
theorem read_grammar (text : List Char) :
    (∀ words, read text = .ok words ↔ Legible 0 (Text.lines text) words) ∧
      ∀ refusal, read text = .error refusal ↔
        ∃ number error, FirstBad 0 (Text.lines text) number error ∧
          refusal = .badRow (number + 1) error :=
  ⟨fun _ => read_eq_ok_iff, fun _ => read_eq_error_iff⟩

example : read "# two\n\n+0: 0000000000000001\n 0002 : 1".toList = .error (.badRow 4 (.wrongIndex 1 2)) := by
  decide +kernel

end Image.BitDump

end Harvard16
