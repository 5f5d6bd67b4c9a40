import Harvard16.Image
import Harvard16.Proofs.DumpGrammar
import Harvard16.Proofs.Reassembly

/-! Images of programs. Both kinds of image give back the words that they were made of: the bytes of a
binary image by pairs, and the rows of a bit dump one by one, each with the index that is due. An index
may have any number of digits, so that the rows behind the ten thousandth are read like all others. Main
statement: binary images are in bijection with lists of words, and every even number of bytes is one. -/
namespace Harvard16.Image

theorem length_toBytes (words : List UInt16) : (toBytes words).length = 2 * words.length := by
  induction words with
  | nil => rfl
  | cons word words ih =>
    have first : (toBytes (word :: words)).length = 2 + (toBytes words).length := List.length_append
    rw [first, ih, List.length_cons]
    omega

theorem ofBytes_toBytes (words : List UInt16) : ofBytes (toBytes words) = .ok words := by
  have even : (toBytes words).length % 2 = 0 := by
    rw [length_toBytes]
    omega
  rw [ofBytes, if_pos even, pairs_toBytes]

/-- Words in bytes: each word takes two, of which the first counts once and the second 256 times. -/
structure Stores (bytes : List UInt8) (words : List UInt16) : Prop where
  length : bytes.length = 2 * words.length
  word : ∀ i (inside : i < words.length),
    words[i].toNat = bytes[2 * i].toNat + 256 * bytes[2 * i + 1].toNat

section

variable {low high : UInt8} {bytes : List UInt8} {word : UInt16} {words : List UInt16}

theorem stores_cons_iff :
    Stores (low :: high :: bytes) (word :: words) ↔
      word.toNat = low.toNat + 256 * high.toNat ∧ Stores bytes words := by
  constructor
  · rintro ⟨length, each⟩
    have rest : bytes.length = 2 * words.length := by
      simp only [List.length_cons] at length
      omega
    exact ⟨each 0 (by simp), rest, fun i inside => each (i + 1) (by simpa using inside)⟩
  · rintro ⟨first, length, each⟩
    refine ⟨by simp only [List.length_cons, length]; omega, fun i inside => ?_⟩
    cases i with
    | zero => exact first
    | succ i => exact each i (by simpa using inside)

theorem toNat_ofBytePair (low high : UInt8) :
    (ofBytePair low high).toNat = low.toNat + 256 * high.toNat := by
  have bounds := And.intro low.toNat_lt high.toNat_lt
  simp [ofBytePair]
  omega

theorem wordBytes_ofBytePair (low high : UInt8) : wordBytes (ofBytePair low high) = [low, high] := by
  have bounds := And.intro low.toNat_lt high.toNat_lt
  have first : (ofBytePair low high).toUInt8 = low := by
    apply UInt8.toNat_inj.1
    rw [UInt16.toNat_toUInt8, toNat_ofBytePair]
    omega
  have second : (ofBytePair low high / 256).toUInt8 = high := by
    apply UInt8.toNat_inj.1
    rw [UInt16.toNat_toUInt8, UInt16.toNat_div, toNat_ofBytePair]
    simp
    omega
  rw [wordBytes, first, second]

theorem stores_pairs : (bytes : List UInt8) → bytes.length % 2 = 0 → Stores bytes (pairs bytes)
  | [], _ => ⟨rfl, nofun⟩
  | [_], odd => by cases odd
  | low :: high :: bytes, even => by
    have rest : bytes.length % 2 = 0 := by
      simp only [List.length_cons] at even
      omega
    rw [pairs_cons, stores_cons_iff]
    exact ⟨toNat_ofBytePair low high, stores_pairs bytes rest⟩

theorem Stores.toBytes_eq : {bytes : List UInt8} → {words : List UInt16} → Stores bytes words →
    toBytes words = bytes
  | [], [], _ => rfl
  | low :: high :: bytes, word :: words, stores => by
    obtain ⟨first, rest⟩ := stores_cons_iff.1 stores
    have same : word = ofBytePair low high :=
      UInt16.toNat_inj.1 (first.trans (toNat_ofBytePair low high).symm)
    have front : toBytes (word :: words) = wordBytes word ++ toBytes words := List.flatMap_cons
    rw [front, same, wordBytes_ofBytePair, rest.toBytes_eq]
    rfl
  | [], _ :: _, stores | [_], _, stores | _ :: _ :: _, [], stores => by
    have length := stores.length
    simp only [List.length_cons, List.length_nil] at length
    omega

theorem ofBytes_eq_ok_iff : ofBytes bytes = .ok words ↔ Stores bytes words := by
  constructor
  · intro read
    unfold ofBytes at read
    split at read
    · rename_i even
      cases read
      exact stores_pairs bytes even
    · cases read
  · intro stores
    rw [← stores.toBytes_eq]
    exact ofBytes_toBytes words

theorem stores_toBytes (words : List UInt16) : Stores (toBytes words) words :=
  ofBytes_eq_ok_iff.1 (ofBytes_toBytes words)

theorem ofBytes_of_even (even : bytes.length % 2 = 0) : ofBytes bytes = .ok (pairs bytes) := if_pos even

theorem ofBytes_of_odd (odd : bytes.length % 2 = 1) :
    ofBytes bytes = .error (.oddLength bytes.length) := if_neg (by omega)

end

/-- Words and the bytes of even length are each other's images, with the low byte of a word first. The length
is all that bytes can be refused for. -/
theorem ofBytes_bijective (words : List UInt16) (bytes : List UInt8) :
    ofBytes (toBytes words) = .ok words ∧ (toBytes words).length = 2 * words.length ∧
      (ofBytes bytes = .ok words ↔ toBytes words = bytes) ∧
      (ofBytes bytes = .ok words ↔ Stores bytes words) ∧
      ((∃ read, ofBytes bytes = .ok read) ↔ bytes.length % 2 = 0) ∧
      (ofBytes bytes = .error (.oddLength bytes.length) ↔ bytes.length % 2 = 1) := by
  have inverse : ofBytes bytes = .ok words ↔ toBytes words = bytes := by
    rw [ofBytes_eq_ok_iff]
    exact ⟨Stores.toBytes_eq, fun same => same ▸ stores_toBytes words⟩
  have accepted : (∃ read, ofBytes bytes = .ok read) ↔ bytes.length % 2 = 0 := by
    constructor
    · rintro ⟨read, taken⟩
      have length := (ofBytes_eq_ok_iff.1 taken).length
      omega
    · exact fun even => ⟨_, ofBytes_of_even even⟩
  have refused : ofBytes bytes = .error (.oddLength bytes.length) ↔ bytes.length % 2 = 1 := by
    constructor
    · intro refusal
      rcases Nat.mod_two_eq_zero_or_one bytes.length with even | odd
      · rw [ofBytes_of_even even] at refusal
        cases refusal
      · exact odd
    · exact ofBytes_of_odd
  exact ⟨ofBytes_toBytes words, length_toBytes words, inverse, ofBytes_eq_ok_iff, accepted, refused⟩

namespace BitDump

def padded (base width n : Nat) : List Char := (Nat.toDigits base n).leftpad width '0'

theorem ofDigitChars_padded {base : Nat} (bounds : 1 < base ∧ base ≤ 10) (width n : Nat) :
    Nat.ofDigitChars base (padded base width n) 0 = n := by
  rw [padded, List.leftpad, Nat.ofDigitChars_append, Nat.ofDigitChars_replicate_zero, Nat.mul_zero,
    Nat.ofDigitChars_toDigits bounds.1 bounds.2]

theorem mem_padded {base width n : Nat} (several : 1 < base) {c : Char}
    (member : c ∈ padded base width n) : ∃ d < base, c = Nat.digitChar d := by
  rcases List.mem_append.1 member with pad | digit
  · exact ⟨0, by omega, List.eq_of_mem_replicate pad⟩
  · exact Assembly.mem_toDigits several digit

theorem padded_ne_nil (base width n : Nat) : padded base width n ≠ [] := by
  simp [padded, List.leftpad]

theorem isDigit_padded {width n : Nat} {c : Char} (member : c ∈ padded 10 width n) : c.isDigit = true := by
  have all : ∀ d < 10, (Nat.digitChar d).isDigit = true := by decide
  obtain ⟨d, small, rfl⟩ := mem_padded (by decide) member
  exact all d small

theorem isNumeral_padded (width n : Nat) : IsNumeral (padded 10 width n) n :=
  ⟨_, .inl rfl, padded_ne_nil 10 width n, fun _ => isDigit_padded, ofDigitChars_padded (by decide) width n⟩

theorem length_padded {n : Nat} (small : n < 65536) : (padded 2 16 n).length = 16 := by
  have short := (Nat.length_toDigits_le_iff (by decide) (by decide)).2 (show n < 2 ^ 16 from small)
  rw [padded, List.length_leftpad]
  omega

theorem isBits_padded (word : UInt16) : IsBits (padded 2 16 word.toNat) word where
  length := length_padded word.toNat_lt
  binary c member := by
    have all : ∀ d < 2, Nat.digitChar d = '0' ∨ Nat.digitChar d = '1' := by decide
    obtain ⟨d, small, rfl⟩ := mem_padded (by decide) member
    exact all d small
  value := ofDigitChars_padded (by decide) 16 word.toNat

theorem isBlank_padded {base width n : Nat} (bounds : 1 < base ∧ base ≤ 16) {c : Char}
    (member : c ∈ padded base width n) : Text.isBlank c = false := by
  have all : ∀ d < 16, Text.isBlank (Nat.digitChar d) = false := by decide
  obtain ⟨d, small, rfl⟩ := mem_padded bounds.1 member
  exact all d (by omega)

theorem trim_padded {base : Nat} (bounds : 1 < base ∧ base ≤ 16) (width n : Nat) :
    Text.trim (padded base width n) = padded base width n :=
  Text.trim_eq_self (fun _ first => isBlank_padded bounds (List.mem_of_mem_head? first))
    fun _ last => isBlank_padded bounds (List.mem_of_mem_getLast? last)

def rowText (index : Nat) (word : UInt16) : List Char :=
  padded 10 4 index ++ ':' :: ' ' :: padded 2 16 word.toNat

theorem toList_row (index : Nat) (word : UInt16) : (row index word).toList = rowText index word := by
  simp [row, rowText, Text.binary, padded]

theorem spells_rowText (index : Nat) (word : UInt16) : Spells index (rowText index word) word := by
  have colon : ':' ∉ padded 10 4 index := fun member => absurd (isDigit_padded member) (by decide)
  have bits : Text.trim (' ' :: padded 2 16 word.toNat) = padded 2 16 word.toNat :=
    trim_padded (by decide) 16 word.toNat
  rw [rowText, spells_iff colon, trim_padded (by decide), bits]
  exact ⟨isNumeral_padded 4 index, isBits_padded word⟩

theorem newline_rowText (index : Nat) (word : UInt16) : '\n' ∉ rowText index word := by
  have absent {base width n : Nat} (bounds : 1 < base ∧ base ≤ 16) : '\n' ∉ padded base width n :=
    fun member => absurd (isBlank_padded bounds member) (by decide)
  simp [rowText, absent]

def rows (count : Nat) (words : List UInt16) : List (List Char) :=
  (words.zipIdx count).map fun pair => rowText pair.2 pair.1

theorem legible_rows (words : List UInt16) {count : Nat}
    (few : count + words.length ≤ Text.counterBound) : Legible count (rows count words ++ [[]]) words := by
  induction words generalizing count with
  | nil => exact (legible_note rfl).2 ⟨.nil, few⟩
  | cons word words ih =>
    rw [List.length_cons] at few
    have spells := spells_rowText count word
    exact (legible_row (isRow_of_spells spells)).2 ⟨word, words, rfl, spells, by omega, ih (by omega)⟩

theorem lines_text (words : List UInt16) : Text.lines (text words).toList = rows 0 words ++ [[]] := by
  have shape : (text words).toList = (rows 0 words).flatMap (· ++ ['\n']) := by
    simp [text, rows, String.toList_join, List.flatMap_map, toList_row]
  rw [shape, Text.lines_flatMap]
  intro l member
  obtain ⟨pair, -, rfl⟩ := List.mem_map.1 member
  exact newline_rowText pair.2 pair.1

theorem legible_text {words : List UInt16} (few : words.length ≤ Text.counterBound) :
    Legible 0 (Text.lines (text words).toList) words := by
  have inside : 0 + words.length ≤ Text.counterBound := by omega
  rw [lines_text]
  exact legible_rows words inside

theorem read_text {words : List UInt16} (few : words.length ≤ Text.counterBound) :
    read (text words).toList = .ok words :=
  read_of_legible (legible_text few)

end BitDump

end Harvard16.Image
