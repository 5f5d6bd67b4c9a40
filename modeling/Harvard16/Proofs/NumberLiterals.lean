import Harvard16.Proofs.LabelTargets
import Harvard16.Proofs.LetterCase

/-! The grammar of number literals. A literal is a magnitude behind at most one minus sign, and a magnitude is a
numeral of base ten, or `0x` and a numeral of base sixteen. Numerals are of any length, and so are the values
that the grammar gives them. Main statement: a text is read as a number just when it is a literal whose
magnitude has at most 31 bits, and then as the value of that literal, which a 32-bit word holds with either
sign; and no literal, of whatever magnitude, is the name of a label. -/
namespace Harvard16

namespace Text

/-- The digits of a base up to sixteen, from `0` to `9` and on from `a`, letters in either case. -/
structure IsDigit (base : Nat) (c : Char) (d : Nat) : Prop where
  small : d < base
  spelled : c.toLower = Nat.digitChar d

/-- One or more digits of a base, and their value by place. -/
inductive Numeral (base : Nat) : List Char → Nat → Prop
  | digit {c : Char} {d : Nat} (last : IsDigit base c d) : Numeral base [c] d
  | digits {cs : List Char} {c : Char} {n d : Nat} (front : Numeral base cs n) (last : IsDigit base c d) :
      Numeral base (cs ++ [c]) (base * n + d)

theorem isDigit_ten {c : Char} {d : Nat} :
    IsDigit 10 c d ↔ c.isDigit = true ∧ c.toNat - '0'.toNat = d := by
  constructor
  · rintro ⟨small, spelled⟩
    have all : ∀ d < 10, (Nat.digitChar d).isDigit = true ∧ (Nat.digitChar d).toNat - '0'.toNat = d := by
      decide
    obtain ⟨digit, value⟩ := all d small
    have numeric : c.isDigit = true := by rw [← isDigit_toLower, spelled, digit]
    rw [toLower_of_isDigit numeric] at spelled
    exact ⟨numeric, by rw [spelled, value]⟩
  · rintro ⟨digit, rfl⟩
    have all : ∀ n < 58, 48 ≤ n → n - 48 < 10 ∧ Char.ofNat n = Nat.digitChar (n - 48) := by decide
    obtain ⟨low, high⟩ : 48 ≤ c.toNat ∧ c.toNat ≤ 57 := by
      simpa [Char.isDigit, UInt32.le_iff_toNat_le] using digit
    obtain ⟨small, spelled⟩ := all c.toNat (by omega) low
    rw [Char.ofNat_toNat] at spelled
    exact ⟨small, (toLower_of_isDigit digit).trans spelled⟩

theorem toNat_lt_of_hexDigit? {c : Char} {d : Nat} (read : hexDigit? c = some d) : c.toNat < 128 := by
  unfold hexDigit? at read
  simp only [Char.le_def, UInt32.le_iff_toNat_le] at read
  split at read
  · rename_i decimal
    exact Nat.lt_of_le_of_lt decimal.2 (by decide)
  · split at read
    · rename_i small
      exact Nat.lt_of_le_of_lt small.2 (by decide)
    · split at read
      · rename_i capital
        exact Nat.lt_of_le_of_lt capital.2 (by decide)
      · cases read

theorem isDigit_sixteen {c : Char} {d : Nat} : IsDigit 16 c d ↔ hexDigit? c = some d := by
  constructor
  · rintro ⟨small, spelled⟩
    rw [← hexDigit?_toLower, spelled, hexDigit?_digitChar small]
  · intro read
    have all : ∀ n < 128, ∀ d ∈ hexDigit? (Char.ofNat n),
        d < 16 ∧ (Char.ofNat n).toLower = Nat.digitChar d := by decide
    have ascii := all c.toNat (toNat_lt_of_hexDigit? read) d
    rw [Char.ofNat_toNat] at ascii
    obtain ⟨small, spelled⟩ := ascii read
    exact ⟨small, spelled⟩

theorem Numeral.exists_digit {base n : Nat} {cs : List Char} (numeral : Numeral base cs n) :
    ∀ c ∈ cs, ∃ d, IsDigit base c d := by
  induction numeral with
  | digit last => simpa using ⟨_, last⟩
  | digits _ last ih => exact List.forall_mem_append.2 ⟨ih, by simpa using ⟨_, last⟩⟩

theorem numeral_iff {base : Nat} {valid : Char → Bool} {value : Char → Nat}
    (reads : ∀ {c d}, IsDigit base c d ↔ valid c = true ∧ value c = d) {cs : List Char} {n : Nat} :
    Numeral base cs n ↔
      cs ≠ [] ∧ (∀ c ∈ cs, valid c = true) ∧ cs.foldl (fun n c => base * n + value c) 0 = n := by
  constructor
  · intro numeral
    induction numeral with
    | digit last =>
      obtain ⟨valid, rfl⟩ := reads.1 last
      simp [valid]
    | digits front last ih =>
      obtain ⟨-, all, rfl⟩ := ih
      obtain ⟨valid, rfl⟩ := reads.1 last
      refine ⟨by simp, List.forall_mem_append.2 ⟨all, by simpa using valid⟩, ?_⟩
      rw [List.foldl_append]
      rfl
  · rintro ⟨nonempty, all, rfl⟩
    induction cs using List.reverseRecOn with
    | nil => exact absurd rfl nonempty
    | append_singleton cs c ih =>
      obtain ⟨front, last⟩ := List.forall_mem_append.1 all
      have digit : IsDigit base c (value c) := reads.2 ⟨last c List.mem_cons_self, rfl⟩
      rw [List.foldl_append]
      by_cases alone : cs = []
      · rw [alone]
        simpa using Numeral.digit digit
      · exact .digits (ih alone front) digit

theorem numeral_ten {cs : List Char} {n : Nat} :
    Numeral 10 cs n ↔ cs ≠ [] ∧ (∀ c ∈ cs, c.isDigit = true) ∧ Nat.ofDigitChars 10 cs 0 = n :=
  numeral_iff isDigit_ten

theorem numeral_sixteen {cs : List Char} {n : Nat} :
    Numeral 16 cs n ↔
      cs ≠ [] ∧ (∀ c ∈ cs, (hexDigit? c).isSome = true) ∧
        cs.foldl (fun n c => 16 * n + (hexDigit? c).getD 0) 0 = n := by
  apply numeral_iff
  intro c d
  rw [isDigit_sixteen]
  cases hexDigit? c <;> simp

theorem decimal?_eq_some_iff_numeral {bound n : Nat} {cs : List Char} :
    decimal? bound cs = some n ↔ Numeral 10 cs n ∧ n < bound := by
  rw [decimal?_eq_some_iff, numeral_ten]

theorem hexadecimal?_eq_some_iff_numeral {bound n : Nat} {cs : List Char} :
    hexadecimal? bound cs = some n ↔ Numeral 16 cs n ∧ n < bound := by
  rw [hexadecimal?_eq, numeral_sixteen, below?]
  grind

end Text

namespace Assembly

inductive Magnitude : List Char → Nat → Prop
  | decimal {digits : List Char} {n : Nat} (numeral : Text.Numeral 10 digits n) : Magnitude digits n
  | hexadecimal {mark : Char} {digits : List Char} {n : Nat} (marked : mark = 'x' ∨ mark = 'X')
      (numeral : Text.Numeral 16 digits n) : Magnitude ('0' :: mark :: digits) n

/-- A magnitude, or the negative of one behind a minus sign. -/
inductive Literal : List Char → Int → Prop
  | positive {digits : List Char} {n : Nat} (magnitude : Magnitude digits n) : Literal digits n
  | negative {digits : List Char} {n : Nat} (magnitude : Magnitude digits n) : Literal ('-' :: digits) (-n)

section

variable {text : List Char}

theorem not_numeral_ten {mark : Char} (marked : mark = 'x' ∨ mark = 'X') (digits : List Char) (n : Nat) :
    ¬Text.Numeral 10 ('0' :: mark :: digits) n := by
  intro numeral
  obtain ⟨-, all, -⟩ := Text.numeral_ten.1 numeral
  have digit : mark.isDigit = true := all mark (by simp)
  rcases marked with rfl | rfl <;> cases digit

theorem magnitude_marked_iff {mark : Char} (marked : mark = 'x' ∨ mark = 'X') {digits : List Char} {n : Nat} :
    Magnitude ('0' :: mark :: digits) n ↔ Text.Numeral 16 digits n := by
  constructor
  · intro magnitude
    cases magnitude with
    | decimal numeral => exact absurd numeral (not_numeral_ten marked digits n)
    | hexadecimal _ numeral => exact numeral
  · exact .hexadecimal marked

theorem magnitude?_eq_some_iff {n : Nat} :
    magnitude? text = some n ↔ Magnitude text n ∧ n < magnitudeBound := by
  unfold magnitude?
  split
  · rw [Text.hexadecimal?_eq_some_iff_numeral, magnitude_marked_iff (.inl rfl)]
  · rw [Text.hexadecimal?_eq_some_iff_numeral, magnitude_marked_iff (.inr rfl)]
  · rename_i small capital
    rw [Text.decimal?_eq_some_iff_numeral]
    refine and_congr_left fun _ => ⟨.decimal, fun magnitude => ?_⟩
    cases magnitude with
    | decimal numeral => exact numeral
    | hexadecimal marked numeral =>
      rcases marked with rfl | rfl
      · exact absurd rfl (small _)
      · exact absurd rfl (capital _)

theorem Magnitude.looksNumeric {n : Nat} (magnitude : Magnitude text n) : looksNumeric text = true := by
  cases magnitude with
  | decimal numeral =>
    obtain ⟨nonempty, all, -⟩ := Text.numeral_ten.1 numeral
    obtain ⟨first, rest, rfl⟩ := List.exists_cons_of_ne_nil nonempty
    have digit : first.isDigit = true := all first List.mem_cons_self
    have unsigned : first ≠ '-' := by
      rintro rfl
      cases digit
    simp [Assembly.looksNumeric, unsigned, digit]
  | hexadecimal => rfl

theorem Literal.looksNumeric {value : Int} (literal : Literal text value) : looksNumeric text = true := by
  cases literal with
  | positive magnitude => exact magnitude.looksNumeric
  | negative magnitude => simpa [Assembly.looksNumeric] using magnitude.looksNumeric

theorem Magnitude.head_ne {n : Nat} (magnitude : Magnitude text n) : text.head? ≠ some '-' := by
  cases magnitude with
  | decimal numeral =>
    obtain ⟨-, all, -⟩ := Text.numeral_ten.1 numeral
    intro signed
    cases all '-' (List.mem_of_mem_head? signed)
  | hexadecimal => simp

theorem number?_negative {digits : List Char} :
    number? ('-' :: digits) = (magnitude? digits).map fun n : Nat => -(n : Int) := by
  rw [number?_eq, List.head?_cons, if_pos rfl, List.tail_cons]
  cases magnitude? digits <;> rfl

theorem number?_unsigned (unsigned : text.head? ≠ some '-') :
    number? text = (magnitude? text).map fun n : Nat => (n : Int) := by
  rw [number?_eq, if_neg unsigned]
  cases magnitude? text <;> rfl

theorem number?_eq_some_iff {value : Int} :
    number? text = some value ↔ Literal text value ∧ value.natAbs < magnitudeBound := by
  constructor
  · intro read
    by_cases signed : text.head? = some '-'
    · obtain ⟨digits, rfl⟩ := List.head?_eq_some_iff.1 signed
      rw [number?_negative, Option.map_eq_some_iff] at read
      obtain ⟨n, read, rfl⟩ := read
      obtain ⟨magnitude, small⟩ := magnitude?_eq_some_iff.1 read
      exact ⟨.negative magnitude, by simpa using small⟩
    · rw [number?_unsigned signed, Option.map_eq_some_iff] at read
      obtain ⟨n, read, rfl⟩ := read
      obtain ⟨magnitude, small⟩ := magnitude?_eq_some_iff.1 read
      exact ⟨.positive magnitude, by simpa using small⟩
  · rintro ⟨literal, small⟩
    cases literal with
    | positive magnitude =>
      have read := magnitude?_eq_some_iff.2 ⟨magnitude, by simpa using small⟩
      rw [number?_unsigned magnitude.head_ne, read, Option.map_some]
    | negative magnitude =>
      have read := magnitude?_eq_some_iff.2 ⟨magnitude, by simpa using small⟩
      rw [number?_negative, read, Option.map_some]

theorem Literal.isLabelName {value : Int} (literal : Literal text value) : isLabelName text = false := by
  by_contra named
  have words := looksNumeric_of_isLabelName (by simpa using named)
  rw [literal.looksNumeric] at words
  cases words

end

theorem toInt_neg_ofNat {n : Nat} (small : n < magnitudeBound) :
    (Int32.ofNat n).toInt = n ∧ (-Int32.ofNat n).toInt = -(n : Int) := by
  unfold magnitudeBound at small
  have held : (Int32.ofNat n).toInt = n := Int32.toInt_ofNat_of_lt small
  refine ⟨held, ?_⟩
  rw [Int32.toInt_neg, held]
  exact Int.bmod_eq_of_le (by omega) (by omega)

/-- A text is read as a number just when it is a literal with a magnitude of at most 31 bits. The 32-bit word of
that magnitude can be negated. No literal names a label, in any source. -/
theorem number_literals (text : List Char) :
    (∀ value, number? text = some value ↔ Literal text value ∧ value.natAbs ≤ 2 ^ 31 - 1) ∧
    (∀ value, number? text = some value →
      (Int32.ofNat value.natAbs).toInt = value.natAbs ∧
        (-Int32.ofNat value.natAbs).toInt = -(value.natAbs : Int)) ∧
    ∀ value, Literal text value → isLabelName text = false ∧
      ∀ source, (ofSource source).label? (String.ofList text) = none := by
  refine ⟨fun value => ?_, fun value read => ?_, fun value literal => ⟨literal.isLabelName, fun source => ?_⟩⟩
  · rw [number?_eq_some_iff]
    exact and_congr_right fun _ => Nat.lt_succ_iff
  · exact toInt_neg_ofNat (number?_eq_some_iff.1 read).2
  · rw [label?, Option.map_eq_none_iff, Option.eq_none_iff_forall_ne_some]
    intro label found
    have named := isLabelName_of_lookup? found
    rw [literal.isLabelName] at named
    cases named

def capitalLiteral : List Char := ['-', '0', 'X', '0', 'f', 'F']

theorem number_literals_capital :
    Literal capitalLiteral (-255) ∧ number? capitalLiteral = some (-255) ∧
      (-Int32.ofNat 255).toInt = -255 ∧
      (ofSource "beq t0, t0, -0X0fF").label? (String.ofList capitalLiteral) = none := by
  have digits : ['0', 'f', 'F'].all (fun c => (Text.hexDigit? c).isSome) = true := by decide
  have numeral : Text.Numeral 16 ['0', 'f', 'F'] 255 :=
    Text.numeral_sixteen.2 ⟨by decide, List.all_eq_true.1 digits, by decide⟩
  have literal : Literal capitalLiteral (-255) := .negative (.hexadecimal (.inr rfl) numeral)
  obtain ⟨reads, negates, names⟩ := number_literals capitalLiteral
  have read := (reads (-255)).2 ⟨literal, by decide⟩
  exact ⟨literal, read, (negates (-255) read).2, (names (-255) literal).2 _⟩

end Assembly

end Harvard16
