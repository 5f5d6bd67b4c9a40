import Harvard16.Proofs.Images
import Harvard16.Proofs.Layout
import Mathlib.Logic.Relation

/-! The layout of a bit dump. Blank lines and comments may stand between its rows, blanks at the ends of its
lines and at those of its columns, and its lines may have the longer of the two common endings. What a row
spells does not depend on any of these, nor does which lines are rows. Main statement: the dump of some words is
read as those words however often it has been decorated in these ways. -/
namespace Harvard16.Image.BitDump

inductive IsNote : List Char → Prop
  | blank {raw : List Char} (blank : ∀ c ∈ raw, Text.isBlank c = true) : IsNote raw
  | comment {indent : List Char} (blank : ∀ c ∈ indent, Text.isBlank c = true) (comment : List Char) :
      IsNote (indent ++ '#' :: comment)

/-- How a line can be spaced: by other blanks at its ends, or at both sides of its first colon. -/
inductive Spacing : List Char → List Char → Prop
  | ends {before after ahead behind : List Char}
      (blank : ∀ c ∈ before ++ after ++ ahead ++ behind, Text.isBlank c = true) (core : List Char) :
      Spacing (before ++ core ++ after) (ahead ++ core ++ behind)
  | columns {index before after ahead behind : List Char} (first : ':' ∉ index)
      (blank : ∀ c ∈ before ++ after ++ ahead ++ behind, Text.isBlank c = true) (bits : List Char) :
      Spacing (index ++ before ++ ':' :: (after ++ bits)) (index ++ ahead ++ ':' :: (behind ++ bits))

/-- A text and what one decoration makes of it: notes are inserted, one line is spaced, or all lines get the
longer ending. -/
inductive Decoration (text edited : List Char) : Prop
  | insert {above added below : List (List Char)} (lines : Text.lines text = above ++ below)
      (more : Text.lines edited = above ++ (added ++ below)) (notes : ∀ raw ∈ added, IsNote raw)
  | space {above below : List (List Char)} {raw other : List Char}
      (lines : Text.lines text = above ++ raw :: below)
      (changed : Text.lines edited = above ++ other :: below) (spacing : Spacing raw other)
  | returns (whole : edited = Text.withReturns text)

structure SameRow (raw other : List Char) : Prop where
  isRow : isRow other = isRow raw
  spells : ∀ index word, Spells index other word ↔ Spells index raw word

section

variable {raw other : List Char} {raws others : List (List Char)} {words : List UInt16}

theorem SameRow.refl (raw : List Char) : SameRow raw raw := ⟨rfl, fun _ _ => Iff.rfl⟩

theorem SameRow.symm (same : SameRow raw other) : SameRow other raw :=
  ⟨same.isRow.symm, fun index word => (same.spells index word).symm⟩

theorem SameRow.trans {third : List Char} (same : SameRow raw other) (next : SameRow other third) :
    SameRow raw third :=
  ⟨next.isRow.trans same.isRow, fun index word => (next.spells index word).trans (same.spells index word)⟩

theorem isRow_of_isNote (note : IsNote raw) : isRow raw = false := by
  cases note with
  | blank blank => rw [isRow_eq, Text.find?_of_blank blank]; rfl
  | comment blank comment => rw [isRow_eq, List.find?_append, Text.find?_of_blank blank]; rfl

theorem colon_not_mem {blanks : List Char} (blank : ∀ c ∈ blanks, Text.isBlank c = true) : ':' ∉ blanks :=
  Assembly.not_mem_of_blank (by decide) blank

theorem sameRow_around {ahead behind : List Char} (start : ∀ c ∈ ahead, Text.isBlank c = true)
    (stop : ∀ c ∈ behind, Text.isBlank c = true) (core : List Char) :
    SameRow core (ahead ++ core ++ behind) := by
  have row : isRow (ahead ++ core ++ behind) = isRow core := by
    rw [isRow, isRow, Text.trim_around start stop]
  refine ⟨row, fun index word => ?_⟩
  have leading := colon_not_mem start
  have trailing := colon_not_mem stop
  by_cases cut : ':' ∈ core
  · obtain ⟨left, right, rfl, first⟩ := exists_columns cut
    have whole : ahead ++ (left ++ ':' :: right) ++ behind = ahead ++ left ++ ':' :: (right ++ behind) := by
      simp
    rw [whole, spells_iff first, spells_iff (by simp [leading, first]), Text.trim_blanks_append start,
      Text.trim_append_blanks stop]
  · exact iff_of_false (not_spells (by simp [leading, cut, trailing])) (not_spells cut)

theorem sameRow_colon {index ahead behind : List Char} (first : ':' ∉ index)
    (start : ∀ c ∈ ahead, Text.isBlank c = true) (stop : ∀ c ∈ behind, Text.isBlank c = true)
    (bits : List Char) :
    SameRow (index ++ ':' :: bits) (index ++ ahead ++ ':' :: (behind ++ bits)) := by
  have early : ':' ∉ index ++ ahead := by simp [first, colon_not_mem start]
  constructor
  · rw [isRow_eq, isRow_eq, List.append_assoc, List.find?_append, List.find?_append, List.find?_append,
      Text.find?_of_blank start]
    rfl
  · intro index word
    rw [spells_iff early, spells_iff first, Text.trim_append_blanks start, Text.trim_blanks_append stop]

theorem Spacing.sameRow (spacing : Spacing raw other) : SameRow raw other := by
  cases spacing with
  | ends blank core =>
    simp only [List.forall_mem_append] at blank
    obtain ⟨⟨⟨before, after⟩, ahead⟩, behind⟩ := blank
    exact (sameRow_around before after core).symm.trans (sameRow_around ahead behind core)
  | columns first blank bits =>
    simp only [List.forall_mem_append] at blank
    obtain ⟨⟨⟨before, after⟩, ahead⟩, behind⟩ := blank
    exact (sameRow_colon first before after bits).symm.trans (sameRow_colon first ahead behind bits)

theorem sameRows_refl (raws : List (List Char)) : List.Forall₂ SameRow raws raws :=
  List.forall₂_same.2 fun raw _ => .refl raw

theorem legible_of_sameRows (same : List.Forall₂ SameRow raws others) {first : Nat} :
    Legible first others words ↔ Legible first raws words := by
  induction same generalizing first words with
  | nil => exact Iff.rfl
  | @cons raw other raws others head _ ih =>
    cases row : isRow raw with
    | false => rw [legible_note row, legible_note (head.isRow.trans row), ih]
    | true =>
      rw [legible_row row, legible_row (head.isRow.trans row)]
      simp only [head.spells, ih]

theorem Decoration.legible_iff {text edited : List Char} (decoration : Decoration text edited) :
    Legible 0 (Text.lines edited) words ↔ Legible 0 (Text.lines text) words := by
  cases decoration with
  | @insert above added below lines more notes =>
    have skipped : added.filter isRow = [] :=
      List.filter_eq_nil_iff.2 fun raw member => by simp [isRow_of_isNote (notes raw member)]
    apply legible_congr
    rw [lines, more, List.filter_append, List.filter_append, List.filter_append, skipped, List.nil_append]
  | @space above below raw other lines changed spacing =>
    apply legible_of_sameRows
    rw [lines, changed]
    exact List.rel_append (sameRows_refl above) (.cons spacing.sameRow (sameRows_refl below))
  | returns whole =>
    apply legible_of_sameRows
    rw [whole]
    refine (Text.lines_withReturns text).imp ?_
    rintro raw other (rfl | rfl)
    · exact .refl _
    · have blank : ∀ c ∈ ['\r'], Text.isBlank c = true := List.forall_mem_singleton.2 (by decide)
      exact sameRow_around (List.forall_mem_nil _) blank raw

theorem legible_iff_of_decorated {text edited : List Char}
    (decorated : Relation.ReflTransGen Decoration text edited) :
    Legible 0 (Text.lines edited) words ↔ Legible 0 (Text.lines text) words := by
  induction decorated with
  | refl => exact Iff.rfl
  | tail _ decoration ih => exact decoration.legible_iff.trans ih

/-- The dump of words is read as those words, and so is what any number of decorations make of it. An index is a
number of 64 bits, and no memory holds a list that is longer. -/
theorem read_decorated (few : words.length ≤ Text.counterBound) {edited : List Char}
    (decorated : Relation.ReflTransGen Decoration (text words).toList edited) : read edited = .ok words :=
  read_of_legible ((legible_iff_of_decorated decorated).2 (legible_text few))

end

def twoWords : List UInt16 := [0x510A, 0xF000]

/-- A dump with a comment above it, then also with other blanks beside a colon, then at the ends of a row. -/
def noted : List Char := "# image\n0000: 0101000100001010\n0001: 1111000000000000\n".toList

def spread : List Char := "# image\n0000 :\t 0101000100001010\n0001: 1111000000000000\n".toList

def indented : List Char := "# image\n0000 :\t 0101000100001010\n  0001: 1111000000000000 \n".toList

theorem read_decorated_indented :
    twoWords.length ≤ Text.counterBound ∧
      Relation.ReflTransGen Decoration (text twoWords).toList (Text.withReturns indented) ∧
      read (Text.withReturns indented) = .ok twoWords := by
  have few : twoWords.length ≤ Text.counterBound := by decide
  have first : Decoration (text twoWords).toList noted := by
    refine @Decoration.insert _ _ [] ["# image".toList] ((Text.lines noted).drop 1) ?_ ?_ ?_
    · decide +kernel
    · decide +kernel
    · exact List.forall_mem_singleton.2 (.comment (List.forall_mem_nil _) " image".toList)
  have second : Decoration noted spread := by
    refine @Decoration.space _ _ ["# image".toList] ["0001: 1111000000000000".toList, []]
      ("0000".toList ++ [] ++ ':' :: ([' '] ++ "0101000100001010".toList))
      ("0000".toList ++ [' '] ++ ':' :: (['\t', ' '] ++ "0101000100001010".toList)) ?_ ?_ (.columns ?_ ?_ _)
    · decide +kernel
    · decide +kernel
    · decide
    · exact List.all_eq_true.1 (by decide)
  have third : Decoration spread indented := by
    refine @Decoration.space _ _ ["# image".toList, "0000 :\t 0101000100001010".toList] [[]]
      ([] ++ "0001: 1111000000000000".toList ++ [])
      ([' ', ' '] ++ "0001: 1111000000000000".toList ++ [' ']) ?_ ?_ (.ends ?_ _)
    · decide +kernel
    · decide +kernel
    · exact List.all_eq_true.1 (by decide)
  have decorated := (((Relation.ReflTransGen.single first).tail second).tail third).tail (.returns rfl)
  exact ⟨few, decorated, read_decorated few decorated⟩

end Harvard16.Image.BitDump
