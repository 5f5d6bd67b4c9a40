import Harvard16.Instruction.Layout
import Mathlib.Algebra.Group.Nat.Defs

/-! Laws of bit fields, for every field that lies inside a word. Packing and reading meet bit by bit:
a field reads back what was packed into it, modulo its span, and nothing of what was packed
into a field that shares no bit with it. A value that fits comes back unchanged, and any other
value comes back as the one value in range that is congruent to it. -/
namespace Harvard16.Field

/-- A field that is not empty and does not reach past the word. -/
structure InWord (f : Field) : Prop where
  width_pos : 1 ≤ f.width
  fits_word : f.shift + f.width ≤ 16

def Disjoint (f g : Field) : Prop := f.shift + f.width ≤ g.shift ∨ g.shift + g.width ≤ f.shift

theorem span_eq (f : Field) : f.span = 2 ^ f.width := by
  rw [span, Nat.shiftLeft_eq, Nat.one_mul]

theorem span_eq_half (f : Field) (h : f.InWord) : f.span = 2 * f.half := by
  obtain ⟨n, width⟩ : ∃ n, f.width = n + 1 := ⟨f.width - 1, by have := h.width_pos; omega⟩
  rw [span, half, width, Nat.add_sub_cancel, Nat.shiftLeft_succ]

theorem span_le {f : Field} (h : f.InWord) : f.span ≤ 2 ^ 16 := by
  rw [span_eq]
  exact Nat.pow_le_pow_right (by decide) (by have := h.fits_word; omega)

theorem testBit_bits (f : Field) (word : UInt16) (i : Nat) :
    (f.bits word).testBit i = (decide (i < f.width) && word.toNat.testBit (f.shift + i)) := by
  rw [bits, span_eq, Nat.testBit_mod_two_pow, Nat.testBit_shiftRight]

theorem bits_or (f : Field) (a b : UInt16) : f.bits (a ||| b) = f.bits a ||| f.bits b := by
  apply Nat.eq_of_testBit_eq
  intro i
  simp only [testBit_bits, Nat.testBit_or, UInt16.toNat_or, Bool.and_or_distrib_left]

/-- The residue that a value leaves in a field. -/
def residue (f : Field) (value : Int) : Nat := (value % f.span).toNat

theorem cast_residue (f : Field) (value : Int) : (f.residue value : Int) = value % f.span :=
  Int.toNat_of_nonneg (Int.emod_nonneg _ (by have := f.span_pos; omega))

theorem residue_lt (f : Field) (value : Int) : f.residue value < f.span := by
  have bound : value % f.span < f.span :=
    Int.emod_lt_of_pos _ (by have := f.span_pos; omega)
  rw [← cast_residue] at bound
  exact Int.ofNat_lt.1 bound

theorem toNat_pack {f : Field} (h : f.InWord) (value : Int) :
    (f.pack value).toNat = f.residue value <<< f.shift := by
  have below : f.residue value <<< f.shift < 2 ^ 16 := by
    calc f.residue value <<< f.shift
      _ < 2 ^ (f.width + f.shift) := by
        rw [Nat.shiftLeft_eq, Nat.pow_add, ← span_eq]
        exact Nat.mul_lt_mul_of_pos_right (f.residue_lt value) (Nat.two_pow_pos _)
      _ ≤ 2 ^ 16 := Nat.pow_le_pow_right (by decide) (by have := h.fits_word; omega)
  exact (UInt16.toNat_ofNat').trans (Nat.mod_eq_of_lt below)

theorem testBit_pack {f : Field} (h : f.InWord) (value : Int) (i : Nat) :
    (f.pack value).toNat.testBit i =
      (decide (f.shift ≤ i) && (f.residue value).testBit (i - f.shift)) := by
  rw [toNat_pack h, Nat.testBit_shiftLeft]

theorem bits_pack {f : Field} (h : f.InWord) (value : Int) : f.bits (f.pack value) = f.residue value := by
  rw [bits, toNat_pack h, Nat.shiftLeft_shiftRight, Nat.mod_eq_of_lt (f.residue_lt value)]

theorem bits_pack_of_disjoint {f g : Field} (h : g.InWord) (apart : f.Disjoint g) (value : Int) :
    f.bits (g.pack value) = 0 := by
  apply Nat.eq_of_testBit_eq
  intro i
  rw [testBit_bits, testBit_pack h, Nat.zero_testBit]
  by_cases inside : i < f.width ∧ g.shift ≤ f.shift + i
  · have high : g.width ≤ f.shift + i - g.shift := by
      rcases apart with before | behind <;> omega
    have small : g.residue value < 2 ^ (f.shift + i - g.shift) := by
      have bound := g.residue_lt value
      rw [span_eq] at bound
      exact Nat.lt_of_lt_of_le bound (Nat.pow_le_pow_right (by decide) high)
    simp [Nat.testBit_lt_two_pow small]
  · rcases Classical.not_and_iff_not_or_not.1 inside with outside | below
    · simp [outside]
    · simp [below]

def valueOf (f : Field) (bits : Nat) : Int :=
  if f.signed ∧ f.half ≤ bits then (bits : Int) - f.span else bits

theorem extract_eq_valueOf (f : Field) (word : UInt16) : f.extract word = f.valueOf (f.bits word) := rfl

theorem fits_valueOf {f : Field} (h : f.InWord) {bits : Nat} (bound : bits < f.span) :
    f.fits (f.valueOf bits) = true := by
  have halves := f.span_eq_half h
  unfold fits least greatest valueOf
  cases f.signed
  · simp
    omega
  · simp
    split <;> omega

theorem fits_natCast {f : Field} (unsigned : f.signed = false) (n : Nat) :
    f.fits n = true ↔ n < f.span := by
  simp only [fits, least, greatest, unsigned, Bool.false_eq_true, if_false, decide_eq_true_eq]
  omega

theorem toNat_lt_of_fits {f : Field} {value : Int} (unsigned : f.signed = false)
    (h : f.fits value = true) : value.toNat < f.span := by
  simp [fits, least, greatest, unsigned] at h
  omega

theorem valueOf_residue_modEq (f : Field) (value : Int) :
    f.valueOf (f.residue value) % f.span = value % f.span := by
  unfold valueOf
  split
  · rw [cast_residue, Int.sub_emod_right, Int.emod_emod]
  · rw [cast_residue, Int.emod_emod]

theorem eq_of_fits {f : Field} (h : f.InWord) {a b : Int} (ha : f.fits a = true) (hb : f.fits b = true)
    (same : a % f.span = b % f.span) : a = b := by
  have halves := f.span_eq_half h
  have divides : (f.span : Int) ∣ a - b := Int.dvd_of_emod_eq_zero (by
    rw [Int.sub_emod, same, Int.sub_self, Int.zero_emod])
  have close : (a - b).natAbs < f.span := by
    unfold fits least greatest at ha hb
    cases signed : f.signed <;> simp [signed] at ha hb <;> omega
  have none : a - b = 0 := Int.eq_zero_of_dvd_of_natAbs_lt_natAbs divides (by simpa using close)
  omega

theorem valueOf_residue_of_fits {f : Field} (h : f.InWord) {value : Int} (fits : f.fits value = true) :
    f.valueOf (f.residue value) = value :=
  eq_of_fits h (fits_valueOf h (f.residue_lt value)) fits (f.valueOf_residue_modEq value)

theorem extract_pack_of_fits {f : Field} (h : f.InWord) {value : Int} (fits : f.fits value = true) :
    f.extract (f.pack value) = value := by
  rw [extract_eq_valueOf, bits_pack h, valueOf_residue_of_fits h fits]

theorem extract_pack_emod {f : Field} (h : f.InWord) (value : Int) :
    f.extract (f.pack value) % f.span = value % f.span := by
  rw [extract_eq_valueOf, bits_pack h, valueOf_residue_modEq]

end Harvard16.Field
