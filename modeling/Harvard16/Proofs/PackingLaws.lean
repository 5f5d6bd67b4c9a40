import Harvard16.Proofs.Encoding
import Mathlib.Data.Int.ModEq

/-! Laws of packing and reading, for every field that lies inside a word. A field is taken here as the set of
the bits that belong to it. Main statement: a value fits just when it is read back as it was packed; any value
is read back as one in range that is congruent to it; a word that is read and packed again keeps the bits of
the field and loses the others; and fields without a common bit are packed side by side. Packing and reading
are told in word arithmetic as well: packing truncates, masks and shifts, and reading takes the bits of the
field as a number, in two's complement if the field is signed. -/
namespace Harvard16.Field

/-- The bit at a position of the word belongs to the field. -/
def Covers (f : Field) (i : Nat) : Prop := f.shift ≤ i ∧ i < f.shift + f.width

instance (f : Field) (i : Nat) : Decidable (f.Covers i) := inferInstanceAs (Decidable (_ ∧ _))

section

variable {f g : Field}

theorem disjoint_of_covers (hf : f.InWord) (hg : g.InWord) (apart : ∀ i, ¬(f.Covers i ∧ g.Covers i)) :
    f.Disjoint g := by
  have first := hf.width_pos
  have second := hg.width_pos
  have higher := apart (max f.shift g.shift)
  unfold Covers at higher
  unfold Disjoint
  omega

theorem extract_pack_or (hg : g.InWord) (apart : f.Disjoint g) (value beside : Int) :
    f.extract (f.pack value ||| g.pack beside) = f.extract (f.pack value) := by
  have clear := bits_pack_of_disjoint hg apart beside
  rw [extract_eq_valueOf, extract_eq_valueOf, bits_or, clear, Nat.or_zero]

variable (h : f.InWord)
include h

theorem fits_extract (word : UInt16) : f.fits (f.extract word) = true := fits_valueOf h (f.bits_lt word)

theorem fits_iff_extract_pack (value : Int) : f.fits value = true ↔ f.extract (f.pack value) = value := by
  constructor
  · exact extract_pack_of_fits h
  · intro same
    rw [← same]
    exact fits_extract h _

theorem toNat_mask : f.mask.toNat = 2 ^ f.width - 1 := by
  have below : f.span - 1 < UInt16.size := Nat.lt_of_lt_of_le (Nat.sub_one_lt_of_lt f.span_pos) (span_le h)
  rw [← span_eq]
  exact UInt16.toNat_ofNat_of_lt' below

theorem residue_toInt (value : Int32) :
    f.residue value.toInt = value.toUInt32.toUInt16.toNat &&& f.mask.toNat := by
  have inside := h.fits_word
  have inWord : 2 ^ f.width ∣ 2 ^ 16 := Nat.pow_dvd_pow 2 (by omega)
  have inDouble : (f.span : Int) ∣ (2 ^ 32 : Nat) := by
    rw [span_eq]
    exact Int.natCast_dvd_natCast.2 (Nat.pow_dvd_pow 2 (by omega))
  have signed : value.toInt = (value.toUInt32.toNat : Int).bmod (2 ^ 32) := BitVec.toInt_eq_toNat_bmod _
  have low : value.toInt % f.span = (value.toUInt32.toNat : Int) % f.span := by
    rw [signed, ← Int.emod_emod_of_dvd _ inDouble, Int.bmod_emod, Int.emod_emod_of_dvd _ inDouble]
  rw [toNat_mask h, Nat.and_two_pow_sub_one_eq_mod, UInt32.toNat_toUInt16, Nat.mod_mod_of_dvd _ inWord]
  apply Int.natCast_inj.1
  rw [cast_residue, low, Int.natCast_emod, span_eq]

theorem pack_toInt (value : Int32) :
    f.pack value.toInt = (value.toUInt32.toUInt16 &&& f.mask) <<< UInt16.ofNat f.shift := by
  have shift : (UInt16.ofNat f.shift).toNat % 16 = f.shift := by
    have := h.width_pos
    have := h.fits_word
    rw [UInt16.toNat_ofNat']
    omega
  have bound := (f.pack value.toInt).toNat_lt
  apply UInt16.toNat_inj.1
  rw [toNat_pack h, residue_toInt h] at bound ⊢
  rw [UInt16.toNat_shiftLeft, shift, UInt16.toNat_and, Nat.mod_eq_of_lt bound]

theorem extract_eq_extractLsb' (word : UInt16) :
    f.extract word =
      if f.signed then (word.toBitVec.extractLsb' f.shift f.width).toInt
      else (word.toBitVec.extractLsb' f.shift f.width).toNat := by
  have halves := f.span_eq_half h
  have raw : (word.toBitVec.extractLsb' f.shift f.width).toNat = f.bits word := by
    rw [BitVec.extractLsb'_toNat, bits, span_eq]
    rfl
  rw [extract, BitVec.toInt_eq_toNat_cond, raw, ← span_eq]
  cases f.signed
  · simp
  · simp only [true_and, if_true]
    split <;> split <;> omega

end

/-- A value fits just when it survives packing; every value is read back as the one in range that is congruent
to it. A word that is read and packed again has the bits of the field and no others. What is packed into bits
outside of the field does not change what it reads. Packing a 32-bit value truncates it to a word, masks it and
shifts it; reading takes the bits of the field as an unsigned number or in two's complement. -/
theorem packing_laws {f : Field} (h : f.InWord) (value : Int) (word : UInt16) :
    (f.fits value = true ↔ f.extract (f.pack value) = value) ∧
    (f.least ≤ f.extract (f.pack value) ∧ f.extract (f.pack value) ≤ f.greatest) ∧
    f.extract (f.pack value) ≡ value [ZMOD 2 ^ f.width] ∧
    (∀ i, (f.pack (f.extract word)).toNat.testBit i = (decide (f.Covers i) && word.toNat.testBit i)) ∧
    (∀ g : Field, g.InWord → (∀ i, ¬(f.Covers i ∧ g.Covers i)) → ∀ beside : Int,
      f.extract (f.pack value ||| g.pack beside) = f.extract (f.pack value)) ∧
    (∀ value : Int32,
      f.pack value.toInt = (value.toUInt32.toUInt16 &&& f.mask) <<< UInt16.ofNat f.shift) ∧
    f.extract word =
      if f.signed then (word.toBitVec.extractLsb' f.shift f.width).toInt
      else (word.toBitVec.extractLsb' f.shift f.width).toNat := by
  have inRange : f.least ≤ f.extract (f.pack value) ∧ f.extract (f.pack value) ≤ f.greatest :=
    of_decide_eq_true (fits_extract h (f.pack value))
  have congruent : f.extract (f.pack value) ≡ value [ZMOD 2 ^ f.width] := by
    have same := extract_pack_emod h value
    rw [span_eq, Nat.cast_pow] at same
    exact same
  refine ⟨fits_iff_extract_pack h value, inRange, congruent, testBit_pack_extract h word, ?_,
    pack_toInt h, extract_eq_extractLsb' h word⟩
  intro g hg apart beside
  exact extract_pack_or hg (disjoint_of_covers h hg apart) value beside

theorem packing_laws_besideByte :
    let f : Field := ⟨3, 5, true⟩
    let byte : Field := ⟨8, 8, false⟩
    f.InWord ∧ byte.InWord ∧ (∀ i, ¬(f.Covers i ∧ byte.Covers i)) ∧
      f.fits (-17) = false ∧ f.extract (f.pack (-17)) ≡ -17 [ZMOD 32] ∧
      (f.pack (f.extract 0xABCD)).toNat.testBit 8 = false ∧
      f.extract (f.pack (-17) ||| byte.pack (-1)) = 15 := by
  intro f byte
  have inside : f.InWord := by decide
  have beside : byte.InWord := by decide
  have apart : ∀ i, ¬(f.Covers i ∧ byte.Covers i) := by
    rintro i ⟨⟨-, below⟩, above, -⟩
    exact absurd above (Nat.not_le.2 below)
  obtain ⟨-, -, congruent, cleared, kept, -, -⟩ := packing_laws inside (-17) 0xABCD
  refine ⟨inside, beside, apart, by decide, congruent, ?_, ?_⟩
  · rw [cleared]
    decide
  · rw [kept byte beside apart]
    decide

end Harvard16.Field
