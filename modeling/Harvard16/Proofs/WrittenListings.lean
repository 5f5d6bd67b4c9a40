import Harvard16.Assembly.Basic
import Harvard16.Proofs.FirstDefinitions
import Harvard16.Proofs.LabelTargets
import Harvard16.Proofs.Reassembly
import Harvard16.Proofs.Replacement

/-! Written listings. The rows of a listing stand in the order of their addresses, and below them are the labels,
each of them once, by address and then by the bytes of the name. Names are ASCII, so their order by bytes is
that of their characters; and as no two labels share a name, the order leaves nothing open. Main statement: a
listing is these lines and no others, in whatever order the table has its labels. -/
namespace Harvard16

namespace Text

/-- The bytes of ASCII text are the codes of its characters. -/
theorem utf8_of_ascii {s : String} (ascii : ∀ c ∈ s.toList, c.toNat < 128) :
    s.toUTF8.data.toList = s.toList.map fun c => UInt8.ofNat c.toNat := by
  rw [String.toUTF8_eq_toByteArray, ← String.utf8Encode_toList, List.utf8Encode,
    List.toList_data_toByteArray, List.map_eq_flatMap]
  apply List.flatMap_congr
  intro c member
  have small : c.val.toNat ≤ 127 := Nat.le_of_lt_succ (ascii c member)
  simp only [String.utf8EncodeChar, small, if_true]
  rfl

theorem codes_lt {a b : List Char} (first : ∀ c ∈ a, c.toNat < 128) (second : ∀ c ∈ b, c.toNat < 128)
    (lower : a < b) :
    (a.map fun c => UInt8.ofNat c.toNat) < b.map fun c => UInt8.ofNat c.toNat := by
  induction a generalizing b with
  | nil =>
    cases b with
    | nil => exact absurd lower (List.lt_irrefl _)
    | cons => exact List.nil_lt_cons _ _
  | cons c a ih =>
    cases b with
    | nil => exact absurd lower (List.not_lt_nil _)
    | cons d b =>
      obtain ⟨small, firstRest⟩ := List.forall_mem_cons.1 first
      obtain ⟨smallToo, secondRest⟩ := List.forall_mem_cons.1 second
      rw [List.map_cons, List.map_cons, List.cons_lt_cons_iff]
      rcases List.cons_lt_cons_iff.1 lower with before | ⟨rfl, after⟩
      · left
        have codes : c.toNat < d.toNat := UInt32.lt_iff_toNat_lt.1 before
        rw [UInt8.lt_iff_toNat_lt, UInt8.toNat_ofNat', UInt8.toNat_ofNat']
        omega
      · exact .inr ⟨rfl, ih firstRest secondRest after⟩

theorem newline_padStart {width : Nat} {s : String} (absent : '\n' ∉ s.toList) :
    '\n' ∉ (padStart width s).toList := by
  simp [padStart, List.leftpad, absent]

theorem trim_subset (cs : List Char) : trim cs ⊆ cs :=
  fun _ member => (List.dropWhile_sublist _).mem ((List.rdropWhile_prefix isBlank _).subset member)

end Text

namespace Assembly

/-- A lower address, or the same one and a name that is lower by its bytes. -/
def Label.Before (a b : Label) : Prop :=
  a.address < b.address ∨ a.address = b.address ∧ a.name.toUTF8.data.toList < b.name.toUTF8.data.toList

/-- The labels of an assembly as a listing has them: every defined name once, with its address, in order. -/
structure LabelOrder (assembly : Assembly) (ordered : List Label) : Prop where
  defined : ∀ name address, assembly.label? name = some address ↔
    ∃ label ∈ ordered, label.name = name ∧ label.address = address
  once : (ordered.map (·.name)).Nodup
  sorted : ordered.Pairwise Label.Before

def listingLines (assembly : Assembly) (ordered : List Label) : List (List Char) :=
  assembly.listing.map (·.row.toList) ++
    if ordered = [] then [] else [] :: "# labels".toList :: ordered.map (·.row.toList)

theorem precedes_iff {a b : Label} :
    a.precedes b = true ↔ a.address < b.address ∨ a.address = b.address ∧ a.name ≤ b.name := by
  simp [Label.precedes]

theorem pairwise_sorted (labels : List Label) :
    (labels.mergeSort Label.precedes).Pairwise fun a b => a.precedes b = true := by
  apply List.pairwise_mergeSort
  · intro a b c first second
    rw [precedes_iff] at first second ⊢
    rcases first with lower | ⟨same, name⟩ <;> rcases second with lowerToo | ⟨sameToo, nameToo⟩
    · exact .inl (Nat.lt_trans lower lowerToo)
    · exact .inl (sameToo ▸ lower)
    · exact .inl (same ▸ lowerToo)
    · exact .inr ⟨same.trans sameToo, String.le_trans name nameToo⟩
  · intro a b
    rw [Bool.or_eq_true, precedes_iff, precedes_iff]
    rcases Nat.lt_trichotomy a.address b.address with lower | same | higher
    · exact .inl (.inl lower)
    · rcases String.le_total a.name b.name with name | name
      · exact .inl (.inr ⟨same, name⟩)
      · exact .inr (.inr ⟨same.symm, name⟩)
    · exact .inr (.inl higher)

theorem sorted_congr {labels order : List Label} (distinct : (labels.map (·.name)).Nodup)
    (same : order.Perm labels) : order.mergeSort Label.precedes = labels.mergeSort Label.precedes := by
  have first := List.mergeSort_perm order Label.precedes
  have second := List.mergeSort_perm labels Label.precedes
  refine List.Perm.eq_of_pairwise ?_ (pairwise_sorted order) (pairwise_sorted labels)
    (first.trans (same.trans second.symm))
  intro a b memberA memberB before after
  rw [precedes_iff] at before after
  have names : a.name = b.name := by
    rcases before with lower | ⟨_, name⟩ <;> rcases after with lowerToo | ⟨_, nameToo⟩
    · omega
    · omega
    · omega
    · exact String.le_antisymm name nameToo
  exact List.inj_on_of_nodup_map distinct ((first.trans same).mem_iff.1 memberA)
    (second.mem_iff.1 memberB) names

theorem ascii_of_isLabelName {name : List Char} (valid : isLabelName name = true) :
    ∀ c ∈ name, c.toNat < 128 ∧ c ≠ '\n' := by
  have ascii (c : Char) (inName : (isLabelName.starts c || c.isDigit) = true) : c.toNat < 128 ∧ c ≠ '\n' := by
    simp only [isLabelName.starts, Bool.or_eq_true, beq_iff_eq] at inName
    rcases inName with ((alpha | rfl) | rfl) | digit
    · obtain ⟨low, high⟩ := toNat_of_isAlpha alpha
      refine ⟨by omega, ?_⟩
      rintro rfl
      exact absurd low (by decide)
    · decide
    · decide
    · obtain ⟨low, high⟩ : 48 ≤ c.toNat ∧ c.toNat ≤ 57 := by
        simpa [Char.isDigit, UInt32.le_iff_toNat_le] using digit
      refine ⟨by omega, ?_⟩
      rintro rfl
      exact absurd low (by decide)
  cases name with
  | nil => cases valid
  | cons first rest =>
    obtain ⟨head, tail⟩ := Bool.and_eq_true_iff.1 valid
    exact List.forall_mem_cons.2 ⟨ascii first (by rw [head, Bool.true_or]),
      fun c member => ascii c (List.all_eq_true.1 tail c member)⟩

theorem precedes_before {a b : Label} (first : isLabelName a.name.toList = true)
    (second : isLabelName b.name.toList = true) (differ : a.name ≠ b.name) (precedes : a.precedes b = true) :
    a.Before b := by
  rcases precedes_iff.1 precedes with lower | ⟨same, name⟩
  · exact .inl lower
  · have below : a.name < b.name := String.not_le.1 fun above => differ (String.le_antisymm name above)
    have ascii {name : String} (valid : isLabelName name.toList = true) : ∀ c ∈ name.toList, c.toNat < 128 :=
      fun c member => (ascii_of_isLabelName valid c member).1
    refine .inr ⟨same, ?_⟩
    rw [Text.utf8_of_ascii (ascii first), Text.utf8_of_ascii (ascii second)]
    exact Text.codes_lt (ascii first) (ascii second) below

section

variable {source : String}

theorem isLabelName_of_mem_labels {label : Label} (member : label ∈ (ofSource source).labels.toList) :
    isLabelName label.name.toList = true := by
  have defines := (mem_labels.1 member).1.defines
  rw [← defines.named, String.toList_ofList]
  exact defines.wellFormed

theorem label?_eq_some_iff {name : String} {address : Nat} :
    (ofSource source).label? name = some address ↔
      ∃ label ∈ (ofSource source).labels.toList, label.name = name ∧ label.address = address := by
  rw [label?, Option.map_eq_some_iff]
  constructor
  · rintro ⟨label, found, held⟩
    obtain ⟨first, whole⟩ := lookup?_labels.1 found
    refine ⟨label, mem_labels.2 ?_, by rw [whole], held⟩
    rw [whole]
    exact ⟨first, rfl⟩
  · rintro ⟨label, member, rfl, held⟩
    obtain ⟨first, address⟩ := mem_labels.1 member
    exact ⟨_, lookup?_of_firstDefines first, address.symm.trans held⟩

theorem distinct_labels (source : String) : ((ofSource source).labels.toList.map (·.name)).Nodup := by
  rw [labels_ofSource]
  exact distinct_names (pairwise_place source)

theorem labelOrder_sorted :
    LabelOrder (ofSource source) ((ofSource source).labels.toList.mergeSort Label.precedes) := by
  have same := List.mergeSort_perm (ofSource source).labels.toList Label.precedes
  have names := same.map (·.name)
  have once := names.nodup_iff.2 (distinct_labels source)
  refine ⟨fun name address => ?_, once, ?_⟩
  · simp only [label?_eq_some_iff, same.mem_iff]
  · have valid : ∀ label ∈ (ofSource source).labels.toList.mergeSort Label.precedes,
        isLabelName label.name.toList = true :=
      fun label member => isLabelName_of_mem_labels (same.mem_iff.1 member)
    refine ((pairwise_sorted _).and (List.pairwise_map.1 once)).imp_of_mem ?_
    rintro a b memberA memberB ⟨precedes, differ⟩
    exact precedes_before (valid a memberA) (valid b memberB) differ precedes

theorem newline_instructionText {raw : List Char} (absent : '\n' ∉ raw) : '\n' ∉ instructionText raw := by
  have inCode : '\n' ∉ code raw := fun member =>
    absent ((List.takeWhile_sublist _).mem (Text.trim_subset _ member))
  unfold instructionText
  intro member
  have kept := Text.trim_subset _ member
  split at kept
  · exact inCode ((List.dropWhile_sublist _).mem (List.mem_of_mem_tail kept))
  · exact inCode kept

theorem newline_rawLine (source : String) (number : Nat) : '\n' ∉ rawLine source number := by
  unfold rawLine
  split
  · cases found : (Text.lines source.toList)[number - 1]? with
    | none => exact List.not_mem_nil
    | some raw => exact Text.newline_of_mem_lines (List.mem_of_getElem? found)
  · exact List.not_mem_nil

theorem newline_entry {entry : ListingEntry} (listed : entry ∈ (ofSource source).listing) :
    '\n' ∉ entry.row.toList := by
  obtain ⟨placed, member, found⟩ := List.mem_filterMap.1 listed
  obtain ⟨_, -, -, rfl⟩ := exists_of_listed? found
  have source : '\n' ∉ placed.line.text := by
    rw [eq_placedLine_of_mem member, text_placedLine]
    exact newline_instructionText (newline_rawLine _ _)
  have number : '\n' ∉ (Text.padStart 4 (toString placed.line.number)).toList :=
    Text.newline_padStart (by simp [newline_toDigits])
  simpa [ListingEntry.row, toString, newline_upperHex, source] using number

theorem newline_label {label : Label} (member : label ∈ (ofSource source).labels.toList) :
    '\n' ∉ label.row.toList := by
  have name : '\n' ∉ label.name.toList := fun inName =>
    (ascii_of_isLabelName (isLabelName_of_mem_labels member) _ inName).2 rfl
  simp [Label.row, toString, newline_upperHex, name]

theorem newline_listingLines {ordered : List Label}
    (inTable : ∀ label ∈ ordered, label ∈ (ofSource source).labels.toList) :
    ∀ line ∈ listingLines (ofSource source) ordered, '\n' ∉ line := by
  refine List.forall_mem_append.2 ⟨?_, ?_⟩
  · intro line member
    obtain ⟨entry, listed, rfl⟩ := List.mem_map.1 member
    exact newline_entry listed
  · split
    · nofun
    · have heading : '\n' ∉ "# labels".toList := by decide
      refine List.forall_mem_cons.2 ⟨List.not_mem_nil, List.forall_mem_cons.2 ⟨heading, ?_⟩⟩
      intro line member
      obtain ⟨label, defined, rfl⟩ := List.mem_map.1 member
      exact newline_label (inTable label defined)

end

theorem toList_listingText (assembly : Assembly) :
    (listingText assembly).toList =
      (listingLines assembly (assembly.labels.toList.mergeSort Label.precedes)).flatMap (· ++ ['\n']) := by
  have same := List.mergeSort_perm assembly.labels.toList Label.precedes
  have heading : "\n# labels\n".toList = [] ++ ['\n'] ++ ("# labels".toList ++ ['\n']) := by decide
  unfold listingText labelSection listingLines
  by_cases empty : assembly.labels.toList = []
  · simp [empty, String.toList_join, List.flatMap_map]
  · have filled : assembly.labels.toList.mergeSort Label.precedes ≠ [] := by
      intro none
      rw [none] at same
      exact empty same.nil_eq.symm
    simp [empty, filled, heading, String.toList_append, String.toList_join, List.flatMap_map]

theorem exists_table {order : List Label} (distinct : (order.map (·.name)).Nodup) :
    ∃ table : LabelTable, table.toList = order := by
  refine ⟨order.foldl LabelTable.define .empty, ?_⟩
  rw [LabelTable.toList_foldl_define (List.Nodup.of_map _ distinct), List.filter_eq_self]
  intro label member
  have some : (order.find? (·.name == label.name)).isSome = true :=
    List.find?_isSome.2 ⟨label, member, by simp⟩
  obtain ⟨first, found⟩ := Option.isSome_iff_exists.1 some
  have named : first.name = label.name := by simpa using List.find?_some found
  have own := List.inj_on_of_nodup_map distinct (List.mem_of_find?_eq_some found) member named
  rw [found, own]
  exact decide_eq_true rfl

theorem start_le_address {lines : List Line} {start : Nat} :
    ∀ placed ∈ placeFrom start lines, start ≤ placed.address := by
  induction lines generalizing start with
  | nil => nofun
  | cons line lines ih =>
    rw [placeFrom_cons, List.forall_mem_cons]
    refine ⟨Nat.le_refl start, fun placed later => ?_⟩
    have onward : start ≤ line.next start := by
      rw [Line.next]
      split <;> omega
    exact Nat.le_trans onward (ih placed later)

theorem pairwise_address (lines : List Line) (start : Nat) :
    (placeFrom start lines).Pairwise fun a b => a.line.hasInstruction = true → a.address < b.address := by
  induction lines generalizing start with
  | nil => exact .nil
  | cons line lines ih =>
    rw [placeFrom_cons]
    refine .cons (fun placed later used => ?_) (ih _)
    have behind := start_le_address placed later
    rw [Line.next, if_pos used] at behind
    exact behind

theorem pairwise_listing (lines : List Line) :
    (ofLines (place lines)).listing.Pairwise (·.address < ·.address) := by
  refine List.pairwise_filterMap.2 ((pairwise_address lines 0).imp ?_)
  intro a b ordered entry listed later listedToo
  have before := ordered (hasInstruction_of_listed? listed)
  obtain ⟨_, -, -, rfl⟩ := exists_of_listed? listed
  obtain ⟨_, -, -, rfl⟩ := exists_of_listed? listedToo
  exact before

/-- The listing of a source has a line for each entry, by address, and if a label is defined, then behind them an
empty line, the heading and a line for each label, by address and then by the bytes of the name. A line feed ends
every line, so that nothing stands behind the last. In which order the table has its labels does not show. -/
theorem listing_canonical (source : String) :
    (ofSource source).listing.Pairwise (·.address < ·.address) ∧
    (∃ ordered, LabelOrder (ofSource source) ordered ∧
      Text.lines (listingText (ofSource source)).toList = listingLines (ofSource source) ordered ++ [[]]) ∧
    ∀ order : List Label, order.Perm (ofSource source).labels.toList →
      ∃ table : LabelTable, table.toList = order ∧
        listingText { ofSource source with labels := table } = listingText (ofSource source) := by
  have distinct := distinct_labels source
  refine ⟨pairwise_listing _, ⟨_, labelOrder_sorted, ?_⟩, fun order same => ?_⟩
  · rw [toList_listingText, Text.lines_flatMap]
    exact newline_listingLines fun label => (List.mergeSort_perm _ _).mem_iff.1
  · have names := same.map (·.name)
    obtain ⟨table, rfl⟩ := exists_table (names.nodup_iff.2 distinct)
    refine ⟨table, rfl, ?_⟩
    rw [← String.toList_inj, toList_listingText, toList_listingText]
    simp only [listingLines, sorted_congr distinct same]

def sharedAddress : String := "loop:\nEnd: nop"

theorem listing_canonical_sharedAddress :
    (ofSource sharedAddress).labels.toList = [⟨"loop", 0, 1⟩, ⟨"End", 0, 2⟩] ∧
      ∃ table : LabelTable, table.toList = [⟨"End", 0, 2⟩, ⟨"loop", 0, 1⟩] ∧
        listingText { ofSource sharedAddress with labels := table } = listingText (ofSource sharedAddress) ∧
        listingText (ofSource sharedAddress) =
          "0000: E000     2 | nop\n\n# labels\n0000: End\n0000: loop\n" := by
  have labels : (ofSource sharedAddress).labels.toList = [⟨"loop", 0, 1⟩, ⟨"End", 0, 2⟩] := by decide +kernel
  obtain ⟨-, -, anyOrder⟩ := listing_canonical sharedAddress
  have swapped : [⟨"End", 0, 2⟩, ⟨"loop", 0, 1⟩].Perm (ofSource sharedAddress).labels.toList := by
    rw [labels]
    exact .swap _ _ []
  obtain ⟨table, reversed, same⟩ := anyOrder _ swapped
  have sorted : table.toList.mergeSort Label.precedes = [⟨"End", 0, 2⟩, ⟨"loop", 0, 1⟩] := by
    rw [reversed]
    exact List.mergeSort_of_pairwise (by decide)
  have listing : (ofSource sharedAddress).listing = [⟨0, 2, "nop", 0xE000⟩] := by decide +kernel
  refine ⟨labels, table, reversed, same, ?_⟩
  rw [← same, listingText, labelSection, sorted, reversed, listing]
  decide +kernel

end Assembly

end Harvard16
