import Harvard16.Assembly.Operand

/-! Assembly of a source text. Every line is judged on its own once the labels of the whole source
are known: an instruction line gives one entry of the listing or one error, and a label is
either defined or in error. So a bad line never changes what another line gives. Entries
and errors come in the order of their lines, and on one line the label's error comes first. A listing
is written with a row for each word and below them the labels by address and then by name, so that
their order in the table does not show. -/
namespace Harvard16

structure ListingEntry where
  address : Nat
  line : Nat
  source : String
  word : UInt16
  deriving DecidableEq, Repr

def ListingEntry.row (entry : ListingEntry) : String :=
  s!"{Text.upperHex 4 entry.address}: {Text.upperHex 4 entry.word.toNat}  " ++
    s!"{Text.padStart 4 (toString entry.line)} | {entry.source}"

structure Assembly where
  labels : Assembly.LabelTable
  listing : List ListingEntry
  errors : List Assembly.LineError
  deriving DecidableEq, Repr

namespace Assembly

namespace PlacedLine

/-- What an instruction line makes of its instruction; the addresses must be words. -/
def instruction (labels : LabelTable) (placed : PlacedLine) : Except Cause Instruction :=
  if addressSpace ≤ placed.address then .error .programTooLarge
  else parseInstruction labels placed.address placed.line.text

def listed? (labels : LabelTable) (placed : PlacedLine) : Option ListingEntry :=
  if placed.line.hasInstruction then
    match placed.instruction labels with
    | .ok instruction =>
      some ⟨placed.address, placed.line.number, String.ofList placed.line.text, instruction.encode⟩
    | .error _ => none
  else none

def instructionCause? (labels : LabelTable) (placed : PlacedLine) : Option Cause :=
  if placed.line.hasInstruction then
    match placed.instruction labels with
    | .ok _ => none
    | .error cause => some cause
  else none

def errors (labels : LabelTable) (placed : PlacedLine) : List LineError :=
  ((placed.labelCause? labels).toList ++ (placed.instructionCause? labels).toList).map
    (⟨placed.line.number, ·⟩)

theorem listed?_isSome (labels : LabelTable) (placed : PlacedLine)
    (h : placed.line.hasInstruction = true) :
    (placed.listed? labels).isSome = (placed.instructionCause? labels).isNone := by
  unfold listed? instructionCause?
  cases placed.instruction labels <;> simp [h]

end PlacedLine

def ofLines (lines : List PlacedLine) : Assembly :=
  let labels := collectLabels lines
  { labels
    listing := lines.filterMap (·.listed? labels)
    errors := lines.flatMap (·.errors labels) }

def ofSource (source : String) : Assembly := ofLines (place (sourceLines source.toList))

def isOk (assembly : Assembly) : Bool := assembly.errors.isEmpty

def words (assembly : Assembly) : List UInt16 := assembly.listing.map (·.word)

def label? (assembly : Assembly) (name : String) : Option Nat :=
  (assembly.labels.lookup? name).map (·.address)

def result (assembly : Assembly) : Except (List LineError) (List UInt16) :=
  if assembly.isOk then .ok assembly.words else .error assembly.errors

/-- Whether one label comes before another, or is like it. -/
def Label.precedes (a b : Label) : Bool :=
  a.address < b.address || (a.address == b.address && a.name ≤ b.name)

def Label.row (label : Label) : String := s!"{Text.upperHex 4 label.address}: {label.name}"

def labelSection (labels : LabelTable) : String :=
  if labels.toList.isEmpty then ""
  else "\n# labels\n" ++ String.join ((labels.toList.mergeSort Label.precedes).map (·.row ++ "\n"))

def listingText (assembly : Assembly) : String :=
  String.join (assembly.listing.map (·.row ++ "\n")) ++ labelSection assembly.labels

end Assembly

end Harvard16
