import Harvard16.Config
import Harvard16.Text.Cut

/-! Source lines. A comment starts at the first `#`. What stands before the first colon of the rest is
a label, and what is left when comment and label are gone is the instruction; either may be
missing. Every instruction line takes one address, whether or not it turns out to be correct,
so the address of a line is the number of instruction lines before it. -/
namespace Harvard16.Assembly

structure Line where
  number : Nat
  label : Option (List Char)
  text : List Char
  deriving DecidableEq, Repr

namespace Line

def read (number : Nat) (raw : List Char) : Line :=
  let code := Text.trim (raw.takeWhile (· != '#'))
  match Text.cutAt? ':' code with
  | some (label, rest) => ⟨number, some (Text.trim label), Text.trim rest⟩
  | none => ⟨number, none, code⟩

def hasInstruction (line : Line) : Bool := !line.text.isEmpty

def next (address : Nat) (line : Line) : Nat := if line.hasInstruction then address + 1 else address

end Line

def sourceLines (source : List Char) : List Line :=
  ((Text.lines source).zipIdx 1).map fun (raw, number) => .read number raw

structure PlacedLine where
  address : Nat
  line : Line
  deriving DecidableEq, Repr

def placeFrom (start : Nat) (lines : List Line) : List PlacedLine :=
  (lines.scanl Line.next start).zipWith PlacedLine.mk lines

def place (lines : List Line) : List PlacedLine := placeFrom 0 lines

@[simp] theorem placeFrom_nil (start : Nat) : placeFrom start [] = [] := rfl

@[simp] theorem placeFrom_cons (start : Nat) (line : Line) (lines : List Line) :
    placeFrom start (line :: lines) = ⟨start, line⟩ :: placeFrom (line.next start) lines := by
  simp [placeFrom, List.scanl_cons]

theorem placeFrom_append (start : Nat) (xs ys : List Line) :
    placeFrom start (xs ++ ys) = placeFrom start xs ++ placeFrom (xs.foldl Line.next start) ys := by
  induction xs generalizing start with
  | nil => rfl
  | cons x xs ih => simp [ih]

@[simp] theorem map_line_placeFrom (start : Nat) (lines : List Line) :
    (placeFrom start lines).map PlacedLine.line = lines := by
  induction lines generalizing start with
  | nil => rfl
  | cons line lines ih => simp [ih]

theorem foldl_next (start : Nat) (lines : List Line) :
    lines.foldl Line.next start = start + (lines.filter Line.hasInstruction).length := by
  induction lines generalizing start with
  | nil => rfl
  | cons line lines ih =>
    rw [List.foldl_cons, ih, List.filter_cons, Line.next]
    split <;> simp +arith

end Harvard16.Assembly
