import Harvard16.Text.Cut
import Harvard16.Text.Numeral
import Harvard16.Text.Printable

/-! Program images. In a binary image each word is two bytes, the low byte first, and there is nothing
else. A bit dump has a row for each word with its index in decimal and its sixteen bits; blank lines and
lines that start with `#` are skipped, but count as lines, and the indices must run from zero upwards
without a gap. -/
namespace Harvard16.Image

inductive RowError where
  | noColon
  | badIndex (text : List Char)
  | wrongIndex (expected found : Nat)
  | badDigits (text : List Char)
  deriving DecidableEq, Repr

def RowError.message : RowError → String
  | .noColon => "expected INDEX: WORD"
  | .badIndex text => s!"bad index {Text.quoted text}"
  | .wrongIndex expected found => s!"expected index {expected}, found {found}"
  | .badDigits text => s!"expected 16 binary digits, found {Text.quoted text}"

inductive Error where
  | unreadable (path reason : String)
  | oddLength (bytes : Nat)
  | badRow (line : Nat) (error : RowError)
  deriving DecidableEq, Repr

def Error.message : Error → String
  | .unreadable path reason => s!"I/O error: {path}: {reason}"
  | .oddLength bytes => s!"binary image has odd length of {bytes} bytes"
  | .badRow line error => s!"parse error on line {line}: {error.message}"

def wordBytes (word : UInt16) : List UInt8 := [word.toUInt8, (word / 256).toUInt8]

def ofBytePair (low high : UInt8) : UInt16 := low.toUInt16 + 256 * high.toUInt16

def toBytes (words : List UInt16) : List UInt8 := words.flatMap wordBytes

/-- The words of successive pairs of bytes; a byte that is left over is dropped. -/
def pairs (bytes : List UInt8) : List UInt16 :=
  go [] bytes
where
  go (done : List UInt16) : List UInt8 → List UInt16
    | low :: high :: bytes => go (ofBytePair low high :: done) bytes
    | _ => done.reverse

def ofBytes (bytes : List UInt8) : Except Error (List UInt16) :=
  if bytes.length % 2 = 0 then .ok (pairs bytes) else .error (.oddLength bytes.length)

theorem pairs_go (done : List UInt16) : (bytes : List UInt8) →
    pairs.go done bytes = done.reverse ++ pairs.go [] bytes
  | low :: high :: bytes => by
    rw [pairs.go, pairs.go, pairs_go _ bytes, pairs_go [_] bytes]
    simp
  | [] => by simp [pairs.go]
  | [_] => by simp [pairs.go]

theorem pairs_cons (low high : UInt8) (bytes : List UInt8) :
    pairs (low :: high :: bytes) = ofBytePair low high :: pairs bytes := by
  rw [pairs, pairs.go, pairs_go]
  rfl

theorem ofBytePair_wordBytes (word : UInt16) :
    ofBytePair word.toUInt8 (word / 256).toUInt8 = word := by
  have bound := word.toNat_lt
  apply UInt16.toNat_inj.1
  simp [ofBytePair]
  omega

theorem pairs_toBytes (words : List UInt16) : pairs (toBytes words) = words := by
  induction words with
  | nil => rfl
  | cons word words ih =>
    simpa [toBytes, wordBytes, pairs_cons, ofBytePair_wordBytes] using ih

namespace BitDump

def row (index : Nat) (word : UInt16) : String :=
  String.ofList ((Nat.toDigits 10 index).leftpad 4 '0') ++ ": " ++ Text.binary 16 word.toNat

def text (words : List UInt16) : String :=
  String.join (words.zipIdx.map fun (word, index) => row index word ++ "\n")

def bits? (text : List Char) : Option UInt16 :=
  if text.length = 16 then (Text.binary? text).map UInt16.ofNat else none

def readRow (expected : Nat) (row : List Char) : Except RowError UInt16 :=
  match Text.cutAt? ':' row with
  | none => .error .noColon
  | some (index, bits) =>
    match Text.counter? (Text.trim index) with
    | none => .error (.badIndex (Text.trim index))
    | some found =>
      if found = expected then
        match bits? (Text.trim bits) with
        | none => .error (.badDigits (Text.trim bits))
        | some word => .ok word
      else .error (.wrongIndex expected found)

def isSkipped (row : List Char) : Bool := row.isEmpty || row.head? = some '#'

/-- Reads numbered lines in order; `count` words, held by `done` in reverse, were on lines before
them. -/
def readLines (count : Nat) (done : List UInt16) :
    List (List Char × Nat) → Except Error (List UInt16)
  | [] => .ok done.reverse
  | (line, number) :: lines =>
    let row := Text.trim line
    if isSkipped row then readLines count done lines
    else
      match readRow count row with
      | .ok word => readLines (count + 1) (word :: done) lines
      | .error error => .error (.badRow number error)

def read (text : List Char) : Except Error (List UInt16) :=
  readLines 0 [] ((Text.lines text).zipIdx 1)

end BitDump

end Harvard16.Image
