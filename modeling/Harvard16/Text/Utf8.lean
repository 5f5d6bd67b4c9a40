/-! Bytes shown as text. Characters that are whole are shown as they are. Where the bytes are no
UTF-8, the longest run that could still begin a character is shown as one replacement character,
or else a single byte is, and reading goes on behind it. -/
namespace Harvard16.Text.Utf8

/-- The least and the greatest byte that a place in a character may hold. -/
abbrev Span := UInt8 × UInt8

def followers (first : UInt8) : List Span :=
  let any : Span := (0x80, 0xBF)
  if first < 0xC2 then []
  else if first < 0xE0 then [any]
  else if first = 0xE0 then [(0xA0, 0xBF), any]
  else if first = 0xED then [(0x80, 0x9F), any]
  else if first < 0xF0 then [any, any]
  else if first = 0xF0 then [(0x90, 0xBF), any, any]
  else if first < 0xF4 then [any, any, any]
  else if first = 0xF4 then [(0x80, 0x8F), any, any]
  else []

def fitting : List Span → List UInt8 → Nat
  | (least, greatest) :: spans, byte :: bytes =>
    if least ≤ byte ∧ byte ≤ greatest then fitting spans bytes + 1 else 0
  | _, _ => 0

def character? (bytes : List UInt8) : Option Char :=
  (String.fromUTF8? ⟨bytes.toArray⟩).bind (·.toList.head?)

def decodeBehind (shown : List Char) : List UInt8 → List Char
  | [] => shown.reverse
  | first :: rest =>
    let size := fitting (followers first) rest
    let c := (character? (first :: rest.take size)).getD '\uFFFD'
    decodeBehind (c :: shown) (rest.drop size)
termination_by bytes => bytes.length
decreasing_by
  rw [List.length_drop, List.length_cons]
  omega

def decode (bytes : List UInt8) : String := String.ofList (decodeBehind [] bytes)

end Harvard16.Text.Utf8
