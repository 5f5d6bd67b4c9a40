import Harvard16.Text.Numeral

/-! JSON, as values are read and as they are written. The grammar is the strict one: no comments, no
trailing commas, no leading zeros, no control characters in strings, and only space, tab, line feed
and carriage return between tokens. A reader takes a text and gives a value with the rest of the
text; the descent into nested values is bounded by a fuel that the length of the text provides. What
is written has one item a line, indented by two spaces a level, and a block without items stays on
its line. -/
namespace Harvard16.Json

/-- A number keeps its spelling, because only some readers care whether it was written as an integer. A
string is `none` when its escapes leave half of a surrogate pair alone, which JSON allows but which
is no text. Members keep their order and their repetitions. -/
inductive Value where
  | null
  | bool (value : Bool)
  | number (spelling : List Char)
  | string (text : Option String)
  | array (items : List Value)
  | object (members : List (Option String × Value))

def Value.natural? (bound : Nat) : Value → Option Nat
  | .number spelling => Text.decimal? bound spelling
  | _ => none

/-- The text of a sequence of code points and UTF-16 halves, each pair of halves one character. -/
def text? (codes : List Nat) : Option String :=
  go [] codes
where
  go (done : List Char) : List Nat → Option String
    | [] => some (String.ofList done.reverse)
    | code :: rest =>
      if 0xD800 ≤ code ∧ code < 0xDC00 then
        match rest with
        | low :: rest =>
          if 0xDC00 ≤ low ∧ low < 0xE000 then
            go (Char.ofNat (0x10000 + (code - 0xD800) * 0x400 + (low - 0xDC00)) :: done) rest
          else none
        | [] => none
      else if 0xDC00 ≤ code ∧ code < 0xE000 then none
      else go (Char.ofNat code :: done) rest

def skipSpace (cs : List Char) : List Char :=
  cs.dropWhile fun c => c == ' ' || c == '\t' || c == '\n' || c == '\r'

def escape? : Char → Option Char
  | '"' => some '"'
  | '\\' => some '\\'
  | '/' => some '/'
  | 'b' => some '\x08'
  | 'f' => some '\x0c'
  | 'n' => some '\n'
  | 'r' => some '\r'
  | 't' => some '\t'
  | _ => none

def codes? (cs : List Char) : Option (List Nat × List Char) :=
  go [] cs
where
  go (done : List Nat) : List Char → Option (List Nat × List Char)
    | [] => none
    | '"' :: rest => some (done.reverse, rest)
    | '\\' :: 'u' :: a :: b :: c :: d :: rest =>
      match Text.hexadecimal? 0x10000 [a, b, c, d] with
      | some code => go (code :: done) rest
      | none => none
    | '\\' :: c :: rest =>
      match escape? c with
      | some c => go (c.toNat :: done) rest
      | none => none
    | c :: rest => if c.toNat < 0x20 then none else go (c.toNat :: done) rest

def string? (cs : List Char) : Option (Option String × List Char) :=
  (codes? cs).map fun (codes, rest) => (text? codes, rest)

def digits? (cs : List Char) : Option (List Char × List Char) :=
  match cs.takeWhile Char.isDigit with
  | [] => none
  | digits => some (digits, cs.dropWhile Char.isDigit)

def integer? : List Char → Option (List Char × List Char)
  | '0' :: rest => some (['0'], rest)
  | cs => digits? cs

def fraction? : List Char → Option (List Char × List Char)
  | '.' :: rest => (digits? rest).map fun (digits, rest) => ('.' :: digits, rest)
  | cs => some ([], cs)

def exponent? : List Char → Option (List Char × List Char)
  | c :: rest =>
    if c == 'e' || c == 'E' then
      match rest with
      | '+' :: rest => (digits? rest).map fun (digits, rest) => (c :: '+' :: digits, rest)
      | '-' :: rest => (digits? rest).map fun (digits, rest) => (c :: '-' :: digits, rest)
      | rest => (digits? rest).map fun (digits, rest) => (c :: digits, rest)
    else some ([], c :: rest)
  | [] => some ([], [])

def number? (cs : List Char) : Option (List Char × List Char) := do
  let (sign, cs) := match cs with
    | '-' :: rest => (['-'], rest)
    | cs => ([], cs)
  let (whole, cs) ← integer? cs
  let (fraction, cs) ← fraction? cs
  let (exponent, cs) ← exponent? cs
  return (sign ++ whole ++ fraction ++ exponent, cs)

mutual

def value? : Nat → List Char → Option (Value × List Char)
  | 0, _ => none
  | fuel + 1, cs =>
    match skipSpace cs with
    | '\x7b' :: rest =>
      match skipSpace rest with
      | '\x7d' :: rest => some (.object [], rest)
      | rest => members? fuel [] rest
    | '[' :: rest =>
      match skipSpace rest with
      | ']' :: rest => some (.array [], rest)
      | rest => items? fuel [] rest
    | '"' :: rest => (string? rest).map fun (text, rest) => (.string text, rest)
    | 'n' :: 'u' :: 'l' :: 'l' :: rest => some (.null, rest)
    | 't' :: 'r' :: 'u' :: 'e' :: rest => some (.bool true, rest)
    | 'f' :: 'a' :: 'l' :: 's' :: 'e' :: rest => some (.bool false, rest)
    | cs => (number? cs).map fun (spelling, rest) => (.number spelling, rest)

/-- The items of an array from the first value on, `done` holding those before in reverse. -/
def items? : Nat → List Value → List Char → Option (Value × List Char)
  | 0, _, _ => none
  | fuel + 1, done, cs =>
    match value? fuel cs with
    | none => none
    | some (item, rest) =>
      match skipSpace rest with
      | ',' :: rest => items? fuel (item :: done) rest
      | ']' :: rest => some (.array (item :: done).reverse, rest)
      | _ => none

/-- The members of an object from the first key on, `done` holding those before in reverse. -/
def members? : Nat → List (Option String × Value) → List Char → Option (Value × List Char)
  | 0, _, _ => none
  | fuel + 1, done, cs =>
    match skipSpace cs with
    | '"' :: rest =>
      match string? rest with
      | none => none
      | some (key, rest) =>
        match skipSpace rest with
        | ':' :: rest =>
          match value? fuel rest with
          | none => none
          | some (value, rest) =>
            match skipSpace rest with
            | ',' :: rest => members? fuel ((key, value) :: done) rest
            | '\x7d' :: rest => some (.object ((key, value) :: done).reverse, rest)
            | _ => none
        | _ => none
    | _ => none

end

def parse? (cs : List Char) : Option Value :=
  match value? (2 * cs.length + 2) cs with
  | some (value, rest) => if (skipSpace rest).isEmpty then some value else none
  | none => none

def indent (depth : Nat) : String := String.ofList (List.replicate (2 * depth) ' ')

def block (opening closing : String) (depth : Nat) (items : List String) : String :=
  if items.isEmpty then opening ++ closing
  else
    opening ++ "\n" ++ ",\n".intercalate (items.map (indent (depth + 1) ++ ·)) ++ "\n" ++
      indent depth ++ closing

def array (depth : Nat) (items : List String) : String := block "[" "]" depth items

def object (depth : Nat) (members : List (String × String)) : String :=
  block "\x7b" "\x7d" depth (members.map fun (key, value) => s!"\"{key}\": {value}")

end Harvard16.Json
