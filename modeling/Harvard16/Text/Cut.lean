/-! Blank characters and the cutting of text. A character is blank when it has the
Unicode property White_Space; lines end at a line feed, and the carriage return that
may stand before it is blank, so trimming a line removes it. Text is a list of
characters throughout, and nothing here looks at bytes. -/
namespace Harvard16.Text

/-- The characters with the property White_Space. -/
def isBlank (c : Char) : Bool :=
  let n := c.toNat
  if n < 0x80 then n == 0x20 || (9 ≤ n && n ≤ 13)
  else n == 0x85 || n == 0xA0 || n == 0x1680 || (0x2000 ≤ n && n ≤ 0x200A) ||
    n == 0x2028 || n == 0x2029 || n == 0x202F || n == 0x205F || n == 0x3000

def trimStart (cs : List Char) : List Char := cs.dropWhile isBlank

def trimEnd (cs : List Char) : List Char := (cs.reverse.dropWhile isBlank).reverse

def trim (cs : List Char) : List Char := trimEnd (trimStart cs)

def cutAt? (mark : Char) (cs : List Char) : Option (List Char × List Char) :=
  match cs.dropWhile (· != mark) with
  | [] => none
  | _ :: rest => some (cs.takeWhile (· != mark), rest)

theorem eq_of_cutAt? {mark : Char} {cs before after : List Char}
    (h : cutAt? mark cs = some (before, after)) : cs = before ++ mark :: after := by
  have whole := List.takeWhile_append_dropWhile (p := (· != mark)) (l := cs)
  unfold cutAt? at h
  split at h
  · cases h
  · rename_i c rest found
    cases h
    have stop : (c != mark) = false := by
      simpa [found] using List.head?_dropWhile_not (· != mark) cs
    rw [found] at whole
    simp_all

/-- The lines of a text; text after the last line feed is a line of its own. -/
def lines (cs : List Char) : List (List Char) := cs.splitOn '\n'

def tokens (isSeparator : Char → Bool) (cs : List Char) : List (List Char) :=
  (cs.splitOnP isSeparator).filter (!·.isEmpty)

def padStart (width : Nat) (s : String) : String := String.ofList (s.toList.leftpad width ' ')

def padEnd (width : Nat) (s : String) : String := String.ofList (s.toList.rightpad width ' ')

end Harvard16.Text
