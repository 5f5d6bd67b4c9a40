/-! Numbers in text. Readers take a nonempty string of digits of one base whose value is below a
bound, and nothing else; they set no bound on its length or on leading zeros. No number grows
past the bound while it is read, so the time is linear in the length. Writers give at least
the width that is asked for and never cut a longer number. -/
namespace Harvard16.Text

/-- The value of digits, but `bound` in place of every value that is not below it. -/
def cappedValue (base bound : Nat) (digit : Char → Nat) (cs : List Char) : Nat :=
  cs.foldl (fun n c => min bound (base * n + digit c)) 0

theorem cappedValue_eq_min {base : Nat} (positive : 0 < base) (bound : Nat) (digit : Char → Nat)
    (cs : List Char) :
    cappedValue base bound digit cs =
      min bound (cs.foldl (fun n c => base * n + digit c) 0) := by
  suffices h : ∀ n, cs.foldl (fun n c => min bound (base * n + digit c)) (min bound n) =
      min bound (cs.foldl (fun n c => base * n + digit c) n) by
    have start := h 0
    rwa [Nat.min_eq_right (Nat.zero_le bound)] at start
  induction cs with
  | nil => exact fun _ => rfl
  | cons c cs ih =>
    intro n
    have step : min bound (base * min bound n + digit c) = min bound (base * n + digit c) := by
      rcases Nat.le_total n bound with h | h
      · rw [Nat.min_eq_right h]
      · have small : bound ≤ base * bound := Nat.le_mul_of_pos_left bound positive
        have large : base * bound ≤ base * n := Nat.mul_le_mul_left base h
        rw [Nat.min_eq_left h]
        omega
    rw [List.foldl_cons, List.foldl_cons, step, ih]

def below? (bound n : Nat) : Option Nat := if n < bound then some n else none

theorem below?_min (bound n : Nat) : below? bound (min bound n) = below? bound n := by
  by_cases h : n < bound
  · rw [Nat.min_eq_right (Nat.le_of_lt h)]
  · rw [Nat.min_eq_left (Nat.le_of_not_lt h)]
    simp [below?, h]

def decimal? (bound : Nat) (cs : List Char) : Option Nat :=
  if !cs.isEmpty && cs.all Char.isDigit then
    below? bound (cappedValue 10 bound (fun c => c.toNat - '0'.toNat) cs)
  else none

theorem lt_of_below? {bound n m : Nat} (h : below? bound n = some m) : m < bound := by
  unfold below? at h
  split at h
  · cases h
    assumption
  · cases h

theorem lt_of_decimal? {bound n : Nat} {cs : List Char} (h : decimal? bound cs = some n) :
    n < bound := by
  unfold decimal? at h
  split at h
  · exact lt_of_below? h
  · cases h

/-- A decimal numeral has the value that its digits have by place. -/
theorem decimal?_eq (bound : Nat) (cs : List Char) :
    decimal? bound cs =
      if !cs.isEmpty && cs.all Char.isDigit then below? bound (Nat.ofDigitChars 10 cs 0)
      else none := by
  rw [decimal?, cappedValue_eq_min (by decide), below?_min]
  rfl

theorem decimal?_eq_some_iff {bound n : Nat} {cs : List Char} :
    decimal? bound cs = some n ↔
      (cs ≠ [] ∧ (∀ c ∈ cs, c.isDigit = true) ∧ Nat.ofDigitChars 10 cs 0 = n) ∧ n < bound := by
  rw [decimal?_eq, below?]
  grind

theorem decimal?_toDigits {bound n : Nat} (h : n < bound) :
    decimal? bound (Nat.toDigits 10 n) = some n := by
  have digits : (Nat.toDigits 10 n).all Char.isDigit = true :=
    List.all_eq_true.2 fun c hc => Nat.isDigit_of_mem_toDigits (by decide) (by decide) hc
  have nonempty : (Nat.toDigits 10 n).isEmpty = false := by
    simp [List.isEmpty_eq_false_iff, Nat.toDigits_ne_nil]
  simp [decimal?_eq, digits, nonempty, Nat.ofDigitChars_toDigits, below?, h]

def counterBound : Nat := 0x10000000000000000

/-- A count as users give it: decimal digits behind at most one plus sign, with a value of at most
64 bits. -/
def counter? (cs : List Char) : Option Nat :=
  match cs with
  | '+' :: digits => decimal? counterBound digits
  | digits => decimal? counterBound digits

def hexDigit? (c : Char) : Option Nat :=
  if '0' ≤ c ∧ c ≤ '9' then some (c.toNat - '0'.toNat)
  else if 'a' ≤ c ∧ c ≤ 'f' then some (c.toNat - 'a'.toNat + 10)
  else if 'A' ≤ c ∧ c ≤ 'F' then some (c.toNat - 'A'.toNat + 10)
  else none

theorem hexDigit?_digitChar {d : Nat} (h : d < 16) : hexDigit? (Nat.digitChar d) = some d := by
  have all : ∀ e ∈ List.range 16, hexDigit? (Nat.digitChar e) = some e := by decide
  exact all d (List.mem_range.2 h)

def hexadecimal? (bound : Nat) (cs : List Char) : Option Nat :=
  if !cs.isEmpty && cs.all (fun c => (hexDigit? c).isSome) then
    below? bound (cappedValue 16 bound (fun c => (hexDigit? c).getD 0) cs)
  else none

theorem hexadecimal?_eq (bound : Nat) (cs : List Char) :
    hexadecimal? bound cs =
      if !cs.isEmpty && cs.all (fun c => (hexDigit? c).isSome) then
        below? bound (cs.foldl (fun n c => 16 * n + (hexDigit? c).getD 0) 0)
      else none := by
  rw [hexadecimal?, cappedValue_eq_min (by decide), below?_min]

def hex (width n : Nat) : String := String.ofList ((Nat.toDigits 16 n).leftpad width '0')

def upperHex (width n : Nat) : String :=
  String.ofList (((Nat.toDigits 16 n).map Char.toUpper).leftpad width '0')

def hexWord (n : Nat) : String := "0x" ++ hex 4 n

def binary (width n : Nat) : String := String.ofList ((Nat.toDigits 2 n).leftpad width '0')

def binary? (cs : List Char) : Option Nat :=
  if cs.all (fun c => c == '0' || c == '1') then some (Nat.ofDigitChars 2 cs 0) else none

end Harvard16.Text
