import Mathlib.Algebra.Order.Ring.Nat
import Mathlib.Data.List.DropRight

/-!
# Text as Python's `str` and `int` see it

The parts of the Unicode database and of the built-in number syntax that the application's
conversions rest on: which characters `int()` reads as decimal digits or skips as blanks, which ones
`str.isdigit` counts, how `repr` quotes a string, and the base ten grammar of `int()` on a string,
with its limit of 4300 digits. Which characters are printable is a table of some seven hundred
ranges and is a parameter of `reprText`.
-/

set_option autoImplicit false

namespace Python

/-! ## Characters -/

/-- The zeros of the decimal digit blocks (general category Nd), ten digits each, ascending. -/
def decimalZeros : List Nat := [
  0x30, 0x660, 0x6F0, 0x7C0, 0x966, 0x9E6, 0xA66, 0xAE6,
  0xB66, 0xBE6, 0xC66, 0xCE6, 0xD66, 0xDE6, 0xE50, 0xED0,
  0xF20, 0x1040, 0x1090, 0x17E0, 0x1810, 0x1946, 0x19D0, 0x1A80,
  0x1A90, 0x1B50, 0x1BB0, 0x1C40, 0x1C50, 0xA620, 0xA8D0, 0xA900,
  0xA9D0, 0xA9F0, 0xAA50, 0xABF0, 0xFF10, 0x104A0, 0x10D30, 0x11066,
  0x110F0, 0x11136, 0x111D0, 0x112F0, 0x11450, 0x114D0, 0x11650, 0x116C0,
  0x11730, 0x118E0, 0x11950, 0x11C50, 0x11D50, 0x11DA0, 0x11F50, 0x16A60,
  0x16AC0, 0x16B50, 0x1D7CE, 0x1D7D8, 0x1D7E2, 0x1D7EC, 0x1D7F6, 0x1E140,
  0x1E2F0, 0x1E4F0, 0x1E950, 0x1FBF0]

/-- The ranges of characters `str.isdigit` counts beside the decimal digits. -/
def otherDigits : List (Nat × Nat) := [
  (0xB2, 0xB3), (0xB9, 0xB9), (0x1369, 0x1371), (0x19DA, 0x19DA), (0x2070, 0x2070),
  (0x2074, 0x2079), (0x2080, 0x2089), (0x2460, 0x2468), (0x2474, 0x247C), (0x2488, 0x2490),
  (0x24EA, 0x24EA), (0x24F5, 0x24FD), (0x24FF, 0x24FF), (0x2776, 0x277E), (0x2780, 0x2788),
  (0x278A, 0x2792), (0x10A40, 0x10A43), (0x10E60, 0x10E68), (0x11052, 0x1105A),
  (0x1F100, 0x1F10A)]

/-- The value of a decimal digit character. -/
def decimalValue (c : Char) : Option Nat :=
  (decimalZeros.find? fun z => decide (z ≤ c.toNat ∧ c.toNat < z + 10)).map (c.toNat - ·)

/-- `str.isdigit` of one character. -/
def isDigit (c : Char) : Bool :=
  (decimalValue c).isSome || otherDigits.any fun r => decide (r.1 ≤ c.toNat ∧ c.toNat ≤ r.2)

/-- The blanks of the C library: tab to carriage return, and space. -/
def isAsciiSpace (c : Char) : Bool := decide (9 ≤ c.toNat ∧ c.toNat ≤ 13) || c == ' '

/-- The white space characters beyond ASCII. -/
def isWideSpace (c : Char) : Bool :=
  c.toNat ∈ [0x85, 0xA0, 0x1680, 0x2028, 0x2029, 0x202F, 0x205F, 0x3000] ||
    decide (0x2000 ≤ c.toNat ∧ c.toNat ≤ 0x200A)

/-! ## `int()` of a string -/

/-- The characters `int()` scans: ASCII as it is, wider blanks and digits in their ASCII form, and
anything else a character that no number holds. -/
def toAsciiDigit (c : Char) : Char :=
  if c.toNat < 127 then c
  else if isWideSpace c then ' '
  else
    match decimalValue c with
    | some d => Char.ofNat (48 + d)
    | none => '?'

/-- Digits with single underscores between them. `digit` says whether the last character read was
a digit, `acc` is the number read so far. -/
def scanDigits : List Char → (digit : Bool) → (acc : Nat) → Option Nat
  | [], digit, acc => if digit then some acc else none
  | c :: cs, digit, acc =>
    if c = '_' then
      if digit then scanDigits cs false acc else none
    else if '0' ≤ c ∧ c ≤ '9' then scanDigits cs true (10 * acc + (c.toNat - 48))
    else none

/-- Drop the blanks at both ends. -/
def stripSpaces (cs : List Char) : List Char :=
  ((cs.dropWhile isAsciiSpace).reverse.dropWhile isAsciiSpace).reverse

/-- `str.isspace` of one character. -/
def isSpace (c : Char) : Bool :=
  isAsciiSpace c || isWideSpace c || decide (0x1C ≤ c.toNat ∧ c.toNat ≤ 0x1F)

/-- `str.strip()`. -/
def strip (cs : List Char) : List Char := ((cs.dropWhile isSpace).reverse.dropWhile isSpace).reverse

theorem strip_eq (cs : List Char) : strip cs = (cs.dropWhile isSpace).rdropWhile isSpace := rfl

/-- Nothing is left to strip. -/
theorem strip_strip (cs : List Char) : strip (strip cs) = strip cs := by
  have hhead : (strip cs).dropWhile isSpace = strip cs := by
    rw [List.dropWhile_eq_self_iff]
    intro hlen
    have hstart : strip cs <+: cs.dropWhile isSpace := List.rdropWhile_prefix _ _
    have hfirst := List.dropWhile_eq_self_iff.mp (List.dropWhile_idempotent isSpace cs)
      (lt_of_lt_of_le hlen hstart.length_le)
    rwa [hstart.getElem hlen]
  calc strip (strip cs) = ((strip cs).dropWhile isSpace).rdropWhile isSpace := strip_eq _
    _ = (strip cs).rdropWhile isSpace := by rw [hhead]
    _ = strip cs := List.rdropWhile_idempotent isSpace (cs.dropWhile isSpace)

/-- `s.strip()`. -/
def stripText (s : String) : String := String.ofList (strip s.toList)

@[simp] theorem stripText_stripText (s : String) : stripText (stripText s) = stripText s := by
  simp only [stripText, String.toList_ofList, strip_strip]

/-- `s.split(",")`. -/
def splitCommas (s : String) : List String := (s.toList.splitOn ',').map String.ofList

/-- The longest decimal string the interpreter converts. -/
def maxStrDigits : Nat := 4300

/-- A number without sign, of at most `maxStrDigits` digits. -/
def scanNumber (cs : List Char) : Option Nat :=
  if (cs.filter fun c => decide ('0' ≤ c ∧ c ≤ '9')).length ≤ maxStrDigits then
    scanDigits cs false 0
  else none

/-- `int(s)` of a string, where it does not raise `ValueError`. -/
def intOfText (s : String) : Option Int :=
  match stripSpaces (s.toList.map toAsciiDigit) with
  | '-' :: cs => (scanNumber cs).map fun n => -(n : Int)
  | '+' :: cs => (scanNumber cs).map Int.ofNat
  | cs => (scanNumber cs).map Int.ofNat

example : intOfText " +1_0\n" = some 10 := by decide

/-! ## `repr()` of a string -/

/-- The last `width` lower case hexadecimal digits of a number, padded with zeros. -/
def hex : (width n : Nat) → List Char
  | 0, _ => []
  | width + 1, n => hex width (n / 16) ++ [Nat.digitChar (n % 16)]

theorem length_hex (width n : Nat) : (hex width n).length = width := by
  induction width generalizing n with
  | zero => rfl
  | succ width ih => simp only [hex, List.length_append, ih, List.length_singleton]

theorem digitChar_inj : ∀ m < 16, ∀ n < 16, Nat.digitChar m = Nat.digitChar n → m = n := by
  decide

/-- Numbers that fit the width are written apart. -/
theorem hex_inj {width m n : Nat} (hm : m < 16 ^ width) (hn : n < 16 ^ width)
    (h : hex width m = hex width n) : m = n := by
  induction width generalizing m n with
  | zero =>
    rw [pow_zero] at hm hn
    omega
  | succ width ih =>
    obtain ⟨hinit, hlast⟩ := List.append_inj' h rfl
    rw [pow_succ] at hm hn
    have hdiv := ih (by omega) (by omega) hinit
    have hmod := digitChar_inj (m % 16) (Nat.mod_lt _ (by decide)) (n % 16)
      (Nat.mod_lt _ (by decide)) (List.singleton_inj.mp hlast)
    omega

/-- How `repr` writes one character of a string in the given quotes. -/
def reprChar (isPrintable : Char → Bool) (quote c : Char) : List Char :=
  if c = quote ∨ c = '\\' then ['\\', c]
  else if c = '\t' then ['\\', 't']
  else if c = '\n' then ['\\', 'n']
  else if c = '\r' then ['\\', 'r']
  else if c.toNat < 0x20 ∨ c.toNat = 0x7F then '\\' :: 'x' :: hex 2 c.toNat
  else if c.toNat < 0x7F ∨ isPrintable c then [c]
  else if c.toNat ≤ 0xFF then '\\' :: 'x' :: hex 2 c.toNat
  else if c.toNat ≤ 0xFFFF then '\\' :: 'u' :: hex 4 c.toNat
  else '\\' :: 'U' :: hex 8 c.toNat

/-- `repr(s)`: in double quotes only where the string holds a single quote and no double one. -/
def reprText (isPrintable : Char → Bool) (s : String) : String :=
  let cs := s.toList
  let quote := if '\'' ∈ cs ∧ '"' ∉ cs then '"' else '\''
  String.ofList (quote :: cs.flatMap (reprChar isPrintable quote) ++ [quote])

end Python
