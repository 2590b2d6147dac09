import Mathlib.Data.List.DropRight

/-!
# Text: white space, hex and quoted strings

Text operations a program gets from its standard library and from a hex codec:
trimming white space and splitting at it, hex in both directions, and the quoted
form a debug printer gives a string.

Hex is written in lower case and read in either case, so reading inverts
writing and writing after reading is a normal form. White space is Unicode's
`White_Space`, which no hex digit belongs to, so trimming leaves a written hex
string alone. Which characters outside ASCII a debug printer leaves unescaped is
a table of the printer's own and stays a parameter.
-/

namespace Text

open List

/-- Unicode's `White_Space` property. -/
def isWhitespace (c : Char) : Bool :=
  (0x09 ≤ c.toNat && c.toNat ≤ 0x0d) || c.toNat = 0x20 || c.toNat = 0x85 || c.toNat = 0xa0 ||
    c.toNat = 0x1680 || (0x2000 ≤ c.toNat && c.toNat ≤ 0x200a) || c.toNat = 0x2028 ||
    c.toNat = 0x2029 || c.toNat = 0x202f || c.toNat = 0x205f || c.toNat = 0x3000

def trim (s : List Char) : List Char :=
  (s.dropWhile isWhitespace).rdropWhile isWhitespace

theorem trim_of_forall_not {s : List Char} (h : ∀ c ∈ s, isWhitespace c = false) : trim s = s := by
  have hl : s.dropWhile isWhitespace = s := by
    rcases s with _ | ⟨c, cs⟩
    · rfl
    · exact dropWhile_cons_of_neg (by simp [h c mem_cons_self])
  unfold trim
  rw [hl, rdropWhile_eq_self_iff]
  intro hne
  simp [h _ (getLast_mem hne)]

/-- The words of a text, with no white space and none of them empty. -/
def splitWhitespace (s : List Char) : List (List Char) :=
  (s.splitOnP isWhitespace).filter (· ≠ [])

/-! ### Hex -/

def hexChar (n : Nat) : Char :=
  match n with
  | 0 => '0' | 1 => '1' | 2 => '2' | 3 => '3' | 4 => '4' | 5 => '5' | 6 => '6' | 7 => '7'
  | 8 => '8' | 9 => '9' | 10 => 'a' | 11 => 'b' | 12 => 'c' | 13 => 'd' | 14 => 'e' | _ => 'f'

def hexVal (c : Char) : Option Nat :=
  if '0' ≤ c ∧ c ≤ '9' then some (c.toNat - '0'.toNat)
  else if 'a' ≤ c ∧ c ≤ 'f' then some (c.toNat - 'a'.toNat + 10)
  else if 'A' ≤ c ∧ c ≤ 'F' then some (c.toNat - 'A'.toNat + 10)
  else none

def hexEncode : List UInt8 → List Char
  | [] => []
  | b :: bs => hexChar (b.toNat / 16) :: hexChar (b.toNat % 16) :: hexEncode bs

/-- Reads pairs of digits; an odd length and any other character are refused. -/
def hexDecode : List Char → Option (List UInt8)
  | [] => some []
  | [_] => none
  | hi :: lo :: rest =>
    match hexVal hi, hexVal lo, hexDecode rest with
    | some h, some l, some bs => some (UInt8.ofNat (16 * h + l) :: bs)
    | _, _, _ => none

theorem hexVal_hexChar {n : Nat} (h : n < 16) : hexVal (hexChar n) = some n := by
  -- There are sixteen digits, and each is tried.
  have hall : ∀ m : Fin 16, hexVal (hexChar m) = some m.val := by decide
  exact hall ⟨n, h⟩

theorem isWhitespace_hexChar {n : Nat} (h : n < 16) : isWhitespace (hexChar n) = false := by
  have hall : ∀ m : Fin 16, isWhitespace (hexChar m) = false := by decide
  exact hall ⟨n, h⟩

theorem toNat_div_lt (b : UInt8) : b.toNat / 16 < 16 := by
  have := b.toNat_lt
  omega

theorem toNat_mod_lt (b : UInt8) : b.toNat % 16 < 16 :=
  Nat.mod_lt _ (by decide)

theorem hexDecode_hexEncode (bs : List UInt8) : hexDecode (hexEncode bs) = some bs := by
  induction bs with
  | nil => rfl
  | cons b bs ih =>
    -- A byte is its two digits put together again.
    have hb : UInt8.ofNat (16 * (b.toNat / 16) + b.toNat % 16) = b := by
      rw [Nat.div_add_mod, UInt8.ofNat_toNat]
    simp only [hexEncode, hexDecode, hexVal_hexChar (toNat_div_lt b),
      hexVal_hexChar (toNat_mod_lt b), ih, hb]

theorem trim_hexEncode (bs : List UInt8) : trim (hexEncode bs) = hexEncode bs := by
  apply trim_of_forall_not
  induction bs with
  | nil => exact fun c hc => absurd hc not_mem_nil
  | cons b bs ih =>
    intro c hc
    simp only [hexEncode, mem_cons] at hc
    rcases hc with rfl | rfl | hc
    · exact isWhitespace_hexChar (toNat_div_lt b)
    · exact isWhitespace_hexChar (toNat_mod_lt b)
    · exact ih c hc

/-! ### Quoted strings -/

def hexDigits : Nat → Nat → List Nat
  | 0, _ => []
  | fuel + 1, n => if n < 16 then [n] else (n % 16) :: hexDigits fuel (n / 16)

/-- A character's number in hex without leading zeros; six digits hold the
    largest. -/
def hexCodePoint (c : Char) : List Char :=
  (hexDigits 6 c.toNat).reverse.map hexChar

def escapeDebug (plain : Char → Bool) (c : Char) : List Char :=
  if c = '\x00' then ['\\', '0']
  else if c = '\t' then ['\\', 't']
  else if c = '\r' then ['\\', 'r']
  else if c = '\n' then ['\\', 'n']
  else if c = '\\' then ['\\', '\\']
  else if c = '"' then ['\\', '"']
  -- What is left is printed as it is, or by its number when it is not printable.
  else if (0x20 ≤ c.toNat && c.toNat < 0x7f) || (0x7f < c.toNat && plain c) then [c]
  else ['\\', 'u', '\x7b'] ++ hexCodePoint c ++ ['\x7d']

/-- A string in double quotes with its escapes. `plain` says which characters
    outside ASCII are printed as they are. -/
def debugStr (plain : Char → Bool) (s : String) : String :=
  String.ofList ('"' :: (s.toList.flatMap (escapeDebug plain) ++ ['"']))

end Text
