import SearchQuery.Toml.Value
import SearchQuery.Token.Word
set_option autoImplicit false

/-!
# Scalars

A value without quotes and brackets is a truth value, an integer, a decimal number or a date, told
apart by its characters. Underscores may stand between digits. Integers fit a 128-bit word, with or
without a sign, and a decimal number must not round to infinity.
-/

namespace SearchQuery.Toml.Scalar

open Word (isDigit isExponentMark)

/-- The digits of a run in which single underscores separate digits. -/
def digits? (isDigit : Char → Bool) : List Char → Option (List Char)
  | [] => none
  | [digit] => if isDigit digit then some [digit] else none
  | digit :: '_' :: rest =>
      if isDigit digit then (digits? isDigit rest).map (digit :: ·) else none
  | digit :: rest => if isDigit digit then (digits? isDigit rest).map (digit :: ·) else none

/-- The digits of a decimal integer without a sign: no zero leads others. -/
def decimalDigits? (characters : List Char) : Option (List Char) :=
  match digits? isDigit characters with
  | some ('0' :: _ :: _) => none
  | found => found

/-- The value of a digit in a base of at most sixteen. -/
def digitValue? (base : Nat) (character : Char) : Option Nat :=
  let value :=
    if isDigit character then some (character.toNat - '0'.toNat)
    else if 'a' ≤ character ∧ character ≤ 'f' then some (character.toNat - 'a'.toNat + 10)
    else if 'A' ≤ character ∧ character ≤ 'F' then some (character.toNat - 'A'.toNat + 10)
    else none
  value.filter (· < base)

/-- The number that digits write in a base; other characters count as zero. -/
def valueOf (base : Nat) (digits : List Char) : Nat :=
  digits.foldl (fun value digit => value * base + (digitValue? base digit).getD 0) 0

/-- Splits off a sign: whether it is a minus, and what follows. -/
def signed : List Char → Bool × List Char
  | '+' :: rest => (false, rest)
  | '-' :: rest => (true, rest)
  | rest => (false, rest)

/-- An integer without a sign in a base that its first two characters name. -/
def basedInteger? : List Char → Option Int
  | '0' :: mark :: rest =>
      let base := if mark = 'x' then 16 else if mark = 'o' then 8 else if mark = 'b' then 2 else 0
      (digits? (fun digit => (digitValue? base digit).isSome) rest).map fun digits =>
        Int.ofNat (valueOf base digits)
  | _ => none

def integer? (characters : List Char) : Option Int :=
  match basedInteger? characters with
  | some value => some value
  | none =>
      let (negative, rest) := signed characters
      (decimalDigits? rest).map fun digits =>
        let value := Int.ofNat (valueOf 10 digits)
        if negative then -value else value

/-- Whether an integer fits a 128-bit word, with or without a sign. -/
def fitsWord (value : Int) : Bool :=
  -Int.ofNat (Nat.pow 2 127) ≤ value && value < Int.ofNat (Nat.pow 2 128)

/-- A decimal number: its digits without the point, how many of them follow it, and the exponent. -/
structure Decimal where
  digits : List Char
  fractionLength : Nat
  exponent : Int
deriving DecidableEq, Repr

def exponent? (characters : List Char) : Option Int :=
  let (negative, rest) := signed characters
  (digits? isDigit rest).map fun digits =>
    let value := Int.ofNat (valueOf 10 digits)
    if negative then -value else value

/-- A decimal number with a fraction, an exponent, or both. -/
def decimal? (characters : List Char) : Option Decimal := do
  let (_, unsigned) := signed characters
  let mantissa := unsigned.takeWhile (!isExponentMark ·)
  let afterMantissa := unsigned.dropWhile (!isExponentMark ·)
  let whole ← decimalDigits? (mantissa.takeWhile (· != '.'))
  let fraction ← match mantissa.dropWhile (· != '.') with
    | [] => if afterMantissa.isEmpty then none else some []
    | _ :: rest => digits? isDigit rest
  let exponent ← match afterMantissa with
    | [] => some 0
    | _ :: rest => exponent? rest
  return ⟨whole ++ fraction, fraction.length, exponent⟩

/-- The least number that rounds to infinity in double precision. -/
def infinityBound : Nat :=
  Nat.pow 2 1024 - Nat.pow 2 970

/-- Whether a decimal number rounds to infinity in double precision. The number of digits before
the point decides except near the bound. -/
def Decimal.overflows (decimal : Decimal) : Bool :=
  let mantissa := valueOf 10 decimal.digits
  let significant := decimal.digits.dropWhile (· == '0')
  let scale := decimal.exponent - Int.ofNat decimal.fractionLength
  let magnitude := Int.ofNat significant.length + scale
  if mantissa = 0 ∨ magnitude < 308 then false
  else if 310 < magnitude then true
  else if 0 ≤ scale then infinityBound ≤ mantissa * Nat.pow 10 scale.toNat
  else infinityBound * Nat.pow 10 (-scale).toNat ≤ mantissa

/-- Whether characters name infinity or the absence of a number. -/
def isSpecialFloat (characters : List Char) : Bool :=
  let (_, unsigned) := signed characters
  unsigned == ['i', 'n', 'f'] || unsigned == ['n', 'a', 'n']

/-! ### Dates and times -/

def twoDigits? : Char → Char → Option Nat
  | tens, ones => if isDigit tens && isDigit ones then some (valueOf 10 [tens, ones]) else none

def daysIn (year month : Nat) : Nat :=
  if month = 2 then
    if (year % 4 = 0 ∧ year % 100 ≠ 0) ∨ year % 400 = 0 then 29 else 28
  else if month = 4 ∨ month = 6 ∨ month = 9 ∨ month = 11 then 30
  else 31

/-- Takes a date `YYYY-MM-DD` off the front. -/
def afterDate? : List Char → Option (List Char)
  | y1 :: y2 :: y3 :: y4 :: '-' :: m1 :: m2 :: '-' :: d1 :: d2 :: rest => do
      let century ← twoDigits? y1 y2
      let years ← twoDigits? y3 y4
      let month ← twoDigits? m1 m2
      let day ← twoDigits? d1 d2
      if 1 ≤ month ∧ month ≤ 12 ∧ 1 ≤ day ∧ day ≤ daysIn (century * 100 + years) month then
        return rest
      else
        none
  | _ => none

/-- Takes the fraction of a second off the front, if there is a point. -/
def afterFraction? : List Char → Option (List Char)
  | '.' :: rest =>
      if (rest.takeWhile isDigit).isEmpty then none else some (rest.dropWhile isDigit)
  | rest => some rest

/-- Takes a time `HH:MM[:SS[.f]]` off the front. -/
def afterTime? : List Char → Option (List Char)
  | h1 :: h2 :: ':' :: m1 :: m2 :: rest => do
      let hour ← twoDigits? h1 h2
      let minute ← twoDigits? m1 m2
      if 23 < hour ∨ 59 < minute then none
      else
        match rest with
        | ':' :: s1 :: s2 :: rest => do
            let second ← twoDigits? s1 s2
            if 60 < second then none else afterFraction? rest
        | rest => some rest
  | _ => none

/-- Takes an offset from universal time off the front, if there is one. -/
def afterOffset? : List Char → Option (List Char)
  | 'Z' :: rest | 'z' :: rest => some rest
  | sign :: h1 :: h2 :: ':' :: m1 :: m2 :: rest => do
      let hour ← twoDigits? h1 h2
      let minute ← twoDigits? m1 m2
      if (sign = '+' ∨ sign = '-') ∧ hour ≤ 23 ∧ minute ≤ 59 then return rest else none
  | rest => some rest

/-- Whether characters are a date, a time, or both with an optional offset. -/
def isDatetime (characters : List Char) : Bool :=
  match afterDate? characters with
  | none => afterTime? characters == some []
  | some [] => true
  | some (separator :: rest) =>
      (separator == 'T' || separator == 't' || separator == ' ') &&
        ((afterTime? rest).bind afterOffset?) == some []

/-- The value that characters without quotes and brackets write. -/
def read (characters : List Char) : Except Fault Value :=
  let text := String.ofList characters
  if text = "true" then .ok (.boolean true)
  else if text = "false" then .ok (.boolean false)
  else
    match integer? characters with
    | some value => if fitsWord value then .ok (.integer value) else .error (.numberTooLarge text)
    | none =>
        match decimal? characters with
        | some decimal =>
            if decimal.overflows then .error (.numberTooLarge text) else .ok (.float text)
        | none =>
            if isSpecialFloat characters then .ok (.float text)
            else if isDatetime characters then .ok (.datetime text)
            else .error (.unknownScalar text)

def isScalarCharacter (character : Char) : Bool :=
  Word.isLetter character || isDigit character ||
    ['+', '-', '_', '.', ':'].contains character

/-- The characters of a scalar and what follows. A blank may separate a date from a time. -/
def cut (characters : List Char) : List Char × List Char :=
  let first := characters.takeWhile isScalarCharacter
  let rest := characters.dropWhile isScalarCharacter
  match afterDate? first, rest with
  | some [], ' ' :: digit :: after =>
      if isDigit digit then
        (first ++ ' ' :: (digit :: after).takeWhile isScalarCharacter,
          (digit :: after).dropWhile isScalarCharacter)
      else (first, rest)
  | _, _ => (first, rest)

end SearchQuery.Toml.Scalar
