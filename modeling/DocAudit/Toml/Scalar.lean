import DocAudit.Toml.Quoted

/-!
TOML values that are written as one word: truth values, integers, numbers with a fraction, dates and
times.
-/

set_option autoImplicit false

namespace DocAudit.Toml.Scalar

/-- The value of digits in a base, which single underscores between digits may group; `none` for
anything else, as for no digits. -/
def digits? (base : Nat) (t : Text) : Option Nat :=
  let groups := List.splitOn '_' t
  if groups.any (·.isEmpty) then none
  else do
    let values ← groups.flatten.mapM Quoted.hexValue?
    if values.all (· < base) then some (values.foldl (fun n d => base * n + d) 0) else none

/-- The sign of a number, and what follows it. -/
def cutSign : Text → Bool × Text
  | '+' :: rest => (false, rest)
  | '-' :: rest => (true, rest)
  | t => (false, t)

/-- A decimal number without leading zeros. -/
def decimal? (t : Text) : Option Nat :=
  if t.startsWith "0" && t != ['0'] then none else digits? 10 t

/-- An integer between the limits of 64 bits. -/
def bounded? (n : Int) : Option Value :=
  if -9223372036854775808 ≤ n && n ≤ 9223372036854775807 then some (.integer n) else none

/-- An integer: decimal with an optional sign, or hexadecimal, octal or binary. -/
def integer? (t : Text) : Option Value :=
  match t with
  | '0' :: 'x' :: rest => (digits? 16 rest).bind (bounded? ·)
  | '0' :: 'o' :: rest => (digits? 8 rest).bind (bounded? ·)
  | '0' :: 'b' :: rest => (digits? 2 rest).bind (bounded? ·)
  | _ =>
    let (negative, rest) := cutSign t
    (decimal? rest).bind fun n => bounded? (if negative then -n else n)

/-- Whether a number with these digits, the decimal point after the first `point` of them, is too
large for a float of 64 bits. -/
def overflows (digits : Text) (point : Int) : Bool :=
  let significant := digits.dropWhile (· == '0')
  let magnitude := point - (digits.length - significant.length)
  if significant.isEmpty || magnitude < 309 then false
  else if 310 < magnitude then true
  else
    let n := (digits? 10 significant).getD 0
    -- From the middle between the largest float and the next power of two, a number is rounded up.
    let limit := Nat.pow 2 1024 - Nat.pow 2 970
    limit * Nat.pow 10 significant.length ≤ n * Nat.pow 10 magnitude.toNat

/-- A number with a fraction or an exponent, or one of the special numbers. -/
def float? (t : Text) : Option Value := do
  let (negative, unsigned) := cutSign t
  if unsigned = "inf" || unsigned = "nan" then return .float
  let (mantissa, exponent) := (unsigned.cutFirst? (fun c => c == 'e' || c == 'E')).getD (unsigned, [])
  let hasExponent := mantissa.length < unsigned.length
  let (whole, fraction) := (Text.cutFirst? (· == '.') mantissa).getD (mantissa, [])
  let hasFraction := whole.length < mantissa.length
  guard (hasExponent || hasFraction)
  let _ ← decimal? whole
  if hasFraction then let _ ← digits? 10 fraction
  let (down, size) := cutSign exponent
  let power ← if hasExponent then digits? 10 size else some 0
  let digits := (whole ++ fraction).filter (· != '_')
  let shift : Int := if down then -(power : Int) else power
  guard (negative || !overflows digits ((whole.filter (· != '_')).length + shift))
  return .float

/-- The number that exactly `count` decimal digits write. -/
def field? (count : Nat) (t : Text) : Option Nat :=
  if t.length = count && t.all Char.isDigit then digits? 10 t else none

/-- The number of days of a month. -/
def daysIn (year month : Nat) : Nat :=
  if month = 2 then
    if year % 4 = 0 && (year % 100 ≠ 0 || year % 400 = 0) then 29 else 28
  else if month = 4 || month = 6 || month = 9 || month = 11 then 30
  else 31

/-- Whether a text is a date. -/
def isDate (t : Text) : Bool :=
  match List.splitOn '-' t with
  | [year, month, day] =>
    match field? 4 year, field? 2 month, field? 2 day with
    | some year, some month, some day =>
      1 ≤ month && month ≤ 12 && 1 ≤ day && day ≤ daysIn year month
    | _, _, _ => false
  | _ => false

/-- Whether a text is a time of day, in which a leap second may stand. -/
def isTime (t : Text) : Bool :=
  match List.splitOn ':' t with
  | [hour, minute, second] =>
    let (second, fraction) := (Text.cutFirst? (· == '.') second).getD (second, ['0'])
    match field? 2 hour, field? 2 minute, field? 2 second with
    | some hour, some minute, some second =>
      hour ≤ 23 && minute ≤ 59 && second ≤ 60 && !fraction.isEmpty && fraction.all Char.isDigit
    | _, _, _ => false
  | _ => false

/-- Whether a text is a time of day with or without its distance from universal time. -/
def isOffsetTime (t : Text) : Bool :=
  if t.endsWith "Z" || t.endsWith "z" then isTime t.dropLast
  else
    match Text.cutLast? (fun c => c == '+' || c == '-') t with
    | none => isTime t
    | some (time, offset) =>
      match List.splitOn ':' offset with
      | [hour, minute] =>
        match field? 2 hour, field? 2 minute with
        | some hour, some minute => isTime time && hour ≤ 23 && minute ≤ 59
        | _, _ => false
      | _ => false

/-- Whether a text is a date, a time of day, or both with one of the separators between them. -/
def isDateTime (t : Text) : Bool :=
  isTime t || isDate t ||
    (isDate (t.take 10) && isOffsetTime (t.drop 11) &&
      ((t.drop 10).head?.any fun c => c == 'T' || c == 't' || c == ' '))

/-- The characters of values that are one word. -/
def isWordChar (c : Char) : Bool :=
  c.isAlphanum || c == '_' || c == '+' || c == '-' || c == '.' || c == ':'

/-- The value that a word stands for. -/
def ofWord? (t : Text) : Option Value :=
  if t = "true" then some (.boolean true)
  else if t = "false" then some (.boolean false)
  else if isDateTime t then some .dateTime
  else (float? t).or (integer? t)

/-- The value that a text starts with, and what follows it. A single space may stand between a date
and a time. -/
def read? (t : Text) : Option (Value × Text) :=
  let word := t.takeWhile isWordChar
  let rest := t.dropWhile isWordChar
  match rest with
  | ' ' :: c :: after =>
    if isDate word && c.isDigit then
      let time := (c :: after).takeWhile isWordChar
      (ofWord? (word ++ ' ' :: time)).map (·, (c :: after).dropWhile isWordChar)
    else (ofWord? word).map (·, rest)
  | _ => (ofWord? word).map (·, rest)

end DocAudit.Toml.Scalar
