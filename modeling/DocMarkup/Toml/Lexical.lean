import DocMarkup.Text.Basic
import DocMarkup.Text.Word

namespace DocMarkup.Toml

def quote : Char := '\x22'

def apostrophe : Char := '\x27'

def isSpace (c : Char) : Bool := c == ' ' || c == '\t'

def isVisible (c : Char) : Bool := c == '\t' || (0x20 ≤ c.toNat && c.toNat != 0x7F)

def skipSpaces (text : Text) : Text := text.dropWhile isSpace

def lineEnd? : Text → Option Text
  | '\n' :: rest => some rest
  | '\r' :: '\n' :: rest => some rest
  | _ => none

def skipComment : Text → Text
  | '#' :: rest => rest.dropWhile isVisible
  | text => text

def finishLine? (text : Text) : Option Text :=
  match skipComment (skipSpaces text) with
  | [] => some []
  | rest => lineEnd? rest

def skipLines (inComment : Bool) : Text → Text
  | [] => []
  | '\n' :: rest => skipLines false rest
  | '\r' :: '\n' :: rest => skipLines false rest
  | c :: rest =>
    if inComment then
      if isVisible c then skipLines true rest else c :: rest
    else if isSpace c then skipLines false rest
    else if c == '#' then skipLines true rest
    else c :: rest

def hexValue? (c : Char) : Option Nat :=
  if '0' ≤ c && c ≤ '9' then some (c.toNat - 48)
  else if 'a' ≤ c && c ≤ 'f' then some (c.toNat - 87)
  else if 'A' ≤ c && c ≤ 'F' then some (c.toNat - 55)
  else none

def numeral? (base : Nat) (digits : Text) : Option Nat :=
  digits.foldlM
    (fun n c => (hexValue? c).bind fun d => if d < base then some (n * base + d) else none) 0

def codePoint? (n : Nat) (text : Text) : Option (Char × Text) :=
  if text.length < n then none
  else
    match numeral? 16 (text.take n) with
    | some code => if code.isValidChar then some (Char.ofNat code, text.drop n) else none
    | none => none

def escaped? : Text → Option (Char × Text)
  | [] => none
  | c :: rest =>
    if c == quote || c == '\\' then some (c, rest)
    else if c == 'b' then some ('\x08', rest)
    else if c == 't' then some ('\t', rest)
    else if c == 'n' then some ('\n', rest)
    else if c == 'f' then some ('\x0c', rest)
    else if c == 'r' then some ('\r', rest)
    else if c == 'u' then codePoint? 4 rest
    else if c == 'U' then codePoint? 8 rest
    else none

abbrev Read (α : Type) := Option (α × Text)

def before (c : Char) (read : Read Text) : Read Text :=
  read.map fun (text, rest) => (c :: text, rest)

def basicRest? : Nat → Text → Read Text
  | 0, _ => none
  | _, [] => none
  | fuel + 1, c :: rest =>
    if c == quote then some ([], rest)
    else if c == '\\' then (escaped? rest).bind fun (d, rest) => before d (basicRest? fuel rest)
    else if isVisible c then before c (basicRest? fuel rest)
    else none

def literalRest? (text : Text) : Read Text :=
  match text.dropWhile fun c => isVisible c && c != apostrophe with
  | [] => none
  | c :: rest =>
    if c == apostrophe then some (text.takeWhile fun c => isVisible c && c != apostrophe, rest)
    else none

def joinedLine? (text : Text) : Option Text :=
  (lineEnd? (skipSpaces text)).map (skipBlankLines ·)
where
  skipBlankLines : Text → Text
    | [] => []
    | '\n' :: rest => skipBlankLines rest
    | '\r' :: '\n' :: rest => skipBlankLines rest
    | c :: rest => if isSpace c then skipBlankLines rest else c :: rest

/-- The rest of a string over several lines, which three quotes close. Up to two more quotes in
front of these belong to the string. `escapes` tells whether a backslash is special, and `fuel`
bounds the characters. -/
def multilineRest? (escapes : Bool) (closing : Char) : Nat → Text → Read Text
  | 0, _ => none
  | _, [] => none
  | fuel + 1, c :: rest =>
    if c == closing && rest.take 2 == [closing, closing] then
      let quotes := (c :: rest).takeWhile (· == closing)
      let extra := min (quotes.length - 3) 2
      some (List.replicate extra closing, (c :: rest).drop (3 + extra))
    else if escapes && c == '\\' then
      match joinedLine? rest with
      | some rest => multilineRest? escapes closing fuel rest
      | none =>
        (escaped? rest).bind fun (d, rest) => before d (multilineRest? escapes closing fuel rest)
    else
      match lineEnd? (c :: rest) with
      | some rest => before '\n' (multilineRest? escapes closing fuel rest)
      | none => if isVisible c then before c (multilineRest? escapes closing fuel rest) else none

def multiline? (escapes : Bool) (closing : Char) (text : Text) : Read Text :=
  multilineRest? escapes closing (text.length + 1) ((lineEnd? text).getD text)

def string? (text : Text) : Read Text :=
  match text with
  | [] => none
  | c :: rest =>
    let tripled := rest.take 2 == [c, c]
    if c == quote then
      if tripled then multiline? true quote (rest.drop 2) else basicRest? (rest.length + 1) rest
    else if c == apostrophe then
      if tripled then multiline? false apostrophe (rest.drop 2) else literalRest? rest
    else none

def isBareKey (c : Char) : Bool := isAlphanumeric c || c == '_' || c == '-'

def simpleKey? (text : Text) : Read Text :=
  match text with
  | [] => none
  | c :: rest =>
    if c == quote then basicRest? (rest.length + 1) rest
    else if c == apostrophe then literalRest? rest
    else if isBareKey c then some (text.takeWhile isBareKey, text.dropWhile isBareKey)
    else none

def maxDepth : Nat := 79

def keysWithin? : Nat → Text → Read (List Text)
  | 0, _ => none
  | limit + 1, text =>
    (simpleKey? (skipSpaces text)).bind fun (key, rest) =>
      match skipSpaces rest with
      | '.' :: rest => (keysWithin? limit rest).map fun (path, rest) => (key :: path, rest)
      | rest => some ([key], rest)

def keyPath? (text : Text) : Read (List Text) := keysWithin? maxDepth text

def ungrouped? (isDigitOf : Char → Bool) (text : Text) : Option Text :=
  let groups := text.splitOn '_'
  if groups.all fun group => !group.isEmpty && group.all isDigitOf then some groups.flatten
  else none

def decimal? (text : Text) : Option Nat :=
  match ungrouped? isDigit text with
  | none => none
  | some digits =>
    if digits.head? == some '0' && text.length != 1 then none else numeral? 10 digits

def signed (text : Text) : Bool × Text :=
  match text with
  | '-' :: rest => (true, rest)
  | '+' :: rest => (false, rest)
  | _ => (false, text)

def inBase? (base : Nat) (digits : Text) : Option Int :=
  ((ungrouped? (fun c => (hexValue? c).any (· < base)) digits).bind (numeral? base)).map Int.ofNat

def integer? (text : Text) : Option Int :=
  let number : Option Int :=
    match text with
    | '0' :: 'x' :: digits => inBase? 16 digits
    | '0' :: 'o' :: digits => inBase? 8 digits
    | '0' :: 'b' :: digits => inBase? 2 digits
    | _ =>
      let (negative, digits) := signed text
      (decimal? digits).map fun n => if negative then -(n : Int) else n
  number.filter fun n => -9223372036854775808 ≤ n && n < 9223372036854775808

def isFloatTail (text : Text) : Bool :=
  let isPart (digits : Text) : Bool := (ungrouped? isDigit digits).isSome
  let isExponent (digits : Text) : Bool := isPart (signed digits).2
  match text with
  | '.' :: rest =>
    let fraction := rest.takeWhile fun c => c != 'e' && c != 'E'
    let behind := rest.dropWhile fun c => c != 'e' && c != 'E'
    isPart fraction && (behind.isEmpty || isExponent (behind.drop 1))
  | 'e' :: rest => isExponent rest
  | 'E' :: rest => isExponent rest
  | _ => false

def isFloat (text : Text) : Bool :=
  let (_, number) := signed text
  let isWhole (c : Char) : Bool := isDigit c || c == '_'
  number = "inf" || number = "nan" ||
    ((decimal? (number.takeWhile isWhole)).isSome && isFloatTail (number.dropWhile isWhole))

/-- The least number that is infinite as a double: halfway between the greatest double and the power
of two behind it. -/
def infiniteFrom : Nat := Nat.pow 2 1024 - Nat.pow 2 970

def exponentSize (digits : Text) : Nat :=
  digits.foldl (fun n c => if n < 65536 then n * 10 + (hexValue? c).getD 0 else n) 0

def isInfinite (n : Nat) (exponent : Int) : Bool :=
  let scale := Nat.pow 10 exponent.natAbs
  if exponent < 0 then infiniteFrom * scale ≤ n else infiniteFrom ≤ n * scale

/-- A number that is too great for a double. Negative numbers never count as such. -/
def isTooGreat (text : Text) : Bool :=
  let (negative, number) := signed text
  let beforeExponent (c : Char) : Bool := c != 'e' && c != 'E'
  let decimal := number.takeWhile beforeExponent
  let places := ((decimal.dropWhile (· != '.')).filter isDigit).length
  let (down, digits) := signed ((number.dropWhile beforeExponent).drop 1)
  let size : Int := exponentSize (digits.filter isDigit)
  !negative && (numeral? 10 (decimal.filter isDigit)).any fun n =>
    n != 0 && isInfinite n ((if down then -size else size) - places)

def isField (n low high : Nat) (text : Text) : Bool :=
  text.length == n && text.all isDigit && (numeral? 10 text).any fun k => low ≤ k && k ≤ high

def isLeapYear (year : Nat) : Bool := year % 4 == 0 && (year % 100 != 0 || year % 400 == 0)

def daysIn (year month : Nat) : Nat :=
  if month == 2 then (if isLeapYear year then 29 else 28)
  else if month == 4 || month == 6 || month == 9 || month == 11 then 30
  else 31

def isDate (text : Text) : Bool :=
  match text.splitOn '-' with
  | [year, month, day] =>
    isField 4 0 9999 year && isField 2 1 12 month &&
      isField 2 1 (daysIn ((numeral? 10 year).getD 0) ((numeral? 10 month).getD 0)) day
  | _ => false

def isSecond (text : Text) : Bool :=
  isField 2 0 60 (text.take 2) &&
    match text.drop 2 with
    | [] => true
    | '.' :: digits => !digits.isEmpty && digits.all isDigit
    | _ => false

def keptFraction (digits : Text) : Text :=
  let places := ((digits.take 9).reverse.dropWhile (· == '0')).reverse
  if places.isEmpty then [] else '.' :: places

def time? (text : Text) : Option Text :=
  match text.splitOn ':' with
  | [hour, minute, second] =>
    if isField 2 0 23 hour && isField 2 0 59 minute && isSecond second then
      some (hour ++ ":" ++ minute ++ ":" ++ second.take 2 ++ keptFraction (second.drop 3))
    else none
  | _ => none

def offset? (text : Text) : Option Text :=
  match text with
  | [] => some []
  | [c] => if c == 'Z' || c == 'z' then some ['Z'] else none
  | c :: rest =>
    match rest.splitOn ':' with
    | [hour, minute] =>
      if (c == '+' || c == '-') && isField 2 0 23 hour && isField 2 0 59 minute then
        some (if rest = "00:00" then "+00:00" else text)
      else none
    | _ => none

def dateTime? (text : Text) : Option Text :=
  let date := text.take 10
  let clock := text.drop 11
  let isClock (c : Char) : Bool := isDigit c || c == ':' || c == '.'
  if isDate text then some text
  else if isDate date && (text.drop 10).head?.any (fun c => c == 'T' || c == 't' || c == ' ') then
    (time? (clock.takeWhile isClock)).bind fun time =>
      (offset? (clock.dropWhile isClock)).map fun offset => date ++ "T" ++ time ++ offset
  else time? text

def isScalar (c : Char) : Bool :=
  isAlphanumeric c || c == '+' || c == '-' || c == '_' || c == '.' || c == ':'

def scalar (text : Text) : Text × Text :=
  let first := text.takeWhile isScalar
  let rest := text.dropWhile isScalar
  match rest with
  | ' ' :: c :: behind =>
    if isDate first && isDigit c then
      (first ++ ' ' :: (c :: behind).takeWhile isScalar, (c :: behind).dropWhile isScalar)
    else (first, rest)
  | _ => (first, rest)

end DocMarkup.Toml
