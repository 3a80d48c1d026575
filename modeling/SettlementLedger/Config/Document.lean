import SettlementLedger.Datum

/-!
# Configuration documents

A document is a list of lines, each blank, a comment, or a key and a value separated by an equals
sign. A key is bare or quoted. A value is a string in one of four quotations or an integer in one of
four bases; these are the values a configuration can have, and a document with any other is refused.
-/

set_option autoImplicit false
set_option relaxedAutoImplicit false

namespace SettlementLedger.Document

/-- A space or a tab. -/
def isBlank (c : Char) : Bool := c == ' ' || c == '\t'

/-- A character that may stand in a comment or a literal string: a tab or no control character. -/
def isPlain (c : Char) : Bool := c == '\t' || (' ' ≤ c && c != '\x7f')

/-- What is left after spaces and tabs. -/
def skipBlanks (input : List Char) : List Char := input.dropWhile isBlank

/-- What is left after a line break, if the text starts with one. -/
def lineBreak? : List Char → Option (List Char)
  | '\n' :: rest => some rest
  | '\r' :: '\n' :: rest => some rest
  | _ => none

/-- What is left after blanks, an optional comment, and a line break or the end. -/
def endLine? (input : List Char) : Option (List Char) :=
  let rest := match skipBlanks input with
    | '#' :: comment => comment.dropWhile isPlain
    | other => other
  if rest.isEmpty then some [] else lineBreak? rest

/-! ### Strings -/

/-- The value of a hexadecimal digit in either case. -/
def hexDigit? (c : Char) : Option Nat :=
  if '0' ≤ c ∧ c ≤ '9' then some (c.toNat - '0'.toNat)
  else if 'a' ≤ c ∧ c ≤ 'f' then some (c.toNat - 'a'.toNat + 10)
  else if 'A' ≤ c ∧ c ≤ 'F' then some (c.toNat - 'A'.toNat + 10)
  else none

/-- The character with a code point, if there is one. -/
def scalar? (digits : List Char) : Option Char := do
  let values ← digits.mapM hexDigit?
  let code := values.foldl (fun n d ↦ 16 * n + d) 0
  if code < 0xD800 ∨ (0xDFFF < code ∧ code < 0x110000) then some (Char.ofNat code) else none

/-- The character that an escape stands for, and what is left after it. -/
def escape? : List Char → Option (Char × List Char)
  | 'b' :: rest => some ('\x08', rest)
  | 't' :: rest => some ('\t', rest)
  | 'n' :: rest => some ('\n', rest)
  | 'f' :: rest => some ('\x0c', rest)
  | 'r' :: rest => some ('\r', rest)
  | '"' :: rest => some ('"', rest)
  | '\\' :: rest => some ('\\', rest)
  | 'u' :: rest => if rest.length < 4 then none else (scalar? (rest.take 4)).map (·, rest.drop 4)
  | 'U' :: rest => if rest.length < 8 then none else (scalar? (rest.take 8)).map (·, rest.drop 8)
  | _ => none

/-- The characters of a quotation, and what is left after it. -/
abbrev Quoted := Option (List Char × List Char)

/-- Puts characters in front of those of a quotation. -/
def Quoted.prepend (front : List Char) (quoted : Quoted) : Quoted :=
  quoted.map fun result ↦ (front ++ result.1, result.2)

/-- The rest of a string between single quotes on one line. -/
def literal : List Char → Quoted
  | [] => none
  | '\x27' :: rest => some ([], rest)
  | c :: rest => if isPlain c then (literal rest).prepend [c] else none

/-- The rest of a string between double quotes on one line, read with fuel for its characters. -/
def basic : (fuel : Nat) → List Char → Quoted
  | 0, _ | _, [] => none
  | _ + 1, '"' :: rest => some ([], rest)
  | fuel + 1, '\\' :: rest => do
    let (c, rest) ← escape? rest
    Quoted.prepend [c] (basic fuel rest)
  | fuel + 1, c :: rest => if isPlain c then (basic fuel rest).prepend [c] else none

/-- The end of a quotation over several lines, where up to two more quotes belong to the string. -/
def closing? (quote : Char) (input : List Char) : Quoted :=
  let run := (input.takeWhile (· == quote)).length
  if run < 3 then none
  else
    let kept := min (run - 3) 2
    some (List.replicate kept quote, input.drop (kept + 3))

/-- What is left after blanks and line breaks. -/
def skipLines : List Char → List Char
  | '\r' :: '\n' :: rest => skipLines rest
  | c :: rest => if isBlank c || c == '\n' then skipLines rest else c :: rest
  | [] => []

/-- What is left after the blanks and line breaks that a backslash at the end of a line joins. -/
def joinLines? (input : List Char) : Option (List Char) :=
  (lineBreak? (skipBlanks input)).map skipLines

/-- The rest of a string in triple quotes, read with fuel for its characters. Escapes count only in
the double quotation. -/
def multiline (quote : Char) : (fuel : Nat) → List Char → Quoted
  | 0, _ | _, [] => none
  | fuel + 1, c :: rest =>
    match closing? quote (c :: rest) with
    | some result => some result
    | none =>
      match lineBreak? (c :: rest) with
      | some rest => (multiline quote fuel rest).prepend ['\n']
      | none =>
        if c == '\\' && quote == '"' then
          match joinLines? rest with
          | some rest => multiline quote fuel rest
          | none => do
            let (escaped, rest) ← escape? rest
            Quoted.prepend [escaped] (multiline quote fuel rest)
        else if isPlain c then (multiline quote fuel rest).prepend [c]
        else none

/-- The rest of a string in triple quotes; a line break right after the quotes is not part of it. -/
def multilineBody (quote : Char) (input : List Char) : Quoted :=
  let body := (lineBreak? input).getD input
  multiline quote (body.length + 1) body

/-- A string in any of the four quotations. -/
def string? : List Char → Quoted
  | '"' :: '"' :: '"' :: rest => multilineBody '"' rest
  | '\x27' :: '\x27' :: '\x27' :: rest => multilineBody '\x27' rest
  | '"' :: rest => basic (rest.length + 1) rest
  | '\x27' :: rest => literal rest
  | _ => none

/-! ### Integers -/

/-- The number that digits of a base write; single underscores may stand between digits. -/
def digits? (base : Nat) (input : List Char) : Option Nat := do
  let groups := input.splitOn '_'
  if groups.any List.isEmpty then none
  else
    let values ← groups.flatten.mapM hexDigit?
    if values.all (· < base) then some (values.foldl (fun n d ↦ base * n + d) 0) else none

/-- A decimal number without leading zeros. -/
def decimal? (input : List Char) : Option Nat :=
  match input with
  | '0' :: _ :: _ => none
  | _ => digits? 10 input

/-- An integer: a decimal number with an optional sign, or one of base 16, 8 or 2. -/
def integer? : List Char → Option Int
  | '0' :: 'x' :: rest => (digits? 16 rest).map Int.ofNat
  | '0' :: 'o' :: rest => (digits? 8 rest).map Int.ofNat
  | '0' :: 'b' :: rest => (digits? 2 rest).map Int.ofNat
  | '+' :: rest => (decimal? rest).map Int.ofNat
  | '-' :: rest => (decimal? rest).map fun n ↦ -Int.ofNat n
  | input => (decimal? input).map Int.ofNat

/-! ### Lines -/

/-- A character of a bare key. -/
def isBare (c : Char) : Bool := c.isAlphanum || c == '-' || c == '_'

/-- A key, and what is left after it. -/
def key? (input : List Char) : Quoted :=
  match input with
  | '"' :: rest => basic (rest.length + 1) rest
  | '\x27' :: rest => literal rest
  | _ =>
    let bare := input.takeWhile isBare
    if bare.isEmpty then none else some (bare, input.drop bare.length)

/-- A value, and what is left after it. -/
def value? (input : List Char) : Option (Datum × List Char) :=
  match input with
  | '"' :: _ | '\x27' :: _ => (string? input).map fun result ↦
    (.text (String.ofList result.1), result.2)
  | _ =>
    let number := input.takeWhile fun c ↦ isBare c || c == '+'
    (integer? number).map fun n ↦ (.integer n, input.drop number.length)

/-- A key with its value, and what is left after the line. -/
def entry? (input : List Char) : Option ((String × Datum) × List Char) := do
  let (key, rest) ← key? input
  match skipBlanks rest with
  | '=' :: rest =>
    let (value, rest) ← value? (skipBlanks rest)
    let rest ← endLine? rest
    return ((String.ofList key, value), rest)
  | _ => none

/-- The entries of a text, read with fuel for its lines. -/
def entries? : (fuel : Nat) → List Char → Option (List (String × Datum))
  | 0, _ => none
  | fuel + 1, input =>
    match skipBlanks input with
    | [] => some []
    | c :: rest =>
      if c == '#' || c == '\n' || c == '\r' then (endLine? (c :: rest)).bind (entries? fuel)
      else do
        let (entry, rest) ← entry? (c :: rest)
        return entry :: (← entries? fuel rest)

/-- The entries of a document, which may start with a byte order mark. -/
def parse? (text : String) : Option (List (String × Datum)) :=
  let chars := match text.toList with
    | '\ufeff' :: rest => rest
    | chars => chars
  entries? (chars.length + 1) chars

end SettlementLedger.Document
