import PageShell.Json.Lexeme
import PageShell.Toml.Value

/-!
# The lexemes of TOML

Readers take a text and answer a value with the rest of the text, or nothing:
where a document breaks the notation it is refused as a whole, so there is
nothing to say about the place. White space and comments, the four kinds of
strings, and the scalars that start like numbers are read here.
-/

namespace PageShell.Toml

/-- Reads a value from the front of a text; answers it with the rest. -/
abbrev Scanner (α : Type) := List Char → Option (α × List Char)

/-! ## Blanks and comments -/

/-- The blanks inside a line. -/
def isBlank (c : Char) : Bool := c == ' ' || c == '\t'

def skipBlanks (cs : List Char) : List Char := cs.dropWhile isBlank

/-- The characters that may stand in a line: tabs and all that are no control
characters. -/
def isPlain (c : Char) : Bool :=
  c == '\t' || (0x20 ≤ c.toNat && c.toNat ≠ 0x7F)

/-- Passes over a comment, if the text goes on with one. -/
def skipComment : List Char → List Char
  | '#' :: r => r.dropWhile isPlain
  | cs => cs

/-- Passes over a line break. -/
def readNewline : List Char → Option (List Char)
  | '\n' :: r => some r
  | '\r' :: '\n' :: r => some r
  | _ => none

/-- Passes over a line break or the end of the text. -/
def readLineEnd : List Char → Option (List Char)
  | [] => some []
  | cs => readNewline cs

/-- Passes over what may follow an expression on its line. -/
def readTrailing (cs : List Char) : Option (List Char) :=
  readLineEnd (skipComment (skipBlanks cs))

/-- Passes over blanks, line breaks and comments inside an array. -/
def skipFiller : (bound : Nat) → List Char → Option (List Char)
  | 0, _ => none
  | bound + 1, cs =>
    match skipBlanks cs with
    | '#' :: r => do
      let r ← readNewline (skipComment ('#' :: r))
      skipFiller bound r
    | '\n' :: r => skipFiller bound r
    | '\r' :: r => do
      let r ← readNewline ('\r' :: r)
      skipFiller bound r
    | r => some r

/-! ## Strings -/

/-- Reads a number of exactly `n` hexadecimal digits. -/
def readHex : (n : Nat) → (value : Nat) → Scanner Nat
  | 0, value, cs => some (value, cs)
  | _ + 1, _, [] => none
  | n + 1, value, c :: r => do
    let d ← Json.hexDigit? c
    readHex n (value * 16 + d) r

/-- The character with the given code, unless there is none. -/
def charOfCode? (n : Nat) : Option Char :=
  if n.isValidChar then some (Char.ofNat n) else none

/-- Reads an escape whose backslash has been read. -/
def readEscape : Scanner Char
  | 'b' :: r => some ('\x08', r)
  | 'f' :: r => some ('\x0c', r)
  | 'n' :: r => some ('\n', r)
  | 'r' :: r => some ('\r', r)
  | 't' :: r => some ('\t', r)
  | '"' :: r => some ('"', r)
  | '\\' :: r => some ('\\', r)
  | 'u' :: r => do
    let (n, r) ← readHex 4 0 r
    let c ← charOfCode? n
    some (c, r)
  | 'U' :: r => do
    let (n, r) ← readHex 8 0 r
    let c ← charOfCode? n
    some (c, r)
  | _ => none

/-- Reads the rest of a basic string on one line. -/
def readBasic : (bound : Nat) → Scanner (List Char)
  | 0, _ => none
  | bound + 1, cs =>
    match cs with
    | '"' :: r => some ([], r)
    | '\\' :: r => do
      let (c, r) ← readEscape r
      let (s, r) ← readBasic bound r
      some (c :: s, r)
    | c :: r =>
      if isPlain c then do
        let (s, r) ← readBasic bound r
        some (c :: s, r)
      else none
    | [] => none

/-- Reads the rest of a literal string on one line. -/
def readLiteral (cs : List Char) : Option (List Char × List Char) :=
  let body := cs.takeWhile (fun c => isPlain c && c ≠ '\'')
  match cs.drop body.length with
  | '\'' :: r => some (body, r)
  | _ => none

/-- A string over several lines does not hold a line break right after its
opening quotes. -/
def dropFirstNewline (cs : List Char) : List Char := (readNewline cs).getD cs

/-- How a run of quotes inside or at the end of a string over several lines is
read: fewer than three belong to the string; three close it, and up to two
before those still belong to it. -/
def readQuotes (quote : Char) (cs : List Char) :
    (List Char × Bool) × List Char :=
  let run := (cs.takeWhile (· = quote)).length
  if run < 3 then ((List.replicate run quote, false), cs.drop run)
  else
    let inside := min (run - 3) 2
    ((List.replicate inside quote, true), cs.drop (inside + 3))

/-- Passes over blanks and line breaks. -/
def skipBlankLines : List Char → List Char
  | '\n' :: r => skipBlankLines r
  | '\r' :: '\n' :: r => skipBlankLines r
  | c :: r => if isBlank c then skipBlankLines r else c :: r
  | [] => []

/-- Passes over the end of a line that ends with a backslash, and over all
blanks and line breaks that follow; the backslash itself has been read. -/
def readLineJoin (cs : List Char) : Option (List Char) := do
  let r ← readNewline (skipBlanks cs)
  some (skipBlankLines r)

/-- Reads the rest of a basic string over several lines. -/
def readLongBasic : (bound : Nat) → Scanner (List Char)
  | 0, _ => none
  | bound + 1, cs =>
    match cs with
    | [] => none
    | '"' :: _ =>
      let ((quotes, isClosed), r) := readQuotes '"' cs
      if isClosed then some (quotes, r)
      else do
        let (s, r) ← readLongBasic bound r
        some (quotes ++ s, r)
    | '\\' :: r =>
      match readLineJoin r with
      | some r => readLongBasic bound r
      | none => do
        let (c, r) ← readEscape r
        let (s, r) ← readLongBasic bound r
        some (c :: s, r)
    | c :: r =>
      match readNewline cs with
      | some r => do
        let (s, r) ← readLongBasic bound r
        some ('\n' :: s, r)
      | none =>
        if isPlain c then do
          let (s, r) ← readLongBasic bound r
          some (c :: s, r)
        else none

/-- Reads the rest of a literal string over several lines. -/
def readLongLiteral : (bound : Nat) → Scanner (List Char)
  | 0, _ => none
  | bound + 1, cs =>
    match cs with
    | [] => none
    | '\'' :: _ =>
      let ((quotes, isClosed), r) := readQuotes '\'' cs
      if isClosed then some (quotes, r)
      else do
        let (s, r) ← readLongLiteral bound r
        some (quotes ++ s, r)
    | c :: r =>
      match readNewline cs with
      | some r => do
        let (s, r) ← readLongLiteral bound r
        some ('\n' :: s, r)
      | none =>
        if isPlain c then do
          let (s, r) ← readLongLiteral bound r
          some (c :: s, r)
        else none

def readString (bound : Nat) : Scanner (List Char)
  | '"' :: '"' :: '"' :: r => readLongBasic bound (dropFirstNewline r)
  | '"' :: r => readBasic bound r
  | '\'' :: '\'' :: '\'' :: r => readLongLiteral bound (dropFirstNewline r)
  | '\'' :: r => readLiteral r
  | _ => none

/-! ## Numbers -/

/-- Reads further digits of a number, each of which may follow an underscore. -/
def readMoreDigits (digit? : Char → Option Nat) : Scanner (List Nat)
  | [] => some ([], [])
  | '_' :: [] => none
  | '_' :: c :: r => do
    let d ← digit? c
    let (ds, r) ← readMoreDigits digit? r
    some (d :: ds, r)
  | c :: r =>
    match digit? c with
    | none => some ([], c :: r)
    | some d => do
      let (ds, r) ← readMoreDigits digit? r
      some (d :: ds, r)

def readDigits (digit? : Char → Option Nat) : Scanner (List Nat)
  | [] => none
  | c :: r => do
    let d ← digit? c
    let (ds, r) ← readMoreDigits digit? r
    some (d :: ds, r)

/-- The number written by digits of a base. -/
def ofDigits (base : Nat) (ds : List Nat) : Nat :=
  ds.foldl (fun n d => n * base + d) 0

/-- Reads a decimal integer without its sign: a zero alone, or digits that do
not start with one. -/
def readWhole : Scanner (List Nat)
  | '0' :: r => some ([0], r)
  | cs => readDigits Json.digit? cs

/-- The size of the least integer, `2^63`; the greatest is one less. -/
def integerLimit : Nat := 9223372036854775808

/-- An integer in the range of 64 bits. -/
def integer? (isNegative : Bool) (n : Nat) : Option Toml :=
  if isNegative then
    if n ≤ integerLimit then some (.integer (-n)) else none
  else
    if n < integerLimit then some (.integer n) else none

def octalDigit? (c : Char) : Option Nat := (Json.digit? c).filter (· < 8)

def binaryDigit? (c : Char) : Option Nat := (Json.digit? c).filter (· < 2)

def readInteger (cs : List Char) : Option (Toml × List Char) :=
  let based := fun (base : Nat) (digit? : Char → Option Nat)
      (r : List Char) => do
    let (ds, r) ← readDigits digit? r
    let value ← integer? false (ofDigits base ds)
    some (value, r)
  match cs with
  | '0' :: 'x' :: r => based 16 Json.hexDigit? r
  | '0' :: 'o' :: r => based 8 octalDigit? r
  | '0' :: 'b' :: r => based 2 binaryDigit? r
  | _ => do
    let (isNegative, r) := Json.readSign cs
    let (ds, r) ← readWhole r
    let value ← integer? isNegative (ofDigits 10 ds)
    some (value, r)

def readExponent : Scanner Int
  | 'e' :: r | 'E' :: r => do
    let (isNegative, r) := Json.readSign r
    let (ds, r) ← readDigits Json.digit? r
    some (if isNegative then -(ofDigits 10 ds : Int) else ofDigits 10 ds, r)
  | _ => none

/-- Reads a number that has no digits. -/
def readSpecialFloat (isNegative : Bool) : Scanner Toml
  | 'i' :: 'n' :: 'f' :: r => some (.float (Number.infinity isNegative), r)
  | 'n' :: 'a' :: 'n' :: r =>
    some (.float (Number.notANumber.withSign isNegative), r)
  | _ => none

/-- The number with the given digits before and after the point; a positive
number beyond the greatest is refused, and a negative one is infinite. -/
def float? (isNegative : Bool) (whole fraction : List Nat) (exponent : Int) :
    Option Toml :=
  let x := Number.ofAnyDecimal isNegative (ofDigits 10 (whole ++ fraction))
    (exponent - fraction.length)
  if x = Number.infinity false then none else some (.float x)

/-- Reads a number with a fraction or an exponent, or one without digits. -/
def readFloat (cs : List Char) : Option (Toml × List Char) := do
  let (isNegative, r) := Json.readSign cs
  match readSpecialFloat isNegative r with
  | some result => some result
  | none =>
    let (whole, r) ← readWhole r
    match r with
    | '.' :: r =>
      let (fraction, r) ← readDigits Json.digit? r
      match r with
      | 'e' :: _ | 'E' :: _ =>
        let (e, r) ← readExponent r
        let value ← float? isNegative whole fraction e
        some (value, r)
      | _ =>
        let value ← float? isNegative whole fraction 0
        some (value, r)
    | _ =>
      let (e, r) ← readExponent r
      let value ← float? isNegative whole [] e
      some (value, r)

/-! ## Dates and times -/

/-- Reads a number of exactly `n` decimal digits. -/
def readPlaces : (n : Nat) → (value : Nat) → Scanner Nat
  | 0, value, cs => some (value, cs)
  | _ + 1, _, [] => none
  | n + 1, value, c :: r => do
    let d ← Json.digit? c
    readPlaces n (value * 10 + d) r

/-- Reads a number of two digits between two bounds. -/
def readPart (low high : Nat) (cs : List Char) : Option (Nat × List Char) := do
  let (n, r) ← readPlaces 2 0 cs
  if low ≤ n ∧ n ≤ high then some (n, r) else none

/-- The number of days of a month. -/
def daysOf (year month : Nat) : Nat :=
  if month = 2 then
    if year % 4 = 0 ∧ (year % 100 ≠ 0 ∨ year % 400 = 0) then 29 else 28
  else if month = 4 ∨ month = 6 ∨ month = 9 ∨ month = 11 then 30
  else 31

def readChar (c : Char) : List Char → Option (List Char)
  | c' :: r => if c = c' then some r else none
  | [] => none

def readDate (cs : List Char) : Option (List Char) := do
  let (year, r) ← readPlaces 4 0 cs
  let r ← readChar '-' r
  let (month, r) ← readPart 1 12 r
  let r ← readChar '-' r
  let (_, r) ← readPart 1 (daysOf year month) r
  some r

/-- Passes over a time; a minute may have a leap second. -/
def readTime (cs : List Char) : Option (List Char) := do
  let (_, r) ← readPart 0 23 cs
  let r ← readChar ':' r
  let (_, r) ← readPart 0 59 r
  let r ← readChar ':' r
  let (_, r) ← readPart 0 60 r
  match r with
  | '.' :: c :: r' =>
    if c.isDigit then some (r'.dropWhile Char.isDigit) else some r
  | _ => some r

/-- Passes over the offset of a time, if there is one. -/
def skipOffset : List Char → Option (List Char)
  | 'Z' :: r | 'z' :: r => some r
  | '+' :: r | '-' :: r => do
    let (_, r) ← readPart 0 23 r
    let r ← readChar ':' r
    let (_, r) ← readPart 0 59 r
    some r
  | cs => some cs

/-- The characters that separate a date from a time. -/
def isTimeMark (c : Char) : Bool := c == 'T' || c == 't' || c == ' '

/-- Reads a date, a time, or both. -/
def readDateTime (cs : List Char) : Option (Toml × List Char) :=
  match readDate cs with
  | some (c :: r) =>
    if isTimeMark c then
      match readTime r with
      | some r => do
        let r ← skipOffset r
        some (.dateTime, r)
      | none => some (.dateTime, c :: r)
    else some (.dateTime, c :: r)
  | some [] => some (.dateTime, [])
  | none => do
    let r ← readTime cs
    some (.dateTime, r)

end PageShell.Toml
