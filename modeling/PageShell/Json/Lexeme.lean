import PageShell.Json.Numeral
import PageShell.Text.Width

/-!
# The lexemes of JSON

Readers take a text and answer a value with the rest of the text, or say why
there is none: the text ended too early, or it went wrong before its end. The
lexemes are white space, the three names, numerals and strings. Strings and
numerals have a second, careless reader for values that are passed over: it
holds them to their grammar only, so a numeral out of range or half a surrogate
pair is no obstacle there, and a numeral that stops short is malformed even
where the text ends.
-/

namespace PageShell

/-- Why a text is not what it is read as. -/
inductive ReadError where
  /-- The text ends too early. -/
  | endOfText
  /-- The text breaks the notation before its end. -/
  | malformed
  /-- The text is well formed and describes something else. -/
  | shape (complaint : Complaint)

/-- Reads a value from the front of a text; answers it with the rest. -/
abbrev Reader (α : Type) := List Char → Except ReadError (α × List Char)

namespace Json

def isSpace (c : Char) : Bool :=
  c == ' ' || c == '\n' || c == '\t' || c == '\r'

/-- The text without the blanks at its front. -/
def skipSpace (cs : List Char) : List Char :=
  cs.dropWhile isSpace

def readWord : List Char → List Char → Except ReadError (List Char)
  | [], cs => .ok cs
  | _ :: _, [] => .error .endOfText
  | e :: es, c :: cs => if e = c then readWord es cs else .error .malformed

/-! ## Numerals -/

def digit? (c : Char) : Option Nat :=
  if c.isDigit then some (c.toNat - '0'.toNat) else none

/-- Reads digits up to the first other character. -/
def readDigits (cs : List Char) : List Nat × List Char :=
  match cs with
  | [] => ([], [])
  | c :: r =>
    match digit? c with
    | none => ([], cs)
    | some d =>
      let (ds, r) := readDigits r
      (d :: ds, r)

/-- Reads one digit or more; `stop` says what is wrong where the text ends
instead. -/
def readSomeDigits (stop : ReadError) (cs : List Char) :
    Except ReadError (List Nat × List Char) :=
  match cs, readDigits cs with
  | [], _ => .error stop
  | _, ([], _) => .error .malformed
  | _, (ds, r) => .ok (ds, r)

/-- Reads the integer digits of a numeral: a zero alone, or digits that do not
start with one. -/
def readWhole (stop : ReadError) (cs : List Char) :
    Except ReadError (List Nat × List Char) := do
  let (ds, r) ← readSomeDigits stop cs
  match ds with
  | 0 :: _ :: _ => .error .malformed
  | _ => .ok (ds, r)

/-- Reads a fraction, if the text goes on with one. -/
def readFraction (stop : ReadError) : Reader (Option (List Nat))
  | '.' :: r => do
    let (ds, r) ← readSomeDigits stop r
    .ok (some ds, r)
  | cs => .ok (none, cs)

/-- Reads an optional sign; answers whether it is a minus. -/
def readSign : List Char → Bool × List Char
  | '-' :: r => (true, r)
  | '+' :: r => (false, r)
  | cs => (false, cs)

/-- The number written by decimal digits. -/
def ofDigits (ds : List Nat) : Nat :=
  ds.foldl (fun n d => n * 10 + d) 0

/-- Reads an exponent, if the text goes on with one. -/
def readExponent (stop : ReadError) (cs : List Char) :
    Except ReadError (Option Int × List Char) :=
  match cs with
  | 'e' :: r | 'E' :: r => do
    let (minus, r) := readSign r
    let (ds, r) ← readSomeDigits stop r
    .ok (some (if minus then -(ofDigits ds : Int) else ofDigits ds), r)
  | _ => .ok (none, cs)

/-- Reads the literal of a numeral whose minus sign, if any, has been read. -/
def readLiteral (stop : ReadError) (isNegative : Bool) (cs : List Char) :
    Except ReadError (Numeral.Literal × List Char) := do
  let (whole, r) ← readWhole stop cs
  let (fraction, r) ← readFraction stop r
  let (exponent, r) ← readExponent stop r
  .ok (⟨isNegative, whole, fraction, exponent⟩, r)

/-- Reads a numeral whose minus sign, if any, has been read. -/
def readNumeral (isNegative : Bool) (cs : List Char) :
    Except ReadError (Numeral × List Char) := do
  let (literal, r) ← readLiteral .endOfText isNegative cs
  match literal.value? with
  | some numeral => .ok (numeral, r)
  | none => .error .malformed

/-- Passes over a numeral whose minus sign, if any, has been read. -/
def skipNumeral (cs : List Char) : Except ReadError (List Char) := do
  let (_, r) ← readLiteral .malformed false cs
  .ok r

/-! ## Strings -/

def hexDigit? (c : Char) : Option Nat :=
  if c.isDigit then some (c.toNat - '0'.toNat)
  else if 'a' ≤ c ∧ c ≤ 'f' then some (c.toNat - 'a'.toNat + 10)
  else if 'A' ≤ c ∧ c ≤ 'F' then some (c.toNat - 'A'.toNat + 10)
  else none

/-- Reads four hexadecimal digits. Four bytes are looked at before any of them
is judged, so the text has ended too early only when fewer are left. -/
def readHexQuad (cs : List Char) : Except ReadError (Nat × List Char) :=
  match cs with
  | a :: b :: c :: d :: r =>
    match hexDigit? a, hexDigit? b, hexDigit? c, hexDigit? d with
    | some a, some b, some c, some d =>
      .ok (((a * 16 + b) * 16 + c) * 16 + d, r)
    | _, _, _, _ => .error .malformed
  | _ => .error (if Text.width cs < 4 then .endOfText else .malformed)

def isHighSurrogate (n : Nat) : Bool := 0xD800 ≤ n && n ≤ 0xDBFF

def isLowSurrogate (n : Nat) : Bool := 0xDC00 ≤ n && n ≤ 0xDFFF

/-- The character that an escape letter stands for. -/
def escapeLetter? : Char → Option Char
  | '"' => some '"'
  | '\\' => some '\\'
  | '/' => some '/'
  | 'b' => some '\x08'
  | 'f' => some '\x0c'
  | 'n' => some '\n'
  | 'r' => some '\r'
  | 't' => some '\t'
  | _ => none

/-- Reads the second half of a surrogate pair whose first half is `high`. -/
def readLowSurrogate (high : Nat) : Reader Char
  | [] | ['\\'] => .error .endOfText
  | '\\' :: 'u' :: r => do
    let (low, r) ← readHexQuad r
    if isLowSurrogate low then
      .ok (Char.ofNat (0x10000 + (high - 0xD800) * 0x400 + (low - 0xDC00)), r)
    else
      .error .malformed
  | _ => .error .malformed

/-- Reads an escape whose backslash has been read. -/
def readEscape : Reader Char
  | [] => .error .endOfText
  | 'u' :: r => do
    let (n, r) ← readHexQuad r
    if isLowSurrogate n then .error .malformed
    else if isHighSurrogate n then readLowSurrogate n r
    else .ok (Char.ofNat n, r)
  | c :: r =>
    match escapeLetter? c with
    | some c => .ok (c, r)
    | none => .error .malformed

theorem readHexQuad_length {cs r : List Char} {n : Nat}
    (h : readHexQuad cs = .ok (n, r)) : r.length < cs.length := by
  unfold readHexQuad at h
  split at h
  · split at h
    · simp only [Except.ok.injEq, Prod.mk.injEq] at h
      simp [← h.2]; omega
    · cases h
  · cases h

theorem readLowSurrogate_length {high : Nat} {cs r : List Char} {c : Char}
    (h : readLowSurrogate high cs = .ok (c, r)) : r.length < cs.length := by
  unfold readLowSurrogate at h
  split at h
  · cases h
  · cases h
  · next rest =>
    cases hq : readHexQuad rest with
    | error e => rw [hq] at h; cases h
    | ok p =>
      obtain ⟨low, r'⟩ := p
      have hl := readHexQuad_length hq
      rw [hq] at h
      simp only [bind, Except.bind] at h
      split at h
      · simp only [Except.ok.injEq, Prod.mk.injEq] at h
        simp [← h.2]; omega
      · cases h
  · cases h

theorem readEscape_length {cs r : List Char} {c : Char}
    (h : readEscape cs = .ok (c, r)) : r.length < cs.length := by
  unfold readEscape at h
  split at h
  · cases h
  · next rest =>
    cases hq : readHexQuad rest with
    | error e => rw [hq] at h; cases h
    | ok p =>
      obtain ⟨n, r'⟩ := p
      have hl := readHexQuad_length hq
      rw [hq] at h
      simp only [bind, Except.bind] at h
      split at h
      · cases h
      · split at h
        · have := readLowSurrogate_length h
          simp; omega
        · simp only [Except.ok.injEq, Prod.mk.injEq] at h
          simp [← h.2]; omega
  · split at h
    · simp only [Except.ok.injEq, Prod.mk.injEq] at h
      simp [← h.2]
    · cases h

/-- Reads the characters of a string whose opening quote has been read, and its
closing quote. -/
def readString (cs : List Char) : Except ReadError (List Char × List Char) :=
  match cs with
  | [] => .error .endOfText
  | '"' :: r => .ok ([], r)
  | '\\' :: r =>
    match h : readEscape r with
    | .error e => .error e
    | .ok (c, r') =>
      have : r'.length < r.length := readEscape_length h
      match readString r' with
      | .error e => .error e
      | .ok (s, r'') => .ok (c :: s, r'')
  | c :: r =>
    if c.toNat < 0x20 then .error .malformed
    else
      match readString r with
      | .error e => .error e
      | .ok (s, r') => .ok (c :: s, r')
termination_by cs.length

/-- Passes over a string whose opening quote has been read. -/
def skipString (cs : List Char) : Except ReadError (List Char) :=
  match cs with
  | [] => .error .endOfText
  | '"' :: r => .ok r
  | ['\\'] => .error .endOfText
  | '\\' :: 'u' :: r =>
    match h : readHexQuad r with
    | .error e => .error e
    | .ok (_, r') =>
      have : r'.length < r.length := readHexQuad_length h
      skipString r'
  | '\\' :: c :: r =>
    if (escapeLetter? c).isSome then skipString r else .error .malformed
  | c :: r => if c.toNat < 0x20 then .error .malformed else skipString r
termination_by cs.length

end Json

end PageShell
