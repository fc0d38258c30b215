import PageShell.Text.Blank
import PageShell.Text.Width

/-!
# Words of a command line

Blanks separate words. A word that starts with a double or single quote which
occurs again later in the line is grouped: everything up to that next quote
belongs to the word, blanks included, and so does what follows the quote up to
the next blank. Every other quote is an ordinary character, and so is every
backslash, which is why splitting a line never fails and never ends inside
an open group: whether a group closes is known before it opens.

A token remembers where it stands. Positions count bytes of the line in UTF-8.
-/

namespace PageShell

/-- One word of a command line. -/
structure Token where
  /-- The word without its grouping quotes. -/
  value : String
  /-- The word exactly as written. -/
  raw : String
  /-- The position of its first byte in the line. -/
  start : Nat
deriving DecidableEq

namespace Token

/-- The position after the last byte of the token. -/
def stop (t : Token) : Nat := t.start + t.raw.utf8ByteSize

/-- The characters that can group. -/
def isQuote (c : Char) : Bool := c == '"' || c == '\''

/-- The characters up to the first blank. -/
def untilBlank (cs : List Char) : List Char := cs.takeWhile (!Text.isBlank ·)

/-- The word at the front of a text that starts with a character other than a
blank: its value and its characters as written. -/
def word (c : Char) (rest : List Char) : List Char × List Char :=
  if isQuote c && rest.contains c then
    let body := rest.takeWhile (· ≠ c)
    let tail := untilBlank (rest.drop (body.length + 1))
    (body ++ tail, c :: body ++ c :: tail)
  else
    let w := c :: untilBlank rest
    (w, w)

theorem word_raw_ne_nil (c : Char) (rest : List Char) :
    (word c rest).2 ≠ [] := by
  unfold word
  split <;> simp

/-- The words of a text that starts at the given position. -/
def scan (position : Nat) (cs : List Char) : List Token :=
  let blanks := cs.takeWhile Text.isBlank
  match _h : cs.dropWhile Text.isBlank with
  | [] => []
  | c :: rest =>
    let start := position + Text.width blanks
    let w := word c rest
    ⟨String.ofList w.1, String.ofList w.2, start⟩ ::
      scan (start + Text.width w.2) ((c :: rest).drop w.2.length)
termination_by cs.length
decreasing_by
  have hle : (cs.dropWhile Text.isBlank).length ≤ cs.length :=
    (List.dropWhile_sublist _).length_le
  have hpos : 0 < (word c rest).2.length :=
    List.length_pos_iff.mpr (word_raw_ne_nil c rest)
  rw [_h] at hle
  simp only [List.length_drop, List.length_cons] at hle ⊢
  omega

def split (line : String) : List Token := scan 0 line.toList

example : (split "it's \"a b\"c").map (·.value) = ["it's", "a bc"] := by
  decide +kernel
example : (split "'x \"y").map (·.raw) = ["'x", "\"y"] := by decide +kernel

end Token

end PageShell
