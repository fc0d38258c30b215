import PageShell.Text.Unprintable

/-!
# Texts quoted in complaints

A complaint that shows the text it refuses puts it between double quotes and
makes every character visible: quotes and backslashes are escaped, the usual
control characters have their letters, and whatever has no visible form is shown
by its number.
-/

namespace PageShell.Text

/-- The visible form of one character inside double quotes. -/
def quotedChar (c : Char) : List Char :=
  match c with
  | '"' => ['\\', '"']
  | '\\' => ['\\', '\\']
  | '\t' => ['\\', 't']
  | '\r' => ['\\', 'r']
  | '\n' => ['\\', 'n']
  | '\x00' => ['\\', '0']
  | _ =>
    if isUnprintable c then
      "\\u\x7b".toList ++ Nat.toDigits 16 c.toNat ++ ['}']
    else
      [c]

/-- The text between double quotes with every character visible. -/
def quoted (s : String) : String :=
  String.ofList ('"' :: s.toList.flatMap quotedChar ++ ['"'])

example : quoted "a\"b" = "\"a\\\"b\"" := by decide +kernel

end PageShell.Text
