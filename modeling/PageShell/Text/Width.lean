/-!
# The width of a text

Positions in a text count its bytes in UTF-8, in which a character is one to
four bytes wide.
-/

namespace PageShell.Text

/-- The number of bytes of a text in UTF-8. -/
def width : List Char → Nat
  | [] => 0
  | c :: cs => c.utf8Size + width cs

/-- The width is the size of the text as a string. -/
theorem utf8ByteSize_ofList (cs : List Char) :
    (String.ofList cs).utf8ByteSize = width cs := by
  induction cs with
  | nil => rfl
  | cons c cs ih =>
    rw [String.ofList_cons, String.utf8ByteSize_append, ih]
    simp [width]

theorem utf8ByteSize_eq_width (text : String) :
    text.utf8ByteSize = width text.toList := by
  rw [← utf8ByteSize_ofList, String.ofList_toList]

theorem width_append (cs cs' : List Char) :
    width (cs ++ cs') = width cs + width cs' := by
  induction cs with
  | nil => exact (Nat.zero_add _).symm
  | cons c cs ih => rw [List.cons_append, width, width, ih, Nat.add_assoc]

theorem width_cons_pos (c : Char) (cs : List Char) : 0 < width (c :: cs) :=
  Nat.add_pos_left c.utf8Size_pos _

end PageShell.Text
