import PageShell.History.Stored
import PageShell.Proofs.Document.Levels
import PageShell.Proofs.Json.Typed

/-!
# A stored state is read back

Of the parts of a state only the documents in it can fail to come back, and
they come back under the condition that holds of a document on its own, four
levels further up: a document stands in an array, in an entry, in an array,
in the state. Cursors, lines and identifiers always do. An identifier is
written in five groups with hyphens, and the places that are looked at for
hyphens are those where a text of that length has them.
-/

namespace PageShell

/-! ## Identifiers -/

namespace EntryId

theorem digit?_digitChar (d : Fin 16) : digit? (digitChar d) = some d := by
  revert d
  decide

theorem mapM_digit? (digits : List (Fin 16)) :
    (digits.map digitChar).mapM digit? = some digits := by
  induction digits with
  | nil => rfl
  | cons d digits ih =>
      rw [List.map_cons, List.mapM_cons, digit?_digitChar, ih]
      rfl

theorem ofBare?_map (id : EntryId) :
    ofBare? (id.digits.map digitChar) = some id := by
  rw [ofBare?, mapM_digit?, Option.bind_some, ofDigits?,
    dif_pos id.length_digits]

/-- Five groups with hyphens between them are read as the five groups. -/
theorem ofGrouped?_groups {a b c d e : List Char} (ha : a.length = 8)
    (hb : b.length = 4) (hc : c.length = 4) (hd : d.length = 4)
    (he : e.length = 12) :
    ofGrouped? (a ++ '-' :: b ++ '-' :: c ++ '-' :: d ++ '-' :: e) =
      ofBare? (a ++ b ++ c ++ d ++ e) := by
  unfold ofGrouped?
  rw [if_pos]
  · simp [List.drop_append, List.drop_of_length_le, List.take_of_length_le,
      ha, hb, hc, hd, he]
  · simp [hyphenPlaces, List.getElem?_append, ha, hb, hc, hd, he]

theorem ofText?_toText (id : EntryId) : ofText? id.toText = some id := by
  have hlen (start size : Nat) (h : start + size ≤ 32) :
      (((id.digits.drop start).take size).map digitChar).length = size := by
    rw [List.length_map, List.length_take, List.length_drop,
      id.length_digits]
    omega
  have htext : id.toText.toList.length = 36 := by
    simp [toText, id.length_digits]
  have hdigits : ((id.digits.drop 0).take 8 ++ (id.digits.drop 8).take 4 ++
      (id.digits.drop 12).take 4 ++ (id.digits.drop 16).take 4 ++
      (id.digits.drop 20).take 12) = id.digits := by
    rw [List.drop_zero]
    simp only [← List.take_add]
    exact List.take_of_length_le (Nat.le_of_eq id.length_digits)
  unfold ofText?
  simp only [htext, Nat.reduceEqDiff, if_false, if_true]
  rw [toText, String.toList_ofList, ofGrouped?_groups (hlen 0 8 (by omega))
    (hlen 8 4 (by omega)) (hlen 12 4 (by omega)) (hlen 16 4 (by omega))
    (hlen 20 12 (by omega))]
  simp only [← List.map_append, hdigits, ofBare?_map]

end EntryId

/-! ## The parts of a record -/

open Json (Reads Fills)
open Json.Layout (flat)

variable {bound : Nat}

theorem EntryId.reads (id : EntryId) :
    Reads bound EntryId.read (.string id.toText) id where
  starts _ _ := ⟨'"', _, rfl, by decide⟩
  reads hrest hbound := by
    rw [EntryId.read, (Reads.text _ _).reads hrest hbound]
    simp only [ofText?_toText]

theorem reads_texts (depth : Nat) (texts : List String) :
    Reads bound (readTexts bound (depth + 1)) (textsToJson texts) texts :=
  Reads.array fun s _ => Reads.text "a string" s

theorem readOnce_colon {α : Type} (name : String) (value : Reader α)
    (cs : List Char) : readOnce name none value (':' :: cs) = value cs := rfl

theorem reads_record {α : Type} {depth : Nat} {name : String}
    {members parts : (depth : Nat) → Reader α} {ms : List (String × Json)}
    {x : α}
    (h : ∀ {level rest}, (flat.writtenMembers level true ms rest).length + 1 <
        bound →
      members depth (flat.writtenMembers level true ms rest) =
        .ok (x, rest)) :
    Reads bound (readRecord (depth + 1) name members parts) (.object ms)
      x where
  starts _ _ := ⟨'{', _, rfl, by decide⟩
  reads {level rest} _ hbound := by
    rw [Json.Layout.written] at hbound ⊢
    exact h (by simpa using hbound)

/-- The document comes back whole from so many levels. -/
structure Node.IsLegible (depth : Nat) (node : Node) : Prop where
  numbers : LegibleNumbers node.numbers
  finite : ∀ x ∈ node.numbers, x.isFinite = true
  nesting : node.toJson.nesting ≤ depth

theorem Node.IsLegible.reads {node : Node} {depth : Nat}
    (h : node.IsLegible depth) :
    Reads bound (Node.read bound depth) node.toJson node where
  starts := Json.startsValue_written flat
    (numerals_toJson node ▸ h.numbers.storedNumerals)
  reads {level rest} hrest hbound := by
    rw [Node.read, Json.readValue_written flat node.toJson
      (numerals_toJson node ▸ h.numbers.storedNumerals) depth level hrest
      hbound, if_pos h.nesting]
    simp only [bind, Except.bind, ofJson?_toJson,
      node.finitePart_eq_self h.finite]

/-! ## Entries and states -/

/-- The documents of an entry come back from so many levels. -/
def Entry.IsLegible (depth : Nat) (e : Entry) : Prop :=
  ∀ node ∈ e.output, node.IsLegible depth

/-- The members of an entry, each in its place of the draft. -/
theorem Entry.fills {e : Entry} {depth : Nat}
    (houtput : Reads bound (readOutput bound (depth + 1))
      (.array (e.output.map Node.toJson)) e.output) :
    Fills bound (readMember bound (depth + 1)) {}
      [("id", .string e.id.toText), ("cwd", textsToJson e.cursor),
        ("input", .string e.input),
        ("output", .array (e.output.map Node.toJson))]
      ⟨some e.id, some e.cursor, some e.input, some e.output⟩ := by
  refine .cons (t := ⟨some e.id, none, none, none⟩) ?_
    (.cons (t := ⟨some e.id, some e.cursor, none, none⟩) ?_
      (.cons (t := ⟨some e.id, some e.cursor, some e.input, none⟩) ?_
        (.cons ?_ (.nil _))))
  all_goals
    intro level rest hrest hbound
    simp only [readMember, String.reduceEq, if_true, if_false,
      readOnce_colon, bind, Except.bind]
  · rw [e.id.reads.reads hrest hbound]
  · rw [(reads_texts depth e.cursor).reads hrest hbound]
  · rw [(Reads.text _ e.input).reads hrest hbound]
  · rw [houtput.reads hrest hbound]

theorem Entry.reads {e : Entry} {depth : Nat} (h : e.IsLegible depth) :
    Reads bound (Entry.read bound (depth + 2)) e.toJson e := by
  have houtput : Reads bound (readOutput bound (depth + 1))
      (.array (e.output.map Node.toJson)) e.output :=
    Reads.array fun node hnode => (h node hnode).reads
  refine reads_record fun hbound => ?_
  rw [Json.readMembers_of_fills (Entry.fills houtput) hbound
    (Nat.le_refl bound)]
  rfl

theorem State.fills {s : State} {depth : Nat}
    (hhistory : Reads bound (Entry.readHistory bound (depth + 1))
      (.array (s.history.map Entry.toJson)) s.history) :
    Fills bound (readMember bound (depth + 1)) {}
      [("cwd", textsToJson s.cursor),
        ("history", .array (s.history.map Entry.toJson))]
      ⟨some s.cursor, some s.history⟩ := by
  refine .cons (t := ⟨some s.cursor, none⟩) ?_ (.cons ?_ (.nil _))
  all_goals
    intro level rest hrest hbound
    simp only [readMember, String.reduceEq, if_true, if_false,
      readOnce_colon, bind, Except.bind]
  · rw [(reads_texts depth s.cursor).reads hrest hbound]
  · rw [hhistory.reads hrest hbound]

theorem State.reads {s : State} {depth : Nat}
    (h : ∀ e ∈ s.history, e.IsLegible depth) :
    Reads bound (State.read bound (depth + 4)) s.toJson s := by
  have hhistory : Reads bound (Entry.readHistory bound (depth + 3))
      (.array (s.history.map Entry.toJson)) s.history :=
    Reads.array fun e he => Entry.reads (h e he)
  refine reads_record fun hbound => ?_
  rw [Json.readMembers_of_fills (State.fills hhistory) hbound
    (Nat.le_refl bound)]
  rfl

/-- A state is read back from its text as it was, if its documents nest four
levels less deep than the reader goes and have only numbers that come back. -/
theorem State.ofText_toText {s : State}
    (h : ∀ e ∈ s.history, e.IsLegible (Json.nestingLimit - 4)) :
    State.ofText s.toText = .ok s :=
  Json.Reads.readAll (State.reads h)

end PageShell
