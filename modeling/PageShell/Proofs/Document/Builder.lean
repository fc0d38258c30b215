import Mathlib.Data.List.Basic
import Mathlib.Data.List.Induction
import PageShell.Document.Stored
import PageShell.Proofs.Document.Attributes

/-!
# The order in which an element is put together

An element is put together by calls that set an attribute, perhaps, or add
children. A call leaves alone what the other calls are about: one that sets
an attribute touches neither the children nor any other attribute, and one
that adds children touches no attribute. So three readings of the sequence of
calls say all there is to the element: what was added, in order; for each
key, the last value that was given; and the texts among what was added.

Each is shown for one call and then for a sequence, by induction on its end,
where the last call is. That no trace of the interleaving stays behind is due
to the attributes: kept sorted, they are what their look-ups are
(`Attributes.ext_get?`), so the readings decide the element and its text with
it. Values are the same here when they are the same data: a number that is
not a number is the same as itself, and the two zeros are two values.
-/

namespace PageShell

namespace Element

/-- A call on an element that is being put together. -/
inductive Call where
  | set (key : String) (value : AttrValue)
  | set? (key : String) (value : Option AttrValue)
  | push (child : Node)
  | append (children : List Node)

namespace Call

/-- The element after a call. -/
def run (e : Element) : Call → Element
  | .set key value => e.set key value
  | .set? key value => e.set? key value
  | .push child => e.push child
  | .append children => e.append children

/-- The value that a call gives a key, if it does. -/
def given? (key : String) : Call → Option AttrValue
  | .set k value => if key = k then some value else none
  | .set? k value => if key = k then value else none
  | .push _ | .append _ => none

/-- The children that a call adds. -/
def added : Call → List Node
  | .set .. | .set? .. => []
  | .push child => [child]
  | .append children => children

/-- The texts among the children that a call adds. -/
def texts : Call → List String
  | .push (.text content) => [content]
  | .append children => children.filterMap Node.text?
  | .set .. | .set? .. | .push (.element ..) => []

theorem filterMap_added (call : Call) :
    call.added.filterMap Node.text? = call.texts := by
  match call with
  | .set .. | .set? .. | .push (.text _) | .push (.element ..) | .append _ =>
      rfl

theorem run_name (e : Element) (call : Call) : (call.run e).name = e.name := by
  match call with
  | .set .. | .set? _ (some _) | .set? _ none | .push _ | .append _ => rfl

/-- A call gives an attribute its value, or leaves the attribute alone. -/
theorem get?_run (e : Element) (call : Call) (key : String) :
    (call.run e).get? key = (call.given? key).or (e.get? key) := by
  have hset : ∀ k value, (e.set k value).get? key =
      (if key = k then some value else none).or (e.get? key) := by
    intro k value
    rw [get?, Element.set, Attributes.get?_set]
    split
    · rfl
    · rfl
  match call with
  | .set k value => exact hset k value
  | .set? k (some value) => exact hset k value
  | .set? k none => rw [given?, ite_self]; rfl
  | .push _ | .append _ => rfl

theorem run_children (e : Element) (call : Call) :
    (call.run e).children = e.children ++ call.added := by
  match call with
  | .set .. | .set? _ (some _) | .set? _ none => exact (List.append_nil _).symm
  | .push _ | .append _ => rfl

end Call

/-- The element that a sequence of calls puts together from its name. -/
def build (name : String) (calls : List Call) : Element :=
  calls.foldl Call.run (named name)

/-- The last value that a sequence of calls gives a key. -/
def lastGiven (key : String) (calls : List Call) : Option AttrValue :=
  (calls.filterMap (Call.given? key)).getLast?

theorem build_concat (name : String) (calls : List Call) (call : Call) :
    build name (calls ++ [call]) = call.run (build name calls) :=
  List.foldl_concat Call.run (named name) call calls

theorem lastGiven_concat (key : String) (calls : List Call) (call : Call) :
    lastGiven key (calls ++ [call]) =
      (call.given? key).or (lastGiven key calls) := by
  rw [lastGiven, List.filterMap_append, List.getLast?_append]
  cases hgiven : call.given? key <;> simp [hgiven, lastGiven]

theorem build_name (name : String) (calls : List Call) :
    (build name calls).name = name := by
  induction calls using List.reverseRecOn with
  | nil => rfl
  | append_singleton calls call ih => rw [build_concat, call.run_name, ih]

theorem get?_build (name : String) (calls : List Call) (key : String) :
    (build name calls).get? key = lastGiven key calls := by
  induction calls using List.reverseRecOn with
  | nil => rfl
  | append_singleton calls call ih =>
      rw [build_concat, call.get?_run, ih, lastGiven_concat]

theorem build_children (name : String) (calls : List Call) :
    (build name calls).children = calls.flatMap Call.added := by
  induction calls using List.reverseRecOn with
  | nil => rfl
  | append_singleton calls call ih =>
      rw [build_concat, call.run_children, ih, List.flatMap_append,
        List.flatMap_singleton]

theorem textContent_build (name : String) (calls : List Call) :
    (build name calls).textContent =
      String.join (calls.flatMap Call.texts) := by
  rw [textContent, build_children, List.filterMap_flatMap]
  exact congrArg _ (List.flatMap_congr fun call _ => call.filterMap_added)

/-- Elements with one name that answer every key alike and have the same
children are equal. -/
theorem ext_get? {e e' : Element} (hname : e.name = e'.name)
    (hget : ∀ key, e.get? key = e'.get? key)
    (hchildren : e.children = e'.children) : e = e' := by
  have hattributes : e.attributes = e'.attributes := Attributes.ext_get? hget
  cases e
  cases e'
  simp only [mk.injEq]
  exact ⟨hname, hattributes, hchildren⟩

theorem build_eq_iff {name name' : String} {calls calls' : List Call} :
    build name calls = build name' calls' ↔
      name = name' ∧
      calls.flatMap Call.added = calls'.flatMap Call.added ∧
      ∀ key, lastGiven key calls = lastGiven key calls' := by
  constructor
  · intro h
    refine ⟨?_, ?_, fun key => ?_⟩
    · rw [← build_name name calls, h, build_name]
    · rw [← build_children name calls, h, build_children]
    · rw [← get?_build name calls, h, get?_build]
  · rintro ⟨rfl, hadded, hlast⟩
    refine ext_get? ?_ (fun key => ?_) ?_
    · rw [build_name, build_name]
    · rw [get?_build, get?_build, hlast]
    · rw [build_children, build_children, hadded]

/-- An element has the name it was begun with, for each key the last value
that a call gave it, the children that were added, in order, and as its text
the texts that were added to it directly. Nothing else of the calls stays:
two sequences put the same element together exactly if they begin with one
name, add the same children in the same order and give each key the same
value last, and then the elements are written as the same text. -/
theorem built_from_last_values (name : String) (calls : List Call) :
    (build name calls).name = name ∧
    (∀ key, (build name calls).get? key = lastGiven key calls) ∧
    (build name calls).children = calls.flatMap Call.added ∧
    (build name calls).textContent = String.join (calls.flatMap Call.texts) ∧
    ∀ name' calls',
      (build name calls = build name' calls' ↔
        name = name' ∧
        calls.flatMap Call.added = calls'.flatMap Call.added ∧
        ∀ key, lastGiven key calls = lastGiven key calls') ∧
      (name = name' →
        calls.flatMap Call.added = calls'.flatMap Call.added →
        (∀ key, lastGiven key calls = lastGiven key calls') →
        (build name calls).toNode.toText =
          (build name' calls').toNode.toText) := by
  refine ⟨build_name name calls, get?_build name calls,
    build_children name calls, textContent_build name calls,
    fun name' calls' => ⟨build_eq_iff, fun hname hadded hlast => ?_⟩⟩
  rw [build_eq_iff.mpr ⟨hname, hadded, hlast⟩]

/-- A key that is set twice and then perhaps, between the children. -/
def interleaved : List Call :=
  [.push (.text "a"), .set "tone" (.text "muted"),
    .append [.element "Text" .empty [.text "nested"], .text "b"],
    .set? "tone" (some (.text "plain")), .set? "tone" none]

/-- The same with the key set once, in front of the children. -/
def attributesFirst : List Call :=
  [.set "tone" (.text "plain"),
    .append [.text "a", .element "Text" .empty [.text "nested"]],
    .push (.text "b")]

/-- The interleaving leaves no trace; two children that change places do. -/
theorem interleaving_leaves_no_trace :
    build "Text" interleaved = build "Text" attributesFirst ∧
    (build "Text" interleaved).toNode.toText =
      (build "Text" attributesFirst).toNode.toText ∧
    (build "Text" interleaved).textContent = "ab" ∧
    build "Text" [.push (.text "a"), .push (.text "b")] ≠
      build "Text" [.push (.text "b"), .push (.text "a")] := by
  have hlast : ∀ key,
      lastGiven key interleaved = lastGiven key attributesFirst := by
    intro key
    by_cases hkey : key = "tone"
    · subst hkey
      rfl
    · simp [lastGiven, interleaved, attributesFirst, Call.given?, hkey,
        List.findSome?]
  obtain ⟨-, -, -, htext, hsame⟩ :=
    built_from_last_values "Text" interleaved
  obtain ⟨hbuild, hwritten⟩ := hsame "Text" attributesFirst
  refine ⟨hbuild.mpr ⟨rfl, rfl, hlast⟩, hwritten rfl rfl hlast,
    htext.trans rfl, fun heq => ?_⟩
  obtain ⟨-, -, -, -, hsame⟩ := built_from_last_values "Text"
    [.push (.text "a"), .push (.text "b")]
  exact absurd ((hsame _ _).1.mp heq).2.1 (by decide)

end Element

end PageShell
