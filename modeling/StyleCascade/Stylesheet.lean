import Std.Data.HashMap
import StyleCascade.Log

/-!
# Style sheets

A sheet holds rules, each a selector with a style, in the order in which their selectors were
first asked for. Asking is by text. Texts that describe the same selector lead to the same rule,
because a rule is found by the text that its selector is written with; an index from that text
to the rule's place spares the search.

A handle stands for a rule by its place, which never changes, since rules are only ever added at
the end. A text that describes no selector gets the handle of the dummy style, and nothing
written through it has an effect.
-/

namespace StyleCascade.Style

/-!
## Declarations

The lenient way to write a style: a declaration that does not fit is put down in the log and
otherwise has no effect.
-/

/-- Declare a property; a value of the wrong kind is dropped. -/
def set (s : Style) (p : Property) (v : Value) : Logged Style :=
  match s.set? p v with
  | .ok t => pure t
  | .error e => do
    Logged.note (.droppedValue e)
    pure s

def ofDeclarations (declarations : List (Property × Value)) : Logged Style :=
  declarations.foldlM (fun s d => s.set d.1 d.2) empty

end StyleCascade.Style

namespace StyleCascade

/-! ## Rules and handles -/

/-- A selector with the style that it gives. -/
structure Rule where
  /-- The selector's text, which names the rule. -/
  text : String
  selector : Selector
  specificity : Specificity
  style : Style

namespace Rule

/-- The rule of a selector, with nothing declared yet. -/
def ofSelector (s : Selector) : Rule where
  text := s.text
  selector := s
  specificity := s.specificity
  style := .empty

end Rule

/-- What asking for a style by text leads to. -/
inductive Handle where
  /-- The rule at a place of the sheet. -/
  | rule (slot : Nat)
  /-- The dummy style. -/
  | dummy
  deriving DecidableEq, Repr

structure Stylesheet where
  rules : Array Rule := #[]
  /-- The place of each rule by its text. -/
  index : Std.HashMap String Nat := {}

namespace Stylesheet

def empty : Stylesheet := {}

instance : Inhabited Stylesheet := ⟨empty⟩

def size (sheet : Stylesheet) : Nat := sheet.rules.size

def isEmpty (sheet : Stylesheet) : Bool := sheet.rules.isEmpty

def push (sheet : Stylesheet) (r : Rule) : Stylesheet where
  rules := sheet.rules.push r
  index := sheet.index.insert r.text sheet.size

/-- Ask for the style of a selector, and register its rule if it has none. -/
def handle (sheet : Stylesheet) (text : String) : Logged (Handle × Stylesheet) :=
  match Selector.parse text with
  | .error e => do
    Logged.note (.rejectedSelector text e)
    pure (.dummy, sheet)
  | .ok selector =>
    match sheet.index[selector.text]? with
    | some slot => pure (.rule slot, sheet)
    | none => do
      let r := Rule.ofSelector selector
      Logged.note (.registeredRule r.text sheet.size r.specificity)
      pure (.rule sheet.size, sheet.push r)

/-- The style that a handle stands for. -/
def view (sheet : Stylesheet) : Handle → StyleRef
  | .rule slot => .own ((sheet.rules[slot]?.map Rule.style).getD .empty)
  | .dummy => .dummy

def get? (sheet : Stylesheet) (text : String) : Option Style := do
  let selector ← (Selector.parse text).toOption
  let slot ← sheet.index[selector.text]?
  let r ← sheet.rules[slot]?
  pure r.style

def contains (sheet : Stylesheet) (text : String) : Bool := (sheet.get? text).isSome

def putStyle (sheet : Stylesheet) (slot : Nat) (style : Style) : Stylesheet :=
  { sheet with rules := sheet.rules.modify slot fun r => { r with style } }

/-- Declare a property through a handle, if the value is of its kind. -/
def set? (sheet : Stylesheet) (h : Handle) (p : Property) (v : Value) :
    Except StyleError Stylesheet :=
  match h with
  | .rule slot => ((sheet.view h).style.set? p v).map (sheet.putStyle slot)
  | .dummy => .error .dummyStyle

/-- Declare a property through a handle; what cannot be done is put down in the log. -/
def set (sheet : Stylesheet) (h : Handle) (p : Property) (v : Value) : Logged Stylesheet :=
  match h with
  | .rule slot => sheet.putStyle slot <$> (sheet.view h).style.set p v
  | .dummy => do
    Logged.note (.ignoredWrite p)
    pure sheet

/-- The style behind a handle, to be changed in any way: what it is, and what the sheet becomes when
another style takes its place. The dummy is nobody's to change. -/
def borrow? (sheet : Stylesheet) (h : Handle) : Option (Style × (Style → Stylesheet)) :=
  match h with
  | .rule slot => some ((sheet.view h).style, sheet.putStyle slot)
  | .dummy => none

/-- Unset a property through a handle and give back its value; the dummy has none to unset. -/
def erase? (sheet : Stylesheet) (h : Handle) (p : Property) :
    Option (Option Value × Stylesheet) :=
  match h with
  | .rule slot =>
    let style := (sheet.view h).style
    some (style.get p, sheet.putStyle slot (style.erase p))
  | .dummy => none

end Stylesheet

/-!
## The cascade

The rules that apply to an element are layered in the order of their specificity, and rules of
the same specificity in the order of their registration; where two declare a property, the later
layer is seen. The inherited properties that are then unset come from the nearest ancestor whose
own rules declare them.

There are two ways to inherit. `computeStyle` starts from an element alone and climbs its line of
ancestors until nothing more can be missing. `computeWithParent` is given the computed style of
the parent, for callers that go from the root down.
-/

structure MatchedRule where
  rule : Rule
  /-- The place of the rule in its sheet. -/
  order : Nat
  /-- The ancestors that the selector's compounds before the subject have matched. -/
  ancestors : List Element

namespace MatchedRule

/-- The order of the layers. -/
def isBelow (m n : MatchedRule) : Bool :=
  ((compare m.rule.specificity n.rule.specificity).then (compare m.order n.order)).isLE

def event (m : MatchedRule) (typeName : String) : Event :=
  .matchedRule m.rule.text typeName m.ancestors.length

end MatchedRule

namespace Stylesheet

/-- The rules that apply to an element, in the order of their registration. -/
def applicable (sheet : Stylesheet) (l : Lineage) : List MatchedRule :=
  sheet.rules.toList.zipIdx.filterMap fun (rule, order) =>
    (rule.selector.matchedAncestors? l).map fun ancestors => { rule, order, ancestors }

/-- The rules that apply to an element, the lowest layer first. Each is noted as it is found. -/
def matchingRules (sheet : Stylesheet) (l : Lineage) : Logged (List MatchedRule) :=
  let found := sheet.applicable l
  { value := found.mergeSort MatchedRule.isBelow
    events := found.map fun m => m.event l.element.typeName }

/-- The declarations of all rules that apply to an element. -/
def cascade (sheet : Stylesheet) (l : Lineage) : Logged Style := do
  let layers ← sheet.matchingRules l
  pure (layers.foldl (fun s m => s.overlay m.rule.style) .empty)

/-- Take what a style misses from a line of ancestors, the nearest first, for as long as it
misses an inherited property. -/
def climb (sheet : Stylesheet) : Style → List Element → Logged Style
  | s, [] => pure s
  | s, a :: above =>
    if s.missesInherited then do
      let own ← sheet.cascade ⟨a, above⟩
      climb sheet (s.inherit own) above
    else pure s

def computeStyle (sheet : Stylesheet) (l : Lineage) : Logged Style := do
  let own ← sheet.cascade l
  sheet.climb own l.ancestors

/-- The computed style of an element whose parent's computed style is known. -/
def computeWithParent (sheet : Stylesheet) (l : Lineage) (parent : Option Style) :
    Logged Style := do
  let own ← sheet.cascade l
  pure (match parent with
    | none => own
    | some p => own.inherit p)

/-- The computed styles along a line of descent, each from the one before it. -/
def computeDown (sheet : Stylesheet) : Option Style → List Lineage → Logged (List Style)
  | _, [] => pure []
  | parent, l :: below => do
    let style ← sheet.computeWithParent l parent
    let styles ← computeDown sheet (some style) below
    pure (style :: styles)

end Stylesheet
end StyleCascade
