import StyleCascade.Text.Basic

/-!
# Selectors

A compound tests one component: it may ask for a type, for classes and for pseudo-states. A
selector is a chain of compounds, read from left to right as from an ancestor down to a
descendant; the last one, its subject, tests the component itself.

The fields may hold anything. What a selector's text can say is narrower: there names are in
lower case and no test is repeated, which is what the functions that add a test keep up.
-/

namespace StyleCascade

/-- The two tests that can be repeated within a compound. -/
inductive TestKind where
  /-- Carrying a class, marked by a full stop. -/
  | classTest
  /-- Being in a pseudo-state, marked by a colon. -/
  | pseudoTest
  deriving DecidableEq, Repr

namespace TestKind

def mark : TestKind → Char
  | .classTest => '.'
  | .pseudoTest => ':'

def ofMark? (c : Char) : Option TestKind :=
  if c = '.' then some .classTest else if c = ':' then some .pseudoTest else none

theorem ofMark?_eq_some {c : Char} {k : TestKind} : ofMark? c = some k ↔ c = k.mark := by
  unfold ofMark?
  cases k <;> simp only [mark] <;> split <;> simp_all

end TestKind

/-- The tests on one component. -/
structure Compound where
  /-- The type asked for; any will do if there is none. -/
  typeName : Option String := none
  /-- The classes that must be carried. -/
  classes : List String := []
  /-- The pseudo-states that must be active. -/
  pseudos : List String := []
  deriving DecidableEq, Repr

namespace Compound

def empty : Compound := {}

def ofType (name : String) : Compound := { typeName := some name.toLower }

/-- Add a name that is in lower case to a list of names, unless it is there. -/
def addName (names : List String) (name : String) : List String :=
  if name ∈ names then names else names ++ [name]

/-- Add a test for a name that is in lower case. -/
def add (c : Compound) (kind : TestKind) (name : String) : Compound :=
  match kind with
  | .classTest => { c with classes := addName c.classes name }
  | .pseudoTest => { c with pseudos := addName c.pseudos name }

def withClass (c : Compound) (name : String) : Compound := c.add .classTest name.toLower

def withPseudo (c : Compound) (name : String) : Compound := c.add .pseudoTest name.toLower

/-- Test whether a compound asks for nothing. -/
def isEmpty (c : Compound) : Bool := c.typeName.isNone && c.classes.isEmpty && c.pseudos.isEmpty

end Compound

/-- A chain of compounds, from the outermost ancestor to the subject. -/
structure Selector where
  compounds : List Compound
  deriving DecidableEq, Repr

namespace Selector

def subject? (s : Selector) : Option Compound := s.compounds.getLast?

/-- The compounds that test ancestors, the one nearest to the subject first. -/
def ancestors (s : Selector) : List Compound := s.compounds.dropLast.reverse

def length (s : Selector) : Nat := s.compounds.length

def isEmpty (s : Selector) : Bool := s.compounds.isEmpty

end Selector

/-!
## Specificity

Of two rules that apply to one component the one with the more specific selector wins. What
counts first is the number of its tests for classes and pseudo-states, then the number of its
tests for types, then the length of its chain. The counts are kept in words of 32 bits and stay
at the greatest word when they would pass it.
-/

/-- The three counts that decide between two selectors. -/
structure Specificity where
  /-- Tests for classes and pseudo-states. -/
  classes : Nat := 0
  /-- Tests for types. -/
  types : Nat := 0
  /-- Compounds in the chain. -/
  compounds : Nat := 0
  deriving DecidableEq, Repr

namespace Specificity

/-- The greatest count. -/
def limit : Nat := 0xFFFFFFFF

/-- Add two counts, up to the limit. -/
def addCount (a b : Nat) : Nat := min limit (a + b)

/-- Add a compound's tests to the counts. -/
def count (s : Specificity) (c : Compound) : Specificity where
  classes := addCount s.classes (addCount c.classes.length c.pseudos.length)
  types := addCount s.types (if c.typeName.isSome then 1 else 0)
  compounds := addCount s.compounds 1

/-- The counts in the order of their weight. -/
instance : Ord Specificity where
  compare s t :=
    (compare s.classes t.classes).then
      ((compare s.types t.types).then (compare s.compounds t.compounds))

instance : Max Specificity where
  max s t := if (compare s t).isLE then t else s

def text (s : Specificity) : String :=
  "(" ++ s.classes.repr ++ ", " ++ s.types.repr ++ ", " ++ s.compounds.repr ++ ")"

end Specificity

def Selector.specificity (s : Selector) : Specificity := s.compounds.foldl Specificity.count {}

/-!
## The text of a selector

A compound is written as its type, its classes and its pseudo-states, each test behind its mark.
The compounds of a chain stand side by side with one space between them. This text is also the
name under which a rule is registered.
-/

/-- A name behind the mark of its test. -/
def TestKind.chars (kind : TestKind) (name : String) : List Char := kind.mark :: name.toList

namespace Compound

def chars (c : Compound) : List Char :=
  (c.typeName.getD "").toList ++ c.classes.flatMap TestKind.classTest.chars ++
    c.pseudos.flatMap TestKind.pseudoTest.chars

def text (c : Compound) : String := String.ofList c.chars

end Compound

namespace Selector

def chars (s : Selector) : List Char := List.intercalate [' '] (s.compounds.map Compound.chars)

def text (s : Selector) : String := String.ofList s.chars

end Selector

/-!
## Elements

To match selectors against a component one needs to know of it its type and how it answers two
questions: whether it carries a class, and whether a pseudo-state is active. An element is no
more than that, so that two components with the same answers are the same element. Its lineage
adds the elements above it.
-/

structure Element where
  typeName : String
  hasClass : String → Bool
  isPseudoActive : String → Bool

structure Lineage where
  element : Element
  /-- From the parent up to the root. -/
  ancestors : List Element

namespace Element

/-- The element that carries exactly the given names. -/
def ofNames (typeName : String) (classes pseudos : List String) : Element where
  typeName := typeName
  hasClass name := classes.contains name
  isPseudoActive name := pseudos.contains name

/-- The lineages of elements of which each is the parent of the next, below given ancestors. -/
def chainBelow : List Element → List Element → List Lineage
  | _, [] => []
  | ancestors, e :: below => ⟨e, ancestors⟩ :: chainBelow (e :: ancestors) below

/-- The lineages of elements of which the first is a root and each is the parent of the next. -/
def chain (elements : List Element) : List Lineage := chainBelow [] elements

end Element

/-!
## Matching

A selector matches an element if its subject matches the element itself and the compounds before
it match some of the ancestors, in the same order and each a different one. The search goes up
the line of ancestors once: each compound in turn takes the nearest ancestor that it matches
above the one taken last. Taking the nearest leaves the most ancestors for the compounds that
follow, so there is never a reason to go back.
-/

/-- Test one element against a compound. A compound without a test matches every element. -/
def Compound.matchesElement (c : Compound) (e : Element) : Bool :=
  c.typeName.all (Text.sameName e.typeName) && c.classes.all e.hasClass &&
    c.pseudos.all e.isPseudoActive

namespace Selector

/-- Find for each compound an ancestor that it matches, each above the one before it and as near
as can be. -/
def findAncestors : List Compound → List Element → Option (List Element)
  | [], _ => some []
  | _ :: _, [] => none
  | c :: cs, a :: above =>
    if c.matchesElement a then (findAncestors cs above).map (a :: ·)
    else findAncestors (c :: cs) above

/-- The ancestors that satisfy the compounds before the subject, the nearest first, if the
selector matches. -/
def matchedAncestors? (s : Selector) (l : Lineage) : Option (List Element) :=
  match s.subject? with
  | none => none
  | some subject =>
    if subject.matchesElement l.element then findAncestors s.ancestors l.ancestors else none

def matchesLineage (s : Selector) (l : Lineage) : Bool := (s.matchedAncestors? l).isSome

end Selector
end StyleCascade
