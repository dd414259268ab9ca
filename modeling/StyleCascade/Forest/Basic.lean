import StyleCascade.Selector.Basic

/-!
# Forests

Components stand in trees. A forest holds all of them under numbers that are given out in the
order of creation and stay good for ever: a component can be taken out of its tree, but it is
never destroyed, and then stands as the root of a tree of its own.

A component knows its neighbours by number: its parent, its first and last child, and the
siblings next to it. Everything else about the shape is found by following one kind of link
from component to component, as `follow` does. A forest has no cycle, so no walk is longer than
the number of components; that number bounds the walk, and no walk is cut short.
-/

namespace StyleCascade

/-!
## Components

A component has a type, which never changes, and two lists of names that do: its classes and the
pseudo-states that are active. A name is brought to one form before it is stored: blanks at its
ends are cut and ASCII letters put in lower case. Nothing is stored twice, and what is empty in
that form is not stored at all. Questions about a name ignore the case of ASCII letters but take
the name as it is, blanks included.
-/

/-- The number of a component in its forest. -/
abbrev ComponentId := Nat

/-- A component, apart from its place among others. -/
structure Component where
  id : ComponentId
  /-- The type, in lower case. -/
  typeName : String
  /-- The classes, in the order in which they were added. -/
  classes : List String := []
  /-- The active pseudo-states, in the order in which they were turned on. -/
  pseudos : List String := []
  deriving DecidableEq, Repr

namespace Component

/-- The form in which a name is stored. -/
def storedName (name : String) : String := (Text.trim name).toLower

/-- Test whether adding a name to a list would store it: it is not empty and not there yet. -/
def isNewName (names : List String) (name : String) : Bool :=
  storedName name != "" && !names.contains (storedName name)

def insertName (names : List String) (name : String) : List String :=
  if isNewName names name then names ++ [storedName name] else names

def eraseName (names : List String) (name : String) : List String :=
  names.filter fun n => n != storedName name

/-- The pseudo-state of a component under the pointer. -/
def hover : String := "hover"

/-- The pseudo-state of a component on which the pointer is pressed. -/
def active : String := "active"

/-- The pseudo-state of a component that has the keyboard. -/
def focus : String := "focus"

def new (id : ComponentId) (typeName : String) : Component := { id, typeName := typeName.toLower }

def hasClass (c : Component) (name : String) : Bool := c.classes.any (Text.sameName name)

def hasPseudo (c : Component) (name : String) : Bool := c.pseudos.any (Text.sameName name)

/-- Add a class; also tell whether it is new. -/
def addClass (c : Component) (name : String) : Bool × Component :=
  (isNewName c.classes name, { c with classes := insertName c.classes name })

/-- Remove a class; also tell whether it was there. -/
def removeClass (c : Component) (name : String) : Bool × Component :=
  (c.classes.contains (storedName name), { c with classes := eraseName c.classes name })

def setClasses (c : Component) (names : List String) : Component :=
  { c with classes := names.foldl insertName [] }

def setPseudo (c : Component) (name : String) (on : Bool) : Component :=
  { c with pseudos := if on then insertName c.pseudos name else eraseName c.pseudos name }

def isMouseOver (c : Component) : Bool := c.hasPseudo hover
def isMouseDown (c : Component) : Bool := c.hasPseudo active
def isFocused (c : Component) : Bool := c.hasPseudo focus

/-- A component as selectors see it. -/
def toElement (c : Component) : Element where
  typeName := c.typeName
  hasClass := c.hasClass
  isPseudoActive := c.hasPseudo

/-- A component is written like the compound that asks for all that it has. -/
def text (c : Component) : String := Compound.text ⟨some c.typeName, c.classes, c.pseudos⟩

end Component

/-! ## Numbers and links -/

/-- The neighbours of a component. -/
structure Links where
  parent : Option ComponentId := none
  firstChild : Option ComponentId := none
  lastChild : Option ComponentId := none
  prevSibling : Option ComponentId := none
  nextSibling : Option ComponentId := none
  deriving DecidableEq, Repr

/-- A component at its place. -/
structure Node where
  component : Component
  links : Links := {}
  deriving DecidableEq, Repr

/-- Components with their places; a component's number is its index. -/
structure Forest where
  nodes : Array Node := #[]

namespace Forest

def empty : Forest := {}

instance : Inhabited Forest := ⟨empty⟩

def size (f : Forest) : Nat := f.nodes.size

def isEmpty (f : Forest) : Bool := f.nodes.isEmpty

def component? (f : Forest) (id : ComponentId) : Option Component :=
  f.nodes[id]?.map Node.component

/-- The neighbours of a component; a number that is not given out has none. -/
def links (f : Forest) (id : ComponentId) : Links := (f.nodes[id]?.map Node.links).getD {}

def parent? (f : Forest) (id : ComponentId) : Option ComponentId := (f.links id).parent

/-- Follow one kind of link from a component, for at most a given number of components. -/
def follow (step : ComponentId → Option ComponentId) :
    Nat → Option ComponentId → List ComponentId
  | 0, _ => []
  | _ + 1, none => []
  | count + 1, some id => id :: follow step count (step id)

def children (f : Forest) (id : ComponentId) : List ComponentId :=
  follow (fun c => (f.links c).nextSibling) f.size (f.links id).firstChild

/-- The ancestors of a component, the parent first. -/
def ancestors (f : Forest) (id : ComponentId) : List ComponentId :=
  follow f.parent? f.size (f.parent? id)

/-- Test whether a component is another or stands above it. -/
def isInclusiveAncestor (f : Forest) (ancestor id : ComponentId) : Bool :=
  (id :: f.ancestors id).contains ancestor

def element? (f : Forest) (id : ComponentId) : Option Element :=
  (f.component? id).map Component.toElement

/-- A component and the components above it, as selectors see them. -/
def lineage? (f : Forest) (id : ComponentId) : Option Lineage :=
  (f.element? id).map fun element => ⟨element, (f.ancestors id).filterMap f.element?⟩

def hasClass (f : Forest) (id : ComponentId) (name : String) : Bool :=
  (f.component? id).any fun c => c.hasClass name

end Forest
end StyleCascade
