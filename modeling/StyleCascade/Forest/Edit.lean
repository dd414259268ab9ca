import StyleCascade.Log

/-!
# Editing a forest

Components are created detached. To append one to a parent first takes it from where it stands
and then puts it behind the last child. What would make a component its own ancestor is refused,
as is every edit that names a component that does not exist; a refused edit has no result but
its error.

Links come in pairs that point at each other. An edit of the shape changes both links of each
pair that it touches: `detach` joins the two sides of the gap it leaves, and `attach` ties the
new last child to the old one.
-/

namespace StyleCascade

inductive ForestError where
  | unknownComponent (id : ComponentId)
  /-- The child is the parent or stands above it. -/
  | cycle (parent child : ComponentId)
  /-- The component has another parent, or none. -/
  | notAChild (parent child : ComponentId)
  deriving DecidableEq, Repr

def ForestError.message : ForestError → String
  | unknownComponent id => "Unknown component " ++ id.repr
  | cycle parent child =>
    "Appending " ++ child.repr ++ " under " ++ parent.repr ++ " would create a cycle"
  | notAChild parent child =>
    "Component " ++ child.repr ++ " is not a child of " ++ parent.repr

namespace Forest

def defaultType : String := "component"

/-- Create a component that stands alone. -/
def create (f : Forest) (typeName : String) : ComponentId × Forest :=
  (f.size, { nodes := f.nodes.push { component := .new f.size typeName } })

def relink (f : Forest) (id : ComponentId) (change : Links → Links) : Forest where
  nodes := f.nodes.modify id fun n => { n with links := change n.links }

/-- Change the links of the component that a link points at, if there is one. -/
def relink? (f : Forest) (target : Option ComponentId) (change : Links → Links) : Forest :=
  match target with
  | none => f
  | some id => f.relink id change

/-- Point the side before a gap at the component behind the gap: the sibling before, or the
parent if the gap is at the front. -/
def joinForward (f : Forest) (gap : Links) : Forest :=
  match gap.prevSibling with
  | some before => f.relink before fun l => { l with nextSibling := gap.nextSibling }
  | none => f.relink? gap.parent fun l => { l with firstChild := gap.nextSibling }

/-- Point the side behind a gap at the component before the gap: the sibling behind, or the
parent if the gap is at the end. -/
def joinBackward (f : Forest) (gap : Links) : Forest :=
  match gap.nextSibling with
  | some behind => f.relink behind fun l => { l with prevSibling := gap.prevSibling }
  | none => f.relink? gap.parent fun l => { l with lastChild := gap.prevSibling }

/-- Take a component, with all that stands below it, out of its tree. -/
def detach (f : Forest) (child : ComponentId) : Forest :=
  let gap := f.links child
  ((f.joinForward gap).joinBackward gap).relink child fun l =>
    { l with parent := none, prevSibling := none, nextSibling := none }

/-- Put a component that stands alone behind the last child of a parent. -/
def attach (f : Forest) (parent child : ComponentId) : Forest :=
  let last := (f.links parent).lastChild
  let f := f.relink? last fun l => { l with nextSibling := some child }
  let f := f.relink child fun l => { l with parent := some parent, prevSibling := last }
  f.relink parent fun l =>
    { l with firstChild := l.firstChild.or (some child), lastChild := some child }

/-- The error of an edit that names a component that does not exist. -/
def require (f : Forest) (id : ComponentId) : Except ForestError Component :=
  match f.component? id with
  | some c => .ok c
  | none => .error (.unknownComponent id)

/-- Make a component the last child of another, wherever it stood before. -/
def append (f : Forest) (parent child : ComponentId) : Logged (Except ForestError Forest) :=
  match f.require parent, f.require child with
  | .error e, _ => pure (.error e)
  | .ok _, .error e => pure (.error e)
  | .ok _, .ok _ =>
    if f.isInclusiveAncestor child parent then do
      Logged.note (.refusedAppend parent child)
      pure (.error (.cycle parent child))
    else if (f.parent? child).isSome then
      pure (.ok ((f.detach child).attach parent child))
    else
      pure (.ok (f.attach parent child))

def remove (f : Forest) (parent child : ComponentId) : Except ForestError Forest := do
  let _ ← f.require parent
  let _ ← f.require child
  if f.parent? child = some parent then .ok (f.detach child)
  else .error (.notAChild parent child)

def putComponent (f : Forest) (id : ComponentId) (c : Component) : Forest where
  nodes := f.nodes.modify id fun n => { n with component := c }

def setClasses (f : Forest) (id : ComponentId) (names : List String) :
    Except ForestError Forest := do
  let c ← f.require id
  pure (f.putComponent id (c.setClasses names))

def addClass (f : Forest) (id : ComponentId) (name : String) :
    Except ForestError (Bool × Forest) := do
  let c ← f.require id
  let (isNew, c) := c.addClass name
  pure (isNew, f.putComponent id c)

def removeClass (f : Forest) (id : ComponentId) (name : String) :
    Except ForestError (Bool × Forest) := do
  let c ← f.require id
  let (wasThere, c) := c.removeClass name
  pure (wasThere, f.putComponent id c)

def setPseudo (f : Forest) (id : ComponentId) (name : String) (on : Bool) :
    Except ForestError Forest := do
  let c ← f.require id
  pure (f.putComponent id (c.setPseudo name on))

def setMouseOver (f : Forest) (id : ComponentId) (on : Bool) : Except ForestError Forest :=
  f.setPseudo id Component.hover on

def setMouseDown (f : Forest) (id : ComponentId) (on : Bool) : Except ForestError Forest :=
  f.setPseudo id Component.active on

def setFocused (f : Forest) (id : ComponentId) (on : Bool) : Except ForestError Forest :=
  f.setPseudo id Component.focus on

end Forest
end StyleCascade
