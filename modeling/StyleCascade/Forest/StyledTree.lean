import StyleCascade.Stylesheet

/-!
# Styled trees

A sheet gives every component of a forest a computed style. One component's style can be asked
for alone. For a whole tree of components it is cheaper to go from its root down and to hand
each computed style on to the children, so that every component is matched once. A list of
pending components takes the place of a recursion; no forest has a cycle, so there are never
more steps than components.

The result lists the components of the tree in pre-order, each with its parent in the tree and
its distance from the root. The root of the result may be any component; what stands above it
counts for matching and inheritance but is not listed.
-/

namespace StyleCascade

structure StyledComponent where
  id : ComponentId
  /-- The parent, except for the root of the tree. -/
  parent : Option ComponentId
  /-- The distance from the root. -/
  depth : Nat
  style : Style

/-- The components of a tree in pre-order: a component, then the trees of its children. -/
structure StyledTree where
  components : List StyledComponent := []

namespace StyledTree

def empty : StyledTree := {}

def root? (t : StyledTree) : Option StyledComponent := t.components.head?

def get? (t : StyledTree) (id : ComponentId) : Option StyledComponent :=
  t.components.find? fun c => c.id == id

def children (t : StyledTree) (id : ComponentId) : List StyledComponent :=
  t.components.filter fun c => c.parent == some id

def size (t : StyledTree) : Nat := t.components.length

def isEmpty (t : StyledTree) : Bool := t.components.isEmpty

end StyledTree

namespace Forest

/-- The computed style of one component. -/
def compute (f : Forest) (sheet : Stylesheet) (id : ComponentId) : Logged (Option Style) :=
  match f.lineage? id with
  | none => pure none
  | some l => some <$> sheet.computeStyle l

/-- The computed style of one component, when the computed style of its parent is known. -/
def resolveOne (f : Forest) (sheet : Stylesheet) (id : ComponentId) (parentStyle : Option Style) :
    Logged (Option Style) :=
  match f.component? id, f.lineage? id with
  | some c, some l => do
    let style ← sheet.computeWithParent l parentStyle
    Logged.note (.resolved c style)
    pure (some style)
  | _, _ => pure none

/-- Work off a list of pending components, each given with the place of its parent among those
that are resolved already. The children of a component go in front of what is pending, so that
components come out in pre-order. The first argument bounds the number of steps. -/
def resolvePending (f : Forest) (sheet : Stylesheet) :
    Nat → Array StyledComponent → List (ComponentId × Nat) → Logged (Array StyledComponent)
  | 0, resolved, _ => pure resolved
  | _ + 1, resolved, [] => pure resolved
  | count + 1, resolved, (id, slot) :: pending =>
    match resolved[slot]? with
    | none => resolvePending f sheet count resolved pending
    | some parent => do
      match ← f.resolveOne sheet id (some parent.style) with
      | none => resolvePending f sheet count resolved pending
      | some style =>
        let entry := { id, parent := some parent.id, depth := parent.depth + 1, style }
        resolvePending f sheet count (resolved.push entry)
          ((f.children id).map (fun child => (child, resolved.size)) ++ pending)

/-- The styled tree below a component, when the computed style of its parent is known. -/
def resolveWithParent (f : Forest) (sheet : Stylesheet) (id : ComponentId)
    (parentStyle : Option Style) : Logged (Option StyledTree) := do
  match ← f.resolveOne sheet id parentStyle with
  | none => pure none
  | some style =>
    let root := { id, parent := none, depth := 0, style }
    let resolved ← f.resolvePending sheet f.size #[root]
      ((f.children id).map fun child => (child, 0))
    pure (some { components := resolved.toList })

/-- The styled tree below a component. -/
def resolve (f : Forest) (sheet : Stylesheet) (id : ComponentId) : Logged (Option StyledTree) :=
  match f.parent? id with
  | none => f.resolveWithParent sheet id none
  | some parent => do
    let parentStyle ← f.compute sheet parent
    f.resolveWithParent sheet id parentStyle

/-- The components that a selector matches, in the order of their numbers. -/
def select (f : Forest) (s : Selector) : List ComponentId :=
  (List.range f.size).filter fun id => (f.lineage? id).any s.matchesLineage

end Forest
end StyleCascade
