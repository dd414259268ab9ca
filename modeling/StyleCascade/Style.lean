import StyleCascade.Property

/-!
# Styles

A style gives values to some of the properties and leaves the others unset; there are no
defaults. It is a table with one slot for each property, so it does not remember in which order
its declarations were made: `Style.ext` says that a style is no more than what `get` reads from
it, and everything else, the list of its declarations and its text included, is determined by
that.

`set?` is the checked way to declare a property. A value of another kind than the property
takes is refused; the operations that combine styles move values between slots of one property
and need no check.
-/

namespace StyleCascade

structure Style where
  /-- One slot for each property, at the property's place; `none` where it is unset. -/
  slots : Vector (Option Value) Property.count

namespace Style

variable {s t : Style} {p q : Property}

def get (s : Style) (p : Property) : Option Value := s.slots[p.index]

def ofGet (f : Property → Option Value) : Style := ⟨Vector.ofFn fun i => f (.ofIndex i)⟩

@[simp] theorem get_ofGet (f : Property → Option Value) (p : Property) :
    (ofGet f).get p = f p := by
  simp [get, ofGet]

/-- A style is determined by the values that it declares. -/
@[ext] theorem ext (h : ∀ p, s.get p = t.get p) : s = t := by
  obtain ⟨s⟩ := s
  obtain ⟨t⟩ := t
  congr 1
  apply Vector.ext
  intro i hi
  have := h (.ofIndex ⟨i, hi⟩)
  simpa [get] using this

def empty : Style := ofGet fun _ => none

instance : Inhabited Style := ⟨empty⟩

@[simp] theorem get_empty (p : Property) : empty.get p = none := by
  simp [empty]

/-- Fill a slot, or empty it. -/
def put (s : Style) (p : Property) (v : Option Value) : Style :=
  ⟨s.slots.set p.index v⟩

theorem get_put (s : Style) (p : Property) (v : Option Value) (q : Property) :
    (s.put p v).get q = if p = q then v else s.get q := by
  simp only [get, put, Fin.getElem_fin, Vector.getElem_set, ← Fin.ext_iff, Property.index_inj]

def erase (s : Style) (p : Property) : Style := s.put p none

theorem get_erase (s : Style) (p q : Property) :
    (s.erase p).get q = if p = q then none else s.get q :=
  get_put s p none q

def contains (s : Style) (p : Property) : Bool := (s.get p).isSome

/-- The declarations, in the order of the properties. -/
def entries (s : Style) : List (Property × Value) :=
  Property.all.filterMap fun p => (s.get p).map fun v => (p, v)

@[simp] theorem mem_entries {v : Value} : (p, v) ∈ s.entries ↔ s.get p = some v := by
  simp only [entries, List.mem_filterMap, Option.map_eq_some_iff, Prod.mk.injEq]
  constructor
  · rintro ⟨q, -, w, hw, rfl, rfl⟩
    exact hw
  · intro h
    exact ⟨p, Property.mem_all p, v, h, rfl, rfl⟩

def size (s : Style) : Nat := s.entries.length

def isEmpty (s : Style) : Bool := s.entries.isEmpty

def color? (s : Style) (p : Property) : Option Color := (s.get p).bind Value.color?

def number? (s : Style) (p : Property) : Option Single := (s.get p).bind Value.number?

def integer? (s : Style) (p : Property) : Option Int32 := (s.get p).bind Value.integer?

/-- The text of a declared string or keyword. -/
def string? (s : Style) (p : Property) : Option String := (s.get p).bind Value.string?

/-- Styles are compared slot by slot, and the values in them as values are. -/
instance : BEq Style where
  beq s t := Property.all.all fun p => s.get p == t.get p

theorem beq_iff : (s == t) = true ↔ ∀ p, (s.get p == t.get p) = true := by
  change (Property.all.all fun p => s.get p == t.get p) = true ↔ _
  simp [List.all_eq_true, Property.mem_all]

def entryText (entry : Property × Value) : String :=
  " " ++ entry.1.name ++ ": " ++ entry.2.text

/-- The declarations between braces, parted by semicolons. -/
def text (s : Style) : String :=
  "\x7b" ++ String.intercalate ";" (s.entries.map entryText) ++ " \x7d"

end Style

inductive StyleError where
  /-- The value is not of the kind that the property takes. -/
  | typeMismatch (property : Property) (expected found : ValueKind)
  /-- There is no style of one's own to write to. -/
  | dummyStyle
  deriving DecidableEq, Repr

def StyleError.message : StyleError → String
  | typeMismatch property expected found =>
    "Property " ++ property.name ++ " expects a " ++ expected.name ++ " value, got " ++ found.name
  | dummyStyle => "Cannot modify the dummy style"

/-- A style as it is handed out: somebody's own, or the dummy that stands in where there is none.
The dummy reads as empty. It is told apart by being the dummy and not by what it declares, so a
copy of it is an ordinary style. -/
inductive StyleRef where
  | own (style : Style)
  | dummy

namespace StyleRef

def style : StyleRef → Style
  | own s => s
  | dummy => .empty

def isDummy : StyleRef → Bool
  | own _ => false
  | dummy => true

/-- A style of one's own that reads the same. -/
def copy (r : StyleRef) : StyleRef := own r.style

end StyleRef

namespace Style

/-- Declare a property, if the value is of its kind. -/
def set? (s : Style) (p : Property) (v : Value) : Except StyleError Style :=
  if v.kind = p.kind then .ok (s.put p (some v)) else .error (.typeMismatch p p.kind v.kind)

end Style
end StyleCascade

namespace StyleCascade.Style

/-!
## Layers of styles

Styles are combined in two directions. Across the rules that apply to one component, a later
layer covers an earlier one. Down the tree, a component takes from its parent what it leaves
unset itself, but of the inherited properties only. Both are defined by what the result reads
for each property.
-/

/-- Lay `top` over `base`: where both declare a property, `top` is seen. -/
def overlay (base top : Style) : Style := ofGet fun p => (top.get p).or (base.get p)

@[simp] theorem get_overlay (base top : Style) (p : Property) :
    (base.overlay top).get p = (top.get p).or (base.get p) :=
  get_ofGet _ p

/-- Take over from `parent` the inherited properties that are unset. -/
def inherit (s parent : Style) : Style :=
  ofGet fun p => (s.get p).or (if p.isInherited then parent.get p else none)

@[simp] theorem get_inherit (s parent : Style) (p : Property) :
    (s.inherit parent).get p = (s.get p).or (if p.isInherited then parent.get p else none) :=
  get_ofGet _ p

/-- Test whether an inherited property is unset, so that an ancestor could still supply it. -/
def missesInherited (s : Style) : Bool := Property.inherited.any fun p => (s.get p).isNone

theorem missesInherited_eq_false {s : Style} :
    s.missesInherited = false ↔ ∀ p, p.isInherited = true → (s.get p).isSome = true := by
  simp [missesInherited, List.any_eq_false, ← Option.isSome_iff_ne_none]

end StyleCascade.Style
