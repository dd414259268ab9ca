import StyleCascade.Value

/-!
# Properties

The closed list of properties that a style can declare. Each has a name, one kind of value, and
a place in the list, which is the order in which styles show their declarations. Some properties
are inherited: a component that does not declare one takes the value of the nearest ancestor
that does.

`mem_all`, `pairwise_all` and `index_ofIndex` tie the list to the places: it holds every property,
in ascending order, and each at its own place.
-/

namespace StyleCascade

inductive Property where
  | color
  | fontFamily
  | fontSize
  | fontWeight
  | lineHeight
  | letterSpacing
  | textAlign
  | backgroundColor
  | borderColor
  | borderWidth
  | cornerRadius
  | opacity
  | visibility
  | paddingTop
  | paddingRight
  | paddingBottom
  | paddingLeft
  | marginTop
  | marginRight
  | marginBottom
  | marginLeft
  | width
  | height
  | minWidth
  | minHeight
  | maxWidth
  | maxHeight
  deriving DecidableEq, Repr

namespace Property

def all : List Property :=
  [.color, .fontFamily, .fontSize, .fontWeight, .lineHeight, .letterSpacing, .textAlign,
    .backgroundColor, .borderColor, .borderWidth, .cornerRadius, .opacity, .visibility, .paddingTop,
    .paddingRight, .paddingBottom, .paddingLeft, .marginTop, .marginRight, .marginBottom,
    .marginLeft, .width, .height, .minWidth, .minHeight, .maxWidth, .maxHeight]

abbrev count : Nat := 27

def index (p : Property) : Fin count := ⟨p.ctorIdx, by cases p <;> decide⟩

theorem mem_all (p : Property) : p ∈ all := by
  cases p <;> decide

theorem length_all : all.length = count := rfl

def ofIndex (i : Fin count) : Property := all.get (i.cast length_all.symm)

@[simp] theorem index_ofIndex (i : Fin count) : (ofIndex i).index = i := by
  revert i
  decide

@[simp] theorem ofIndex_index (p : Property) : ofIndex p.index = p := by
  cases p <;> rfl

@[simp] theorem index_inj {p q : Property} : p.index = q.index ↔ p = q :=
  ⟨fun h => by rw [← ofIndex_index p, h, ofIndex_index], fun h => congrArg index h⟩

/-- Properties compare by their places. -/
instance : LT Property := ⟨fun p q => p.index < q.index⟩

instance (p q : Property) : Decidable (p < q) := inferInstanceAs (Decidable (p.index < q.index))

/-- The list is in ascending order. -/
theorem pairwise_all : all.Pairwise (· < ·) := by
  decide

def name : Property → String
  | color => "color"
  | fontFamily => "font-family"
  | fontSize => "font-size"
  | fontWeight => "font-weight"
  | lineHeight => "line-height"
  | letterSpacing => "letter-spacing"
  | textAlign => "text-align"
  | backgroundColor => "background-color"
  | borderColor => "border-color"
  | borderWidth => "border-width"
  | cornerRadius => "corner-radius"
  | opacity => "opacity"
  | visibility => "visibility"
  | paddingTop => "padding-top"
  | paddingRight => "padding-right"
  | paddingBottom => "padding-bottom"
  | paddingLeft => "padding-left"
  | marginTop => "margin-top"
  | marginRight => "margin-right"
  | marginBottom => "margin-bottom"
  | marginLeft => "margin-left"
  | width => "width"
  | height => "height"
  | minWidth => "min-width"
  | minHeight => "min-height"
  | maxWidth => "max-width"
  | maxHeight => "max-height"

/-- The property with a given name; the case of ASCII letters does not count. -/
def ofName? (name : String) : Option Property := all.find? fun p => Text.sameName p.name name

def kind : Property → ValueKind
  | color | backgroundColor | borderColor => .color
  | fontFamily => .string
  | fontWeight => .integer
  | textAlign | visibility => .keyword
  | _ => .number

/-- Test whether a component takes the property from its ancestors. -/
def isInherited : Property → Bool
  | color | fontFamily | fontSize | fontWeight | lineHeight | letterSpacing | textAlign
  | visibility => true
  | _ => false

def inherited : List Property := all.filter isInherited

@[simp] theorem mem_inherited {p : Property} : p ∈ inherited ↔ p.isInherited = true := by
  simp [inherited, mem_all]

end Property
end StyleCascade
