import StyleCascade.Proofs.Stylesheet.Layers

/-!
# What an element inherits

A computed style starts from the element's own cascade and takes what is missing from the
cascades of the ancestors, one after the other. The climb stops early when no inherited property
is missing. `value_computeStyle` says that the stop changes nothing, because a style that misses
nothing takes over nothing.

Property by property, the nearest element of the line that declares it supplies the value; only
an inherited property is looked for above the element itself. `get_computeStyle_iff` puts this
together with what a cascade declares.
-/

namespace StyleCascade

namespace Lineage

/-- The lineages along a line of ancestors, the nearest first. -/
def ofAncestors : List Element → List Lineage
  | [] => []
  | a :: above => ⟨a, above⟩ :: ofAncestors above

/-- An element with the elements above it, the element itself first. -/
def inclusive (l : Lineage) : List Lineage := l :: ofAncestors l.ancestors

theorem inclusive_cons (e a : Element) (above : List Element) :
    inclusive ⟨e, a :: above⟩ = ⟨e, a :: above⟩ :: inclusive ⟨a, above⟩ := rfl

end Lineage

/-- Where an element can have a property from: if the property is inherited, from itself and the
elements above it, the nearest first, and otherwise from itself only. -/
def Property.sources (p : Property) (l : Lineage) : List Lineage :=
  if p.isInherited then l.inclusive else [l]

namespace Style

variable {s : Style}

/-- A style that misses no inherited property has nothing to take over. -/
theorem inherit_of_missesInherited (h : s.missesInherited = false) (parent : Style) :
    s.inherit parent = s := by
  ext p v
  rw [get_inherit]
  by_cases hp : p.isInherited = true
  · obtain ⟨w, hw⟩ := Option.isSome_iff_exists.mp (missesInherited_eq_false.mp h p hp)
    rw [hw, Option.some_or]
  · rw [if_neg hp, Option.or_none]

theorem foldl_inherit_of_missesInherited (h : s.missesInherited = false) (parents : List Style) :
    parents.foldl inherit s = s := by
  induction parents with
  | nil => rfl
  | cons parent parents ih => rw [List.foldl_cons, inherit_of_missesInherited h, ih]

/-- Of the styles on the way up, the first one that declares an inherited property supplies it. -/
theorem get_foldl_inherit (parents : List Style) (s : Style) (p : Property) :
    (parents.foldl inherit s).get p =
      (s.get p).or (if p.isInherited then parents.findSome? fun t => t.get p else none) := by
  induction parents generalizing s with
  | nil => simp
  | cons parent parents ih =>
      rw [List.foldl_cons, ih, get_inherit, Option.or_assoc]
      by_cases hp : p.isInherited = true
      · simp only [if_pos hp, List.findSome?_cons]
        cases parent.get p <;> rfl
      · simp only [if_neg hp, Option.or_none]

end Style

namespace Stylesheet

def cascades (sheet : Stylesheet) (ls : List Lineage) : List Style :=
  ls.map fun a => (sheet.cascade a).value

theorem cascades_cons (sheet : Stylesheet) (l : Lineage) (ls : List Lineage) :
    sheet.cascades (l :: ls) = (sheet.cascade l).value :: sheet.cascades ls := rfl

theorem value_climb (sheet : Stylesheet) (s : Style) (above : List Element) :
    (sheet.climb s above).value =
      (sheet.cascades (Lineage.ofAncestors above)).foldl Style.inherit s := by
  induction above generalizing s with
  | nil => rfl
  | cons a above ih =>
      rw [climb]
      by_cases h : s.missesInherited = true
      · rw [if_pos h, Logged.value_bind, ih, Lineage.ofAncestors, cascades_cons, List.foldl_cons]
      · rw [if_neg h, Logged.value_pure,
          Style.foldl_inherit_of_missesInherited (Bool.eq_false_iff.mpr h)]

/-- The early stop of the climb has no effect: the computed style is what comes of all cascades up
to the root. -/
theorem value_computeStyle (sheet : Stylesheet) (l : Lineage) :
    (sheet.computeStyle l).value =
      (sheet.cascades (Lineage.ofAncestors l.ancestors)).foldl Style.inherit
        (sheet.cascade l).value :=
  value_climb sheet _ _

/-- The nearest source that declares a property supplies it. -/
theorem get_computeStyle (sheet : Stylesheet) (l : Lineage) (p : Property) :
    (sheet.computeStyle l).value.get p =
      (p.sources l).findSome? fun a => (sheet.cascade a).value.get p := by
  rw [value_computeStyle, Style.get_foldl_inherit, Property.sources, cascades, List.findSome?_map]
  split
  · rw [Lineage.inclusive, List.findSome?_cons]
    cases (sheet.cascade l).value.get p <;> rfl
  · rw [Option.or_none, List.findSome?_singleton]

/-- Sheets whose cascades agree on a property at all of its sources agree on it in the computed
style. -/
theorem get_computeStyle_congr {sheet other : Stylesheet} {l : Lineage} {p : Property}
    (h : ∀ a ∈ p.sources l, (sheet.cascade a).value.get p = (other.cascade a).value.get p) :
    (sheet.computeStyle l).value.get p = (other.computeStyle l).value.get p := by
  rw [get_computeStyle, get_computeStyle, ← List.head?_filterMap, ← List.head?_filterMap,
    List.filterMap_congr h]

/-- Below a parent the climb has the same result as taking over from the parent's computed style,
which holds what the parent has taken from further up. -/
theorem value_computeStyle_cons (sheet : Stylesheet) (e a : Element) (above : List Element) :
    (sheet.computeStyle ⟨e, a :: above⟩).value =
      (sheet.computeWithParent ⟨e, a :: above⟩ (some (sheet.computeStyle ⟨a, above⟩).value)).value
    := by
  ext p v
  change _ ↔ ((sheet.cascade _).value.inherit _).get p = some v
  rw [Style.get_inherit, get_computeStyle, get_computeStyle, Property.sources, Property.sources]
  split
  · rw [Lineage.inclusive_cons, List.findSome?_cons]
    cases (sheet.cascade ⟨e, a :: above⟩).value.get p <;> rfl
  · rw [Option.or_none, List.findSome?_singleton]

/-- A computed style, property by property. The nearest source for which some rule applies and
declares the property has the say, and there the greatest such rule in the order of specificity
and then of registration. The property is unset if there is no such source. That the climb stops
when nothing is missing makes no difference. -/
theorem get_computeStyle_iff (visits : List Visit) (l : Lineage) (p : Property) :
    (∀ v, ((run visits).computeStyle l).value.get p = some v ↔
      ∃ nearer a farther i r, p.sources l = nearer ++ a :: farther ∧
        (∀ b ∈ nearer, ∀ j s, ¬ (run visits).Supplies b p j s) ∧
        (run visits).Decides a p i r ∧ r.style.get p = some v) ∧
    (((run visits).computeStyle l).value.get p = none ↔
      ∀ b ∈ p.sources l, ∀ j s, ¬ (run visits).Supplies b p j s) ∧
    ((run visits).computeStyle l).value =
      ((run visits).cascades (Lineage.ofAncestors l.ancestors)).foldl Style.inherit
        ((run visits).cascade l).value := by
  have coherent := coherent_run visits
  refine ⟨fun v => ?_, ?_, value_computeStyle _ l⟩
  · rw [get_computeStyle, List.findSome?_eq_some_iff]
    simp only [get_cascade_eq_some_iff_decides coherent, get_cascade_eq_none_iff_supplies]
    constructor
    · rintro ⟨nearer, a, farther, hsources, ⟨i, r, decides, hv⟩, silent⟩
      exact ⟨nearer, a, farther, i, r, hsources, silent, decides, hv⟩
    · rintro ⟨nearer, a, farther, i, r, hsources, silent, decides, hv⟩
      exact ⟨nearer, a, farther, hsources, ⟨i, r, decides, hv⟩, silent⟩
  · rw [get_computeStyle, List.findSome?_eq_none_iff]
    simp only [get_cascade_eq_none_iff_supplies]

end Stylesheet

/-!
## Computing from the root down

A caller that visits every component of a tree does not climb from each of them. It keeps the
computed style of a component and hands it to the children. `computeStyle_eq_descent` says that
this way of computing a style has the same result as the climb, in one step from the parent as
well as over a whole line of descent.

The two ways take over in a different order: the climb adds one ancestor after the other to the
element's own cascade, and on the way down each style has been completed before it is handed on.
-/

namespace Lineage

/-- The nearest of the elements above, with those above it. -/
def parent? (l : Lineage) : Option Lineage := (ofAncestors l.ancestors).head?

/-- The line of an element from the root down to the element itself. -/
def descent (l : Lineage) : List Lineage := l.inclusive.reverse

end Lineage

namespace Stylesheet

/-- A computed style comes of one step from the parent's, and at the root from no style. -/
theorem value_computeStyle_step (sheet : Stylesheet) (l : Lineage) :
    (sheet.computeStyle l).value =
      (sheet.computeWithParent l (l.parent?.map fun a => (sheet.computeStyle a).value)).value := by
  obtain ⟨e, ancestors⟩ := l
  cases ancestors with
  | nil => rfl
  | cons a above => exact value_computeStyle_cons sheet e a above

/-- The steps along a line lead to the computed style of the last element. -/
theorem foldl_computeWithParent (sheet : Stylesheet) (e : Element) (above : List Element) :
    (Lineage.descent ⟨e, above⟩).foldl
        (fun parent a => some (sheet.computeWithParent a parent).value) none =
      some (sheet.computeStyle ⟨e, above⟩).value := by
  rw [Lineage.descent, List.foldl_reverse]
  induction above generalizing e with
  | nil => rfl
  | cons a above ih =>
      rw [Lineage.inclusive_cons, List.foldr_cons, ih a, value_computeStyle_step sheet ⟨e, _⟩]
      rfl

/-- Below elements whose nearest has its computed style, the way down gives every element its
computed style. -/
theorem value_computeDown (sheet : Stylesheet) (above below : List Element) :
    (sheet.computeDown
        ((Lineage.ofAncestors above).head?.map fun a => (sheet.computeStyle a).value)
        (Element.chainBelow above below)).value =
      (Element.chainBelow above below).map fun l => (sheet.computeStyle l).value := by
  induction below generalizing above with
  | nil => rfl
  | cons e below ih =>
      have step := value_computeStyle_step sheet ⟨e, above⟩
      rw [Lineage.parent?] at step
      rw [Element.chainBelow, computeDown, Logged.value_bind, ← step, List.map_cons,
        ← ih (e :: above)]
      rfl

/-- To climb from an element and to come down to it are the same. A computed style is what one step
makes of the parent's, so it is what the steps from the root down end with, and a line of descent
that is computed in one pass has at every element the style that the climb from there gives. -/
theorem computeStyle_eq_descent (sheet : Stylesheet) :
    (∀ l, (sheet.computeStyle l).value =
      (sheet.computeWithParent l (l.parent?.map fun a => (sheet.computeStyle a).value)).value) ∧
    (∀ l : Lineage,
      l.descent.foldl (fun parent a => some (sheet.computeWithParent a parent).value) none =
        some (sheet.computeStyle l).value) ∧
    ∀ elements, (sheet.computeDown none (Element.chain elements)).value =
      (Element.chain elements).map fun l => (sheet.computeStyle l).value :=
  ⟨value_computeStyle_step sheet, fun l => foldl_computeWithParent sheet l.element l.ancestors,
    value_computeDown sheet []⟩

end Stylesheet
end StyleCascade
