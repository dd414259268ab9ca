import StyleCascade.Proofs.Selector.Matching
import StyleCascade.Proofs.Stylesheet.Run

/-!
# What a cascade declares

The rules that apply to an element are sorted and laid over each other. Of each property the
result has the value of the last layer that declares it (`supplier?`), which is a different layer
for different properties. `get_cascade_eq_some` says so without the sort: it is the greatest of the
rules that apply and declare the property, in the order of specificities and then of places. The
order never ties, so there is one such rule, whichever way the layers are sorted.
-/

namespace StyleCascade

/-!
## The rules that apply to an element

A rule applies to an element when its selector matches. `mem_applicable` finds the rules that
apply among those of the sheet, each at its place. The log has one event for each of them, and
`events_matchingRules` gives the events from the rules alone: what an event tells about the
search is the length of the selector.
-/

namespace Stylesheet

variable {sheet : Stylesheet} {l : Lineage} {m : MatchedRule}

/-- The rules that apply are those with a match, each at its place in the sheet. -/
theorem mem_applicable : m ∈ sheet.applicable l ↔
    sheet.rules[m.order]? = some m.rule ∧
      m.rule.selector.matchedAncestors? l = some m.ancestors := by
  obtain ⟨rule, order, ancestors⟩ := m
  simp only [applicable, List.mem_filterMap, Prod.exists, List.mem_zipIdx_iff_getElem?,
    Array.getElem?_toList, Option.map_eq_some_iff, MatchedRule.mk.injEq]
  constructor
  · rintro ⟨_, _, hrule, _, hfound, rfl, rfl, rfl⟩
    exact ⟨hrule, hfound⟩
  · rintro ⟨hrule, hfound⟩
    exact ⟨rule, order, hrule, ancestors, hfound, rfl, rfl, rfl⟩

theorem map_rule_applicable (sheet : Stylesheet) (l : Lineage) :
    (sheet.applicable l).map MatchedRule.rule =
      sheet.rules.toList.filter fun r => r.selector.matchesLineage l := by
  rw [applicable, List.map_filterMap]
  generalize 0 = first
  induction sheet.rules.toList generalizing first with
  | nil => rfl
  | cons r rules ih =>
      rw [List.zipIdx_cons, List.filter_cons, ← ih (first + 1), Selector.matchesLineage]
      cases h : r.selector.matchedAncestors? l <;> simp [h]

/-- There is one event for each rule that applies, in the order of the rules. -/
theorem events_matchingRules (sheet : Stylesheet) (l : Lineage) :
    (sheet.matchingRules l).events =
      (sheet.rules.toList.filter fun r => r.selector.matchesLineage l).map fun r =>
        .matchedRule r.text l.element.typeName (r.selector.length - 1) := by
  change (sheet.applicable l).map (fun m => m.event l.element.typeName) = _
  rw [← map_rule_applicable, List.map_map]
  apply List.map_congr_left
  intro m hm
  have count := Selector.length_matchedAncestors? (mem_applicable.mp hm).2
  rw [Function.comp_apply, MatchedRule.event, ← count, Nat.add_sub_cancel]

end Stylesheet

namespace Selector

/-- The nearest ancestor every time is enough: a selector matches an element exactly when its
subject matches the element and the compounds before it can be placed on different ancestors in
their order. There is then one ancestor for each of those compounds, which is the number that the
log tells of every rule that applies. -/
theorem matching_eq_placement (s : Selector) (l : Lineage) :
    (s.matchesLineage l = true ↔ ∃ before subject, s.compounds = before ++ [subject] ∧
      subject.matchesElement l.element = true ∧
      ∃ place : Fin before.length → Fin l.ancestors.length, StrictAnti place ∧
        ∀ k, (before.get k).matchesElement (l.ancestors.get (place k)) = true) ∧
    (∀ found, s.matchedAncestors? l = some found → found.length + 1 = s.length) ∧
    ∀ sheet : Stylesheet, (sheet.matchingRules l).events =
      (sheet.rules.toList.filter fun r => r.selector.matchesLineage l).map fun r =>
        .matchedRule r.text l.element.typeName (r.selector.length - 1) :=
  ⟨matchesLineage_iff, fun _ => length_matchedAncestors?,
    fun sheet => sheet.events_matchingRules l⟩

end Selector

/-! ## The layers of a cascade -/

namespace Specificity

/-- The comparison is lexicographic in the three counts. -/
theorem compare_eq_compareLex : (compare : Specificity → Specificity → Ordering) =
    compareLex (compareOn classes) (compareLex (compareOn types) (compareOn compounds)) := rfl

instance : Std.TransOrd Specificity := by
  rw [Std.TransOrd, compare_eq_compareLex]
  infer_instance

end Specificity

namespace MatchedRule

variable {m n o : MatchedRule}

/-- The order of the layers compares specificities first and then places. -/
def comparison : MatchedRule → MatchedRule → Ordering :=
  compareLex (compareOn fun m => m.rule.specificity) (compareOn order)

theorem isBelow_eq : m.isBelow n = (comparison m n).isLE := rfl

instance : Std.TransCmp comparison :=
  inferInstanceAs (Std.TransCmp (compareLex _ _))

theorem isBelow_trans (hmn : m.isBelow n = true) (hno : n.isBelow o = true) :
    m.isBelow o = true := by
  rw [isBelow_eq] at *
  exact Std.TransCmp.isLE_trans hmn hno

theorem isBelow_total (m n : MatchedRule) : (m.isBelow n || n.isBelow m) = true := by
  rw [Bool.or_eq_true, isBelow_eq, isBelow_eq, ← Std.OrientedCmp.isGE_iff_isLE (a := m)]
  cases comparison m n <;> decide

theorem isBelow_refl (m : MatchedRule) : m.isBelow m = true := by
  simpa using isBelow_total m m

/-- The order never ties: layers that are below each other have the same place. -/
theorem order_eq_of_isBelow (hmn : m.isBelow n = true) (hnm : n.isBelow m = true) :
    m.order = n.order := by
  have heq : comparison m n = .eq := Std.OrientedCmp.isLE_antisymm hmn hnm
  exact Nat.compare_eq_eq.mp (compareLex_eq_eq.mp heq).2

end MatchedRule

namespace Style

/-- Of layers over a base, the last one that declares a property is seen. -/
theorem get_foldl_overlay (layers : List MatchedRule) (base : Style) (p : Property) :
    (layers.foldl (fun s m => s.overlay m.rule.style) base).get p =
      (layers.reverse.findSome? fun m => m.rule.style.get p).or (base.get p) := by
  induction layers generalizing base with
  | nil => rfl
  | cons m layers ih =>
      rw [List.foldl_cons, ih, get_overlay, List.reverse_cons, List.findSome?_append,
        Option.or_assoc]
      simp

end Style

namespace Stylesheet

variable {sheet : Stylesheet} {l : Lineage} {p : Property} {v : Value} {m n : MatchedRule}

/-- The layers of a cascade, the highest first. -/
def layers (sheet : Stylesheet) (l : Lineage) : List MatchedRule :=
  ((sheet.applicable l).mergeSort MatchedRule.isBelow).reverse

theorem mem_layers : m ∈ sheet.layers l ↔ m ∈ sheet.applicable l := by
  rw [layers, List.mem_reverse, List.mem_mergeSort]

theorem pairwise_layers (sheet : Stylesheet) (l : Lineage) :
    (sheet.layers l).Pairwise fun m n => n.isBelow m = true := by
  rw [layers, List.pairwise_reverse]
  exact @List.pairwise_mergeSort _ MatchedRule.isBelow (fun _ _ _ => MatchedRule.isBelow_trans)
    MatchedRule.isBelow_total (sheet.applicable l)

theorem get_cascade (sheet : Stylesheet) (l : Lineage) (p : Property) :
    (sheet.cascade l).value.get p = (sheet.layers l).findSome? fun m => m.rule.style.get p := by
  refine (Style.get_foldl_overlay _ _ p).trans ?_
  rw [Style.get_empty, Option.or_none, layers]
  rfl

/-- A rule that applies is determined by its place. -/
theorem eq_of_order_eq (hm : m ∈ sheet.applicable l) (hn : n ∈ sheet.applicable l)
    (h : m.order = n.order) : m.rule = n.rule := by
  have hrules := (mem_applicable.mp hm).1
  rw [h, (mem_applicable.mp hn).1] at hrules
  exact Option.some.inj hrules.symm

/-- The layer that a property is taken from, the highest one that declares it. -/
def supplier? (sheet : Stylesheet) (l : Lineage) (p : Property) : Option MatchedRule :=
  (sheet.layers l).find? fun m => (m.rule.style.get p).isSome

theorem get_cascade_eq_supplier? (sheet : Stylesheet) (l : Lineage) (p : Property) :
    (sheet.cascade l).value.get p = (sheet.supplier? l p).bind fun m => m.rule.style.get p := by
  rw [get_cascade, supplier?]
  induction sheet.layers l with
  | nil => rfl
  | cons m below ih =>
      rw [List.findSome?_cons, List.find?_cons]
      cases hm : m.rule.style.get p with
      | none => exact ih
      | some v => exact hm.symm

/-- The layer that a property is taken from is the greatest of those that declare it, since the
layers above it do not. -/
theorem supplier?_eq_some (h : sheet.supplier? l p = some m) : m ∈ sheet.applicable l ∧
    (m.rule.style.get p).isSome = true ∧ ∀ n ∈ sheet.applicable l,
      (n.rule.style.get p).isSome = true → n.isBelow m = true := by
  obtain ⟨declares, above, below, hlayers, silent⟩ := List.find?_eq_some_iff_append.mp h
  have sorted := pairwise_layers sheet l
  rw [hlayers, List.pairwise_append, List.pairwise_cons] at sorted
  refine ⟨mem_layers.mp (hlayers ▸ by simp), declares, fun n hn hdeclares => ?_⟩
  have hn : n ∈ above ++ m :: below := hlayers ▸ mem_layers.mpr hn
  rcases List.mem_append.mp hn with hn | hn
  · have := silent n hn
    rw [hdeclares] at this
    cases this
  · rcases List.mem_cons.mp hn with rfl | hn
    · exact n.isBelow_refl
    · exact sorted.2.1.1 n hn

/-- The value of a property is that of the greatest of the layers that declare it. -/
theorem get_cascade_eq_some :
    (sheet.cascade l).value.get p = some v ↔ ∃ m ∈ sheet.applicable l,
      m.rule.style.get p = some v ∧ ∀ n ∈ sheet.applicable l,
        (n.rule.style.get p).isSome = true → n.isBelow m = true := by
  rw [get_cascade_eq_supplier?, Option.bind_eq_some_iff]
  constructor
  · rintro ⟨m, hm, hv⟩
    obtain ⟨applies, -, greatest⟩ := supplier?_eq_some hm
    exact ⟨m, applies, hv, greatest⟩
  · rintro ⟨m, hm, hv, greatest⟩
    have declares : (m.rule.style.get p).isSome = true := by rw [hv]; rfl
    cases hn : sheet.supplier? l p with
    | none =>
        have silent := List.find?_eq_none.mp hn m (mem_layers.mpr hm)
        exact absurd declares silent
    | some n =>
        obtain ⟨applies, hdeclares, greatest'⟩ := supplier?_eq_some hn
        have hmn := greatest' m hm declares
        have hnm := greatest n applies hdeclares
        refine ⟨n, rfl, ?_⟩
        rw [eq_of_order_eq applies hm (MatchedRule.order_eq_of_isBelow hnm hmn), hv]

theorem get_cascade_eq_none :
    (sheet.cascade l).value.get p = none ↔
      ∀ m ∈ sheet.applicable l, m.rule.style.get p = none := by
  rw [get_cascade, List.findSome?_eq_none_iff]
  simp only [mem_layers]

/-- The rule at a place applies to an element and declares a property. -/
structure Supplies (sheet : Stylesheet) (l : Lineage) (p : Property) (i : Nat) (r : Rule) :
    Prop where
  rule : sheet.rules[i]? = some r
  fits : r.selector.matchesLineage l = true
  declares : (r.style.get p).isSome = true

/-- Of the rules that apply to an element and declare a property, the one at a place has the
greatest specificity, and the last place among those of its specificity. -/
structure Decides (sheet : Stylesheet) (l : Lineage) (p : Property) (i : Nat) (r : Rule) :
    Prop extends Supplies sheet l p i r where
  greatest : ∀ j s, sheet.Supplies l p j s →
    ((compare s.selector.specificity r.selector.specificity).then (compare j i)).isLE = true

theorem supplies_iff {i : Nat} {r : Rule} :
    sheet.Supplies l p i r ↔ ∃ ancestors, ⟨r, i, ancestors⟩ ∈ sheet.applicable l ∧
      (r.style.get p).isSome = true := by
  simp only [mem_applicable]
  constructor
  · intro h
    obtain ⟨ancestors, found⟩ := Option.isSome_iff_exists.mp h.fits
    exact ⟨ancestors, ⟨h.rule, found⟩, h.declares⟩
  · rintro ⟨ancestors, ⟨rule, found⟩, declares⟩
    exact ⟨rule, Option.isSome_iff_exists.mpr ⟨ancestors, found⟩, declares⟩

/-- The value of a property is that of the rule that decides it. -/
theorem get_cascade_eq_some_iff_decides (coherent : sheet.Coherent) :
    (sheet.cascade l).value.get p = some v ↔
      ∃ i r, sheet.Decides l p i r ∧ r.style.get p = some v := by
  rw [get_cascade_eq_some]
  constructor
  · rintro ⟨m, hm, hv, greatest⟩
    have supplies : sheet.Supplies l p m.order m.rule :=
      supplies_iff.mpr ⟨m.ancestors, hm, by rw [hv]; rfl⟩
    refine ⟨m.order, m.rule, ⟨supplies, fun j s hs => ?_⟩, hv⟩
    obtain ⟨ancestors, hn, declares⟩ := supplies_iff.mp hs
    rw [← (coherent hs.rule).specificity, ← (coherent supplies.rule).specificity]
    exact greatest _ hn declares
  · rintro ⟨i, r, decides, hv⟩
    obtain ⟨ancestors, hm, -⟩ := supplies_iff.mp decides.toSupplies
    refine ⟨_, hm, hv, fun n hn declares => ?_⟩
    have supplies : sheet.Supplies l p n.order n.rule :=
      supplies_iff.mpr ⟨n.ancestors, hn, declares⟩
    have hle := decides.greatest _ _ supplies
    rwa [← (coherent supplies.rule).specificity, ← (coherent decides.rule).specificity] at hle

theorem get_cascade_eq_none_iff_supplies :
    (sheet.cascade l).value.get p = none ↔ ∀ i r, ¬ sheet.Supplies l p i r := by
  rw [get_cascade_eq_none]
  constructor
  · intro silent i r h
    obtain ⟨ancestors, hm, declares⟩ := supplies_iff.mp h
    rw [silent _ hm] at declares
    cases declares
  · intro h m hm
    rw [← Option.not_isSome_iff_eq_none]
    exact fun declares => h m.order m.rule (supplies_iff.mpr ⟨m.ancestors, hm, declares⟩)

end Stylesheet
end StyleCascade
