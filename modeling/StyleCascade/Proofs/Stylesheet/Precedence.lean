import StyleCascade.Proofs.Selector.Refinement
import StyleCascade.Proofs.Stylesheet.Offers

/-!
# Which rule goes first

Which of two rules is seen is decided by their specificities and, if these are equal, by the order
of registration. A rule that refines another one goes first wherever the two are registered; between
rules that are not rivals the order of registration decides nothing.
-/

namespace StyleCascade

/-!
## A refined selector goes first

Of two rules that apply to an element and declare the same property, the more specific one lies
above the other in every cascade, wherever the two are registered. A selector that refines another
one is more specific, and it applies only where the other one does; so it is a rule for exceptions
that the rule for all cases can never take back (`overrides_of_refines`).

That a rule is overridden shows in two ways. It does not supply the property, and no write to its
style changes what the element has for it.
-/

namespace Stylesheet

variable {sheet : Stylesheet} {l : Lineage} {p : Property} {m : MatchedRule} {s t : Selector}
  {style : Style} {visits : List Visit} {text : String}

/-- The rule that supplies a property is the one that decides it. -/
theorem decides_of_supplier? (coherent : sheet.Coherent) (h : sheet.supplier? l p = some m) :
    sheet.Decides l p m.order m.rule := by
  obtain ⟨applies, declares, greatest⟩ := supplier?_eq_some h
  have supplies : sheet.Supplies l p m.order m.rule :=
    supplies_iff.mpr ⟨m.ancestors, applies, declares⟩
  refine ⟨supplies, fun j r hr => ?_⟩
  obtain ⟨ancestors, happlies, hdeclares⟩ := supplies_iff.mp hr
  rw [← (coherent hr.rule).specificity, ← (coherent supplies.rule).specificity]
  exact greatest _ happlies hdeclares

/-- A property that has an offer has a supplier. -/
theorem exists_supplier? {slot : Nat} {v : Value} (h : sheet.entries.Offers l p slot s v) :
    ∃ m, sheet.supplier? l p = some m := by
  by_contra hnone
  have hget := get_cascade_eq_supplier? sheet l p
  rw [Option.eq_none_iff_forall_ne_some.mpr fun m hm => hnone ⟨m, hm⟩] at hget
  exact get_cascade_eq_none_iff_offers.mp hget slot s v h

end Stylesheet

namespace Registry

variable {entries : Registry} {l : Lineage} {p : Property} {slot slot' : Nat} {s t u : Selector}
  {v v' : Value}

/-- A selector that is less specific than one with an offer is less specific than the one whose
offer prevails. -/
theorem Prevails.compare_of_lt (h : entries.Prevails l p slot u v)
    (ht : entries.Offers l p slot' t v') (hlt : compare s.specificity t.specificity = .lt) :
    compare s.specificity u.specificity = .lt := by
  refine Std.TransCmp.lt_of_lt_of_isLE hlt ?_
  exact (Ordering.isLE_then_iff_and.mp (h.greatest slot' t v' ht)).1

theorem Prevails.ne_of_lt (h : entries.Prevails l p slot u v)
    (ht : entries.Offers l p slot' t v') (hlt : compare s.specificity t.specificity = .lt) :
    u ≠ s := by
  rintro rfl
  have heq : compare u.specificity u.specificity = .eq := Std.ReflCmp.compare_self
  rw [h.compare_of_lt ht hlt] at heq
  cases heq

end Registry

namespace Stylesheet

variable {sheet : Stylesheet} {l : Lineage} {p : Property} {slot : Nat} {s t : Selector}
  {v : Value} {visits : List Visit} {text : String}

/-- A rule is not the supplier of a property for which a more specific one has an offer. -/
theorem exists_supplier?_ne (coherent : sheet.Coherent) (ht : sheet.entries.Offers l p slot t v)
    (hlt : compare s.specificity t.specificity = .lt) :
    ∃ m, sheet.supplier? l p = some m ∧ m.rule.selector ≠ s ∧
      (sheet.cascade l).value.get p = m.rule.style.get p := by
  obtain ⟨m, hm⟩ := exists_supplier? ht
  have decides := decides_of_supplier? coherent hm
  obtain ⟨w, hw⟩ := Option.isSome_iff_exists.mp decides.declares
  have prevails : sheet.entries.Prevails l p m.order m.rule.selector w :=
    prevails_iff.mpr ⟨m.rule, decides, rfl, hw⟩
  exact ⟨m, hm, prevails.ne_of_lt ht hlt,
    (get_cascade_eq_supplier? sheet l p).trans (by rw [hm, Option.bind_some])⟩

/-- Writes to a rule do not change a property for which a more specific one has an offer. -/
theorem get_cascade_visit_of_lt (hparse : Selector.parse text = .ok s)
    (ht : (run visits).entries.Offers l p slot t v)
    (hlt : compare s.specificity t.specificity = .lt) (writes : List Write) :
    (((run visits).visit ⟨text, writes⟩).cascade l).value.get p =
      ((run visits).cascade l).value.get p := by
  have unchanged : ∀ {slot' u v'}, u ≠ s →
      (((run visits).visit ⟨text, writes⟩).entries.Offers l p slot' u v' ↔
        (run visits).entries.Offers l p slot' u v') := by
    intro slot' u v' hu
    rw [entries_visit]
    refine Registry.offers_visit fun hparse' => absurd ?_ hu
    exact Except.ok.inj (hparse'.symm.trans hparse)
  refine (get_cascade_congr (coherent_run visits) (coherent_visit visits _) ?_ ?_).symm
  · intro slot' u v' hprevails
    have hne := hprevails.ne_of_lt ht hlt
    refine ⟨slot', (unchanged hne).mpr hprevails.toOffers, fun slot'' u' v'' hoffers => ?_⟩
    by_cases hu : u' = s
    · subst hu
      rw [hprevails.compare_of_lt ht hlt]
      rfl
    · exact hprevails.greatest slot'' u' v'' ((unchanged hu).mp hoffers)
  · intro _ _ _ _
    exact ⟨slot, t, v, ht⟩

/-- A selector that refines another one, with a test or a compound more, matches nothing that the
other does not match, and it is more specific. So wherever it declares a property for an element,
the rule of the other selector has no part in it. It may be registered or not, earlier or later,
but it does not supply the property, and whatever is written to it makes no difference. -/
theorem overrides_of_refines (hparse : Selector.parse text = .ok s) (refines : t.Refines s)
    (within : t.counts.Within) (more : s.tests < t.tests ∨ s.length < t.length) :
    (∀ l, t.matchesLineage l = true → s.matchesLineage l = true) ∧
    compare s.specificity t.specificity = .lt ∧
    ∀ visits style, (t, style) ∈ (run visits).entries →
      ∀ l p, t.matchesLineage l = true → (style.get p).isSome = true →
        (∃ m, (run visits).supplier? l p = some m ∧ m.rule.selector ≠ s ∧
          ((run visits).cascade l).value.get p = m.rule.style.get p) ∧
        ∀ writes, (((run visits).visit ⟨text, writes⟩).cascade l).value.get p =
          ((run visits).cascade l).value.get p := by
  have canonical := Selector.canonical_of_parse hparse
  have hlt := refines.compare_specificity canonical within more
  refine ⟨fun l => refines.matchesLineage canonical.ne_nil, hlt, ?_⟩
  intro visits style hmem l p fits declares
  obtain ⟨slot, hslot⟩ := List.mem_iff_getElem?.mp hmem
  obtain ⟨v, hoffers⟩ := Registry.offers_of_entry hslot fits declares
  exact ⟨exists_supplier?_ne (coherent_run visits) hoffers hlt,
    get_cascade_visit_of_lt hparse hoffers hlt⟩

/-- A button in a window stays blue for as long as the pointer is over it, with a red rule for all
buttons that is registered last. -/
theorem overrides_hovered_button :
    let button : Selector := ⟨[{ typeName := some "button" }]⟩
    let hovered : Selector :=
      ⟨[{ classes := ["window"] }, { typeName := some "button", pseudos := ["hover"] }]⟩
    let visits : List Visit :=
      [⟨".window button:hover", [.set .color (.color .pureBlue)]⟩,
        ⟨"button", [.set .color (.color .pureRed)]⟩]
    let l : Lineage := ⟨.ofNames "button" [] ["hover"], [.ofNames "panel" ["window"] []]⟩
    Selector.parse "button" = .ok button ∧ hovered.Refines button ∧ hovered.counts.Within ∧
    button.tests < hovered.tests ∧ hovered.matchesLineage l = true ∧
    (∃ style, (hovered, style) ∈ (run visits).entries ∧ (style.get .color).isSome = true) ∧
    (∃ m, (run visits).supplier? l .color = some m ∧ m.rule.selector ≠ button ∧
      ((run visits).cascade l).value.get .color = m.rule.style.get .color) := by
  intro button hovered visits l
  have canonical : button.Canonical ∧ hovered.Canonical := by decide +kernel
  have hbutton : Selector.parse "button" = .ok button := canonical.1.parse_of_text_eq rfl
  have hhovered : Selector.parse ".window button:hover" = .ok hovered :=
    canonical.2.parse_of_text_eq rfl
  have refines : hovered.Refines button := by
    have single : ∀ k : Fin button.compounds.length, k = ⟨0, Nat.one_pos⟩ := fun k =>
      Fin.ext (Nat.lt_one_iff.mp k.2)
    refine ⟨fun _ => ⟨1, Nat.one_lt_two⟩, fun i j hij => ?_, fun k => ?_, fun _ _ => rfl⟩
    · rw [single i, single j] at hij
      exact absurd hij (lt_irrefl _)
    · rw [single k]
      exact ⟨fun _ h => h, fun kind => by cases kind <;> exact List.nil_subset _⟩
  have within : hovered.counts.Within := ⟨by decide, by decide, by decide⟩
  have more : button.tests < hovered.tests := by decide
  have fits : hovered.matchesLineage l = true := by decide +kernel
  have declared : ∃ style, (hovered, style) ∈ (run visits).entries ∧
      (style.get .color).isSome = true := by
    refine ⟨Style.empty.written (.set .color (.color .pureBlue)), ?_, by decide⟩
    rw [entries_run]
    simp [visits, Registry.run, Registry.visit, hbutton, hhovered, Registry.enter, Registry.keys,
      Registry.revise, button, hovered]
  obtain ⟨style, hmem, declares⟩ := declared
  obtain ⟨-, -, overrides⟩ := overrides_of_refines hbutton refines within (.inl more)
  exact ⟨hbutton, refines, within, more, fits, ⟨style, hmem, declares⟩,
    (overrides visits style hmem l .color fits declares).1⟩

end Stylesheet

/-!
## The order of registration

Two sheets may have the same entries, registered in different orders. The order decides between
rivals only, that is between entries that are equally specific and declare some property in common.
As long as the rivals are in the same order in both sheets, every element has the same computed
style in them (`computeStyle_of_perm`).

The places of the entries are different all the same, and with them the order in which a cascade
lays its layers over each other. What is the same is which offers there are for a property, and
which of them prevails.
-/

namespace Registry

variable {entries other : Registry} {l : Lineage} {p : Property} {slot : Nat} {s : Selector}
  {v : Value}

/-- Entries are rivals if they are equally specific and there is a property that both declare. -/
def Rivals (x y : Selector × Style) : Prop :=
  x.1.specificity = y.1.specificity ∧
    ∃ p, (x.2.get p).isSome = true ∧ (y.2.get p).isSome = true

def Before (entries : Registry) (x y : Selector × Style) : Prop :=
  ∃ i j : Nat, i < j ∧ entries[i]? = some x ∧ entries[j]? = some y

/-- The entries of a list have their places in any list with the same entries. -/
theorem exists_place (perm : entries.Perm other) {x : Selector × Style}
    (h : entries[slot]? = some x) : ∃ slot' : Nat, other[slot']? = some x :=
  List.mem_iff_getElem?.mp (perm.mem_iff.mp (List.mem_of_getElem? h))

theorem Offers.of_perm (h : entries.Offers l p slot s v) (perm : entries.Perm other) :
    ∃ slot', other.Offers l p slot' s v := by
  obtain ⟨fits, style, hentry, hv⟩ := h
  obtain ⟨slot', hentry'⟩ := exists_place perm hentry
  exact ⟨slot', fits, style, hentry', hv⟩

/-- An offer prevails in any order of the entries that keeps the order of rivals. -/
theorem Prevails.of_perm (h : entries.Prevails l p slot s v) (perm : entries.Perm other)
    (hnodup : other.keys.Nodup)
    (rivals : ∀ x y, Rivals x y → entries.Before x y → other.Before x y) :
    ∃ slot', other.Prevails l p slot' s v := by
  obtain ⟨style, hentry, hv⟩ := h.entry
  obtain ⟨slot', hentry'⟩ := exists_place perm hentry
  refine ⟨slot', ⟨h.fits, style, hentry', hv⟩, fun j' t w hoffers => ?_⟩
  obtain ⟨fits, style', hj', hw⟩ := hoffers
  obtain ⟨j, hj⟩ := exists_place perm.symm hj'
  have hle := h.greatest j t w ⟨fits, style', hj, hw⟩
  cases hcompare : compare t.specificity s.specificity with
  | lt => rfl
  | gt =>
      rw [hcompare] at hle
      cases hle
  | eq =>
      rw [hcompare] at hle
      change (compare j' slot').isLE = true
      rw [Nat.isLE_compare]
      obtain hlt | rfl := (Nat.isLE_compare.mp hle).lt_or_eq
      · -- equally specific and both declare `p`, so they are in the same order in the other list
        have hrivals : Rivals (t, style') (s, style) :=
          ⟨Specificity.compare_eq_eq.mp hcompare, p, by rw [hw]; rfl, by rw [hv]; rfl⟩
        obtain ⟨i, k, hik, hi, hk⟩ := rivals _ _ hrivals ⟨j, slot, hlt, hj, hentry⟩
        rw [slot_unique hnodup hj' hi, slot_unique hnodup hentry' hk]
        exact hik.le
      · rw [hj] at hentry
        obtain ⟨rfl, rfl⟩ := Prod.mk.inj (Option.some.inj hentry)
        exact (slot_unique hnodup hj' hentry').le

end Registry

namespace Stylesheet

/-- Sheets with the same entries give every element the same computed style if rivals have been
registered in the same order in both of them. -/
theorem computeStyle_of_perm (visits visits' : List Visit)
    (perm : (run visits).entries.Perm (run visits').entries)
    (rivals : ∀ x y, Registry.Rivals x y →
      (run visits).entries.Before x y → (run visits').entries.Before x y) (l : Lineage) :
    ((run visits).computeStyle l).value = ((run visits').computeStyle l).value := by
  ext p : 1
  refine get_computeStyle_congr fun a _ => ?_
  apply get_cascade_congr (coherent_run visits) (coherent_run visits')
  · intro slot s v h
    exact h.of_perm perm (nodup_keys_entries visits') rivals
  · intro slot s v h
    obtain ⟨slot', h'⟩ := h.of_perm perm.symm
    exact ⟨slot', s, v, h'⟩

/-- The rules for two classes are rivals, and a rule for a type may be registered before or after
them. -/
theorem computeStyle_type_rule_first :
    let red : Visit := ⟨".warm", [.set .color (.color .pureRed)]⟩
    let blue : Visit := ⟨".cold", [.set .color (.color .pureBlue)]⟩
    let green : Visit := ⟨"button", [.set .color (.color .pureGreen)]⟩
    let button : Lineage := ⟨.ofNames "button" ["warm", "cold"] [], []⟩
    (run [red, blue, green]).entries.Perm (run [green, red, blue]).entries ∧
    (∀ x y, Registry.Rivals x y → (run [red, blue, green]).entries.Before x y →
      (run [green, red, blue]).entries.Before x y) ∧
    ((run [red, blue, green]).computeStyle button).value =
      ((run [green, red, blue]).computeStyle button).value := by
  intro red blue green button
  obtain ⟨hwarm, hcold, hbutton⟩ : Selector.Canonical ⟨[{ classes := ["warm"] }]⟩ ∧
      Selector.Canonical ⟨[{ classes := ["cold"] }]⟩ ∧
      Selector.Canonical ⟨[{ typeName := some "button" }]⟩ := by decide +kernel
  have hred : Selector.parse ".warm" = .ok _ := hwarm.parse_of_text_eq rfl
  have hblue : Selector.parse ".cold" = .ok _ := hcold.parse_of_text_eq rfl
  have hgreen : Selector.parse "button" = .ok _ := hbutton.parse_of_text_eq rfl
  have hfirst : (run [red, blue, green]).entries =
      [(⟨[{ classes := ["warm"] }]⟩, Style.empty.written (.set .color (.color .pureRed))),
        (⟨[{ classes := ["cold"] }]⟩, Style.empty.written (.set .color (.color .pureBlue))),
        (⟨[{ typeName := some "button" }]⟩,
          Style.empty.written (.set .color (.color .pureGreen)))] := by
    rw [entries_run]
    simp [red, blue, green, Registry.run, Registry.visit, hred, hblue, hgreen, Registry.enter,
      Registry.keys, Registry.revise]
  have hsecond : (run [green, red, blue]).entries =
      [(⟨[{ typeName := some "button" }]⟩,
          Style.empty.written (.set .color (.color .pureGreen))),
        (⟨[{ classes := ["warm"] }]⟩, Style.empty.written (.set .color (.color .pureRed))),
        (⟨[{ classes := ["cold"] }]⟩, Style.empty.written (.set .color (.color .pureBlue)))] := by
    rw [entries_run]
    simp [red, blue, green, Registry.run, Registry.visit, hred, hblue, hgreen, Registry.enter,
      Registry.keys, Registry.revise]
  have perm : (run [red, blue, green]).entries.Perm (run [green, red, blue]).entries := by
    rw [hfirst, hsecond]
    exact (List.perm_append_comm : ([_, _] ++ [_]).Perm ([_] ++ [_, _]))
  have rivals : ∀ x y, Registry.Rivals x y → (run [red, blue, green]).entries.Before x y →
      (run [green, red, blue]).entries.Before x y := by
    rintro x y ⟨hequal, -⟩ ⟨i, j, hij, hi, hj⟩
    rw [hfirst] at hi hj
    rw [hsecond]
    have hlt : j < 3 := (List.getElem?_eq_some_iff.mp hj).1
    obtain ⟨rfl, rfl⟩ | ⟨rfl, rfl⟩ | ⟨rfl, rfl⟩ :
        (i = 0 ∧ j = 1) ∨ (i = 0 ∧ j = 2) ∨ (i = 1 ∧ j = 2) := by omega
    · exact ⟨1, 2, Nat.one_lt_two, hi, hj⟩
    all_goals
      cases hi
      cases hj
      exact absurd hequal (by decide)
  exact ⟨perm, rivals, computeStyle_of_perm _ _ perm rivals button⟩

end Stylesheet
end StyleCascade
