import StyleCascade.Proofs.Stylesheet.Inheritance
import StyleCascade.Proofs.Stylesheet.Registry

/-!
# The offers of a sheet

What a cascade declares can be told from the entries of the sheet alone. An entry whose selector
matches an element makes it an offer for each property that the style of the entry declares. Of
the offers for a property one prevails: it has the greatest specificity, and the last place among
those that have it. `get_cascade_eq_some_iff_prevails` says that the value of this offer is what
the cascade declares.

So a change to a sheet is followed in its offers. As long as the same offer prevails, a property
keeps its value (`get_cascade_congr`). The rest of the module tells what the two steps of a visit,
to enter a selector and to revise its style, do to the offers.
-/

namespace StyleCascade

namespace Registry

variable {entries : Registry} {l : Lineage} {p : Property} {slot : Nat} {s t : Selector}
  {style : Style} {v : Value} {change : Style → Style}

/-- The entry at a place has a selector that matches an element, and a style that gives a property
a value. -/
structure Offers (entries : Registry) (l : Lineage) (p : Property) (slot : Nat) (s : Selector)
    (v : Value) : Prop where
  fits : s.matchesLineage l = true
  entry : ∃ style, entries[slot]? = some (s, style) ∧ style.get p = some v

/-- Of the offers for a property, this one has the greatest specificity, and the last place among
those of its specificity. -/
structure Prevails (entries : Registry) (l : Lineage) (p : Property) (slot : Nat) (s : Selector)
    (v : Value) : Prop extends Offers entries l p slot s v where
  greatest : ∀ slot' s' v', entries.Offers l p slot' s' v' →
    ((compare s'.specificity s.specificity).then (compare slot' slot)).isLE = true

theorem offers_of_entry (h : entries[slot]? = some (s, style))
    (fits : s.matchesLineage l = true) (declares : (style.get p).isSome = true) :
    ∃ v, entries.Offers l p slot s v := by
  obtain ⟨v, hv⟩ := Option.isSome_iff_exists.mp declares
  exact ⟨v, fits, style, h, hv⟩

end Registry

namespace Stylesheet

variable {sheet other : Stylesheet} {l : Lineage} {p : Property} {slot : Nat} {s : Selector}
  {v : Value}

open Registry (Offers Prevails)

theorem offers_iff : sheet.entries.Offers l p slot s v ↔
    ∃ r, sheet.Supplies l p slot r ∧ r.selector = s ∧ r.style.get p = some v := by
  constructor
  · rintro ⟨fits, style, hentry, hv⟩
    obtain ⟨r, hr, rfl, rfl⟩ := getElem?_entries_eq_some_iff.mp hentry
    exact ⟨r, ⟨hr, fits, by rw [hv]; rfl⟩, rfl, hv⟩
  · rintro ⟨r, supplies, rfl, hv⟩
    exact ⟨supplies.fits, r.style,
      getElem?_entries_eq_some_iff.mpr ⟨r, supplies.rule, rfl, rfl⟩, hv⟩

theorem offers_of_supplies {r : Rule} (h : sheet.Supplies l p slot r) :
    ∃ v, sheet.entries.Offers l p slot r.selector v := by
  obtain ⟨v, hv⟩ := Option.isSome_iff_exists.mp h.declares
  exact ⟨v, offers_iff.mpr ⟨r, h, rfl, hv⟩⟩

/-- The rule that decides a property is the one that makes the prevailing offer. -/
theorem prevails_iff : sheet.entries.Prevails l p slot s v ↔
    ∃ r, sheet.Decides l p slot r ∧ r.selector = s ∧ r.style.get p = some v := by
  constructor
  · intro h
    obtain ⟨r, supplies, rfl, hv⟩ := offers_iff.mp h.toOffers
    refine ⟨r, ⟨supplies, fun j r' hr' => ?_⟩, rfl, hv⟩
    obtain ⟨v', hoffers⟩ := offers_of_supplies hr'
    exact h.greatest j r'.selector v' hoffers
  · rintro ⟨r, decides, rfl, hv⟩
    refine ⟨offers_iff.mpr ⟨r, decides.toSupplies, rfl, hv⟩, fun slot' s' v' hoffers => ?_⟩
    obtain ⟨r', supplies, rfl, -⟩ := offers_iff.mp hoffers
    exact decides.greatest slot' r' supplies

/-- A cascade gives a property the value of the offer that prevails. -/
theorem get_cascade_eq_some_iff_prevails (coherent : sheet.Coherent) :
    (sheet.cascade l).value.get p = some v ↔ ∃ slot s, sheet.entries.Prevails l p slot s v := by
  rw [get_cascade_eq_some_iff_decides coherent]
  simp only [prevails_iff]
  constructor
  · rintro ⟨slot, r, decides, hv⟩
    exact ⟨slot, r.selector, r, decides, rfl, hv⟩
  · rintro ⟨slot, _, r, decides, -, hv⟩
    exact ⟨slot, r, decides, hv⟩

/-- Without an offer a cascade leaves a property unset. -/
theorem get_cascade_eq_none_iff_offers :
    (sheet.cascade l).value.get p = none ↔ ∀ slot s v, ¬ sheet.entries.Offers l p slot s v := by
  rw [get_cascade_eq_none_iff_supplies]
  constructor
  · intro h slot s v hoffers
    obtain ⟨r, supplies, -⟩ := offers_iff.mp hoffers
    exact h slot r supplies
  · intro h slot r supplies
    obtain ⟨v, hoffers⟩ := offers_of_supplies supplies
    exact h slot r.selector v hoffers

/-- A property has the same value in two sheets if the value that prevails in one of them prevails
in the other, and the other has no offer where the one has none. -/
theorem get_cascade_congr (hsheet : sheet.Coherent) (hother : other.Coherent)
    (prevails : ∀ slot s v, sheet.entries.Prevails l p slot s v →
      ∃ slot', other.entries.Prevails l p slot' s v)
    (offers : ∀ slot s v, other.entries.Offers l p slot s v →
      ∃ slot' s' v', sheet.entries.Offers l p slot' s' v') :
    (sheet.cascade l).value.get p = (other.cascade l).value.get p := by
  cases hget : (sheet.cascade l).value.get p with
  | none =>
      refine (get_cascade_eq_none_iff_offers.mpr fun slot s v hoffers => ?_).symm
      obtain ⟨slot', s', v', hoffers'⟩ := offers slot s v hoffers
      exact get_cascade_eq_none_iff_offers.mp hget slot' s' v' hoffers'
  | some v =>
      obtain ⟨slot, s, hprevails⟩ := (get_cascade_eq_some_iff_prevails hsheet).mp hget
      obtain ⟨slot', hprevails'⟩ := prevails slot s v hprevails
      exact ((get_cascade_eq_some_iff_prevails hother).mpr ⟨slot', s, hprevails'⟩).symm

/-- Sheets that make an element the same offers for a property give it the same value. -/
theorem get_cascade_of_offers_iff (hsheet : sheet.Coherent) (hother : other.Coherent)
    (h : ∀ slot s v, other.entries.Offers l p slot s v ↔ sheet.entries.Offers l p slot s v) :
    (sheet.cascade l).value.get p = (other.cascade l).value.get p := by
  apply get_cascade_congr hsheet hother
  · intro slot s v hprevails
    refine ⟨slot, (h slot s v).mpr hprevails.toOffers, fun slot' s' v' hoffers => ?_⟩
    exact hprevails.greatest slot' s' v' ((h slot' s' v').mp hoffers)
  · intro slot s v hoffers
    exact ⟨slot, s, v, (h slot s v).mp hoffers⟩

end Stylesheet

/-! ### The offers after a visit -/

namespace Registry

variable {entries : Registry} {l : Lineage} {p : Property} {slot : Nat} {s t : Selector}
  {style : Style} {v : Value} {change : Style → Style}

theorem getElem?_enter_eq_some : (entries.enter s)[slot]? = some (t, style) ↔
    entries[slot]? = some (t, style) ∨
      s ∉ entries.keys ∧ slot = entries.length ∧ t = s ∧ style = .empty := by
  by_cases hs : s ∈ entries.keys
  · simp [enter_of_mem hs, hs]
  · rw [enter_of_not_mem hs, List.getElem?_append]
    by_cases hslot : slot < entries.length
    · simp [hslot, Nat.ne_of_lt hslot]
    · have hnone : entries[slot]? = none := List.getElem?_eq_none (Nat.le_of_not_lt hslot)
      rw [if_neg hslot, hnone, List.getElem?_singleton]
      grind

theorem getElem?_revise_eq_some : (entries.revise s change)[slot]? = some (t, style) ↔
    ∃ old, entries[slot]? = some (t, old) ∧ style = if t = s then change old else old := by
  rw [revise, List.getElem?_map, Option.map_eq_some_iff]
  have revised : ∀ u old, ((if u = s then (s, change old) else (u, old)) = (t, style)) ↔
      u = t ∧ style = if t = s then change old else old := by
    intro u old
    split <;> grind
  simp only [Prod.exists, revised]
  constructor
  · rintro ⟨_, old, hentry, rfl, hstyle⟩
    exact ⟨old, hentry, hstyle⟩
  · rintro ⟨old, hentry, hstyle⟩
    exact ⟨t, old, hentry, rfl, hstyle⟩

/-- A selector that is entered makes no offer, since nothing is declared for it yet. -/
theorem offers_enter : (entries.enter s).Offers l p slot t v ↔ entries.Offers l p slot t v := by
  constructor
  · rintro ⟨fits, style, hentry, hv⟩
    obtain hentry | ⟨-, -, -, rfl⟩ := getElem?_enter_eq_some.mp hentry
    · exact ⟨fits, style, hentry, hv⟩
    · rw [Style.get_empty] at hv
      cases hv
  · rintro ⟨fits, style, hentry, hv⟩
    exact ⟨fits, style, getElem?_enter_eq_some.mpr (.inl hentry), hv⟩

/-- A revision changes an offer only if it is to the style of its selector and changes what is
declared for its property. -/
theorem offers_revise (keeps : t = s → t.matchesLineage l = true →
      ∀ style, (change style).get p = style.get p) :
    (entries.revise s change).Offers l p slot t v ↔ entries.Offers l p slot t v := by
  have same : t.matchesLineage l = true → ∀ old : Style,
      (if t = s then change old else old).get p = old.get p := by
    intro fits old
    split
    next ht => exact keeps ht fits old
    · rfl
  constructor
  · rintro ⟨fits, style, hentry, hv⟩
    obtain ⟨old, hold, rfl⟩ := getElem?_revise_eq_some.mp hentry
    exact ⟨fits, old, hold, (same fits old).symm.trans hv⟩
  · rintro ⟨fits, old, hold, hv⟩
    exact ⟨fits, _, getElem?_revise_eq_some.mpr ⟨old, hold, rfl⟩, (same fits old).trans hv⟩

/-- A visit changes an offer only if it asks for its selector and its writes change what is declared
for its property. -/
theorem offers_visit {w : Visit}
    (keeps : Selector.parse w.text = .ok t → t.matchesLineage l = true →
      ∀ style, (w.writes.foldl Style.written style).get p = style.get p) :
    (entries.visit w).Offers l p slot t v ↔ entries.Offers l p slot t v := by
  rw [visit]
  cases hparse : Selector.parse w.text with
  | error e => exact Iff.rfl
  | ok s =>
      refine (offers_revise fun heq fits => keeps ?_ fits).trans offers_enter
      rw [hparse, heq]

end Registry

namespace Stylesheet

theorem entries_visit (visits : List Visit) (w : Visit) :
    ((run visits).visit w).entries = (run visits).entries.visit w := by
  rw [← run_concat, entries_run, entries_run, Registry.run_concat]

theorem coherent_visit (visits : List Visit) (w : Visit) : ((run visits).visit w).Coherent := by
  rw [← run_concat]
  exact coherent_run _

/-- A visit changes what a cascade declares for a property only if its writes do so to the style of
a selector that matches. -/
theorem get_cascade_visit (visits : List Visit) {w : Visit} {l : Lineage} {p : Property}
    (keeps : ∀ s, Selector.parse w.text = .ok s → s.matchesLineage l = true →
      ∀ style, (w.writes.foldl Style.written style).get p = style.get p) :
    (((run visits).visit w).cascade l).value.get p = ((run visits).cascade l).value.get p := by
  apply get_cascade_of_offers_iff (coherent_visit visits w) (coherent_run visits)
  intro slot s v
  rw [entries_visit]
  exact (Registry.offers_visit (keeps s)).symm

end Stylesheet
end StyleCascade
