import StyleCascade.Proofs.Style.Layering
import StyleCascade.Proofs.Stylesheet.Offers

/-!
# The writes to a style

A write to a style leaves some properties alone and decides all others, whatever they were before
(`Style.get_written`). So each property has the value that the last write gives to it of those that
touch it.

The style of a selector is written on all visits that ask for the selector, under one spelling or
another. `Registry.run_eq_map` is the list of all styles in closed form, each from its own writes.
-/

namespace StyleCascade

namespace Write

/-- The write decides what is declared for a property. A declaration that is refused does not. -/
def touches (p : Property) : Write → Bool
  | .set q v | .set? q v => q = p ∧ v.kind = q.kind
  | .erase q => q = p
  | .replace _ => true

/-- What a write leaves in the slot of a property that it touches. -/
def value (p : Property) : Write → Option Value
  | .set _ v | .set? _ v => some v
  | .erase _ => none
  | .replace style => style.get p

end Write

namespace Style

theorem get_written (s : Style) (w : Write) (p : Property) :
    (s.written w).get p = if w.touches p then w.value p else s.get p := by
  have declared : ∀ q v, ((s.set? q v).toOption.getD s).get p =
      if decide (q = p ∧ v.kind = q.kind) = true then some v else s.get p := by
    intro q v
    simp only [decide_eq_true_eq]
    exact get_getD_set? s q v p
  cases w with
  | set q v => exact (congrArg (get · p) (value_set s q v)).trans (declared q v)
  | set? q v => exact declared q v
  | erase q =>
      simp only [Write.touches, decide_eq_true_eq]
      exact get_erase s q p
  | replace style => rfl

/-- Of a number of writes, the last one that touches a property decides it. -/
theorem get_foldl_written (writes : List Write) (s : Style) (p : Property) :
    (writes.foldl written s).get p =
      (writes.reverse.find? (Write.touches p)).elim (s.get p) (Write.value p) := by
  induction writes using List.reverseRecOn with
  | nil => rfl
  | append_singleton writes w ih =>
      rw [List.foldl_concat, get_written, List.reverse_concat, List.find?_cons, ih]
      cases w.touches p <;> rfl

end Style

namespace Registry

variable {visits : List Visit} {s : Selector} {style : Style} {slot : Nat} {v : Visit}

/-- The writes to the style of a selector, in the order in which they are made. -/
def writesTo (s : Selector) (visits : List Visit) : List Write :=
  (visits.filter fun v => (Selector.parse v.text).toOption = some s).flatMap Visit.writes

theorem writesTo_concat (s : Selector) (visits : List Visit) (v : Visit) :
    writesTo s (visits ++ [v]) =
      writesTo s visits ++
        if (Selector.parse v.text).toOption = some s then v.writes else [] := by
  rw [writesTo, List.filter_append, List.flatMap_append, writesTo, List.filter_singleton]
  split <;> simp_all

theorem writesTo_of_not_asked (h : s ∉ asked visits) : writesTo s visits = [] := by
  have none_asks : (visits.filter fun v => (Selector.parse v.text).toOption = some s) = [] := by
    apply List.filter_eq_nil_iff.mpr
    intro v hv hparse
    exact h (List.mem_filterMap.mpr ⟨v, hv, of_decide_eq_true hparse⟩)
  rw [writesTo, none_asks, List.flatMap_nil]

def styleOf (s : Selector) (visits : List Visit) : Style :=
  (writesTo s visits).foldl Style.written .empty

/-- What the last write that touches a property leaves declared for it, of the writes to the style
of a selector. -/
def declared (s : Selector) (p : Property) (visits : List Visit) : Option Value :=
  ((writesTo s visits).reverse.find? (Write.touches p)).bind (Write.value p)

theorem get_styleOf (s : Selector) (visits : List Visit) (p : Property) :
    (styleOf s visits).get p = declared s p visits := by
  rw [styleOf, Style.get_foldl_written, Style.get_empty, declared]
  cases (writesTo s visits).reverse.find? (Write.touches p) <;> rfl

theorem style_of_entry (h : (run visits)[slot]? = some (s, style)) : style = styleOf s visits := by
  induction visits using List.reverseRecOn generalizing style with
  | nil => cases h
  | append_singleton visits v ih =>
      rw [run_concat, visit] at h
      rw [styleOf, writesTo_concat, List.foldl_append, ← styleOf]
      cases hparse : Selector.parse v.text with
      | error e =>
          rw [hparse] at h
          exact ih h
      | ok t =>
          rw [hparse] at h
          obtain ⟨old, hold, rfl⟩ := getElem?_revise_eq_some.mp h
          have before : old = styleOf s visits := by
            obtain hold | ⟨hnew, -, rfl, rfl⟩ := getElem?_enter_eq_some.mp hold
            · exact ih hold
            · -- nothing can have been written before there was an entry
              rw [keys_run, List.mem_eraseDups] at hnew
              rw [styleOf, writesTo_of_not_asked hnew]
              rfl
          rw [before]
          by_cases hs : s = t
          · subst hs
            simp [Except.toOption]
          · simp [Except.toOption, hs, Ne.symm hs]

/-- There is an entry for each selector that is asked for, in the order of the first times, and it
has the style that the writes to this selector make. -/
theorem run_eq_map (visits : List Visit) :
    run visits = (asked visits).eraseDups.map fun s => (s, styleOf s visits) := by
  rw [← keys_run, keys, List.map_map]
  refine ((List.map_congr_left fun e hmem => ?_).trans (List.map_id _)).symm
  obtain ⟨slot, hslot⟩ := List.mem_iff_getElem?.mp hmem
  show (e.1, styleOf e.1 visits) = e
  rw [← style_of_entry hslot]

end Registry

/-!
## How far a write reaches

A caller asks for the style of one selector and writes one property. The write reaches no other
property of any element, and this property only of the elements that take it from an element that
the selector matches. `computeStyle_visit_confined` says so of computed styles, where a new value
can make the climb stop earlier and an old one that is unset can make it go on.

Asking alone reaches nothing. A rule may have been added by it, but one that declares nothing.
-/

/-- The only property that a write concerns. -/
def Write.Concerns (p : Property) : Write → Prop
  | .set q _ | .set? q _ | .erase q => q = p
  | .replace _ => False

theorem Write.Concerns.touches_eq_false {p q : Property} {w : Write} (hw : w.Concerns p)
    (hq : q ≠ p) : w.touches q = false := by
  cases w with
  | set p' v | set? p' v =>
      obtain rfl : p' = p := hw
      exact decide_eq_false fun h => hq h.1.symm
  | erase p' =>
      obtain rfl : p' = p := hw
      exact decide_eq_false hq.symm
  | replace style => exact hw.elim

/-- Writes change no property but the one they concern. -/
theorem Style.get_foldl_written_of_ne {p q : Property} {writes : List Write} (s : Style)
    (hwrites : ∀ w ∈ writes, w.Concerns p) (hq : q ≠ p) :
    (writes.foldl written s).get q = s.get q := by
  have untouched : writes.reverse.find? (Write.touches q) = none := by
    apply List.find?_eq_none.mpr
    intro w hw
    rw [(hwrites w (List.mem_reverse.mp hw)).touches_eq_false hq]
    exact Bool.false_ne_true
  rw [get_foldl_written, untouched, Option.elim_none]

namespace Stylesheet

/-- Writes of one property through one text change nothing else. All other properties of all
elements are computed as before, and so is this one for an element if the text describes no
selector, or one that matches no source of the property. To ask for a style without writing it
changes no computed style at all. -/
theorem computeStyle_visit_confined (visits : List Visit) (text : String) (p : Property)
    (writes : List Write) (hwrites : ∀ w ∈ writes, w.Concerns p) :
    (∀ l q, q ≠ p → (((run visits).visit ⟨text, writes⟩).computeStyle l).value.get q =
      ((run visits).computeStyle l).value.get q) ∧
    (∀ l, (∀ s, Selector.parse text = .ok s → ∀ a ∈ p.sources l, s.matchesLineage a = false) →
      (((run visits).visit ⟨text, writes⟩).computeStyle l).value.get p =
        ((run visits).computeStyle l).value.get p) ∧
    ∀ l, (((run visits).handle text).value.2.computeStyle l).value =
      ((run visits).computeStyle l).value := by
  refine ⟨?others, ?unmatched, ?asking⟩
  case others =>
    intro l q hq
    refine get_computeStyle_congr fun a _ => get_cascade_visit visits fun _ _ _ style => ?_
    exact Style.get_foldl_written_of_ne style hwrites hq
  case unmatched =>
    intro l unmatched
    refine get_computeStyle_congr fun a ha => get_cascade_visit visits fun s hparse fits => ?_
    rw [unmatched s hparse a ha] at fits
    cases fits
  case asking =>
    intro l
    change (((run visits).visit ⟨text, []⟩).computeStyle l).value = _
    ext q : 1
    exact get_computeStyle_congr fun a _ => get_cascade_visit visits fun _ _ _ _ => rfl

/-- A label in a red button keeps its color when another color is given to a class that neither of
them carries. -/
theorem computeStyle_label_in_button :
    let visits : List Visit := [⟨"button", [.set .color (.color .pureRed)]⟩]
    let writes : List Write := [.set .color (.color .pureBlue)]
    let label : Lineage := ⟨.ofNames "label" ["big"] [], [.ofNames "button" [] ["hover"]]⟩
    (∀ w ∈ writes, w.Concerns .color) ∧
    (∀ s, Selector.parse ".quiet" = .ok s →
      ∀ a ∈ Property.color.sources label, s.matchesLineage a = false) ∧
    (((run visits).visit ⟨".quiet", writes⟩).computeStyle label).value.get .color =
      ((run visits).computeStyle label).value.get .color ∧
    (((run visits).visit ⟨".quiet", writes⟩).computeStyle label).value.get .width =
      ((run visits).computeStyle label).value.get .width := by
  intro visits writes label
  have hwrites : ∀ w ∈ writes, w.Concerns .color := by simp [writes, Write.Concerns]
  have canonical : (⟨[{ classes := ["quiet"] }]⟩ : Selector).Canonical := by decide +kernel
  have hparse : Selector.parse ".quiet" = .ok _ := canonical.parse_of_text_eq rfl
  have unmatched : ∀ s, Selector.parse ".quiet" = .ok s →
      ∀ a ∈ Property.color.sources label, s.matchesLineage a = false := by
    intro s hs
    obtain rfl := Except.ok.inj (hs.symm.trans hparse)
    decide
  obtain ⟨others, own, -⟩ :=
    computeStyle_visit_confined visits ".quiet" .color writes hwrites
  exact ⟨hwrites, unmatched, own label unmatched, others label .width (by decide)⟩

end Stylesheet
end StyleCascade
