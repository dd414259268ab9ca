import Mathlib.Data.List.Pairwise
import StyleCascade.Proofs.Stylesheet.Precedence
import StyleCascade.Proofs.Stylesheet.Writes

/-!
# Tables do not show their making

A style is shown as its table, and there is one table for what it declares. The order in which the
declarations were made leaves no trace in it, except that a later one of the same property takes the
place of an earlier one. This goes for the styles that are computed as well.
-/

namespace StyleCascade

/-!
## Styles as ordered tables

A style can be kept as the list of its declarations, in the order of the properties and with each
property once. Declaring is then to insert at the right place, and the operations that combine
styles insert one declaration after the other, in the order in which they come by them: laying over
in that of the upper style, taking over in that of the inherited properties.

There is only one such list for a style (`lists_iff`). So the list that the operations keep is the
list of the declarations, whatever the operations were (`entries_run`).
-/

namespace Property

variable {p q r : Property}

theorem lt_irrefl (p : Property) : ¬ p < p := Nat.lt_irrefl p.index

theorem lt_trans (h : p < q) (h' : q < r) : p < r := Nat.lt_trans h h'

theorem lt_of_not_lt (h : ¬ p < q) (hne : p ≠ q) : q < p := by
  have hindex : p.index ≠ q.index := fun heq => hne (index_inj.mp heq)
  change ¬ p.index < q.index at h
  change q.index < p.index
  omega

end Property

namespace Style

variable {s t : Style} {p q : Property} {v w : Value} {es es' : List (Property × Value)}

/-- Put a declaration at its place in an ordered list, in the place of another one of the same
property. -/
def insertEntry (p : Property) (v : Value) : List (Property × Value) → List (Property × Value)
  | [] => [(p, v)]
  | e :: es =>
    if e.1 < p then e :: insertEntry p v es
    else if e.1 = p then (p, v) :: es
    else (p, v) :: e :: es

def eraseEntry (p : Property) (es : List (Property × Value)) : List (Property × Value) :=
  es.filter fun e => e.1 ≠ p

/-- Insert the declarations of a list, one after the other. -/
def overlayEntries (es top : List (Property × Value)) : List (Property × Value) :=
  top.foldl (fun es e => insertEntry e.1 e.2 es) es

/-- Insert what is declared in another list, for a property that is not in this one. -/
def takeOverEntry (parent es : List (Property × Value)) (p : Property) :
    List (Property × Value) :=
  if (es.lookup p).isSome then es
  else
    match parent.lookup p with
    | some v => insertEntry p v es
    | none => es

/-- Go through the inherited properties, one after the other. -/
def inheritEntries (es parent : List (Property × Value)) : List (Property × Value) :=
  Property.inherited.foldl (takeOverEntry parent) es

/-- The ordered list after a step. -/
def enter (es : List (Property × Value)) : Step → List (Property × Value)
  | .set p v | .set? p v => if v.kind = p.kind then insertEntry p v es else es
  | .erase p => eraseEntry p es
  | .overlay top => overlayEntries es top.entries
  | .inherit parent => inheritEntries es parent.entries

/-! ### Ordered lists -/

/-- The properties are in order, and each of them once. -/
def Ascending (es : List (Property × Value)) : Prop := es.Pairwise fun e e' => e.1 < e'.1

theorem mem_insertEntry (h : Ascending es) :
    (q, w) ∈ insertEntry p v es ↔ if q = p then w = v else (q, w) ∈ es := by
  induction es with
  | nil => by_cases hq : q = p <;> simp [insertEntry, hq]
  | cons e es ih =>
      obtain ⟨first, rest⟩ := List.pairwise_cons.mp h
      have later : (p, w) ∈ es → e.1 < p := first (p, w)
      obtain ⟨r, u⟩ := e
      rw [insertEntry]
      split
      next hlt =>
        have hne : r ≠ p := fun heq => p.lt_irrefl (heq ▸ hlt)
        rw [List.mem_cons, ih rest]
        grind
      next hlt =>
        have habsent : (p, w) ∉ es := fun hmem => hlt (later hmem)
        split <;> grind

theorem Ascending.insertEntry (h : Ascending es) (p : Property) (v : Value) :
    Ascending (insertEntry p v es) := by
  induction es with
  | nil => exact List.pairwise_singleton _ _
  | cons e es ih =>
      obtain ⟨first, rest⟩ := List.pairwise_cons.mp h
      rw [Style.insertEntry]
      split
      next hlt =>
        refine List.pairwise_cons.mpr ⟨?_, ih rest⟩
        rintro ⟨q, w⟩ hmem
        rw [mem_insertEntry rest] at hmem
        split at hmem
        next heq => exact heq ▸ hlt
        next => exact first _ hmem
      next hlt =>
        split
        next heq => exact List.pairwise_cons.mpr ⟨heq ▸ first, rest⟩
        next hne =>
          have hp : p < e.1 := Property.lt_of_not_lt hlt hne
          refine List.pairwise_cons.mpr ⟨?_, h⟩
          intro e' hmem
          rcases List.mem_cons.mp hmem with rfl | hmem
          · exact hp
          · exact Property.lt_trans hp (first e' hmem)

/-- Ordered lists with the same declarations are the same. -/
theorem Ascending.eq_of_mem_iff (h : Ascending es) (h' : Ascending es')
    (same : ∀ p v, (p, v) ∈ es ↔ (p, v) ∈ es') : es = es' := by
  have distinct : ∀ {es}, Ascending es → es.Nodup := by
    intro es hes
    refine hes.imp ?_
    rintro e _ hlt rfl
    exact e.1.lt_irrefl hlt
  have perm : es.Perm es' :=
    (List.perm_ext_iff_of_nodup (distinct h) (distinct h')).mpr fun e => same e.1 e.2
  refine perm.eq_of_pairwise (fun e e' _ _ hlt hlt' => ?_) h h'
  exact absurd (Property.lt_trans hlt hlt') e.1.lt_irrefl

/-! ### The list of a style -/

/-- An ordered list has the declarations of a style. -/
structure Lists (s : Style) (es : List (Property × Value)) : Prop where
  ascending : Ascending es
  mem_iff : ∀ p v, (p, v) ∈ es ↔ s.get p = some v

theorem ascending_entries (s : Style) : Ascending s.entries := by
  refine List.pairwise_filterMap.mpr (Property.pairwise_all.imp fun {p q} hlt => ?_)
  rintro e he e' he'
  obtain ⟨v, -, rfl⟩ := Option.map_eq_some_iff.mp he
  obtain ⟨w, -, rfl⟩ := Option.map_eq_some_iff.mp he'
  exact hlt

/-- There is one list for each style. -/
theorem lists_iff : s.Lists es ↔ es = s.entries := by
  constructor
  · intro h
    apply h.ascending.eq_of_mem_iff s.ascending_entries
    intro p v
    rw [h.mem_iff, mem_entries]
  · rintro rfl
    exact ⟨s.ascending_entries, fun p v => mem_entries⟩

theorem Ascending.lookup_eq_some_iff (h : Ascending es) :
    es.lookup p = some v ↔ (p, v) ∈ es := by
  induction es with
  | nil => simp
  | cons e es ih =>
      obtain ⟨first, rest⟩ := List.pairwise_cons.mp h
      obtain ⟨q, w⟩ := e
      by_cases hp : p = q
      · subst hp
        have habsent : (p, v) ∉ es := fun hmem => p.lt_irrefl (first (p, v) hmem)
        simp [habsent, eq_comm]
      · have hother : (p == q) = false := beq_false_of_ne hp
        simp [List.lookup_cons, hother, hp, ih rest]

theorem Lists.lookup_eq (h : s.Lists es) (p : Property) : es.lookup p = s.get p :=
  Option.ext fun v => h.ascending.lookup_eq_some_iff.trans (h.mem_iff p v)

theorem Lists.declare (h : s.Lists es) (p : Property) (v : Value) :
    (s.declare (p, v)).Lists (insertEntry p v es) where
  ascending := h.ascending.insertEntry p v
  mem_iff q w := by
    rw [mem_insertEntry h.ascending, Style.declare, get_put, h.mem_iff]
    grind

theorem Lists.erase (h : s.Lists es) (p : Property) : (s.erase p).Lists (eraseEntry p es) where
  ascending := h.ascending.filter _
  mem_iff q w := by
    rw [eraseEntry, List.mem_filter, h.mem_iff, get_erase]
    grind

theorem Lists.overlay (h : s.Lists es) (top : Style) :
    (s.overlay top).Lists (overlayEntries es top.entries) := by
  rw [overlay_eq_foldl, overlayEntries]
  generalize top.entries = upper
  induction upper generalizing s es with
  | nil => exact h
  | cons e upper ih => exact ih (h.declare e.1 e.2)

theorem Lists.takeOver (h : s.Lists es) (ht : t.Lists es') (p : Property) :
    (takeOver t s p).Lists (takeOverEntry es' es p) := by
  rw [Style.takeOver, takeOverEntry, h.lookup_eq, ht.lookup_eq, contains]
  cases t.get p with
  | none => split <;> exact h
  | some v =>
      split
      · exact h
      · exact h.declare p v

theorem Lists.inherit (h : s.Lists es) (parent : Style) :
    (s.inherit parent).Lists (inheritEntries es parent.entries) := by
  have hparent : parent.Lists parent.entries := lists_iff.mpr rfl
  rw [inherit_eq_foldl, inheritEntries]
  generalize Property.inherited = ps
  induction ps generalizing s es with
  | nil => exact h
  | cons p ps ih => exact ih (h.takeOver hparent p)

theorem Lists.take (h : s.Lists es) (step : Step) : (s.take step).Lists (enter es step) := by
  have declared : ∀ p v, ((s.set? p v).toOption.getD s).Lists
      (if v.kind = p.kind then insertEntry p v es else es) := by
    intro p v
    rw [set?]
    split
    · exact h.declare p v
    · exact h
  cases step with
  | set p v =>
      rw [Style.take, value_set]
      exact declared p v
  | set? p v => exact declared p v
  | erase p => exact h.erase p
  | overlay top => exact h.overlay top
  | inherit parent => exact h.inherit parent

/-- The list that is kept through all steps is the list of the declarations. -/
theorem entries_run (steps : List Step) : (run steps).entries = steps.foldl enter [] := by
  have kept : ∀ s es, s.Lists es → (steps.foldl take s).Lists (steps.foldl enter es) := by
    induction steps with
    | nil => exact fun s es h => h
    | cons step steps ih => exact fun s es h => ih _ _ (h.take step)
  have start : empty.Lists [] := ⟨List.Pairwise.nil, fun p v => by simp⟩
  exact (lists_iff.mp (kept empty [] start)).symm

/-- The listed properties are those that are declared. -/
theorem map_fst_entries (s : Style) : s.entries.map Prod.fst = Property.all.filter s.contains := by
  rw [entries, List.map_filterMap, ← List.filterMap_eq_filter]
  congr 1
  funext p
  cases h : s.get p <;> simp [contains, Option.guard, h]

theorem size_eq_countP (s : Style) : s.size = Property.all.countP s.contains := by
  rw [List.countP_eq_length_filter, ← map_fst_entries, List.length_map, size]

end Style

/-!
## Histories that leave the same

Two histories of a sheet agree (`Registry.Agree`) if they leave the same declared for every selector
that they ask for, and keep rivals in the same order. A computed style is then the same, and so is
its text.
-/

namespace Registry

variable {visits visits' : List Visit}

/-- Two histories leave the same declarations. They ask for the same selectors, for each of them
the last write that touches a property gives it the same, and selectors that are rivals have been
asked for in the same order. -/
structure Agree (visits visits' : List Visit) : Prop where
  asked : ∀ s, s ∈ asked visits ↔ s ∈ asked visits'
  declared : ∀ s p, declared s p visits = declared s p visits'
  rivals : ∀ x y, Rivals x y → (run visits).Before x y → (run visits').Before x y

theorem Agree.styleOf_eq (h : Agree visits visits') (s : Selector) :
    styleOf s visits = styleOf s visits' := by
  ext1 p
  rw [get_styleOf, get_styleOf, h.declared]

theorem Agree.perm (h : Agree visits visits') : (run visits).Perm (run visits') := by
  rw [run_eq_map, run_eq_map]
  simp only [h.styleOf_eq]
  apply List.Perm.map
  apply (List.perm_ext_iff_of_nodup (nodup_eraseDups _) (nodup_eraseDups _)).mpr
  intro s
  rw [List.mem_eraseDups, List.mem_eraseDups, h.asked]

end Registry

namespace Stylesheet

variable {visits visits' : List Visit}

theorem value_cascade_of_agree (h : Registry.Agree visits visits') (l : Lineage) :
    ((run visits).cascade l).value = ((run visits').cascade l).value := by
  have perm : (run visits).entries.Perm (run visits').entries := by
    rw [entries_run, entries_run]
    exact h.perm
  have rivals : ∀ x y, Registry.Rivals x y →
      (run visits).entries.Before x y → (run visits').entries.Before x y := by
    rw [entries_run, entries_run]
    exact h.rivals
  ext1 p
  apply get_cascade_congr (coherent_run visits) (coherent_run visits')
  · intro slot s v hprevails
    exact hprevails.of_perm perm (nodup_keys_entries visits') rivals
  · intro slot s v hoffers
    obtain ⟨slot', hoffers'⟩ := hoffers.of_perm perm.symm
    exact ⟨slot', s, v, hoffers'⟩

theorem value_computeStyle_of_agree (h : Registry.Agree visits visits') (l : Lineage) :
    ((run visits).computeStyle l).value = ((run visits').computeStyle l).value := by
  ext1 p
  apply get_computeStyle_congr
  intro a _
  rw [value_cascade_of_agree h]

theorem value_computeWithParent_of_agree (h : Registry.Agree visits visits') (l : Lineage)
    (parent : Option Style) : ((run visits).computeWithParent l parent).value =
      ((run visits').computeWithParent l parent).value := by
  have own := value_cascade_of_agree h l
  cases parent with
  | none => exact own
  | some parent => exact congrArg (fun s : Style => s.inherit parent) own

end Stylesheet

namespace Style

/-- The table of a style is the list that is kept through all steps of its making. It has each
declared property once, in the order of the properties, with the value that is declared, and no
other list is like that. So styles that read alike have the same table, size and text, whatever
their steps were, and a computed style has the same text after all histories that leave the same
declarations. To read alike is to have the same values; that they compare equal would not do, as the
two zeros are not written alike. -/
theorem table_canonical :
    (∀ steps, (run steps).entries = steps.foldl enter []) ∧
    (∀ s : Style, Ascending s.entries ∧ (∀ p v, (p, v) ∈ s.entries ↔ s.get p = some v) ∧
      s.entries.map Prod.fst = Property.all.filter s.contains ∧
      s.size = Property.all.countP s.contains ∧
      ∀ es, s.Lists es → es = s.entries) ∧
    (∀ s t : Style, (∀ p, s.get p = t.get p) →
      s.entries = t.entries ∧ s.size = t.size ∧ s.text = t.text) ∧
    ∀ visits visits', Registry.Agree visits visits' → ∀ l parent,
      ((Stylesheet.run visits).computeStyle l).value.text =
        ((Stylesheet.run visits').computeStyle l).value.text ∧
      ((Stylesheet.run visits).computeWithParent l parent).value.text =
        ((Stylesheet.run visits').computeWithParent l parent).value.text := by
  refine ⟨entries_run, fun s => ?table, fun s t same => ?alike, fun visits visits' h l parent => ?_⟩
  case table =>
    refine ⟨s.ascending_entries, fun p v => mem_entries, s.map_fst_entries, s.size_eq_countP, ?_⟩
    intro es hes
    exact lists_iff.mp hes
  case alike =>
    obtain rfl : s = t := Style.ext same
    exact ⟨rfl, rfl, rfl⟩
  · rw [Stylesheet.value_computeStyle_of_agree h, Stylesheet.value_computeWithParent_of_agree h]
    exact ⟨rfl, rfl⟩

/-- A button is made red and bold, once in one go and once in two, where it is first made bold and
is blue for a while. -/
theorem table_canonical_bold_first :
    let bold : Write := .set .fontWeight (.integer 700)
    let red : Write := .set .color (.color .pureRed)
    let blue : Write := .set .color (.color .pureBlue)
    let visits : List Visit := [⟨"button", [red, bold]⟩]
    let visits' : List Visit := [⟨"button", [bold]⟩, ⟨"button", [blue, red]⟩]
    let button : Lineage := ⟨.ofNames "button" [] [], []⟩
    let s := ((empty.written red).written bold)
    let t := (((empty.written bold).written blue).written red)
    (∀ p, s.get p = t.get p) ∧ s.text = t.text ∧
    Registry.Agree visits visits' ∧
    ((Stylesheet.run visits).computeStyle button).value.text =
      ((Stylesheet.run visits').computeStyle button).value.text := by
  intro bold red blue visits visits' button s t
  have canonical : (⟨[{ typeName := some "button" }]⟩ : Selector).Canonical := by
    decide +kernel
  have hparse : Selector.parse "button" = .ok _ := canonical.parse_of_text_eq rfl
  have alike : ∀ p, s.get p = t.get p := by
    intro p
    cases p <;> rfl
  have agree : Registry.Agree visits visits' := by
    refine ⟨?asked, ?declared, ?rivals⟩
    case asked =>
      intro u
      simp [visits, visits', Registry.asked, hparse, Except.toOption]
    case declared =>
      intro u p
      by_cases hu : u = ⟨[{ typeName := some "button" }]⟩
      · subst hu
        simp [visits, visits', Registry.declared, Registry.writesTo, hparse, Except.toOption]
        cases p <;> rfl
      · simp [visits, visits', Registry.declared, Registry.writesTo, hparse, Except.toOption,
          Ne.symm hu]
    case rivals =>
      rintro x y - ⟨i, j, hij, hi, hj⟩
      have hlt : j < (Registry.run visits).length := (List.getElem?_eq_some_iff.mp hj).1
      have one : (Registry.run visits).length = 1 := by
        simp [visits, Registry.run, Registry.visit, hparse, Registry.enter, Registry.keys,
          Registry.revise]
      omega
  obtain ⟨-, -, same, computed⟩ := table_canonical
  exact ⟨alike, (same s t alike).2.2, agree, (computed visits visits' agree button none).1⟩

end Style
end StyleCascade
