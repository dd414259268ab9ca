import Mathlib.Data.Finset.Card
import StyleCascade.Proofs.Stylesheet.Registry

/-!
# Where a text leads

What is found under a text, and what asking for it does, can be told from the entries of a sheet
and from the selector that the text describes. There are three cases: the text describes none
(`Rejects`), it describes one that has an entry (`Finds`), or one that gets an entry now (`Adds`).

Entries stay where they are, so a handle leads to the same style for good. Two texts, asked for
at any two times, lead to the same style just when they describe the same selector
(`leadsTo_same_iff`).
-/

namespace StyleCascade
namespace Stylesheet

variable {sheet : Stylesheet} {text text' : String} {s : Selector} {slot : Nat} {style : Style}
  {visits : List Visit}

/-- Nothing is found under a text that describes no selector, and asking for it gives the dummy,
through which nothing can be done. -/
structure Rejects (sheet : Stylesheet) (text : String) : Prop where
  get? : sheet.get? text = none
  contains : sheet.contains text = false
  handle : (sheet.handle text).value = (.dummy, sheet)
  view : sheet.view .dummy = .dummy
  set : ∀ p v, (sheet.set .dummy p v).value = sheet
  set? : ∀ p v, sheet.set? .dummy p v = .error .dummyStyle
  borrow? : sheet.borrow? .dummy = none
  visit : ∀ writes, sheet.visit ⟨text, writes⟩ = sheet

/-- The style of a selector is found under a text, and asking for it gives a handle to this very
style and adds nothing. -/
structure Finds (sheet : Stylesheet) (text : String) (s : Selector) (slot : Nat)
    (style : Style) : Prop where
  get? : sheet.get? text = some style
  contains : sheet.contains text = true
  handle : (sheet.handle text).value = (.rule slot, sheet)
  view : sheet.view (.rule slot) = .own style
  write : ∀ w, (sheet.write (.rule slot) w).entries =
    sheet.entries.revise s fun old => old.written w
  borrow? : ∃ put, sheet.borrow? (.rule slot) = some (style, put) ∧
    ∀ new, (put new).entries = sheet.entries.revise s fun _ => new

/-- Nothing is found under a text, and asking for it adds an entry for a selector at the end, where
it is found afterwards. -/
structure Adds (sheet : Stylesheet) (text : String) (s : Selector) : Prop where
  get? : sheet.get? text = none
  contains : sheet.contains text = false
  handle : ∃ added, (sheet.handle text).value = (.rule sheet.size, added) ∧
    added.entries = sheet.entries ++ [(s, .empty)] ∧ added.Finds text s sheet.size .empty

theorem get?_of_error {e : ParseError} (hparse : Selector.parse text = .error e) :
    sheet.get? text = none := by
  rw [get?, hparse]
  rfl

theorem get?_of_entry (hparse : Selector.parse text = .ok s)
    (hindex : sheet.index[s.text]? = some slot) (h : sheet.entries[slot]? = some (s, style)) :
    sheet.get? text = some style := by
  obtain ⟨r, hr, -, rfl⟩ := getElem?_entries_eq_some_iff.mp h
  simp [get?, hparse, hindex, hr, Except.toOption]

theorem get?_of_new (hparse : Selector.parse text = .ok s)
    (hindex : sheet.index[s.text]? = none) : sheet.get? text = none := by
  simp [get?, hparse, hindex, Except.toOption]

theorem rejects_of_error {e : ParseError} (sheet : Stylesheet)
    (hparse : Selector.parse text = .error e) : sheet.Rejects text where
  get? := get?_of_error hparse
  contains := by rw [contains, get?_of_error hparse, Option.isSome_none]
  handle := handle_of_error hparse
  view := rfl
  set _ _ := rfl
  set? _ _ := rfl
  borrow? := rfl
  visit writes := by
    rw [visit, handle_of_error hparse]
    exact foldl_write_dummy sheet writes

theorem finds_of_entry (hparse : Selector.parse text = .ok s)
    (h : (run visits).entries[slot]? = some (s, style)) :
    (run visits).Finds text s slot style := by
  have hindex : (run visits).index[s.text]? = some slot :=
    (index_run_iff visits (Selector.canonical_of_parse hparse)).mpr ⟨style, h⟩
  have hput : ∀ change : Style → Style, (run visits).entries.set slot (s, change style) =
      (run visits).entries.revise s change :=
    Registry.set_eq_revise (nodup_keys_entries visits) h
  have hget := get?_of_entry hparse hindex h
  have hview := view_of_entry h
  have hborrow : (run visits).borrow? (.rule slot) =
      some (style, (run visits).putStyle slot) := by
    rw [borrow?, hview, StyleRef.style]
  exact {
    get? := hget
    contains := by rw [contains, hget, Option.isSome_some]
    handle := handle_of_indexed hparse hindex
    view := hview
    write := fun w => (entries_write h w).trans (hput fun old => old.written w)
    borrow? := ⟨_, hborrow, fun new => (entries_putStyle h new).trans (hput fun _ => new)⟩ }

theorem adds_of_not_mem (hparse : Selector.parse text = .ok s)
    (hnew : s ∉ (run visits).entries.keys) : (run visits).Adds text s := by
  have hindex := index_run_eq_none visits (Selector.canonical_of_parse hparse) hnew
  have hget := get?_of_new hparse hindex
  have handled := handle_of_new hparse hindex
  have hadded := entries_push (run visits) s
  refine ⟨hget, by rw [contains, hget, Option.isSome_none],
    (run visits).push (.ofSelector s), handled, hadded, ?_⟩
  -- the sheet with the new rule is itself the result of a visit, on which nothing is written
  have hrun : run (visits ++ [⟨text, []⟩]) = (run visits).push (.ofSelector s) := by
    rw [run_concat, visit, handled]
    rfl
  rw [← hrun] at hadded ⊢
  apply finds_of_entry hparse
  rw [hadded, ← length_entries]
  exact List.getElem?_concat_length

/-- The text gets a handle to the rule at a place. -/
def LeadsTo (sheet : Stylesheet) (text : String) (slot : Nat) : Prop :=
  (sheet.handle text).value.1 = .rule slot

/-- A text leads to the place that its selector has, or is to have. -/
theorem leadsTo_iff : (run visits).LeadsTo text slot ↔
    ∃ s, Selector.parse text = .ok s ∧ (addNew (Registry.run visits).keys s)[slot]? = some s := by
  rw [LeadsTo]
  cases hparse : Selector.parse text with
  | error e => simp [handle_of_error hparse]
  | ok s =>
      obtain ⟨place, style, found, handled, entered, h⟩ := exists_handle visits hparse
      have hkeys : found.entries.keys = addNew (Registry.run visits).keys s := by
        rw [entered, Registry.keys_enter, entries_run]
      have hnodup : found.entries.keys.Nodup :=
        hkeys ▸ nodup_addNew (Registry.nodup_keys_run visits)
      have hplace : found.entries.keys[place]? = some s := by
        rw [Registry.getElem?_keys, h, Option.map_some]
      rw [handled]
      constructor
      · intro heq
        obtain rfl : place = slot := Handle.rule.inj heq
        exact ⟨s, rfl, hkeys ▸ hplace⟩
      · rintro ⟨_, heq, hslot⟩
        obtain rfl := Except.ok.inj heq
        rw [← hkeys] at hslot
        have hlt := (List.getElem?_eq_some_iff.mp hplace).1
        exact congrArg Handle.rule ((List.getElem?_inj hlt hnodup).mp (hplace.trans hslot.symm))

/-- Two texts, one asked for later than the other, lead to the same rule if and only if they
describe the same selector. -/
theorem leadsTo_same_iff (visits : List Visit) (text text' : String) (writes : List Write)
    (more : List Visit) :
    (∃ slot, (run visits).LeadsTo text slot ∧
        (run (visits ++ ⟨text, writes⟩ :: more)).LeadsTo text' slot) ↔
      ∃ s, Selector.parse text = .ok s ∧ Selector.parse text' = .ok s := by
  -- the place that a selector gets is its place whenever it is asked for again
  have kept : ∀ {s s' : Selector} {slot : Nat}, Selector.parse text = .ok s →
      (addNew (Registry.run visits).keys s)[slot]? = some s →
      (addNew (Registry.run (visits ++ ⟨text, writes⟩ :: more)).keys s')[slot]? = some s :=
    fun hs hslot =>
      have goesOn := Registry.prefix_keys_run (v := ⟨text, writes⟩) visits more hs
      getElem?_of_prefix (goesOn.trans (prefix_addNew _ _)) hslot
  constructor
  · rintro ⟨slot, h, h'⟩
    obtain ⟨s, hs, hslot⟩ := leadsTo_iff.mp h
    obtain ⟨s', hs', hslot'⟩ := leadsTo_iff.mp h'
    obtain rfl : s = s' := Option.some.inj ((kept hs hslot).symm.trans hslot')
    exact ⟨s, hs, hs'⟩
  · rintro ⟨s, hs, hs'⟩
    have hmem : s ∈ addNew (Registry.run visits).keys s := mem_addNew.mpr (.inr rfl)
    obtain ⟨slot, hslot⟩ := List.mem_iff_getElem?.mp hmem
    exact ⟨slot, leadsTo_iff.mpr ⟨s, hs, hslot⟩, leadsTo_iff.mpr ⟨s, hs', kept hs hslot⟩⟩

/-- There is one rule for each selector that was asked for. -/
theorem size_run (visits : List Visit) :
    (run visits).size = (Registry.asked visits).toFinset.card := by
  have hsame : (Registry.run visits).keys.toFinset = (Registry.asked visits).toFinset := by
    ext s
    rw [Registry.keys_run, List.mem_toFinset, List.mem_toFinset, List.mem_eraseDups]
  calc (run visits).size
      = (Registry.run visits).keys.length := by rw [← length_keys_entries, entries_run]
    _ = (Registry.run visits).keys.toFinset.card :=
        (List.toFinset_card_of_nodup (Registry.nodup_keys_run visits)).symm
    _ = (Registry.asked visits).toFinset.card := by rw [hsame]

/-- A sheet is a map from selectors to styles, in the order of registration, that is accessed by
texts. A text is rejected, found or added by what it describes; which texts share a rule, and how
many rules there are, depends on the selectors alone. -/
theorem run_refines_registry (visits : List Visit) :
    (run visits).entries = Registry.run visits ∧
    (∀ text e, Selector.parse text = .error e → (run visits).Rejects text) ∧
    (∀ text s slot style, Selector.parse text = .ok s →
      (run visits).entries[slot]? = some (s, style) → (run visits).Finds text s slot style) ∧
    (∀ text s, Selector.parse text = .ok s → s ∉ (run visits).entries.keys →
      (run visits).Adds text s) ∧
    (∀ text text' writes more,
      (∃ slot, (run visits).LeadsTo text slot ∧
          (run (visits ++ ⟨text, writes⟩ :: more)).LeadsTo text' slot) ↔
        ∃ s, Selector.parse text = .ok s ∧ Selector.parse text' = .ok s) ∧
    (run visits).size = (Registry.asked visits).toFinset.card := by
  refine ⟨entries_run visits, ?rejects, ?finds, ?adds, leadsTo_same_iff visits, size_run visits⟩
  case rejects =>
    intro text e hparse
    exact rejects_of_error (run visits) hparse
  case finds =>
    intro text s slot style hparse h
    exact finds_of_entry hparse h
  case adds =>
    intro text s hparse hnew
    exact adds_of_not_mem hparse hnew

end Stylesheet
end StyleCascade
