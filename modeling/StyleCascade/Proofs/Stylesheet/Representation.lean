import StyleCascade.Proofs.Stylesheet.Layers
import StyleCascade.Proofs.Stylesheet.Lookup

/-!
# How a sheet is kept

A rule keeps its selector three times over, as such, as its text and as its specificity, and the
index keeps the place of the text once more. All of it is written when the rule is added and never
compared again. `Represented` says that it agrees, and it does in every sheet
(`representation_invariant`).

What is written stays as it is. A rule is only ever added at the end, and of the rules that there
are nothing changes but the style of the one that is written to. `Keeps` puts down what an older
sheet and a younger one have in common; every step keeps it, and so every run does.
-/

namespace StyleCascade
namespace Stylesheet

variable {sheet later last : Stylesheet} {text : String} {s : Selector} {slot i : Nat}

/-- The rules and the index of a sheet agree with each other and with the selectors. -/
structure Represented (sheet : Stylesheet) : Prop where
  /-- The index leads from a text to the place of the rule with this text. -/
  index_iff : ∀ (key : String) (slot : Nat), sheet.index[key]? = some slot ↔
    ∃ h : slot < sheet.rules.size, sheet.rules[slot].text = key
  size_index : sheet.index.size = sheet.size
  text_inj : ∀ i j (hi : i < sheet.rules.size) (hj : j < sheet.rules.size),
    sheet.rules[i].text = sheet.rules[j].text → i = j
  parse_text : ∀ r ∈ sheet.rules, Selector.parse r.text = .ok r.selector
  text_eq : ∀ r ∈ sheet.rules, r.text = r.selector.text
  specificity_eq : ∀ r ∈ sheet.rules, r.specificity = r.selector.specificity

/-- The rules of a sheet are in a later one, each at its place and all but for its style as it was,
and the index still leads there. -/
structure Keeps (sheet later : Stylesheet) : Prop where
  rules : ∀ {i : Nat} {r : Rule}, sheet.rules[i]? = some r →
    ∃ style, later.rules[i]? = some { r with style }
  index : ∀ {key : String} {slot : Nat}, sheet.index[key]? = some slot →
    later.index[key]? = some slot

/-! ### Rules and index agree -/

theorem size_index_run (visits : List Visit) : (run visits).index.size = (run visits).size := by
  apply run_induction (P := fun sheet => sheet.index.size = sheet.size)
  · rfl
  · intro sheet _ s h _ hnew
    have habsent : (Rule.ofSelector s).text ∉ sheet.index := by
      rw [Std.HashMap.mem_iff_isSome_getElem?, Option.not_isSome_iff_eq_none]
      exact hnew
    calc (sheet.push (.ofSelector s)).index.size
        = sheet.index.size + 1 := by rw [push, Std.HashMap.size_insert, if_neg habsent]
      _ = sheet.size + 1 := by rw [h]
      _ = (sheet.push (.ofSelector s)).size := (Array.size_push _).symm
  · intro sheet slot style h
    exact h.trans Array.size_modify.symm

theorem represented_run (visits : List Visit) : (run visits).Represented := by
  have indexed := indexed_run visits
  have coherent : ∀ r ∈ (run visits).rules, r.Coherent ∧ r.selector.Canonical := by
    intro r hr
    obtain ⟨i, hi⟩ := Array.mem_iff_getElem?.mp hr
    exact ⟨coherent_run visits hi, indexed.canonical i r hi⟩
  have index_iff : ∀ (key : String) (slot : Nat), (run visits).index[key]? = some slot ↔
      ∃ h : slot < (run visits).rules.size, (run visits).rules[slot].text = key := by
    intro key slot
    rw [indexed.index_iff]
    constructor
    · rintro ⟨r, hr, htext⟩
      obtain ⟨h, rfl⟩ := Array.getElem?_eq_some_iff.mp hr
      exact ⟨h, htext⟩
    · rintro ⟨h, htext⟩
      exact ⟨_, Array.getElem?_eq_getElem h, htext⟩
  refine ⟨index_iff, size_index_run visits, ?_, ?_, ?_, ?_⟩
  · intro i j hi hj htext
    -- The index leads to one place only.
    have leads := (index_iff _ i).mpr ⟨hi, htext⟩
    exact Option.some.inj (leads.symm.trans ((index_iff _ j).mpr ⟨hj, rfl⟩))
  · intro r hr
    rw [(coherent r hr).1.text]
    exact (coherent r hr).2.parse_text
  · exact fun r hr => (coherent r hr).1.text
  · exact fun r hr => (coherent r hr).1.specificity

/-! ### What is written stays -/

namespace Keeps

theorem refl (sheet : Stylesheet) : sheet.Keeps sheet := ⟨fun hr => ⟨_, hr⟩, id⟩

theorem trans (h : sheet.Keeps later) (h' : later.Keeps last) : sheet.Keeps last where
  rules hr := by
    obtain ⟨_, hlater⟩ := h.rules hr
    obtain ⟨style, hlast⟩ := h'.rules hlater
    exact ⟨style, hlast⟩
  index hslot := h'.index (h.index hslot)

end Keeps

theorem getElem?_rules_push_of_lt (r : Rule) (hi : i < sheet.size) :
    (sheet.push r).rules[i]? = sheet.rules[i]? := by
  rw [getElem?_rules_push, if_neg (Nat.ne_of_lt hi)]

/-- To ask for a selector changes no rule that there is. -/
theorem getElem?_rules_handle (sheet : Stylesheet) (text : String) (hi : i < sheet.size) :
    (sheet.handle text).value.2.rules[i]? = sheet.rules[i]? := by
  obtain same | ⟨s, -, -, added⟩ := sheet_handle_eq sheet text
  · rw [same]
  · rw [added]
    exact getElem?_rules_push_of_lt _ hi

theorem keeps_push (hnew : sheet.index[s.text]? = none) :
    sheet.Keeps (sheet.push (.ofSelector s)) where
  rules {i r} hr := ⟨r.style, by
    rw [getElem?_rules_push_of_lt _ (Array.getElem?_eq_some_iff.mp hr).1, hr]⟩
  index {key slot} hslot := by
    have hkey : (Rule.ofSelector s).text ≠ key := by
      rintro rfl
      cases hnew.symm.trans hslot
    rw [getElem?_index_push, if_neg hkey, hslot]

theorem keeps_handle (sheet : Stylesheet) (text : String) :
    sheet.Keeps (sheet.handle text).value.2 := by
  obtain same | ⟨s, -, hnew, added⟩ := sheet_handle_eq sheet text
  · rw [same]
    exact .refl sheet
  · rw [added]
    exact keeps_push hnew

/-- A write reaches the rule of its handle and no other. -/
theorem getElem?_rules_write (sheet : Stylesheet) {h : Handle} (w : Write) (hi : h ≠ .rule i) :
    (sheet.write h w).rules[i]? = sheet.rules[i]? := by
  obtain same | ⟨slot, style, rfl, replaced⟩ := write_eq sheet h w
  · rw [same]
  · have hne : slot ≠ i := fun heq => hi (heq ▸ rfl)
    rw [replaced, getElem?_rules_putStyle, if_neg hne]

theorem keeps_putStyle (sheet : Stylesheet) (slot : Nat) (style : Style) :
    sheet.Keeps (sheet.putStyle slot style) where
  rules {i r} hr := by
    rw [getElem?_rules_putStyle, hr]
    split
    · exact ⟨style, rfl⟩
    · exact ⟨r.style, rfl⟩
  index hslot := hslot

theorem keeps_write (sheet : Stylesheet) (h : Handle) (w : Write) :
    sheet.Keeps (sheet.write h w) := by
  obtain same | ⟨slot, style, -, replaced⟩ := write_eq sheet h w
  · rw [same]
    exact .refl sheet
  · rw [replaced]
    exact keeps_putStyle sheet slot style

theorem keeps_foldl_write (h : Handle) (writes : List Write) (sheet : Stylesheet) :
    sheet.Keeps (writes.foldl (fun s w => s.write h w) sheet) := by
  induction writes generalizing sheet with
  | nil => exact .refl sheet
  | cons w writes ih => exact (keeps_write sheet h w).trans (ih (sheet.write h w))

theorem keeps_visit (sheet : Stylesheet) (v : Visit) : sheet.Keeps (sheet.visit v) :=
  (keeps_handle sheet v.text).trans (keeps_foldl_write _ v.writes _)

/-- Whatever is asked for and written later, the rules that there are keep their places. -/
theorem keeps_run (visits more : List Visit) : (run visits).Keeps (run (visits ++ more)) := by
  rw [run, run, List.foldl_append]
  generalize visits.foldl visit empty = sheet
  induction more generalizing sheet with
  | nil => exact .refl sheet
  | cons v more ih => exact (keeps_visit sheet v).trans (ih (sheet.visit v))

theorem getElem?_rules_foldl_write {h : Handle} (writes : List Write) (sheet : Stylesheet)
    (hi : h ≠ .rule i) :
    (writes.foldl (fun s w => s.write h w) sheet).rules[i]? = sheet.rules[i]? := by
  induction writes generalizing sheet with
  | nil => rfl
  | cons w writes ih => rw [List.foldl_cons, ih, getElem?_rules_write sheet w hi]

/-- A visit changes none of the rules that there are, but for the one that its text leads to. -/
theorem getElem?_rules_visit (sheet : Stylesheet) (v : Visit) (hi : i < sheet.size)
    (other : ¬ sheet.LeadsTo v.text i) : (sheet.visit v).rules[i]? = sheet.rules[i]? :=
  (getElem?_rules_foldl_write v.writes _ other).trans (getElem?_rules_handle sheet v.text hi)

/-! ### No place is empty -/

/-- A handle that is given out stands for a rule. -/
theorem lt_size_of_leadsTo (visits : List Visit) (h : (run visits).LeadsTo text slot) :
    slot < ((run visits).handle text).value.2.size := by
  rw [LeadsTo] at h
  cases hparse : Selector.parse text with
  | error e =>
      rw [handle_of_error hparse] at h
      cases h
  | ok s =>
      obtain ⟨place, style, found, handled, -, hentry⟩ := exists_handle visits hparse
      rw [handled] at h ⊢
      cases h
      rw [← length_entries]
      exact (List.getElem?_eq_some_iff.mp hentry).1

/-- In every sheet the rules and the index agree, and every place that is looked up is that of a
rule. To ask for a selector or to write through a handle changes nothing about the rules that there
are, but for the style of the one that is written to; so a rule stays where it is, with its text,
its selector and its specificity, whatever comes later. -/
theorem representation_invariant (visits : List Visit) :
    (run visits).Represented ∧
    (∀ text slot, (run visits).LeadsTo text slot →
      slot < ((run visits).handle text).value.2.size) ∧
    (∀ l, ∀ m ∈ ((run visits).matchingRules l).value,
      (run visits).rules[m.order]? = some m.rule) ∧
    (∀ text, (run visits).Keeps ((run visits).handle text).value.2 ∧
      ∀ i < (run visits).size,
        ((run visits).handle text).value.2.rules[i]? = (run visits).rules[i]?) ∧
    (∀ h w, (run visits).Keeps ((run visits).write h w) ∧
      ∀ i, h ≠ .rule i → ((run visits).write h w).rules[i]? = (run visits).rules[i]?) ∧
    (∀ v, ∀ i < (run visits).size, ¬ (run visits).LeadsTo v.text i →
      (run (visits ++ [v])).rules[i]? = (run visits).rules[i]?) ∧
    ∀ more, (run visits).Keeps (run (visits ++ more)) := by
  refine ⟨represented_run visits, fun _ _ => lt_size_of_leadsTo visits, ?matching, ?asked, ?written,
    ?visited, keeps_run visits⟩
  case matching =>
    intro l m hm
    exact (mem_applicable.mp (List.mem_mergeSort.mp hm)).1
  case asked =>
    exact fun text => ⟨keeps_handle _ text, fun i hi => getElem?_rules_handle _ text hi⟩
  case written =>
    exact fun h w => ⟨keeps_write _ h w, fun i hi => getElem?_rules_write _ w hi⟩
  case visited =>
    intro v i hi other
    rw [run_concat]
    exact getElem?_rules_visit _ v hi other

end Stylesheet
end StyleCascade
