import StyleCascade.Proofs.Selector.Canonical
import StyleCascade.Stylesheet

/-!
# The history of a sheet

A sheet comes from the empty one by visits. On a visit a caller asks for the style of a selector
and writes through the handle that is given back, any number of times. `run_induction` reduces
what holds of all such sheets to the two ways in which a sheet ever changes: a rule without
declarations is added for a selector that had none, and the style of one rule is replaced.

`coherent_run` is the first use: what a rule keeps beside its selector, its text and its
specificity, is that of the selector in every sheet.
-/

namespace StyleCascade

inductive Write where
  /-- Declare a property, and leave a mismatch to the log. -/
  | set (p : Property) (v : Value)
  /-- Declare a property, and be told of a mismatch. -/
  | set? (p : Property) (v : Value)
  /-- Unset a property. -/
  | erase (p : Property)
  /-- Change the style in any other way, so that it ends up as the given one. -/
  | replace (style : Style)

/-- A selector is asked for and its style is written. -/
structure Visit where
  text : String
  writes : List Write := []

namespace Stylesheet

variable {sheet : Stylesheet} {text : String} {s : Selector} {slot : Nat}

/-- A write through a handle; one that is refused changes nothing. -/
def write (sheet : Stylesheet) (h : Handle) : Write → Stylesheet
  | .set p v => (sheet.set h p v).value
  | .set? p v => (sheet.set? h p v).toOption.getD sheet
  | .erase p => ((sheet.erase? h p).map Prod.snd).getD sheet
  | .replace style =>
    match h with
    | .rule slot => sheet.putStyle slot style
    | .dummy => sheet

def visit (sheet : Stylesheet) (v : Visit) : Stylesheet :=
  let (h, found) := (sheet.handle v.text).value
  v.writes.foldl (fun s w => s.write h w) found

def run (visits : List Visit) : Stylesheet := visits.foldl visit empty

/-- A write through a handle replaces the style of one rule at most. -/
theorem write_eq (sheet : Stylesheet) (h : Handle) (w : Write) :
    sheet.write h w = sheet ∨
      ∃ slot style, h = .rule slot ∧ sheet.write h w = sheet.putStyle slot style := by
  cases h with
  | dummy => cases w <;> exact .inl rfl
  | rule slot =>
      cases w with
      | set p v => exact .inr ⟨slot, _, rfl, rfl⟩
      | set? p v =>
          rw [write, set?]
          cases (sheet.view (.rule slot)).style.set? p v with
          | error e => exact .inl rfl
          | ok style => exact .inr ⟨slot, style, rfl, rfl⟩
      | erase p => exact .inr ⟨slot, _, rfl, rfl⟩
      | replace style => exact .inr ⟨slot, style, rfl, rfl⟩

/-- A text that is no selector gets the dummy. -/
theorem handle_of_error {e : ParseError} (hparse : Selector.parse text = .error e) :
    (sheet.handle text).value = (.dummy, sheet) := by
  simp only [handle, hparse]
  rfl

/-- A selector that has a rule gets it. -/
theorem handle_of_indexed (hparse : Selector.parse text = .ok s)
    (hindex : sheet.index[s.text]? = some slot) :
    (sheet.handle text).value = (.rule slot, sheet) := by
  simp only [handle, hparse, hindex]
  rfl

/-- A selector that has no rule gets a new one at the end. -/
theorem handle_of_new (hparse : Selector.parse text = .ok s)
    (hindex : sheet.index[s.text]? = none) :
    (sheet.handle text).value = (.rule sheet.size, sheet.push (.ofSelector s)) := by
  simp only [handle, hparse, hindex]
  rfl

/-- Asking for a selector adds one rule at most, for a selector that had none. -/
theorem sheet_handle_eq (sheet : Stylesheet) (text : String) :
    (sheet.handle text).value.2 = sheet ∨
      ∃ s, Selector.parse text = .ok s ∧ sheet.index[s.text]? = none ∧
        (sheet.handle text).value.2 = sheet.push (.ofSelector s) := by
  cases hparse : Selector.parse text with
  | error e => exact .inl (by rw [handle_of_error hparse])
  | ok s =>
      cases hindex : sheet.index[s.text]? with
      | some slot => exact .inl (by rw [handle_of_indexed hparse hindex])
      | none => exact .inr ⟨s, rfl, hindex, by rw [handle_of_new hparse hindex]⟩

/-- What the empty sheet has, and what is kept by adding the rule of a new selector and by
replacing the style of a rule, every sheet has. -/
theorem run_induction {P : Stylesheet → Prop} (start : P empty)
    (push : ∀ sheet text s, P sheet → Selector.parse text = .ok s →
      sheet.index[s.text]? = none → P (sheet.push (.ofSelector s)))
    (put : ∀ sheet slot style, P sheet → P (sheet.putStyle slot style)) (visits : List Visit) :
    P (run visits) := by
  have handled : ∀ sheet text, P sheet → P (sheet.handle text).value.2 := by
    intro sheet text hsheet
    obtain same | ⟨s, hparse, hnew, added⟩ := sheet_handle_eq sheet text
    · rwa [same]
    · rw [added]
      exact push sheet text s hsheet hparse hnew
  have written : ∀ (h : Handle) writes sheet, P sheet →
      P (List.foldl (fun s w => s.write h w) sheet writes) := by
    intro h writes
    induction writes with
    | nil => exact fun _ hsheet => hsheet
    | cons w writes ih =>
        intro sheet hsheet
        rw [List.foldl_cons]
        apply ih
        obtain same | ⟨slot, style, -, replaced⟩ := write_eq sheet h w
        · rwa [same]
        · rw [replaced]
          exact put sheet slot style hsheet
  have visited : ∀ sheet, P sheet → P (visits.foldl visit sheet) := by
    induction visits with
    | nil => exact fun _ hsheet => hsheet
    | cons v visits ih => exact fun sheet hsheet => ih _ (written _ _ _ (handled _ v.text hsheet))
  exact visited empty start

theorem rules_push (sheet : Stylesheet) (r : Rule) : (sheet.push r).rules = sheet.rules.push r :=
  rfl

theorem getElem?_rules_putStyle (sheet : Stylesheet) (slot : Nat) (style : Style) (i : Nat) :
    (sheet.putStyle slot style).rules[i]? =
      if slot = i then (sheet.rules[i]?).map fun r => { r with style } else sheet.rules[i]? :=
  Array.getElem?_modify

end Stylesheet

/-- What a rule keeps beside its selector is the selector's. -/
structure Rule.Coherent (r : Rule) : Prop where
  text : r.text = r.selector.text
  specificity : r.specificity = r.selector.specificity

namespace Stylesheet

/-- The rules of a sheet keep the texts and specificities of their selectors. -/
def Coherent (sheet : Stylesheet) : Prop :=
  ∀ ⦃i : Nat⦄ ⦃r : Rule⦄, sheet.rules[i]? = some r → r.Coherent

theorem Coherent.push {sheet : Stylesheet} (h : sheet.Coherent) (s : Selector) :
    (sheet.push (.ofSelector s)).Coherent := by
  intro i r hr
  rw [rules_push, Array.getElem?_push] at hr
  split at hr
  · cases hr
    exact ⟨rfl, rfl⟩
  · exact h hr

theorem Coherent.putStyle {sheet : Stylesheet} (h : sheet.Coherent) (slot : Nat) (style : Style) :
    (sheet.putStyle slot style).Coherent := by
  intro i r hr
  rw [getElem?_rules_putStyle] at hr
  split at hr
  · obtain ⟨old, hold, rfl⟩ := Option.map_eq_some_iff.mp hr
    exact ⟨(h hold).text, (h hold).specificity⟩
  · exact h hr

/-- Every sheet is coherent. -/
theorem coherent_run (visits : List Visit) : (run visits).Coherent := by
  apply run_induction
  · intro i r hr
    simp [empty] at hr
  · intro sheet _ s h _ _
    exact h.push s
  · intro sheet slot style h
    exact h.putStyle slot style

end Stylesheet

/-!
## Rules are found by their texts

The index of a sheet leads from a text to the place of the rule that is written so, and to no
other place. A rule is asked for by its selector, though. That the text stands for the selector is
due to the way in which rules come into being: the selector of each has been read from a text, and
such selectors are never written alike.
-/

namespace Stylesheet

variable {sheet : Stylesheet} {text : String} {s : Selector} {slot : Nat}

/-- The index tells where the rule with a text stands, and every selector is canonical. -/
structure Indexed (sheet : Stylesheet) : Prop where
  index_iff : ∀ (key : String) (slot : Nat), sheet.index[key]? = some slot ↔
    ∃ r : Rule, sheet.rules[slot]? = some r ∧ r.text = key
  canonical : ∀ (slot : Nat) (r : Rule), sheet.rules[slot]? = some r → r.selector.Canonical

theorem getElem?_rules_push (sheet : Stylesheet) (r : Rule) (slot : Nat) :
    (sheet.push r).rules[slot]? = if slot = sheet.size then some r else sheet.rules[slot]? := by
  rw [rules_push, Array.getElem?_push]
  rfl

theorem getElem?_index_push (sheet : Stylesheet) (r : Rule) (key : String) :
    (sheet.push r).index[key]? = if r.text = key then some sheet.size else sheet.index[key]? := by
  simp only [push, Std.HashMap.getElem?_insert, beq_iff_eq]

theorem indexed_empty : Indexed empty where
  index_iff key slot := by simp [empty]
  canonical slot r hr := by simp [empty] at hr

theorem Indexed.push (h : sheet.Indexed) (hs : s.Canonical)
    (hnew : sheet.index[s.text]? = none) : (sheet.push (.ofSelector s)).Indexed where
  index_iff key slot := by
    have htext : (Rule.ofSelector s).text = s.text := rfl
    have hold : sheet.rules[sheet.size]? = none := Array.getElem?_size
    rw [getElem?_index_push, getElem?_rules_push, htext]
    by_cases hkey : s.text = key
    · subst hkey
      have hother : ¬ ∃ r, sheet.rules[slot]? = some r ∧ r.text = s.text := fun hr => by
        rw [(h.index_iff s.text slot).mpr hr] at hnew
        cases hnew
      by_cases hslot : slot = sheet.size
      · subst hslot
        simp [htext]
      · simpa [hslot, eq_comm] using hother
    · by_cases hslot : slot = sheet.size
      · subst hslot
        simpa [hkey, htext, hold] using (h.index_iff key sheet.size)
      · simpa [hkey, hslot] using h.index_iff key slot
  canonical slot r hr := by
    rw [getElem?_rules_push] at hr
    split at hr
    · cases hr
      exact hs
    · exact h.canonical slot r hr

theorem Indexed.putStyle (h : sheet.Indexed) (slot : Nat) (style : Style) :
    (sheet.putStyle slot style).Indexed where
  index_iff key slot' := by
    change sheet.index[key]? = some slot' ↔ _
    rw [h.index_iff, getElem?_rules_putStyle]
    split
    · simp [Option.map_eq_some_iff]
    · exact Iff.rfl
  canonical slot' r hr := by
    rw [getElem?_rules_putStyle] at hr
    split at hr
    · obtain ⟨old, hold, rfl⟩ := Option.map_eq_some_iff.mp hr
      exact h.canonical slot' old hold
    · exact h.canonical slot' r hr

/-- The index of every sheet is right. -/
theorem indexed_run (visits : List Visit) : (run visits).Indexed := by
  apply run_induction
  · exact indexed_empty
  · intro sheet text s h hparse hnew
    exact h.push (Selector.canonical_of_parse hparse) hnew
  · intro sheet slot style h
    exact h.putStyle slot style

/-- The rule of a selector is at the place to which the index leads from the selector's text. -/
theorem Indexed.index_text_iff (h : sheet.Indexed) (hcoherent : sheet.Coherent)
    (hs : s.Canonical) : sheet.index[s.text]? = some slot ↔
      ∃ r : Rule, sheet.rules[slot]? = some r ∧ r.selector = s := by
  rw [h.index_iff]
  constructor
  · rintro ⟨r, hr, htext⟩
    rw [(hcoherent hr).text] at htext
    exact ⟨r, hr, (h.canonical slot r hr).eq_of_text_eq hs htext⟩
  · rintro ⟨r, hr, rfl⟩
    exact ⟨r, hr, (hcoherent hr).text⟩

end Stylesheet
end StyleCascade
