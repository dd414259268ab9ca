import StyleCascade.Proofs.Stylesheet.Run

/-!
# A sheet as a list of styles

Seen from outside, a sheet is a list of selectors, each with its style, in the order in which they
were first asked for. `Registry.visit` is what a visit does to this list. A selector that is not
there yet is entered at the end with the empty style, and all writes go to the style of the
selector that was asked for. The rules and the index of a sheet follow the list step by step
(`entries_run`), and what a text leads to can be told from the list.
-/

namespace StyleCascade

def Style.written (s : Style) : Write → Style
  | .set p v => (s.set p v).value
  | .set? p v => (s.set? p v).toOption.getD s
  | .erase p => s.erase p
  | .replace style => style

abbrev Registry := List (Selector × Style)

namespace Registry

variable {entries : Registry} {s : Selector} {style : Style} {slot : Nat} {v : Visit}

def keys (entries : Registry) : List Selector := entries.map Prod.fst

/-- Give a selector the empty style, unless it has a style. -/
def enter (entries : Registry) (s : Selector) : Registry :=
  if s ∈ entries.keys then entries else entries ++ [(s, .empty)]

def revise (entries : Registry) (s : Selector) (change : Style → Style) : Registry :=
  entries.map fun e => if e.1 = s then (s, change e.2) else e

def visit (entries : Registry) (v : Visit) : Registry :=
  match Selector.parse v.text with
  | .error _ => entries
  | .ok s => (entries.enter s).revise s (v.writes.foldl Style.written)

def run (visits : List Visit) : Registry := visits.foldl visit []

/-- The selectors that are asked for, one for each visit with a text that describes one. -/
def asked (visits : List Visit) : List Selector :=
  visits.filterMap fun v => (Selector.parse v.text).toOption

theorem run_concat (visits : List Visit) (v : Visit) :
    run (visits ++ [v]) = (run visits).visit v := by
  rw [run, List.foldl_append, List.foldl_cons, List.foldl_nil, run]

theorem keys_enter (entries : Registry) (s : Selector) :
    (entries.enter s).keys = addNew entries.keys s := by
  rw [enter, addNew]
  split
  · rfl
  · exact List.map_append

theorem keys_revise (entries : Registry) (s : Selector) (change : Style → Style) :
    (entries.revise s change).keys = entries.keys := by
  rw [keys, revise, List.map_map]
  refine List.map_congr_left fun e _ => ?_
  rw [Function.comp_apply]
  split
  next heq => exact heq.symm
  · rfl

theorem keys_foldl_visit (entries : Registry) (visits : List Visit) :
    (visits.foldl visit entries).keys = (asked visits).foldl addNew entries.keys := by
  induction visits generalizing entries with
  | nil => rfl
  | cons v visits ih =>
      rw [List.foldl_cons, ih, visit]
      cases hparse : Selector.parse v.text with
      | error e => simp [asked, hparse, Except.toOption]
      | ok s => simp [asked, hparse, Except.toOption, keys_revise, keys_enter]

/-- The selectors are those that are asked for, each where it first occurs. -/
theorem keys_run (visits : List Visit) : (run visits).keys = (asked visits).eraseDups :=
  (keys_foldl_visit [] visits).trans (foldl_addNew _)

theorem nodup_keys_run (visits : List Visit) : (run visits).keys.Nodup := by
  rw [keys_run]
  exact nodup_eraseDups _

/-- Selectors that have a style keep their places. -/
theorem prefix_keys_run_append (visits more : List Visit) :
    (run visits).keys <+: (run (visits ++ more)).keys := by
  rw [run, run, List.foldl_append, keys_foldl_visit _ more]
  exact prefix_foldl_addNew _ _

/-- A selector is entered by the visit that asks for it, and keeps its place from then on. -/
theorem prefix_keys_run (visits more : List Visit) (hs : Selector.parse v.text = .ok s) :
    addNew (run visits).keys s <+: (run (visits ++ v :: more)).keys := by
  have entered : (run (visits ++ [v])).keys = addNew (run visits).keys s := by
    simp only [run_concat, visit, hs, keys_revise, keys_enter]
  rw [← entered, List.append_cons visits v more]
  exact prefix_keys_run_append _ _

/-- A visit enters one selector at most. -/
theorem length_keys_visit_le (entries : Registry) (v : Visit) :
    (entries.visit v).keys.length ≤ entries.keys.length + 1 := by
  rw [visit]
  split
  · exact Nat.le_succ _
  · rw [keys_revise, keys_enter, addNew]
    split
    · exact Nat.le_succ _
    · rw [List.length_append, List.length_singleton]

/-- A selector that has a style has a place. -/
theorem mem_keys : s ∈ entries.keys ↔
    ∃ (slot : Nat) (style : Style), entries[slot]? = some (s, style) := by
  rw [keys, List.mem_map]
  constructor
  · rintro ⟨⟨_, style⟩, hmem, rfl⟩
    obtain ⟨slot, hslot⟩ := List.mem_iff_getElem?.mp hmem
    exact ⟨slot, style, hslot⟩
  · rintro ⟨slot, style, hslot⟩
    exact ⟨(s, style), List.mem_of_getElem? hslot, rfl⟩

theorem getElem?_keys (entries : Registry) (slot : Nat) :
    entries.keys[slot]? = entries[slot]?.map Prod.fst := List.getElem?_map ..

/-- No selector has two places. -/
theorem slot_unique {slot' : Nat} {style' : Style} (hnodup : entries.keys.Nodup)
    (h : entries[slot]? = some (s, style)) (h' : entries[slot']? = some (s, style')) :
    slot = slot' := by
  have hkey : entries.keys[slot]? = some s := by rw [getElem?_keys, h, Option.map_some]
  have hkey' : entries.keys[slot']? = some s := by rw [getElem?_keys, h', Option.map_some]
  exact (List.getElem?_inj (List.getElem?_eq_some_iff.mp hkey).1 hnodup).mp
    (hkey.trans hkey'.symm)

theorem set_same (h : entries[slot]? = some (s, style)) :
    entries.set slot (s, style) = entries := by
  obtain ⟨hlt, hget⟩ := List.getElem?_eq_some_iff.mp h
  rw [← hget, List.set_getElem_self]

/-- To change the style of a selector is to change what stands at its place. -/
theorem set_eq_revise (hnodup : entries.keys.Nodup) (h : entries[slot]? = some (s, style))
    (change : Style → Style) : entries.set slot (s, change style) = entries.revise s change := by
  apply List.ext_getElem?
  intro i
  rw [revise, List.getElem?_map, List.getElem?_set]
  by_cases hi : slot = i
  · subst hi
    rw [if_pos rfl, if_pos (List.getElem?_eq_some_iff.mp h).1, h, Option.map_some, if_pos rfl]
  · rw [if_neg hi]
    cases he : entries[i]? with
    | none => rfl
    | some e =>
        obtain ⟨t, other⟩ := e
        have hne : t ≠ s := by
          rintro rfl
          exact hi (slot_unique hnodup h he)
        rw [Option.map_some, if_neg hne]

theorem enter_of_mem (h : s ∈ entries.keys) : entries.enter s = entries := if_pos h

theorem enter_of_not_mem (h : s ∉ entries.keys) : entries.enter s = entries ++ [(s, .empty)] :=
  if_neg h

end Registry

namespace Stylesheet

variable {sheet : Stylesheet} {text : String} {s : Selector} {slot : Nat} {style : Style}
  {visits : List Visit}

def entries (sheet : Stylesheet) : Registry :=
  sheet.rules.toList.map fun r => (r.selector, r.style)

theorem length_entries (sheet : Stylesheet) : sheet.entries.length = sheet.size := by
  rw [entries, List.length_map, Array.length_toList, size]

theorem length_keys_entries (sheet : Stylesheet) : sheet.entries.keys.length = sheet.size := by
  rw [Registry.keys, List.length_map, length_entries]

theorem getElem?_entries (sheet : Stylesheet) (slot : Nat) :
    sheet.entries[slot]? = sheet.rules[slot]?.map fun r => (r.selector, r.style) := by
  rw [entries, List.getElem?_map, Array.getElem?_toList]

theorem getElem?_entries_eq_some_iff : sheet.entries[slot]? = some (s, style) ↔
    ∃ r : Rule, sheet.rules[slot]? = some r ∧ r.selector = s ∧ r.style = style := by
  rw [getElem?_entries, Option.map_eq_some_iff]
  simp only [Prod.mk.injEq]

theorem entries_push (sheet : Stylesheet) (s : Selector) :
    (sheet.push (.ofSelector s)).entries = sheet.entries ++ [(s, .empty)] := by
  rw [entries, rules_push, Array.toList_push, List.map_append]
  rfl

theorem entries_putStyle (h : sheet.entries[slot]? = some (s, style)) (new : Style) :
    (sheet.putStyle slot new).entries = sheet.entries.set slot (s, new) := by
  obtain ⟨r, hr, rfl, -⟩ := getElem?_entries_eq_some_iff.mp h
  have hlt : slot < sheet.entries.length := (List.getElem?_eq_some_iff.mp h).1
  apply List.ext_getElem?
  intro i
  rw [getElem?_entries, getElem?_rules_putStyle, List.getElem?_set]
  by_cases hi : slot = i
  · subst hi
    rw [if_pos rfl, if_pos rfl, if_pos hlt, hr, Option.map_some, Option.map_some]
  · rw [if_neg hi, if_neg hi, getElem?_entries]

theorem view_of_entry (h : sheet.entries[slot]? = some (s, style)) :
    sheet.view (.rule slot) = .own style := by
  obtain ⟨r, hr, -, rfl⟩ := getElem?_entries_eq_some_iff.mp h
  rw [view, hr, Option.map_some, Option.getD_some]

/-- A write to a rule changes its style as it changes any style. -/
theorem entries_write (h : sheet.entries[slot]? = some (s, style)) (w : Write) :
    (sheet.write (.rule slot) w).entries = sheet.entries.set slot (s, style.written w) := by
  have hread : (sheet.view (.rule slot)).style = style := by rw [view_of_entry h, StyleRef.style]
  cases w with
  | set p v =>
      rw [write, set, Logged.value_map, hread]
      exact entries_putStyle h _
  | set? p v =>
      rw [write, set?, Style.written, hread]
      cases style.set? p v with
      | error e => exact (Registry.set_same h).symm
      | ok new => exact entries_putStyle h new
  | erase p =>
      change (sheet.putStyle slot ((sheet.view (.rule slot)).style.erase p)).entries = _
      rw [hread]
      exact entries_putStyle h _
  | replace new => exact entries_putStyle h new

theorem entries_foldl_write (writes : List Write)
    (h : sheet.entries[slot]? = some (s, style)) :
    (writes.foldl (fun sheet w => sheet.write (.rule slot) w) sheet).entries =
      sheet.entries.set slot (s, writes.foldl Style.written style) := by
  induction writes generalizing sheet style with
  | nil => exact (Registry.set_same h).symm
  | cons w writes ih =>
      have hwritten := entries_write h w
      have hentry : (sheet.write (.rule slot) w).entries[slot]? = some (s, style.written w) := by
        rw [hwritten, List.getElem?_set_self (List.getElem?_eq_some_iff.mp h).1]
      rw [List.foldl_cons, List.foldl_cons, ih hentry, hwritten, List.set_set]

/-- Nothing is ever written through the dummy. -/
theorem write_dummy (sheet : Stylesheet) (w : Write) : sheet.write .dummy w = sheet := by
  cases w <;> rfl

theorem foldl_write_dummy (sheet : Stylesheet) (writes : List Write) :
    writes.foldl (fun sheet w => sheet.write .dummy w) sheet = sheet := by
  induction writes with
  | nil => rfl
  | cons w writes ih => rw [List.foldl_cons, write_dummy, ih]

/-- The index leads from the text of a selector to its place. -/
theorem index_run_iff (visits : List Visit) (hs : s.Canonical) :
    (run visits).index[s.text]? = some slot ↔
      ∃ style, (run visits).entries[slot]? = some (s, style) := by
  rw [(indexed_run visits).index_text_iff (coherent_run visits) hs]
  simp only [getElem?_entries_eq_some_iff]
  constructor
  · rintro ⟨r, hr, hselector⟩
    exact ⟨r.style, r, hr, hselector, rfl⟩
  · rintro ⟨_, r, hr, hselector, -⟩
    exact ⟨r, hr, hselector⟩

theorem index_run_eq_none (visits : List Visit) (hs : s.Canonical)
    (hnew : s ∉ (run visits).entries.keys) : (run visits).index[s.text]? = none := by
  rw [Option.eq_none_iff_forall_ne_some]
  intro slot hslot
  exact hnew (Registry.mem_keys.mpr ⟨slot, (index_run_iff visits hs).mp hslot⟩)

/-- A text that describes a selector leads to the entry of the selector, which is made if there is
none. -/
theorem exists_handle (visits : List Visit) (hparse : Selector.parse text = .ok s) :
    ∃ slot style found, ((run visits).handle text).value = (.rule slot, found) ∧
      found.entries = (run visits).entries.enter s ∧
      found.entries[slot]? = some (s, style) := by
  have hs : s.Canonical := Selector.canonical_of_parse hparse
  by_cases hmem : s ∈ (run visits).entries.keys
  · obtain ⟨slot, style, h⟩ := Registry.mem_keys.mp hmem
    exact ⟨slot, style, run visits,
      handle_of_indexed hparse ((index_run_iff visits hs).mpr ⟨style, h⟩),
      (Registry.enter_of_mem hmem).symm, h⟩
  · have hadded := entries_push (run visits) s
    refine ⟨(run visits).size, .empty, (run visits).push (.ofSelector s),
      handle_of_new hparse (index_run_eq_none visits hs hmem),
      hadded.trans (Registry.enter_of_not_mem hmem).symm, ?_⟩
    rw [hadded, ← length_entries]
    exact List.getElem?_concat_length

theorem run_concat (visits : List Visit) (v : Visit) :
    run (visits ++ [v]) = (run visits).visit v := by
  rw [run, List.foldl_append, List.foldl_cons, List.foldl_nil, run]

/-- A sheet goes through its visits as the list of its entries does. -/
theorem entries_run (visits : List Visit) : (run visits).entries = Registry.run visits := by
  induction visits using List.reverseRecOn with
  | nil => rfl
  | append_singleton visits v ih =>
      rw [run_concat, Registry.run_concat, ← ih, visit, Registry.visit]
      cases hparse : Selector.parse v.text with
      | error e =>
          rw [handle_of_error hparse]
          exact congrArg entries (foldl_write_dummy (run visits) v.writes)
      | ok s =>
          obtain ⟨slot, style, found, handled, entered, h⟩ := exists_handle visits hparse
          have hnodup : found.entries.keys.Nodup := by
            rw [entered, Registry.keys_enter, ih]
            exact nodup_addNew (Registry.nodup_keys_run visits)
          rw [handled]
          calc (v.writes.foldl (fun sheet w => sheet.write (.rule slot) w) found).entries
              = found.entries.set slot (s, v.writes.foldl Style.written style) :=
                entries_foldl_write v.writes h
            _ = found.entries.revise s (v.writes.foldl Style.written) :=
                Registry.set_eq_revise hnodup h fun old => v.writes.foldl Style.written old
            _ = ((run visits).entries.enter s).revise s (v.writes.foldl Style.written) := by
                rw [entered]

/-- A sheet that was visited once has one rule. -/
theorem rules_run_singleton {v : Visit} (hparse : Selector.parse v.text = .ok s) :
    ∃ r : Rule, (run [v]).rules.toList = [r] ∧ r.selector = s ∧
      r.style = v.writes.foldl Style.written .empty := by
  have hentries : (run [v]).entries = [(s, v.writes.foldl Style.written .empty)] := by
    rw [entries_run]
    simp [Registry.run, Registry.visit, hparse, Registry.enter, Registry.keys, Registry.revise]
  obtain ⟨r, hrules, hentry⟩ := List.map_eq_singleton_iff.mp hentries
  obtain ⟨hselector, hstyle⟩ := Prod.mk.inj hentry
  exact ⟨r, hrules, hselector, hstyle⟩

/-- No selector has two entries. -/
theorem nodup_keys_entries (visits : List Visit) : (run visits).entries.keys.Nodup := by
  rw [entries_run]
  exact Registry.nodup_keys_run visits

end Stylesheet
end StyleCascade
