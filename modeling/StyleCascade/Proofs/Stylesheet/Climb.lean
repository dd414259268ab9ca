import Mathlib.Order.Bounds.Basic
import StyleCascade.Proofs.Stylesheet.Inheritance
import StyleCascade.Proofs.Stylesheet.Registry

/-!
# How far a climb goes

The style of an element is computed by a climb along its ancestors that stops as soon as nothing can
be missing any more. The stop does not show in the style, but in the log: there is one record for
each rule that matches an element of the line, up to the last one that was needed, and none for the
elements above (`computeStyle_reach`). It is asked before every step, so the climb goes up to the
first element where it has been told of every inherited property.

To say that the elements above are not even looked at, the cascade is made a parameter of the climb.
Whatever is put in its place is asked for the elements up to this one, each once and in turn, and
for no other (`computeBy_eq`).
-/

namespace StyleCascade

/-! ### Records -/

/-- The record of an event, as a listener gets it. -/
def Event.record (e : Event) : Severity × String := (e.severity, e.message)

def Verbosity.records (v : Verbosity) (events : List Event) : List (Severity × String) :=
  (v.filter events).map Event.record

/-- At the lowest level everything is heard. -/
theorem Verbosity.records_trace (events : List Event) :
    trace.records events = events.map Event.record := by
  simp [records, filter, admits]

namespace Stylesheet

variable {sheet : Stylesheet} {own own' : Lineage → Logged Style} {s : Style} {l a : Lineage}
variable {ls : List Lineage} {p : Property} {k : Nat}

def matchRecord (s : Selector) (l : Lineage) : Severity × String :=
  (.trace, "[Style] " ++ (Text.quote s.text ++ " matches " ++ l.element.typeName ++
    " (" ++ (s.length - 1).repr ++ " ancestors)"))

/-- One record for every rule that matches an element, in the order of their registration. -/
def matchRecords (sheet : Stylesheet) (l : Lineage) : List (Severity × String) :=
  (sheet.rules.toList.filter fun r => r.selector.matchesLineage l).map fun r =>
    matchRecord r.selector l

/-- The selectors decide what is recorded, each at the place where it was first asked for. -/
theorem matchRecords_run (visits : List Visit) : (run visits).matchRecords = fun l =>
    ((Registry.asked visits).eraseDups.filter fun s => s.matchesLineage l).map fun s =>
      matchRecord s l := by
  have keys : (run visits).rules.toList.map Rule.selector = (Registry.asked visits).eraseDups := by
    rw [← Registry.keys_run, ← entries_run, Registry.keys, entries, List.map_map]
    rfl
  funext l
  rw [← keys, List.filter_map, List.map_map]
  rfl

/-- A sheet that was visited once has a record of its one selector, where this matches. -/
theorem matchRecords_run_singleton {v : Visit} {s : Selector}
    (hparse : Selector.parse v.text = .ok s) : (run [v]).matchRecords = fun l =>
      if s.matchesLineage l then [matchRecord s l] else [] := by
  obtain ⟨r, hrules, rfl, -⟩ := rules_run_singleton hparse
  funext l
  rw [matchRecords, hrules, List.filter_cons, List.filter_nil]
  split <;> rfl

theorem events_cascade (sheet : Stylesheet) (l : Lineage) :
    (sheet.cascade l).events = (sheet.matchingRules l).events := by
  rw [cascade, Logged.events_bind, Logged.events_pure, List.append_nil]

/-- In a sheet that has a history the rules are recorded by the texts of their selectors. -/
theorem records_cascade (visits : List Visit) (l : Lineage) :
    Verbosity.trace.records ((run visits).cascade l).events = (run visits).matchRecords l := by
  rw [Verbosity.records_trace, events_cascade, events_matchingRules, List.map_map, matchRecords]
  refine List.map_congr_left fun r hr => ?_
  obtain ⟨i, hi⟩ := List.mem_iff_getElem?.mp (List.mem_filter.mp hr).1
  have hrule : (run visits).rules[i]? = some r := Array.getElem?_toList.symm.trans hi
  have text : r.text = r.selector.text := (coherent_run visits hrule).text
  rw [Function.comp_apply, text]
  rfl

/-! ### The climb -/

/-- The climb, with the cascade replaced by what is asked for an element. -/
def climbBy (own : Lineage → Logged Style) : Style → List Lineage → Logged Style
  | s, [] => pure s
  | s, a :: above =>
    if s.missesInherited then do
      let declared ← own a
      climbBy own (s.inherit declared) above
    else pure s

/-- The computed style of an element, with the cascade replaced by what is asked for an element. -/
def computeBy (own : Lineage → Logged Style) (l : Lineage) : Logged Style := do
  let declared ← own l
  climbBy own declared (Lineage.ofAncestors l.ancestors)

theorem climb_eq_climbBy (sheet : Stylesheet) (s : Style) (above : List Element) :
    sheet.climb s above = climbBy sheet.cascade s (Lineage.ofAncestors above) := by
  induction above generalizing s with
  | nil => rfl
  | cons a above ih =>
      rw [climb, Lineage.ofAncestors, climbBy]
      simp only [ih]

theorem computeStyle_eq_computeBy (sheet : Stylesheet) (l : Lineage) :
    sheet.computeStyle l = computeBy sheet.cascade l := by
  simp only [computeStyle, computeBy, climb_eq_climbBy]

/-- Every inherited property is declared by a style or for an element of a line. -/
def Covered (own : Lineage → Logged Style) (s : Style) (ls : List Lineage) : Prop :=
  ∀ p : Property, p.isInherited = true →
    (s.get p).isSome = true ∨ ∃ a ∈ ls, ((own a).value.get p).isSome = true

theorem covered_nil : Covered own s [] ↔ s.missesInherited = false := by
  simp [Covered, Style.missesInherited_eq_false]

theorem covered_cons : Covered own s (a :: ls) ↔ Covered own (s.inherit (own a).value) ls := by
  refine forall₂_congr fun p hp => ?_
  simp only [Style.get_inherit, if_pos hp, Option.isSome_or, Bool.or_eq_true, List.mem_cons,
    exists_eq_or_imp, or_assoc]

/-- The places on a line where a climb can stop: where all is covered, and at the end. -/
def stops (own : Lineage → Logged Style) (s : Style) (ls : List Lineage) : Set Nat :=
  {k | Covered own s (ls.take k) ∨ k = ls.length}

theorem succ_mem_stops_cons : k + 1 ∈ stops own s (a :: ls) ↔
    k ∈ stops own (s.inherit (own a).value) ls := by
  simp [stops, covered_cons]

/-- A climb goes up to the first place where it can stop. -/
theorem climbBy_eq (h : IsLeast (stops own s ls) k) : climbBy own s ls =
    { value := (ls.take k).foldl (fun s a => s.inherit (own a).value) s
      events := (ls.take k).flatMap fun a => (own a).events } := by
  induction ls generalizing s k with
  | nil =>
      obtain rfl : k = 0 := Nat.le_zero.mp (h.2 (.inr rfl))
      rfl
  | cons a ls ih =>
      rw [climbBy]
      cases hmisses : s.missesInherited with
      | false =>
          obtain rfl : k = 0 := Nat.le_zero.mp (h.2 (.inl (covered_nil.mpr hmisses)))
          rfl
      | true =>
          cases k with
          | zero =>
              obtain covered | hlength := h.1
              · rw [covered_nil.mp covered] at hmisses
                cases hmisses
              · cases hlength
          | succ k =>
              have hk : IsLeast (stops own (s.inherit (own a).value) ls) k := by
                refine ⟨succ_mem_stops_cons.mp h.1, fun j hj => ?_⟩
                exact Nat.le_of_succ_le_succ (h.2 (succ_mem_stops_cons.mpr hj))
              change Logged.mk (climbBy own (s.inherit (own a).value) ls).value
                ((own a).events ++ (climbBy own (s.inherit (own a).value) ls).events) = _
              rw [ih hk]
              rfl

/-- Nothing else counts for where a climb stops than what is asked up to there. -/
theorem isLeast_stops_congr (h : IsLeast (stops own s ls) k)
    (same : ∀ a ∈ ls.take k, (own' a).value = (own a).value) : IsLeast (stops own' s ls) k := by
  have agree : ∀ j ≤ k, j ∈ stops own' s ls ↔ j ∈ stops own s ls := by
    intro j hj
    refine or_congr_left (forall₂_congr fun p _ => or_congr_right (exists_congr fun a => ?_))
    refine and_congr_right fun ha => ?_
    rw [same a (List.take_subset_take_left ls hj ha)]
  refine ⟨(agree k le_rfl).mpr h.1, fun j hj => ?_⟩
  rcases Nat.le_total k j with hkj | hjk
  · exact hkj
  · exact h.2 ((agree j hjk).mp hj)

theorem exists_isLeast_stops (own : Lineage → Logged Style) (s : Style) (ls : List Lineage) :
    ∃ k, IsLeast (stops own s ls) k := by
  classical
  have ends : ∃ k, k ∈ stops own s ls := ⟨ls.length, .inr rfl⟩
  exact ⟨Nat.find ends, Nat.find_spec ends, fun _ hj => Nat.find_min' ends hj⟩

theorem length_ofAncestors (above : List Element) :
    (Lineage.ofAncestors above).length = above.length := by
  induction above with
  | nil => rfl
  | cons a above ih => rw [Lineage.ofAncestors, List.length_cons, ih, List.length_cons]

/-- Every inherited property is declared by some rule that matches an element of a line. -/
def DeclaresInherited (sheet : Stylesheet) (ls : List Lineage) : Prop :=
  ∀ p : Property, p.isInherited = true → ∃ a ∈ ls, ∃ r ∈ sheet.rules.toList,
    r.selector.matchesLineage a = true ∧ (r.style.get p).isSome = true

theorem isSome_get_cascade_iff : ((sheet.cascade a).value.get p).isSome = true ↔
    ∃ r ∈ sheet.rules.toList, r.selector.matchesLineage a = true ∧
      (r.style.get p).isSome = true := by
  have silent : (∀ m ∈ sheet.applicable a, m.rule.style.get p = none) ↔
      ∀ r ∈ (sheet.applicable a).map MatchedRule.rule, r.style.get p = none := by simp
  rw [← not_iff_not, Option.not_isSome_iff_eq_none, get_cascade_eq_none, silent,
    map_rule_applicable]
  simp

/-- A climb stops where the rules have declared every inherited property, or at the root. -/
theorem stops_cascade (sheet : Stylesheet) (l : Lineage) :
    stops sheet.cascade (sheet.cascade l).value (Lineage.ofAncestors l.ancestors) =
      {k | sheet.DeclaresInherited (l.inclusive.take (k + 1)) ∨ k = l.ancestors.length} := by
  ext k
  refine or_congr (forall₂_congr fun p _ => ?_) (by rw [length_ofAncestors])
  rw [Lineage.inclusive, List.take_succ_cons]
  simp only [List.mem_cons, exists_eq_or_imp, isSome_get_cascade_iff]

/-- Whatever is put in the place of the cascade is asked for the elements up to the place where the
climb stops, each once and in turn, if it gives the same declarations for them. -/
theorem computeBy_eq
    (h : IsLeast {k | sheet.DeclaresInherited (l.inclusive.take (k + 1)) ∨
      k = l.ancestors.length} k)
    (same : ∀ a ∈ l.inclusive.take (k + 1), (own a).value = (sheet.cascade a).value) :
    computeBy own l =
      { value := (sheet.computeStyle l).value
        events := (l.inclusive.take (k + 1)).flatMap fun a => (own a).events } := by
  rw [← stops_cascade] at h
  rw [Lineage.inclusive, List.take_succ_cons] at same ⊢
  obtain ⟨first, others⟩ := List.forall_mem_cons.mp same
  have climbed := climbBy_eq (isLeast_stops_congr h others)
  have value : (sheet.computeStyle l).value = (climbBy own (sheet.cascade l).value
      (Lineage.ofAncestors l.ancestors)).value := by
    rw [computeStyle_eq_computeBy, climbed]
    change (climbBy sheet.cascade _ _).value = _
    rw [climbBy_eq h]
    exact List.foldl_ext _ _ _ fun s a ha => by rw [others a ha]
  change Logged.mk (climbBy own (own l).value (Lineage.ofAncestors l.ancestors)).value
    ((own l).events ++ (climbBy own (own l).value (Lineage.ofAncestors l.ancestors)).events) = _
  rw [first, value, climbed, List.flatMap_cons]

/-- The last element of a line that a climb asks for its declarations. -/
theorem exists_isLeast_reach (sheet : Stylesheet) (l : Lineage) :
    ∃ k, IsLeast {k | sheet.DeclaresInherited (l.inclusive.take (k + 1)) ∨
      k = l.ancestors.length} k := by
  rw [← stops_cascade]
  exact exists_isLeast_stops _ _ _

/-- What is heard of a climb are the rules that match the elements that it asks. -/
theorem records_computeStyle {visits : List Visit}
    (h : IsLeast {k | (run visits).DeclaresInherited (l.inclusive.take (k + 1)) ∨
      k = l.ancestors.length} k) :
    Verbosity.trace.records ((run visits).computeStyle l).events =
      (l.inclusive.take (k + 1)).flatMap (run visits).matchRecords := by
  rw [computeStyle_eq_computeBy, computeBy_eq h fun _ _ => rfl, Verbosity.records_trace,
    List.map_flatMap]
  simp only [← Verbosity.records_trace, records_cascade]

/-- The climb goes up to the first element where every inherited property has been declared by some
rule that matches an element of the line so far, and otherwise to the root. What is heard of it are
the rules that match these elements, element by element and in the order of their registration. No
element further up is asked for its declarations. -/
theorem computeStyle_reach (visits : List Visit) (l : Lineage) :
    (run visits).computeStyle l = computeBy (run visits).cascade l ∧
    ∃ k, IsLeast {k | (run visits).DeclaresInherited (l.inclusive.take (k + 1)) ∨
        k = l.ancestors.length} k ∧
      Verbosity.trace.records ((run visits).computeStyle l).events =
        (l.inclusive.take (k + 1)).flatMap (run visits).matchRecords ∧
      ∀ own : Lineage → Logged Style,
        (∀ a ∈ l.inclusive.take (k + 1), (own a).value = ((run visits).cascade a).value) →
        computeBy own l =
          { value := ((run visits).computeStyle l).value
            events := (l.inclusive.take (k + 1)).flatMap fun a => (own a).events } := by
  obtain ⟨k, hk⟩ := exists_isLeast_reach (run visits) l
  exact ⟨computeStyle_eq_computeBy _ l, k, hk, records_computeStyle hk,
    fun _ same => computeBy_eq hk same⟩

/-- A label in a panel in a window, with a rule for panels that declares all that is inherited. The
window is not looked at. -/
theorem computeStyle_reach_panel :
    let panels : Visit := ⟨"panel", [.set .color (.color .white),
      .set .fontFamily (.string "Mono"), .set .fontSize (.number ⟨0⟩),
      .set .fontWeight (.integer 400), .set .lineHeight (.number ⟨0⟩),
      .set .letterSpacing (.number ⟨0⟩), .set .textAlign (.keyword "left"),
      .set .visibility (.keyword "visible")]⟩
    let panel : Lineage := ⟨.ofNames "panel" [] [], [.ofNames "window" [] []]⟩
    let label : Lineage := ⟨.ofNames "label" [] [], panel.element :: panel.ancestors⟩
    Verbosity.trace.records ((run [panels]).computeStyle label).events =
      [(.trace, "[Style] \"panel\" matches panel (0 ancestors)")] ∧
    ∀ own : Lineage → Logged Style,
      (∀ a ∈ [label, panel], (own a).value = ((run [panels]).cascade a).value) →
      (computeBy own label).events = (own label).events ++ (own panel).events := by
  intro panels panel label
  have hname : IsCanonicalName "panel" := by decide +kernel
  have hparse := Selector.parse_typeName hname
  obtain ⟨r, hrules, hselector, hstyle⟩ := rules_run_singleton (v := panels) hparse
  have hdeclares : ∀ p ∈ Property.inherited, (r.style.get p).isSome = true := by
    rw [hstyle]
    decide +kernel
  have fits : r.selector.matchesLineage panel = true := by
    rw [hselector]
    decide +kernel
  have apart : r.selector.matchesLineage label = false := by
    rw [hselector]
    decide +kernel
  obtain ⟨-, k, hk, heard, asked⟩ := computeStyle_reach [panels] label
  obtain rfl : k = 1 := by
    refine hk.unique ⟨.inl fun p hp => ?_, ?_⟩
    · have declared := hdeclares p (Property.mem_inherited.mpr hp)
      exact ⟨panel, .tail _ (.head _), r, hrules ▸ .head _, fits, declared⟩
    · rintro j (declared | hj)
      · rcases Nat.eq_zero_or_pos j with rfl | hj
        · obtain ⟨a, ha, r', hr', hmatches, -⟩ := declared .color rfl
          obtain rfl : a = label := List.mem_singleton.mp ha
          obtain rfl : r' = r := List.mem_singleton.mp (hrules ▸ hr')
          rw [apart] at hmatches
          cases hmatches
        · exact hj
      · rw [hj]
        decide
  have records := matchRecords_run_singleton (v := panels) hparse
  have silent : (run [panels]).matchRecords label = [] := by
    rw [records]
    decide +kernel
  have once : (run [panels]).matchRecords panel =
      [(.trace, "[Style] \"panel\" matches panel (0 ancestors)")] := by
    rw [records]
    decide +kernel
  refine ⟨?_, fun own same => ?_⟩
  · rw [heard]
    change (run [panels]).matchRecords label ++ ((run [panels]).matchRecords panel ++ []) = _
    rw [silent, once]
    rfl
  · rw [asked own same]
    change (own label).events ++ ((own panel).events ++ []) = _
    rw [List.append_nil]

end Stylesheet
end StyleCascade
