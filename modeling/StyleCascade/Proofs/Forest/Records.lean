import StyleCascade.Proofs.Forest.Preorder
import StyleCascade.Proofs.Stylesheet.Climb

/-!
# What is heard of a resolution

The resolver hands the style of a component to its children, so that nothing is computed again for
them. In the result this does not show, because computing a component anew comes to the same style;
it shows in the log. A component that is computed tells of the rules that match it, so the log has
each component of the tree once, in pre-order, and closes its part with the style that it got.

Above the tree there is one climb, for the style that the root is handed. It asks a first part of
the ancestors of the root (`Shape.records_compute`), and none of them is in the tree
(`Shape.nodup_ancestors_append_preorder`).
-/

namespace StyleCascade
namespace Forest

def matchRecords (f : Forest) (sheet : Stylesheet) (id : ComponentId) : List (Severity × String) :=
  (f.lineage? id).elim [] sheet.matchRecords

/-- The records of an entry: the rules that match its component, and the style that it got. -/
def entryRecords (f : Forest) (sheet : Stylesheet) (e : StyledComponent) :
    List (Severity × String) :=
  f.matchRecords sheet e.id ++ [(.trace, "[Style] " ++
    ("resolved " ++ (f.component? e.id).elim "" Component.text ++ " -> " ++ e.style.text))]

/-- The records of the style that a component is handed from its parent. -/
def parentRecords (f : Forest) (sheet : Stylesheet) (id : ComponentId) :
    List (Severity × String) :=
  (f.parent? id).elim [] fun p => Verbosity.trace.records (f.compute sheet p).events

variable {f : Forest} {sheet : Stylesheet} {kids : ComponentId → List ComponentId}
variable {visits : List Visit} {l : Lineage} {r x : ComponentId}

/-- The part of the log that is about one component. -/
theorem records_resolutionEvents (visits : List Visit) (hx : x < f.size) :
    Verbosity.trace.records (f.resolutionEvents (Stylesheet.run visits) x) =
      f.entryRecords (Stylesheet.run visits) (f.entryUnder (Stylesheet.run visits) r x) := by
  obtain ⟨c, hc⟩ := Option.isSome_iff_exists.mp (component?_isSome.mpr hx)
  obtain ⟨l, hl⟩ := Option.isSome_iff_exists.mp (lineage?_isSome.mpr hx)
  rw [resolutionEvents, hc, hl, entryRecords, matchRecords, entryUnder, hc, hl, Option.elim_some,
    Option.elim_some, ← Stylesheet.records_cascade, Verbosity.records_trace,
    Verbosity.records_trace, List.map_append]
  rfl

namespace Shape

/-- A line of elements is seen from the components that it consists of. -/
theorem map_lineage?_ancestors (h : Shape f kids) (hl : f.lineage? x = some l) :
    (x :: f.ancestors x).map f.lineage? = l.inclusive.map some := by
  -- Along the way up each component sees what is left of the line.
  generalize hline : f.ancestors x = line
  have hparent : f.parent? x = line.head? := hline ▸ h.parent?_eq_head?_ancestors x
  induction line generalizing x l with
  | nil =>
      obtain ⟨e, above⟩ := l
      obtain rfl : above = [] := lineage?_of_root hparent hl
      rw [List.map_singleton, hl]
      rfl
  | cons p line ih =>
      obtain ⟨above, habove, hancestors⟩ := h.lineage?_of_parent hparent hl
      have rest : f.ancestors p = line := by
        rw [h.ancestors_of_parent hparent] at hline
        exact (List.cons.inj hline).2
      obtain ⟨e, _⟩ := l
      subst hancestors
      rw [List.map_cons, ih habove rest (rest ▸ h.parent?_eq_head?_ancestors p), hl,
        Lineage.inclusive_cons, List.map_cons]

/-- A climb tells of the rules that match the first components on the way up. -/
theorem records_compute (h : Shape f kids) (visits : List Visit) (hx : x < f.size) :
    ∃ k, Verbosity.trace.records (f.compute (Stylesheet.run visits) x).events =
      ((x :: f.ancestors x).take k).flatMap (f.matchRecords (Stylesheet.run visits)) := by
  obtain ⟨l, hl⟩ := Option.isSome_iff_exists.mp (lineage?_isSome.mpr hx)
  obtain ⟨k, hk⟩ := Stylesheet.exists_isLeast_reach (Stylesheet.run visits) l
  have climbed : (f.compute (Stylesheet.run visits) x).events =
      ((Stylesheet.run visits).computeStyle l).events := by
    rw [compute, hl]
    exact List.append_nil _
  refine ⟨k + 1, ?_⟩
  calc
    Verbosity.trace.records (f.compute (Stylesheet.run visits) x).events
    _ = (l.inclusive.take (k + 1)).flatMap (Stylesheet.run visits).matchRecords := by
      rw [climbed, Stylesheet.records_computeStyle hk]
    _ = ((l.inclusive.map some).take (k + 1)).flatMap
        fun o => o.elim [] (Stylesheet.run visits).matchRecords := by
      rw [← List.map_take, List.flatMap_map]
      rfl
    _ = ((x :: f.ancestors x).take (k + 1)).flatMap (f.matchRecords (Stylesheet.run visits)) := by
      rw [← h.map_lineage?_ancestors hl, ← List.map_take, List.flatMap_map]
      rfl

theorem records_parent (h : Shape f kids) (visits : List Visit) (r : ComponentId) :
    ∃ k, f.parentRecords (Stylesheet.run visits) r =
      ((f.ancestors r).take k).flatMap (f.matchRecords (Stylesheet.run visits)) := by
  rw [parentRecords]
  cases hp : f.parent? r with
  | none => exact ⟨0, rfl⟩
  | some p =>
      rw [h.ancestors_of_parent hp]
      exact h.records_compute visits ((h.below r).parent p hp)

/-- Nothing above a component is in its tree. -/
theorem nodup_ancestors_append_preorder (h : Shape f kids) (r : ComponentId) :
    (f.ancestors r ++ f.preorder r).Nodup := by
  refine List.nodup_append'.mpr
    ⟨(h.walk_ancestors r).nodup, h.nodup_preorder r, fun a habove hbelow => ?_⟩
  have under := h.mem_preorder.mp hbelow
  cases hp : f.parent? r with
  | none =>
      rw [ancestors_of_root hp] at habove
      cases habove
  | some p =>
      rw [h.ancestors_of_parent hp] at habove
      exact h.not_under_child (h.mem_children.mpr hp)
        ((h.under_iff_mem_ancestors.mpr habove).trans under)

/-- The log of a resolution: that of the style of the root's parent, and then a part for each
component of the tree in pre-order. -/
theorem records_resolve (h : Shape f kids) (visits : List Visit) (hr : r < f.size) :
    Verbosity.trace.records (f.resolve (Stylesheet.run visits) r).events =
      f.parentRecords (Stylesheet.run visits) r ++
        (f.styledTree (Stylesheet.run visits) r).components.flatMap
          (f.entryRecords (Stylesheet.run visits)) := by
  have parts : ∀ x ∈ f.preorder r,
      (f.resolutionEvents (Stylesheet.run visits) x).map Event.record =
        f.entryRecords (Stylesheet.run visits) (f.entryUnder (Stylesheet.run visits) r x) := by
    intro x hx
    rw [← Verbosity.records_trace]
    exact records_resolutionEvents visits (h.lt_of_under hr (h.mem_preorder.mp hx))
  rw [h.resolve_eq hr (h.tour_preorder r), Verbosity.records_trace, List.map_append,
    List.map_flatMap, List.flatMap_congr parts, styledTree, List.flatMap_map, parentRecords]
  cases f.parent? r with
  | none => rfl
  | some p => rw [Option.elim_some, Verbosity.records_trace]

end Shape

/-- Each component of a tree is resolved once, in pre-order. What is heard of it is, after the climb
from the parent of the root, for each component in turn the rules that match it, in the order of
their registration, and then the component and its style, which is its computed style and the one in
the result. The climb tells of ancestors of the root only, and so no component is told of twice. For
a number that is not given out nothing is heard. -/
theorem resolve_records (edits : List Edit) (visits : List Visit) (r : ComponentId) :
    (∀ x, (run edits).preorder x =
      x :: ((run edits).children x).flatMap (run edits).preorder) ∧
    ((r < (run edits).size ∧ ∃ t,
        ((run edits).resolve (Stylesheet.run visits) r).value = some t ∧
        t.components.map StyledComponent.id = (run edits).preorder r ∧
        (∀ e ∈ t.components, (∃ c, (run edits).component? e.id = some c) ∧
          ((run edits).compute (Stylesheet.run visits) e.id).value = some e.style) ∧
        Verbosity.trace.records ((run edits).resolve (Stylesheet.run visits) r).events =
          (run edits).parentRecords (Stylesheet.run visits) r ++
            t.components.flatMap ((run edits).entryRecords (Stylesheet.run visits)) ∧
        (∃ k, (run edits).parentRecords (Stylesheet.run visits) r =
          (((run edits).ancestors r).take k).flatMap
            ((run edits).matchRecords (Stylesheet.run visits))) ∧
        ((run edits).ancestors r ++ (run edits).preorder r).Nodup) ∨
      ((run edits).size ≤ r ∧ ((run edits).resolve (Stylesheet.run visits) r).value = none ∧
        ((run edits).resolve (Stylesheet.run visits) r).events = [])) := by
  obtain ⟨kids, h⟩ := shape_run edits
  refine ⟨h.preorder_eq, ?_⟩
  rcases Nat.lt_or_ge r (run edits).size with hr | hr
  · refine .inl ⟨hr, _, h.value_resolve _ hr, map_id_styledTree _ _ r, ?_,
      h.records_resolve visits hr, h.records_parent visits r, h.nodup_ancestors_append_preorder r⟩
    intro e he
    obtain ⟨x, hx, rfl⟩ := List.mem_map.mp he
    have hsize := h.lt_of_under hr (h.mem_preorder.mp hx)
    exact ⟨Option.isSome_iff_exists.mp (component?_isSome.mpr hsize), value_compute hsize⟩
  · refine .inr ⟨hr, ?_, ?_⟩
    · rw [h.resolve_of_le hr, Logged.value_pure]
    · rw [h.resolve_of_le hr, Logged.events_pure]

/-- A panel in a window, with a label in it and a rule for panels. -/
theorem resolve_records_panel :
    let panels : Visit := ⟨"panel", [.set .color (.color .white)]⟩
    let edits : List Edit :=
      [.create "window", .create "panel", .create "label", .append 0 1, .append 1 2]
    ∃ panel label : Style,
      ((run edits).compute (Stylesheet.run [panels]) 1).value = some panel ∧
      ((run edits).compute (Stylesheet.run [panels]) 2).value = some label ∧
      Verbosity.trace.records ((run edits).resolve (Stylesheet.run [panels]) 1).events =
        [(.trace, "[Style] \"panel\" matches panel (0 ancestors)"),
          (.trace, "[Style] " ++ ("resolved panel -> " ++ panel.text)),
          (.trace, "[Style] " ++ ("resolved label -> " ++ label.text))] := by
  intro panels edits
  have hname : IsCanonicalName "panel" := by decide +kernel
  have records := Stylesheet.matchRecords_run_singleton (v := panels)
    (Selector.parse_typeName hname)
  have silent : ∀ id ∈ [0, 2], (run edits).matchRecords (Stylesheet.run [panels]) id = [] := by
    simp only [matchRecords, records]
    decide +kernel
  have once : (run edits).matchRecords (Stylesheet.run [panels]) 1 =
      [(.trace, "[Style] \"panel\" matches panel (0 ancestors)")] := by
    simp only [matchRecords, records]
    decide +kernel
  obtain ⟨-, ⟨-, t, -, hids, hcomputed, heard, ⟨k, above⟩, -⟩ | ⟨hle, -⟩⟩ :=
    resolve_records edits [panels] 1
  case inr => exact absurd hle (by decide)
  have order : (run edits).preorder 1 = [1, 2] := by decide
  obtain ⟨panel, rest, entries, hpanel, hrest⟩ := List.map_eq_cons_iff.mp (hids.trans order)
  obtain ⟨label, rfl, hlabel⟩ := List.map_eq_singleton_iff.mp hrest
  rw [entries] at hcomputed heard
  refine ⟨panel.style, label.style, ?_, ?_, ?_⟩
  · rw [← hpanel]
    exact (hcomputed panel (.head _)).2
  · rw [← hlabel]
    exact (hcomputed label (.tail _ (.head _))).2
  · have climbed : (((run edits).ancestors 1).take k).flatMap
        ((run edits).matchRecords (Stylesheet.run [panels])) = [] := by
      have line : (run edits).ancestors 1 = [0] := by decide
      refine List.flatMap_eq_nil_iff.mpr fun a ha => silent a ?_
      rw [line] at ha
      rw [List.mem_singleton.mp (List.mem_of_mem_take ha)]
      exact .head _
    have wording : "resolved " ++ ((run edits).component? 1).elim "" Component.text ++ " -> " =
        "resolved panel -> " := by decide +kernel
    have wording' : "resolved " ++ ((run edits).component? 2).elim "" Component.text ++ " -> " =
        "resolved label -> " := by decide +kernel
    rw [heard, above, climbed, List.nil_append, List.flatMap_cons, List.flatMap_singleton,
      entryRecords, entryRecords, hpanel, hlabel, once, silent 2 (by decide), wording, wording']
    rfl

end Forest
end StyleCascade
