import StyleCascade.Proofs.Forest.Resolution

/-!
# Values of the right kind

A property that is declared has a value of the kind that it takes, in every style that a caller can
get hold of. The check is made where a style is written; that nothing gets past it is followed from
styles to sheets, and from sheets to all that is computed from them.
-/

namespace StyleCascade

/-!
## The kinds of declared values

Whether a value is of the kind that its property takes is checked in one place, where it is
declared. All other ways to make a style move values between slots of one property, so the check
holds for good (`WellKinded`). A declared property is then read by the one typed reader of its kind,
and the other readers find nothing (`WellKinded.typedReads`).
-/

namespace Style

variable {s t : Style} {p : Property} {v : Value}

/-- Every declared value is of the kind that its property takes. -/
def WellKinded (s : Style) : Prop := ∀ p v, s.get p = some v → v.kind = p.kind

namespace WellKinded

theorem empty : WellKinded .empty := by
  intro p v hv
  rw [get_empty] at hv
  cases hv

theorem put (h : s.WellKinded) {filling : Option Value}
    (hfilling : ∀ v, filling = some v → v.kind = p.kind) : (s.put p filling).WellKinded := by
  intro q v hv
  rw [get_put] at hv
  split at hv
  next heq => exact heq ▸ hfilling v hv
  next => exact h q v hv

theorem set? (h : s.WellKinded) (ht : s.set? p v = .ok t) : t.WellKinded := by
  rw [Style.set?] at ht
  split at ht
  next fits =>
    cases ht
    refine h.put fun w hw => ?_
    cases hw
    exact fits
  next => cases ht

/-- A value of the wrong kind is dropped. -/
theorem set (h : s.WellKinded) (p : Property) (v : Value) : (s.set p v).value.WellKinded := by
  rw [Style.set]
  cases ht : s.set? p v with
  | ok t => exact h.set? ht
  | error e => exact h

theorem erase (h : s.WellKinded) (p : Property) : (s.erase p).WellKinded :=
  h.put nofun

theorem overlay (h : s.WellKinded) (ht : t.WellKinded) : (s.overlay t).WellKinded := by
  intro p v hv
  rw [get_overlay, Option.or_eq_some_iff] at hv
  rcases hv with above | ⟨-, below⟩
  · exact ht p v above
  · exact h p v below

theorem inherit (h : s.WellKinded) {parent : Style} (hparent : parent.WellKinded) :
    (s.inherit parent).WellKinded := by
  intro p v hv
  rw [get_inherit, Option.or_eq_some_iff] at hv
  rcases hv with own | ⟨-, inherited⟩
  · exact h p v own
  · split at inherited
    · exact hparent p v inherited
    · cases inherited

end WellKinded

/-! ### Typed reads -/

/-- What the typed readers give for a property of a kind that is declared with a value. -/
inductive TypedReads : ValueKind → Value → Option Color → Option Single → Option Int32 →
    Option String → Prop where
  | color (c : Color) : TypedReads .color (.color c) (some c) none none none
  | number (x : Single) : TypedReads .number (.number x) none (some x) none none
  | integer (i : Int32) : TypedReads .integer (.integer i) none none (some i) none
  | string (text : String) : TypedReads .string (.string text) none none none (some text)
  | keyword (text : String) : TypedReads .keyword (.keyword text) none none none (some text)

theorem WellKinded.typedReads (h : s.WellKinded) (hv : s.get p = some v) :
    TypedReads p.kind v (s.color? p) (s.number? p) (s.integer? p) (s.string? p) := by
  rw [color?, number?, integer?, string?, hv, ← h p v hv]
  cases v with
  | color c => exact .color c
  | number x => exact .number x
  | integer i => exact .integer i
  | string text => exact .string text
  | keyword text => exact .keyword text

end Style

/-!
## Kinds in sheets

The writes to a sheet check the kinds of values as those to a style do, unless a style is put in
place whole. So if all such styles are well-kinded, all rules are (`WellKinded.visit`), and with the
rules all that comes of them: their cascade, and the computed styles that take over from other
cascades or from a given style.
-/

namespace Stylesheet

variable {sheet : Stylesheet} {text : String} {h : Handle} {w : Write} {writes : List Write}
variable {style : Style} {parent : Option Style} {v : Visit}

def WellKinded (sheet : Stylesheet) : Prop :=
  ∀ (slot : Nat) (r : Rule), sheet.rules[slot]? = some r → r.style.WellKinded

namespace WellKinded

theorem empty : WellKinded .empty := by
  intro slot r hr
  simp [Stylesheet.empty] at hr

theorem push (kinded : sheet.WellKinded) (s : Selector) :
    (sheet.push (.ofSelector s)).WellKinded := by
  intro slot r hr
  rw [rules_push, Array.getElem?_push] at hr
  split at hr
  · cases hr
    exact .empty
  · exact kinded slot r hr

theorem putStyle (kinded : sheet.WellKinded) (hstyle : style.WellKinded) (slot : Nat) :
    (sheet.putStyle slot style).WellKinded := by
  intro i r hr
  rw [getElem?_rules_putStyle] at hr
  split at hr
  · obtain ⟨old, -, rfl⟩ := Option.map_eq_some_iff.mp hr
    exact hstyle
  · exact kinded i r hr

/-- Asking for a style adds no other rule than one without declarations. -/
theorem handle (kinded : sheet.WellKinded) (text : String) :
    (sheet.handle text).value.2.WellKinded := by
  obtain same | ⟨s, -, -, added⟩ := sheet_handle_eq sheet text
  · rwa [same]
  · rw [added]
    exact kinded.push s

theorem view (kinded : sheet.WellKinded) (h : Handle) : (sheet.view h).style.WellKinded := by
  cases h with
  | dummy => exact .empty
  | rule slot =>
      rw [Stylesheet.view, StyleRef.style]
      cases hr : sheet.rules[slot]? with
      | none => exact .empty
      | some r => exact kinded slot r hr

theorem write (kinded : sheet.WellKinded)
    (replaced : ∀ style, w = .replace style → style.WellKinded) :
    (sheet.write h w).WellKinded := by
  cases h with
  | dummy => cases w <;> exact kinded
  | rule slot =>
      have own := kinded.view (.rule slot)
      cases w with
      | set p v => exact kinded.putStyle (own.set p v) slot
      | set? p v =>
          rw [Stylesheet.write, Stylesheet.set?]
          cases hset : (sheet.view (.rule slot)).style.set? p v with
          | error e => exact kinded
          | ok style => exact kinded.putStyle (own.set? hset) slot
      | erase p => exact kinded.putStyle (own.erase p) slot
      | replace style => exact kinded.putStyle (replaced style rfl) slot

theorem foldl_write (kinded : sheet.WellKinded)
    (replaced : ∀ style, .replace style ∈ writes → style.WellKinded) :
    (writes.foldl (fun s w => s.write h w) sheet).WellKinded := by
  induction writes generalizing sheet with
  | nil => exact kinded
  | cons w writes ih =>
      refine ih (kinded.write fun style hw => replaced style ?_)
        fun style hstyle => replaced style (List.mem_cons_of_mem w hstyle)
      exact hw ▸ List.mem_cons_self

theorem visit (kinded : sheet.WellKinded)
    (replaced : ∀ style, .replace style ∈ v.writes → style.WellKinded) :
    (sheet.visit v).WellKinded :=
  (kinded.handle v.text).foldl_write replaced

theorem foldl_visit {visits : List Visit} (kinded : sheet.WellKinded)
    (replaced : ∀ v ∈ visits, ∀ style, .replace style ∈ v.writes → style.WellKinded) :
    (visits.foldl Stylesheet.visit sheet).WellKinded := by
  induction visits generalizing sheet with
  | nil => exact kinded
  | cons v visits ih =>
      exact ih (kinded.visit (replaced v List.mem_cons_self))
        fun v' hv' => replaced v' (List.mem_cons_of_mem v hv')

/-! ### Computed styles -/

theorem cascade (kinded : sheet.WellKinded) (l : Lineage) :
    (sheet.cascade l).value.WellKinded := by
  intro p v hv
  rw [get_cascade] at hv
  obtain ⟨m, hm, declared⟩ := List.exists_of_findSome?_eq_some hv
  exact kinded m.order m.rule (mem_applicable.mp (mem_layers.mp hm)).1 p v declared

theorem computeStyle (kinded : sheet.WellKinded) (l : Lineage) :
    (sheet.computeStyle l).value.WellKinded := by
  intro p v hv
  rw [get_computeStyle] at hv
  obtain ⟨a, -, declared⟩ := List.exists_of_findSome?_eq_some hv
  exact kinded.cascade a p v declared

theorem computeWithParent (kinded : sheet.WellKinded) (l : Lineage)
    (hparent : ∀ style, parent = some style → style.WellKinded) :
    (sheet.computeWithParent l parent).value.WellKinded := by
  cases parent with
  | none => exact kinded.cascade l
  | some style => exact (kinded.cascade l).inherit (hparent style rfl)

end WellKinded

theorem wellKinded_run {visits : List Visit}
    (replaced : ∀ v ∈ visits, ∀ style, .replace style ∈ v.writes → style.WellKinded) :
    (run visits).WellKinded :=
  WellKinded.empty.foldl_visit replaced

end Stylesheet

/-!
## Kinds in everything that callers get

`Style.Obtainable` lists the ways to get a style: to make one by declarations and by the operations
that combine styles, and to be given one by a sheet, which is built with styles that have been got
in these ways too. None of them leads to a value of the wrong kind
(`Style.Obtainable.read_by_kind`), since none of the operations does; for the resolver this is an
invariant of its loop.
-/

namespace Forest

variable {f : Forest} {sheet : Stylesheet} {id : ComponentId} {style : Style}
variable {parentStyle : Option Style} {t : StyledTree} {c : StyledComponent}

theorem wellKinded_resolveOne (kinded : sheet.WellKinded)
    (hparent : ∀ style, parentStyle = some style → style.WellKinded)
    (h : (f.resolveOne sheet id parentStyle).value = some style) : style.WellKinded := by
  cases hc : f.component? id with
  | none =>
      rw [resolveOne, hc] at h
      cases h
  | some c =>
      obtain ⟨l, hl⟩ := Option.isSome_iff_exists.mp
        (lineage?_isSome.mpr (component?_isSome.mp (Option.isSome_of_eq_some hc)))
      rw [resolveOne_eq hc hl] at h
      cases h
      exact kinded.computeWithParent l hparent

/-- The loop adds well-kinded styles to well-kinded ones. What is pending has no style yet, so the
invariant is about the entries only. -/
theorem wellKinded_resolvePending (kinded : sheet.WellKinded) (count : Nat) :
    ∀ (resolved : Array StyledComponent) (pending : List (ComponentId × Nat)),
      (∀ c ∈ resolved, c.style.WellKinded) →
      ∀ c ∈ (f.resolvePending sheet count resolved pending).value, c.style.WellKinded := by
  induction count with
  | zero => exact fun _ _ done => done
  | succ count ih =>
      intro resolved pending done
      cases pending with
      | nil => exact done
      | cons next pending =>
          obtain ⟨id, slot⟩ := next
          rw [resolvePending]
          cases hslot : resolved[slot]? with
          | none => exact ih resolved pending done
          | some parent =>
              have hparent : parent.style.WellKinded :=
                done parent (Array.mem_of_getElem? hslot)
              simp only [Logged.value_bind]
              cases hstep : (f.resolveOne sheet id (some parent.style)).value with
              | none => exact ih resolved pending done
              | some style =>
                  apply ih
                  intro c hc
                  rcases Array.mem_push.mp hc with hc | rfl
                  · exact done c hc
                  · refine wellKinded_resolveOne kinded (fun s hs => ?_) hstep
                    cases hs
                    exact hparent

theorem wellKinded_resolveWithParent (kinded : sheet.WellKinded)
    (hparent : ∀ style, parentStyle = some style → style.WellKinded)
    (ht : (f.resolveWithParent sheet id parentStyle).value = some t) (hc : c ∈ t.components) :
    c.style.WellKinded := by
  rw [resolveWithParent, Logged.value_bind] at ht
  cases hroot : (f.resolveOne sheet id parentStyle).value with
  | none =>
      rw [hroot] at ht
      cases ht
  | some style =>
      rw [hroot] at ht
      cases ht
      refine wellKinded_resolvePending kinded f.size #[_] _ (fun root hmem => ?_) c
        (Array.mem_toList_iff.mp hc)
      rw [Array.mem_singleton.mp hmem]
      exact wellKinded_resolveOne kinded hparent hroot

theorem wellKinded_compute (kinded : sheet.WellKinded)
    (h : (f.compute sheet id).value = some style) : style.WellKinded := by
  rw [compute] at h
  cases hl : f.lineage? id with
  | none =>
      rw [hl] at h
      cases h
  | some l =>
      rw [hl] at h
      cases h
      exact kinded.computeStyle l

theorem wellKinded_resolve (kinded : sheet.WellKinded)
    (ht : (f.resolve sheet id).value = some t) (hc : c ∈ t.components) :
    c.style.WellKinded := by
  rw [resolve] at ht
  cases hp : f.parent? id with
  | none =>
      rw [hp] at ht
      exact wellKinded_resolveWithParent kinded (fun _ hnone => by cases hnone) ht hc
  | some parent =>
      rw [hp, Logged.value_bind] at ht
      exact wellKinded_resolveWithParent kinded (fun _ => wellKinded_compute kinded) ht hc

end Forest

/-- The styles that a sheet gives to callers, where they hand in the style of a parent or none:
those of its rules, and those that are computed, for one element or for a tree of components. -/
inductive Stylesheet.Gives (sheet : Stylesheet) (parent : Option Style) : Style → Prop where
  | rule {slot : Nat} {r : Rule} : sheet.rules[slot]? = some r → Gives sheet parent r.style
  | computed (l : Lineage) : Gives sheet parent (sheet.computeStyle l).value
  | computedWithParent (l : Lineage) : Gives sheet parent (sheet.computeWithParent l parent).value
  | resolved {f : Forest} {id : ComponentId} {t : StyledTree} {c : StyledComponent} :
      (f.resolve sheet id).value = some t → c ∈ t.components → Gives sheet parent c.style
  | resolvedWithParent {f : Forest} {id : ComponentId} {t : StyledTree} {c : StyledComponent} :
      (f.resolveWithParent sheet id parent).value = some t → c ∈ t.components →
      Gives sheet parent c.style

theorem Stylesheet.WellKinded.gives {sheet : Stylesheet} {parent : Option Style} {s : Style}
    (kinded : sheet.WellKinded) (hparent : ∀ p, parent = some p → p.WellKinded)
    (h : sheet.Gives parent s) : s.WellKinded := by
  cases h with
  | rule hr => exact kinded _ _ hr
  | computed l => exact kinded.computeStyle l
  | computedWithParent l => exact kinded.computeWithParent l hparent
  | resolved ht hc => exact Forest.wellKinded_resolve kinded ht hc
  | resolvedWithParent ht hc => exact Forest.wellKinded_resolveWithParent kinded hparent ht hc

namespace Style

/-- The styles that callers can get: they make them from the empty style, combine them, or are given
them by a sheet that they have built with such styles. To copy a style, or to lay another one over a
copy, gives no more than this, and the dummy reads as the empty style. -/
inductive Obtainable : Style → Prop where
  | empty : Obtainable .empty
  | set {s : Style} (p : Property) (v : Value) : Obtainable s → Obtainable (s.set p v).value
  | set? {s t : Style} {p : Property} {v : Value} :
      Obtainable s → s.set? p v = .ok t → Obtainable t
  | erase {s : Style} (p : Property) : Obtainable s → Obtainable (s.erase p)
  | overlay {s t : Style} : Obtainable s → Obtainable t → Obtainable (s.overlay t)
  | inherit {s t : Style} : Obtainable s → Obtainable t → Obtainable (s.inherit t)
  | given {visits : List Visit} {parent : Option Style} {s : Style} :
      (∀ v ∈ visits, ∀ t, .replace t ∈ v.writes → Obtainable t) →
      (∀ t, parent = some t → Obtainable t) →
      (Stylesheet.run visits).Gives parent s → Obtainable s

variable {s : Style}

theorem Obtainable.wellKinded (h : s.Obtainable) : s.WellKinded := by
  induction h with
  | empty => exact .empty
  | set p v _ ih => exact ih.set p v
  | set? _ ht ih => exact ih.set? ht
  | erase p _ ih => exact ih.erase p
  | overlay _ _ base top => exact base.overlay top
  | inherit _ _ own parent => exact own.inherit parent
  | given _ _ hgives replaced parent =>
      exact (Stylesheet.wellKinded_run replaced).gives parent hgives

/-- However a style has been got, every value in it is of the kind that its property takes. A
property that it contains is therefore read by the reader of its kind, which gives the value, and by
no other reader. -/
theorem Obtainable.read_by_kind (h : s.Obtainable) :
    (∀ entry ∈ s.entries, entry.2.kind = entry.1.kind) ∧
    ∀ p, s.contains p = true → ∃ v, s.get p = some v ∧
      TypedReads p.kind v (s.color? p) (s.number? p) (s.integer? p) (s.string? p) := by
  refine ⟨fun entry hentry => ?_, fun p hp => ?_⟩
  · exact h.wellKinded entry.1 entry.2 (mem_entries.mp hentry)
  · obtain ⟨v, hv⟩ := Option.isSome_iff_exists.mp hp
    exact ⟨v, hv, h.wellKinded.typedReads hv⟩

/-- A label takes over the color that is handed in. The family that it would have is of the wrong
kind, and has been dropped. -/
theorem read_by_kind_label :
    let handed : Style := ((Style.empty.set .color (.color .pureRed)).value.set .fontFamily
      (.keyword "serif")).value
    let label : Forest := (Forest.empty.create "label").2
    handed.Obtainable ∧
    ∃ t, (label.resolveWithParent (Stylesheet.run []) 0 (some handed)).value = some t ∧
      ∃ c ∈ t.components, c.style.Obtainable ∧ c.style.contains .fontFamily = false ∧
        c.style.contains .color = true ∧ ∃ v, c.style.get .color = some v ∧
          TypedReads .color v (c.style.color? .color) (c.style.number? .color)
            (c.style.integer? .color) (c.style.string? .color) := by
  intro handed label
  have hhanded : handed.Obtainable :=
    .set .fontFamily (.keyword "serif") (.set .color (.color .pureRed) .empty)
  have own : ∀ l p, ((Stylesheet.run []).cascade l).value.get p = none := by
    intro l p
    have silent : (Stylesheet.run []).applicable l = [] := rfl
    rw [Stylesheet.get_cascade, Stylesheet.layers, silent, List.mergeSort_nil]
    rfl
  obtain ⟨t, ht, c, hc, l, hstyle⟩ :
      ∃ t, (label.resolveWithParent (Stylesheet.run []) 0 (some handed)).value = some t ∧
        ∃ c ∈ t.components, ∃ l, c.style = ((Stylesheet.run []).cascade l).value.inherit handed :=
    ⟨_, rfl, _, List.mem_cons_self, _, rfl⟩
  have obtained : c.style.Obtainable := by
    refine .given (fun v hv => by cases hv) (fun s hs => ?_) (.resolvedWithParent ht hc)
    cases hs
    exact hhanded
  have hfamily : c.style.contains .fontFamily = false := by
    rw [contains, hstyle, get_inherit, own]
    decide
  have hcolor : c.style.contains .color = true := by
    rw [contains, hstyle, get_inherit, own]
    decide
  exact ⟨hhanded, t, ht, c, hc, obtained, hfamily, hcolor, obtained.read_by_kind.2 .color hcolor⟩

end Style
end StyleCascade
