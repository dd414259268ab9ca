import Mathlib.Data.List.Forall2
import Mathlib.Data.List.NodupEquivFin
import Mathlib.Logic.Relation
import StyleCascade.Proofs.Selector.Canonical

/-!
# What a selector matches

A selector matches an element just if its compounds find places on the line of ancestors
(`matching_eq_placement`). Two things can be read off from places that do not show in the search: no
name and no ancestor that is added takes a match away, and a compound that asks for nothing has a
place wherever there is one.
-/

namespace StyleCascade

/-!
## Placements of the compounds of a selector

A selector asks for a place of each compound before its subject: the compound matches the
ancestor that it is placed on, and of two compounds the left one stands further up. The search
looks at one placement only, the one that takes the nearest ancestor every time.
`isSome_findAncestors` says that this loses nothing. A placement that leaves out the nearest
ancestor can be exchanged for one that takes it, since the compounds that follow may be placed
above either.
-/

namespace Selector

/-- A compound may be placed on an ancestor that it matches. -/
def Fits (c : Compound) (a : Element) : Prop := c.matchesElement a = true

/-- Compounds can be placed on a line of ancestors: each on one that it matches, and those further
left on ancestors further up. -/
def Placeable (before : List Compound) (above : List Element) : Prop :=
  ∃ place : Fin before.length → Fin above.length,
    StrictAnti place ∧ ∀ k, Fits (before.get k) (above.get (place k))

variable {cs before : List Compound} {above found : List Element}

/-- What the search finds is a choice of ancestors, one for each compound and in order. -/
theorem forall₂_of_findAncestors (h : findAncestors cs above = some found) :
    List.Forall₂ Fits cs found ∧ List.Sublist found above := by
  fun_induction findAncestors cs above generalizing found with
  | case1 above =>
      cases h
      exact ⟨.nil, List.nil_sublist above⟩
  | case2 => cases h
  | case3 c cs a above fits ih =>
      obtain ⟨others, hothers, rfl⟩ := Option.map_eq_some_iff.mp h
      obtain ⟨matched, chosen⟩ := ih hothers
      exact ⟨.cons fits matched, chosen.cons_cons a⟩
  | case4 c cs a above _ ih =>
      obtain ⟨matched, chosen⟩ := ih h
      exact ⟨matched, chosen.cons a⟩

/-- The search gives up only if there is no choice at all. -/
theorem isSome_findAncestors_of_sublist (matched : List.Forall₂ Fits cs found)
    (chosen : List.Sublist found above) : (findAncestors cs above).isSome = true := by
  fun_induction findAncestors cs above generalizing found with
  | case1 => rfl
  | case2 =>
      cases chosen
      cases matched
  | case3 c cs a above _ ih =>
      -- The first of the chosen is given up for `a`; the others stand above `a` in any case.
      cases matched with
      | cons _ others =>
          rw [Option.isSome_map]
          exact ih others chosen.of_cons_cons
  | case4 c cs a above misfit ih =>
      apply ih matched
      cases chosen with
      | cons _ chosen => exact chosen
      | cons_cons _ chosen =>
          cases matched with
          | cons fits _ => exact absurd fits misfit

/-- The nearest ancestor for each compound is as good as any. -/
theorem isSome_findAncestors :
    (findAncestors cs above).isSome = true ↔ List.SublistForall₂ Fits cs above := by
  rw [List.sublistForall₂_iff]
  constructor
  · intro h
    obtain ⟨found, hfound⟩ := Option.isSome_iff_exists.mp h
    exact ⟨found, forall₂_of_findAncestors hfound⟩
  · rintro ⟨found, matched, chosen⟩
    exact isSome_findAncestors_of_sublist matched chosen

/-- To choose related entries from a list, in order, is to place a list on it. -/
theorem sublistForall₂_iff_strictMono {α β : Type} {R : α → β → Prop} {as : List α}
    {bs : List β} :
    List.SublistForall₂ R as bs ↔ ∃ place : Fin as.length → Fin bs.length,
      StrictMono place ∧ ∀ k, R (as.get k) (bs.get (place k)) := by
  rw [List.sublistForall₂_iff]
  constructor
  · rintro ⟨chosen, related, hchosen⟩
    obtain ⟨spot, hspot⟩ := List.sublist_iff_exists_fin_orderEmbedding_get_eq.mp hchosen
    have hlen := related.length_eq
    refine ⟨fun k => spot (k.cast hlen), fun i j hij => spot.strictMono hij, fun k => ?_⟩
    rw [← hspot]
    exact (List.forall₂_iff_get.mp related).2 k k.2 (k.cast hlen).2
  · rintro ⟨place, upward, related⟩
    refine ⟨List.ofFn fun k => bs.get (place k), ?_, ?_⟩
    · rw [List.forall₂_iff_get]
      refine ⟨List.length_ofFn.symm, fun i hi _ => ?_⟩
      rw [List.get_ofFn]
      exact related ⟨i, hi⟩
    · rw [List.sublist_iff_exists_fin_orderEmbedding_get_eq]
      refine ⟨OrderEmbedding.ofStrictMono (fun i => place (i.cast List.length_ofFn))
        fun i j hij => upward hij, fun i => ?_⟩
      rw [List.get_ofFn]
      rfl

/-- The search goes through the compounds from the subject outwards, so it meets the places of a
placement in ascending order. -/
theorem sublistForall₂_reverse :
    List.SublistForall₂ Fits before.reverse above ↔ Placeable before above := by
  rw [sublistForall₂_iff_strictMono]
  have hlen : before.reverse.length = before.length := List.length_reverse
  have hget : ∀ k : Fin before.length,
      before.reverse.get (k.rev.cast hlen.symm) = before.get k := by
    intro k
    have hk : before.length - 1 - (before.length - (k + 1)) = k := by omega
    simp [hk]
  constructor
  · rintro ⟨place, upward, fits⟩
    refine ⟨fun k => place (k.rev.cast hlen.symm),
      fun i j hij => upward (Fin.rev_lt_rev.mpr hij), fun k => ?_⟩
    rw [← hget]
    exact fits _
  · rintro ⟨place, outward, fits⟩
    refine ⟨fun k => place (k.cast hlen).rev,
      fun i j hij => outward (Fin.rev_lt_rev.mpr hij), fun k => ?_⟩
    have := hget (k.cast hlen).rev
    rw [Fin.rev_rev] at this
    exact this ▸ fits _

variable {s : Selector} {l : Lineage} {subject : Compound}

theorem subject?_of_compounds (h : s.compounds = before ++ [subject]) :
    s.subject? = some subject := by
  rw [subject?, h, List.getLast?_concat]

theorem ancestors_of_compounds (h : s.compounds = before ++ [subject]) :
    s.ancestors = before.reverse := by
  rw [ancestors, h, List.dropLast_concat]

/-- A selector has a subject unless it has no compound at all. -/
theorem compounds_of_subject? (h : s.subject? = some subject) :
    ∃ before, s.compounds = before ++ [subject] := by
  obtain ⟨before, hbefore⟩ := List.getLast?_eq_some_iff.mp h
  exact ⟨before, hbefore⟩

theorem matchedAncestors?_eq_some :
    s.matchedAncestors? l = some found ↔ ∃ before subject, s.compounds = before ++ [subject] ∧
      Fits subject l.element ∧ findAncestors before.reverse l.ancestors = some found := by
  constructor
  · intro h
    unfold matchedAncestors? at h
    split at h
    · cases h
    next subject hsubject =>
      obtain ⟨before, hbefore⟩ := compounds_of_subject? hsubject
      rw [ancestors_of_compounds hbefore] at h
      obtain ⟨fits, search⟩ := Option.ite_none_right_eq_some.mp h
      exact ⟨before, subject, hbefore, fits, search⟩
  · rintro ⟨before, subject, hbefore, fits, search⟩
    rw [matchedAncestors?, subject?_of_compounds hbefore, ancestors_of_compounds hbefore]
    exact (if_pos fits).trans search

/-- A selector matches an element when its subject does and the other compounds can be placed. -/
theorem matchesLineage_iff :
    s.matchesLineage l = true ↔ ∃ before subject, s.compounds = before ++ [subject] ∧
      Fits subject l.element ∧ Placeable before l.ancestors := by
  rw [matchesLineage, Option.isSome_iff_exists]
  simp only [matchedAncestors?_eq_some]
  constructor
  · rintro ⟨found, before, subject, hbefore, fits, search⟩
    refine ⟨before, subject, hbefore, fits, sublistForall₂_reverse.mp ?_⟩
    rw [← isSome_findAncestors, search]
    rfl
  · rintro ⟨before, subject, hbefore, fits, placeable⟩
    have search := isSome_findAncestors.mpr (sublistForall₂_reverse.mpr placeable)
    obtain ⟨found, hfound⟩ := Option.isSome_iff_exists.mp search
    exact ⟨found, before, subject, hbefore, fits, hfound⟩

/-- Each compound but the subject has one ancestor. -/
theorem length_matchedAncestors? (h : s.matchedAncestors? l = some found) :
    found.length + 1 = s.length := by
  obtain ⟨before, subject, hbefore, -, search⟩ := matchedAncestors?_eq_some.mp h
  have matched := (forall₂_of_findAncestors search).1.length_eq
  rw [Selector.length, hbefore, List.length_append, ← matched, List.length_reverse]
  rfl

end Selector

/-!
## Growing surroundings

The surroundings of an element grow when it or one of its ancestors takes on a class or a
pseudo-state, and when another element comes to stand above it, anywhere on the line of ancestors.
Selectors have no way to ask that something is missing, so what matches goes on matching
(`matchesLineage_of_growth`).

The search does not go on as before. It takes the nearest ancestor that a compound matches, and that
may now be one that did not match or was not there, so that fewer ancestors are left to the
compounds that follow. It need not be followed, though. The ancestors that it found at first still
stand above the element in the same order, and with more names they match as much; so there still
is a choice, and the search gives up only if there is none (`Grown.matchesLineage`).
-/

/-- All names of an element are carried by another one of the same type. -/
structure Element.PartOf (e e' : Element) : Prop where
  typeName : e'.typeName = e.typeName
  hasClass : ∀ ⦃name⦄, e.hasClass name = true → e'.hasClass name = true
  isPseudoActive : ∀ ⦃name⦄, e.isPseudoActive name = true → e'.isPseudoActive name = true

namespace Element

variable {e e' : Element}

instance : Std.Refl PartOf where
  refl _ := ⟨rfl, fun _ h => h, fun _ h => h⟩

theorem partOf_ofNames {typeName : String} {classes classes' pseudos pseudos' : List String}
    (hclasses : classes ⊆ classes') (hpseudos : pseudos ⊆ pseudos') :
    (ofNames typeName classes pseudos).PartOf (ofNames typeName classes' pseudos') where
  typeName := rfl
  hasClass _ carried := List.contains_iff_mem.mpr (hclasses (List.contains_iff_mem.mp carried))
  isPseudoActive _ active := List.contains_iff_mem.mpr (hpseudos (List.contains_iff_mem.mp active))

/-- A compound asks only for what is there. -/
theorem PartOf.fits (h : e.PartOf e') {k : Compound} (fits : Selector.Fits k e) :
    Selector.Fits k e' := by
  simp only [Selector.Fits, Compound.matchesElement, Bool.and_eq_true, List.all_eq_true] at fits ⊢
  obtain ⟨⟨htype, hclasses⟩, hpseudos⟩ := fits
  exact ⟨⟨h.typeName ▸ htype, fun name hname => h.hasClass (hclasses name hname)⟩,
    fun name hname => h.isPseudoActive (hpseudos name hname)⟩

end Element

namespace Lineage

/-- The surroundings of an element grow in one place. -/
inductive Growth : Lineage → Lineage → Prop where
  /-- The element takes on names. -/
  | element {e e' : Element} {above : List Element} : e.PartOf e' → Growth ⟨e, above⟩ ⟨e', above⟩
  /-- One of its ancestors does. -/
  | ancestor {e a a' : Element} {near far : List Element} : a.PartOf a' →
      Growth ⟨e, near ++ a :: far⟩ ⟨e, near ++ a' :: far⟩
  /-- Another element comes to stand above it. -/
  | insert {e a : Element} {near far : List Element} :
      Growth ⟨e, near ++ far⟩ ⟨e, near ++ a :: far⟩

/-- What is in a lineage is in another one as well, in the same order, perhaps with more names. -/
structure Grown (l l' : Lineage) : Prop where
  element : l.element.PartOf l'.element
  ancestors : List.SublistForall₂ Element.PartOf l.ancestors l'.ancestors

end Lineage

/-- A choice from a list is carried over to a list that contains all of the first one. -/
theorem sublistForall₂_comp {α β γ : Type} {R : α → β → Prop} {S : β → γ → Prop}
    {T : α → γ → Prop} {as : List α} {bs : List β} {cs : List γ}
    (comp : ∀ ⦃a b c⦄, R a b → S b c → T a c) (h : List.SublistForall₂ R as bs)
    (h' : List.SublistForall₂ S bs cs) : List.SublistForall₂ T as cs := by
  induction h' generalizing as with
  | nil =>
      cases h
      exact .nil
  | cons hbc _ ih =>
      cases h with
      | nil => exact .nil
      | cons hab h => exact .cons (comp hab hbc) (ih h)
      | cons_right h => exact .cons_right (ih h)
  | cons_right _ ih => exact .cons_right (ih h)

theorem sublistForall₂_append_left {α : Type} {R : α → α → Prop} [Std.Refl R] {as bs : List α}
    (front : List α) (h : List.SublistForall₂ R as bs) :
    List.SublistForall₂ R (front ++ as) (front ++ bs) := by
  induction front with
  | nil => exact h
  | cons a front ih => exact .cons (Std.Refl.refl a) ih

namespace Lineage

variable {l l' : Lineage} {s : Selector}

theorem Growth.grown (h : Growth l l') : Grown l l' := by
  cases h with
  | element names => exact ⟨names, Std.Refl.refl _⟩
  | @ancestor _ _ _ near far names =>
      exact ⟨Std.Refl.refl _, sublistForall₂_append_left near (.cons names (Std.Refl.refl far))⟩
  | @insert _ _ near far =>
      exact ⟨Std.Refl.refl _, sublistForall₂_append_left near (.cons_right (Std.Refl.refl far))⟩

/-- The ancestors that were found are still there to be chosen. -/
theorem Grown.matchesLineage (h : Grown l l') (matched : s.matchesLineage l = true) :
    s.matchesLineage l' = true := by
  obtain ⟨before, subject, hcompounds, fits, placeable⟩ := Selector.matchesLineage_iff.mp matched
  refine Selector.matchesLineage_iff.mpr ⟨before, subject, hcompounds, h.element.fits fits, ?_⟩
  rw [← Selector.sublistForall₂_reverse] at placeable ⊢
  exact sublistForall₂_comp (fun _ _ _ fits names => names.fits fits) placeable h.ancestors

end Lineage

namespace Selector

/-- A selector that matches an element goes on matching it while the surroundings grow: whatever
names the element and its ancestors take on, and however many elements come to stand above it, of
whatever type and with whatever names, next to it, between two of its ancestors or on top. -/
theorem matchesLineage_of_growth {s : Selector} {l l' : Lineage}
    (growth : Relation.ReflTransGen Lineage.Growth l l') (matched : s.matchesLineage l = true) :
    s.matchesLineage l' = true := by
  induction growth with
  | refl => exact matched
  | tail _ step ih => exact step.grown.matchesLineage ih

/-- Above a label stand a button, of the class asked for first, and a panel of the other one. The
button takes on the other class too, and a frame with both comes between button and panel. Where the
search found the panel it now finds the frame. -/
theorem matchesLineage_label_in_frame :
    let s : Selector := ⟨[⟨none, ["b"], []⟩, ⟨none, ["a"], []⟩, ⟨some "label", [], []⟩]⟩
    let label : Element := .ofNames "label" [] []
    let panel : Element := .ofNames "panel" ["b"] []
    let frame : Element := .ofNames "frame" ["a", "b"] ["hover"]
    let l : Lineage := ⟨label, [.ofNames "button" ["a"] [], panel]⟩
    let l' : Lineage := ⟨label, [.ofNames "button" ["a", "b"] [], frame, panel]⟩
    Relation.ReflTransGen Lineage.Growth l l' ∧ s.matchesLineage l = true ∧
      s.matchesLineage l' = true := by
  intro s label panel frame l l'
  have names : Lineage.Growth l ⟨label, [.ofNames "button" ["a", "b"] [], panel]⟩ :=
    @Lineage.Growth.ancestor label _ _ [] _ (Element.partOf_ofNames (by simp) (by simp))
  have between : Lineage.Growth ⟨label, [.ofNames "button" ["a", "b"] [], panel]⟩ l' :=
    @Lineage.Growth.insert label _ [.ofNames "button" ["a", "b"] []] _
  have growth : Relation.ReflTransGen Lineage.Growth l l' := .tail (.single names) between
  have matched : s.matchesLineage l = true := by decide +kernel
  exact ⟨growth, matched, matchesLineage_of_growth growth matched⟩

end Selector

/-!
## Compounds without a test

A compound that asks for nothing gets it from every element, and no other compound does
(`isEmpty_iff_matchesElement`). Nothing in the search treats such a compound apart: as the subject
it lets any element pass, and before the subject it is content with any ancestor. Since there is an
element for every compound, a selector keeps clear of matching with an empty part only by having no
empty part (`matched_part_isEmpty_iff`). What is read from a text has none.
-/

namespace Compound

variable {k : Compound}

/-- An element as a compound wants it: of the type asked for, and with a yes to every question. -/
def model (k : Compound) : Element where
  typeName := k.typeName.getD ""
  hasClass _ := true
  isPseudoActive _ := true

/-- An element that has nothing of what a compound may ask for. -/
def stranger (k : Compound) : Element where
  typeName := k.typeName.getD "" ++ "-"
  hasClass _ := false
  isPseudoActive _ := false

theorem matchesElement_model (k : Compound) : k.matchesElement k.model = true := by
  obtain ⟨typeName, classes, pseudos⟩ := k
  cases typeName <;> simp [matchesElement, model, Text.sameName_iff]

theorem not_sameName_append (name : String) : Text.sameName (name ++ "-") name = false := by
  rw [Bool.eq_false_iff, ne_eq, Text.sameName_iff, ← String.toList_inj, Text.toList_toLower,
    Text.toList_toLower]
  intro same
  have hlength := congrArg List.length same
  simp at hlength

theorem matchesElement_stranger (k : Compound) : k.matchesElement k.stranger = k.isEmpty := by
  obtain ⟨typeName, classes, pseudos⟩ := k
  have refused : ∀ names : List String, (names.all fun _ => false) = names.isEmpty := by
    intro names
    cases names <;> rfl
  cases typeName with
  | none => simp only [matchesElement, stranger, isEmpty, refused, Option.all_none,
      Option.isNone_none]
  | some name => simp only [matchesElement, stranger, isEmpty, Option.all_some, Option.getD_some,
      not_sameName_append, Option.isNone_some, Bool.false_and]

/-- To match every element is to test nothing. -/
theorem isEmpty_iff_matchesElement :
    k.isEmpty = true ↔ ∀ e, k.matchesElement e = true := by
  constructor
  · intro h e
    rw [isEmpty_iff.mp h]
    rfl
  · intro h
    rw [← matchesElement_stranger]
    exact h k.stranger

end Compound

namespace Selector

variable {s : Selector} {l : Lineage}

/-- Every chain of compounds has its match: a line of elements that are as the compounds want
them. -/
theorem exists_matchesLineage (h : s.compounds ≠ []) : ∃ l, s.matchesLineage l = true := by
  obtain ⟨before, subject, hbefore⟩ := (List.eq_nil_or_concat' s.compounds).resolve_left h
  refine ⟨⟨subject.model, before.reverse.map Compound.model⟩, matchesLineage_iff.mpr
    ⟨before, subject, hbefore, subject.matchesElement_model, sublistForall₂_reverse.mp ?_⟩⟩
  refine List.sublistForall₂_iff.mpr ⟨_, ?_, List.Sublist.refl _⟩
  rw [List.forall₂_map_right_iff, List.forall₂_same]
  exact fun k _ => k.matchesElement_model

theorem ne_nil_of_matchesLineage (h : s.matchesLineage l = true) : s.compounds ≠ [] := by
  obtain ⟨before, subject, hbefore, -⟩ := matchesLineage_iff.mp h
  rw [hbefore]
  exact List.concat_ne_nil subject before

/-- A selector that matches has a compound. That none of its compounds is empty does not follow: the
selectors of which this is true whatever they match are those without an empty compound, as all that
are read from texts. An empty compound is no test, and is passed by every element. -/
theorem matched_part_isEmpty_iff (s : Selector) :
    (∀ l, s.matchesLineage l = true → s.compounds ≠ []) ∧
    ((∀ l, s.matchesLineage l = true → ∀ k ∈ s.compounds, k.isEmpty = false) ↔
      ∀ k ∈ s.compounds, k.isEmpty = false) ∧
    (∀ k : Compound, k.isEmpty = true ↔ ∀ e, k.matchesElement e = true) ∧
    ∀ text, parse text = .ok s → ∀ k ∈ s.compounds, k.isEmpty = false := by
  refine ⟨fun l => ne_nil_of_matchesLineage, ?matched, fun k => Compound.isEmpty_iff_matchesElement,
    ?read⟩
  case matched =>
    refine ⟨fun h k hk => ?_, fun h _ _ => h⟩
    obtain ⟨l, hl⟩ := exists_matchesLineage (List.ne_nil_of_mem hk)
    exact h l hl k hk
  case read =>
    intro text hparse k hk
    exact ((canonical_of_parse hparse).compounds k hk).isEmpty

/-- The selector of one empty compound matches a button that stands alone. -/
theorem empty_compound_matches :
    ∃ (s : Selector) (l : Lineage), s.matchesLineage l = true ∧
      ¬ (s.compounds ≠ [] ∧ ∀ k ∈ s.compounds, k.isEmpty = false) := by
  refine ⟨⟨[.empty]⟩, ⟨.ofNames "button" [] [], []⟩, by decide, fun tested => ?_⟩
  have hempty : Compound.empty.isEmpty = false := tested.2 .empty (List.mem_singleton.mpr rfl)
  cases hempty

end Selector
end StyleCascade
