import Mathlib.Algebra.Order.BigOperators.Group.List
import Mathlib.Algebra.Order.Group.Nat
import Mathlib.Algebra.Ring.Nat
import Mathlib.Data.List.Perm.Subperm
import Mathlib.Data.Set.Basic
import Mathlib.Order.Lattice
import StyleCascade.Proofs.Selector.Matching

/-!
# Selectors that ask for more

Selectors are compared in two ways, by what they match and by their specificity. A selector that
asks for more than another one matches less and counts more, and selectors that ask for the same
have the same effect.
-/

namespace StyleCascade

/-!
## Counting the tests of a selector

A specificity is counted compound by compound, and every sum on the way is cut at the limit. The
result is the same as to count without a limit and to cut once at the end (`specificity_eq`), so
the order of two selectors is that of their exact counts for as long as these are within the
limit.
-/

namespace Specificity

def capped (c : Specificity) : Specificity where
  classes := min limit c.classes
  types := min limit c.types
  compounds := min limit c.compounds

structure Within (c : Specificity) : Prop where
  classes : c.classes ≤ limit
  types : c.types ≤ limit
  compounds : c.compounds ≤ limit

theorem Within.capped_eq {c : Specificity} (h : c.Within) : c.capped = c := by
  rw [capped, min_eq_right h.classes, min_eq_right h.types, min_eq_right h.compounds]

/-- The first count in which two specificities differ is the one that orders them. -/
theorem compare_eq_lt {c d : Specificity} :
    compare c d = .lt ↔ c.classes < d.classes ∨ c.classes = d.classes ∧
      (c.types < d.types ∨ c.types = d.types ∧ c.compounds < d.compounds) := by
  change (compare c.classes d.classes).then
    ((compare c.types d.types).then (compare c.compounds d.compounds)) = .lt ↔ _
  simp only [Ordering.then_eq_lt, Nat.compare_eq_lt, Nat.compare_eq_eq]

theorem compare_eq_eq {c d : Specificity} : compare c d = .eq ↔ c = d := by
  obtain ⟨classes, types, compounds⟩ := c
  obtain ⟨classes', types', compounds'⟩ := d
  change (compare classes classes').then
    ((compare types types').then (compare compounds compounds')) = .eq ↔ _
  simp only [Ordering.then_eq_eq, Nat.compare_eq_eq, mk.injEq]

end Specificity

def Compound.classTests (k : Compound) : Nat := k.classes.length + k.pseudos.length

def Compound.typeTests (k : Compound) : Nat := if k.typeName.isSome then 1 else 0

namespace Selector

variable {s t : Selector}

/-- The counts of a selector, without a limit. -/
def counts (s : Selector) : Specificity where
  classes := (s.compounds.map Compound.classTests).sum
  types := (s.compounds.map Compound.typeTests).sum
  compounds := s.compounds.length

def tests (s : Selector) : Nat := s.counts.classes + s.counts.types

theorem foldl_count (ks : List Compound) (c : Specificity) :
    ks.foldl Specificity.count c.capped =
      Specificity.capped ⟨c.classes + (ks.map Compound.classTests).sum,
        c.types + (ks.map Compound.typeTests).sum, c.compounds + ks.length⟩ := by
  induction ks generalizing c with
  | nil => rfl
  | cons k ks ih =>
      have step : c.capped.count k = Specificity.capped
          ⟨c.classes + k.classTests, c.types + k.typeTests, c.compounds + 1⟩ := by
        simp only [Specificity.count, Specificity.capped, Specificity.addCount,
          Compound.classTests, Compound.typeTests, Specificity.mk.injEq]
        omega
      rw [List.foldl_cons, step, ih, List.map_cons, List.map_cons, List.sum_cons, List.sum_cons,
        List.length_cons, Nat.add_assoc, Nat.add_assoc, Nat.add_assoc, Nat.add_comm 1]

/-- To cut every sum at the limit has the same result as to cut the exact counts. -/
theorem specificity_eq (s : Selector) : s.specificity = s.counts.capped := by
  refine (foldl_count s.compounds {}).trans ?_
  simp only [counts, Nat.zero_add]

end Selector

/-!
## Refinement of selectors

A selector is refined by adding tests to its compounds and compounds before its subject. What the
refined selector matches, the first one matches as well: a placement of the refined compounds,
after the way in which the first ones sit among them, is a placement of the first ones.

The counts only grow in this, and where one of them grows within the limit the refined selector is
the more specific one (`Refines.compare_specificity`). The counts of the first selector are of
different tests because none of its tests is repeated; in a selector that is not canonical,
`.a.a` is refined by `.a`.
-/

/-- A compound carries every test of another one. -/
structure Compound.Carries (k' k : Compound) : Prop where
  typeName : ∀ name, k.typeName = some name → k'.typeName = some name
  names : ∀ kind, k.names kind ⊆ k'.names kind

namespace Compound

variable {k k' : Compound}

theorem Carries.matchesElement (h : k'.Carries k) {e : Element}
    (fits : k'.matchesElement e = true) : k.matchesElement e = true := by
  simp only [Compound.matchesElement, Bool.and_eq_true, Option.all_eq_true, List.all_eq_true]
    at fits ⊢
  obtain ⟨⟨htype, hclasses⟩, hpseudos⟩ := fits
  refine ⟨⟨fun name hname => htype name (h.typeName name hname), fun name hname => ?_⟩,
    fun name hname => ?_⟩
  · exact hclasses name (h.names .classTest hname)
  · exact hpseudos name (h.names .pseudoTest hname)

theorem Carries.classTests_le (h : k'.Carries k) (hk : k.Tidy) : k.classTests ≤ k'.classTests :=
  Nat.add_le_add ((hk.nodup .classTest).subperm (h.names .classTest)).length_le
    ((hk.nodup .pseudoTest).subperm (h.names .pseudoTest)).length_le

theorem Carries.typeTests_le (h : k'.Carries k) : k.typeTests ≤ k'.typeTests := by
  rw [typeTests, typeTests]
  cases hk : k.typeName with
  | none => exact Nat.zero_le _
  | some name => rw [h.typeName name hk]

end Compound

namespace Selector

variable {s t : Selector} {l : Lineage}

/-- A selector refines another one. The compounds of the other one have their places among its own,
in their order and the subject at the subject, and every compound carries the tests of the one
that has its place there. -/
def Refines (t s : Selector) : Prop :=
  ∃ place : Fin s.compounds.length → Fin t.compounds.length, StrictMono place ∧
    (∀ k, (t.compounds.get (place k)).Carries (s.compounds.get k)) ∧
    ∀ k, k.val + 1 = s.compounds.length → (place k).val + 1 = t.compounds.length

/-- The compounds before the subject have their places before the subject. -/
theorem Refines.split {before : List Compound} {subject : Compound} (h : t.Refines s)
    (hs : s.compounds = before ++ [subject]) :
    ∃ before' subject', t.compounds = before' ++ [subject'] ∧ subject'.Carries subject ∧
      ∃ place : Fin before.length → Fin before'.length, StrictMono place ∧
        ∀ k, (before'.get (place k)).Carries (before.get k) := by
  obtain ⟨compounds⟩ := s
  obtain ⟨compounds'⟩ := t
  obtain rfl : compounds = before ++ [subject] := hs
  obtain ⟨place, upward, carries, last_last⟩ := h
  have hlength : before.length < (before ++ [subject]).length := by simp
  have hlast := last_last ⟨before.length, hlength⟩ (by simp)
  obtain ⟨before', subject', rfl⟩ := (List.eq_nil_or_concat' compounds').resolve_left fun hnil => by
    simp [hnil] at hlast
  have hplace : (place ⟨before.length, hlength⟩).val = before'.length := by
    simpa using hlast
  have hbefore : ∀ k : Fin before.length,
      (place ⟨k, k.2.trans hlength⟩).val < before'.length := by
    intro k
    rw [← hplace]
    exact upward k.2
  refine ⟨before', subject', rfl, ?_, fun k => ⟨place ⟨k, k.2.trans hlength⟩, hbefore k⟩,
    fun i j hij => upward hij, fun k => ?_⟩
  · simpa [hplace] using carries ⟨before.length, hlength⟩
  · simpa [List.getElem_append_left, hbefore k] using carries ⟨k, k.2.trans hlength⟩

/-- Whatever a selector matches is matched by those that it refines. -/
theorem Refines.matchesLineage (h : t.Refines s) (hs : s.compounds ≠ [])
    (ht : t.matchesLineage l = true) : s.matchesLineage l = true := by
  obtain ⟨before, subject, hcompounds⟩ :=
    (List.eq_nil_or_concat' s.compounds).resolve_left hs
  obtain ⟨before', subject', hcompounds', hsubject, inner, hinner, hcarries⟩ :=
    h.split hcompounds
  obtain ⟨_, _, heq, fits, outer, houter, hfits⟩ := matchesLineage_iff.mp ht
  obtain ⟨rfl, rfl⟩ := List.append_singleton_inj.mp (hcompounds'.symm.trans heq)
  refine matchesLineage_iff.mpr ⟨before, subject, hcompounds, hsubject.matchesElement fits,
    outer ∘ inner, houter.comp_strictMono hinner, fun k => ?_⟩
  exact (hcarries k).matchesElement (hfits (inner k))

theorem Refines.sum_le (h : t.Refines s) (f : Compound → Nat)
    (hle : ∀ k ∈ s.compounds, ∀ k' : Compound, k'.Carries k → f k ≤ f k') :
    (s.compounds.map f).sum ≤ (t.compounds.map f).sum := by
  obtain ⟨place, upward, carries, -⟩ := h
  have chosen : List.SublistForall₂ (fun k k' => f k ≤ f k') s.compounds t.compounds :=
    sublistForall₂_iff_strictMono.mpr
      ⟨place, upward, fun k => hle _ (List.get_mem _ k) _ (carries k)⟩
  apply List.SublistForall₂.sum_le_sum
  · rwa [List.sublistForall₂_map_left_iff, List.sublistForall₂_map_right_iff]
  · exact fun _ _ => Nat.zero_le _

/-- No count of a selector is greater than that of one that refines it. -/
theorem Refines.counts_le (h : t.Refines s) (hs : s.Canonical) :
    s.counts.classes ≤ t.counts.classes ∧ s.counts.types ≤ t.counts.types ∧
      s.counts.compounds ≤ t.counts.compounds := by
  refine ⟨?classes, ?types, ?compounds⟩
  case classes =>
    exact h.sum_le _ fun k hk k' hcarries => hcarries.classTests_le (hs.compounds k hk).toTidy
  case types =>
    exact h.sum_le _ fun k _ k' hcarries => hcarries.typeTests_le
  case compounds =>
    obtain ⟨place, upward, carries, -⟩ := h
    have chosen : List.SublistForall₂ (fun k k' => k'.Carries k) s.compounds t.compounds :=
      sublistForall₂_iff_strictMono.mpr ⟨place, upward, carries⟩
    obtain ⟨images, related, hsub⟩ := List.sublistForall₂_iff.mp chosen
    exact related.length_eq.trans_le hsub.length_le

/-- With a test or a compound more, within the limit, a selector is more specific than the one that
it refines. -/
theorem Refines.compare_specificity (h : t.Refines s) (hs : s.Canonical)
    (within : t.counts.Within) (more : s.tests < t.tests ∨ s.length < t.length) :
    compare s.specificity t.specificity = .lt := by
  obtain ⟨hclasses, htypes, hcompounds⟩ := h.counts_le hs
  have within' : s.counts.Within := ⟨hclasses.trans within.classes, htypes.trans within.types,
    hcompounds.trans within.compounds⟩
  rw [specificity_eq, specificity_eq, within.capped_eq, within'.capped_eq,
    Specificity.compare_eq_lt]
  have hlength : s.length < t.length ↔ s.counts.compounds < t.counts.compounds := Iff.rfl
  rw [hlength, tests, tests] at more
  omega

end Selector

/-!
## The order of the tests in a compound

The tests of a compound may be written in any order, those for classes between those for
pseudo-states, and each of them several times. A selector keeps its tests in the order in which it
first finds them, so the text that it is written with, and with the text the rule, depends on that
order. Its effect does not (`same_effect_of_sameTests`).

Two selectors that ask for the same refine each other. Each then matches what the other one matches,
and none of its counts is less than the other one's. That a test counts once is due to its being
kept once, however often it is written.
-/

namespace CompoundForm

variable {form form' : CompoundForm}

/-- The names that tests of a kind are written with, all letters in lower case. -/
def tested (form : CompoundForm) (kind : TestKind) : Set String :=
  {name | ∃ letters, (kind, letters) ∈ form.tests ∧ lowerName letters = name}

/-- Two compounds are written with the same type, or none, and with the same tests, except for the
case of letters. -/
structure SameTests (form form' : CompoundForm) : Prop where
  typeName : form.typeName.map lowerName = form'.typeName.map lowerName
  tested : ∀ kind, form.tested kind = form'.tested kind

theorem SameTests.symm (h : form.SameTests form') : form'.SameTests form :=
  ⟨h.typeName.symm, fun kind => (h.tested kind).symm⟩

theorem SameTests.carries (h : form.SameTests form') : form.compound.Carries form'.compound where
  typeName name hname := h.typeName.trans hname
  names kind name hname := by
    rw [names_compound, mem_names] at hname ⊢
    have hmem : name ∈ form'.tested kind := hname
    rwa [← h.tested kind] at hmem

end CompoundForm

namespace Selector

variable {s t : Selector} {forms forms' : List CompoundForm}

/-- Compounds that carry the tests of others, one by one, make a refinement. -/
theorem refines_of_forall₂
    (h : List.Forall₂ (fun k' k => Compound.Carries k' k) t.compounds s.compounds) :
    t.Refines s := by
  obtain ⟨hlength, hcarries⟩ := List.forall₂_iff_get.mp h
  have hplace : ∀ k : Fin s.compounds.length, k.val < t.compounds.length := fun k =>
    k.2.trans_eq hlength.symm
  exact ⟨fun k => ⟨k, hplace k⟩, fun _ _ hlt => hlt, fun k => hcarries k (hplace k) k.2,
    fun _ hlast => hlast.trans hlength.symm⟩

theorem refines_of_sameTests (same : List.Forall₂ CompoundForm.SameTests forms forms') :
    (⟨forms.map CompoundForm.compound⟩ : Selector).Refines
      ⟨forms'.map CompoundForm.compound⟩ := by
  apply refines_of_forall₂
  rw [List.forall₂_map_left_iff, List.forall₂_map_right_iff]
  exact same.imp fun _ _ h => h.carries

/-- Selectors that refine each other have the same counts. -/
theorem specificity_eq_of_refines (h : t.Refines s) (h' : s.Refines t) (hs : s.Canonical)
    (ht : t.Canonical) : s.specificity = t.specificity := by
  obtain ⟨hclasses, htypes, hcompounds⟩ := h.counts_le hs
  obtain ⟨hclasses', htypes', hcompounds'⟩ := h'.counts_le ht
  have hcounts : s.counts = t.counts := by
    rw [Specificity.mk.injEq]
    exact ⟨hclasses.antisymm hclasses', htypes.antisymm htypes', hcompounds.antisymm hcompounds'⟩
  rw [specificity_eq, specificity_eq, hcounts]

theorem matchesLineage_eq_of_refines (h : t.Refines s) (h' : s.Refines t)
    (hs : s.Canonical) (ht : t.Canonical) (l : Lineage) :
    s.matchesLineage l = t.matchesLineage l := by
  rw [Bool.eq_iff_iff]
  exact ⟨h'.matchesLineage ht.ne_nil, h.matchesLineage hs.ne_nil⟩

/-- Texts whose compounds ask for the same types and the same tests, one by one, describe selectors
of the same specificity that match the same elements, in whatever order the tests are written and
however often. -/
theorem same_effect_of_sameTests {text text' : String} {forms forms' : List CompoundForm}
    (h : IsSelector text.toList forms) (h' : IsSelector text'.toList forms')
    (same : List.Forall₂ CompoundForm.SameTests forms forms') :
    ∃ s s', parse text = .ok s ∧ parse text' = .ok s' ∧ s.specificity = s'.specificity ∧
      ∀ l, s.matchesLineage l = s'.matchesLineage l := by
  have hparse : parse text = .ok ⟨forms.map CompoundForm.compound⟩ :=
    parse_eq_ok_iff.mpr ⟨forms, h, rfl⟩
  have hparse' : parse text' = .ok ⟨forms'.map CompoundForm.compound⟩ :=
    parse_eq_ok_iff.mpr ⟨forms', h', rfl⟩
  have canonical := canonical_of_parse hparse
  have canonical' := canonical_of_parse hparse'
  have refines := refines_of_sameTests same
  have refines' := refines_of_sameTests (same.flip.imp fun _ _ tests => tests.symm)
  exact ⟨_, _, hparse, hparse', specificity_eq_of_refines refines' refines canonical canonical',
    matchesLineage_eq_of_refines refines' refines canonical canonical'⟩

/-- The classes are found in the other order, and one of them twice. The selectors are written
differently and so have rules of their own, but to the same effect. -/
theorem same_effect_swapped :
    let forms : List CompoundForm :=
      [⟨some ['A'], [(.classTest, ['b']), (.pseudoTest, ['c']), (.classTest, ['d'])]⟩]
    let forms' : List CompoundForm := [⟨some ['a'],
      [(.classTest, ['D']), (.classTest, ['b']), (.classTest, ['d']), (.pseudoTest, ['C'])]⟩]
    let s : Selector := ⟨[⟨some "a", ["b", "d"], ["c"]⟩]⟩
    let s' : Selector := ⟨[⟨some "a", ["d", "b"], ["c"]⟩]⟩
    IsSelector "A.b:c.d".toList forms ∧ IsSelector "a.D.b.d:C".toList forms' ∧
    List.Forall₂ CompoundForm.SameTests forms forms' ∧
    parse "A.b:c.d" = .ok s ∧ parse "a.D.b.d:C" = .ok s' ∧ s.text ≠ s'.text ∧
    s.specificity = s'.specificity ∧ ∀ l, s.matchesLineage l = s'.matchesLineage l := by
  intro forms forms' s s'
  have letters : ∀ c ∈ ['A', 'a', 'b', 'c', 'C', 'd', 'D'], IsName [c] := by
    simp only [List.mem_cons, List.not_mem_nil, or_false, forall_eq_or_imp, forall_eq]
    decide +kernel
  have tests := IsTests.cons .classTest (letters 'b' (by simp)) <|
    .cons .pseudoTest (letters 'c' (by simp)) <| .cons .classTest (letters 'd' (by simp)) .nil
  have tests' := IsTests.cons .classTest (letters 'D' (by simp)) <|
    .cons .classTest (letters 'b' (by simp)) <| .cons .classTest (letters 'd' (by simp)) <|
      .cons .pseudoTest (letters 'C' (by simp)) .nil
  have h : IsSelector "A.b:c.d".toList forms :=
    (IsCompound.mk (.typed (letters 'A' (by simp)) tests) (by simp)).isSequence.isSelector
  have h' : IsSelector "a.D.b.d:C".toList forms' :=
    (IsCompound.mk (.typed (letters 'a' (by simp)) tests') (by simp)).isSequence.isSelector
  have same : List.Forall₂ CompoundForm.SameTests forms forms' := by
    refine .cons ⟨by simp [lowerName_eq], fun kind => Set.ext fun name => ?_⟩ .nil
    have twice : "d" = name → "b" = name ∨ "d" = name := .inr
    cases kind with
    | classTest => simpa [CompoundForm.tested, lowerName_eq] using twice
    | pseudoTest => simp [CompoundForm.tested, lowerName_eq]
  have hs : parse "A.b:c.d" = .ok s := by decide +kernel
  have hs' : parse "a.D.b.d:C" = .ok s' := by decide +kernel
  have differ : s.text ≠ s'.text := by decide +kernel
  obtain ⟨_, _, hparse, hparse', effect⟩ := same_effect_of_sameTests h h' same
  obtain rfl := Except.ok.inj (hparse.symm.trans hs)
  obtain rfl := Except.ok.inj (hparse'.symm.trans hs')
  exact ⟨h, h', same, hs, hs', differ, effect⟩

end Selector
end StyleCascade
