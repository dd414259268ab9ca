import Mathlib.Algebra.BigOperators.Group.List.Basic
import StyleCascade.Proofs.Selector.Refinement

/-!
# Counts that stop at the limit

A specificity is counted in words of a machine, of two widths and in several steps: the tests of a
compound are added as words of 64 bits, the sum is brought down to 32 bits, and this is added to
what there is. Each step stops at the greatest word where it would pass it. All the same the outcome
is that of exact counting with one cut at the end (`value_words`), so nothing ever wraps.

What is known of exact counts then holds of specificities up to the limit. They do not depend on the
order of the compounds, they add up when selectors are put together, and they grow with every test
and every compound that is added, for as long as there is a count that can grow
(`specificity_saturates`).
-/

namespace StyleCascade

/-! ### Words -/

namespace Word

variable {w : Nat}

/-- The sum of two words; the greatest word, if the sum is too great. -/
def add (a b : BitVec w) : BitVec w := if a.uaddOverflow b then BitVec.allOnes w else a + b

/-- A word in another width; the greatest word, if it is too great. -/
def narrow {v : Nat} (w : Nat) (a : BitVec v) : BitVec w :=
  if a.toNat < 2 ^ w then a.setWidth w else BitVec.allOnes w

theorem toNat_add (a b : BitVec w) : (add a b).toNat = min (2 ^ w - 1) (a.toNat + b.toNat) := by
  have overflow : a.uaddOverflow b ↔ 2 ^ w ≤ a.toNat + b.toNat := decide_eq_true_iff
  rw [add]
  split
  next h =>
    have := overflow.mp h
    rw [BitVec.toNat_allOnes]
    omega
  next h =>
    have := Nat.not_le.mp (mt overflow.mpr h)
    rw [BitVec.toNat_add, Nat.mod_eq_of_lt this]
    omega

theorem toNat_narrow {v : Nat} (w : Nat) (a : BitVec v) :
    (narrow w a).toNat = min (2 ^ w - 1) a.toNat := by
  rw [narrow]
  split
  next h =>
    rw [BitVec.toNat_setWidth, Nat.mod_eq_of_lt h]
    omega
  · rw [BitVec.toNat_allOnes]
    omega

end Word

namespace Specificity

/-- The three counts as words. -/
structure Words where
  classes : BitVec 32 := 0
  types : BitVec 32 := 0
  compounds : BitVec 32 := 0

namespace Words

/-- Add the tests of a compound. The lists are counted by longer words. -/
def count (c : Words) (k : Compound) : Words where
  classes := Word.add c.classes <| Word.narrow 32 <|
    Word.add (BitVec.ofNat 64 k.classes.length) (BitVec.ofNat 64 k.pseudos.length)
  types := if k.typeName.isSome then Word.add c.types 1 else c.types
  compounds := Word.add c.compounds 1

def value (c : Words) : Specificity where
  classes := c.classes.toNat
  types := c.types.toNat
  compounds := c.compounds.toNat

/-- A compound is counted right if its lists are not longer than a word can tell. -/
theorem value_count (c : Words) {k : Compound} (hclasses : k.classes.length < 2 ^ 64)
    (hpseudos : k.pseudos.length < 2 ^ 64) : (c.count k).value = c.value.count k := by
  have tests : (Word.narrow 32 (Word.add (BitVec.ofNat 64 k.classes.length)
      (BitVec.ofNat 64 k.pseudos.length))).toNat =
        addCount k.classes.length k.pseudos.length := by
    rw [Word.toNat_narrow, Word.toNat_add, BitVec.toNat_ofNat, BitVec.toNat_ofNat,
      Nat.mod_eq_of_lt hclasses, Nat.mod_eq_of_lt hpseudos, addCount, limit]
    omega
  have classes : (c.count k).classes.toNat =
      addCount c.classes.toNat (addCount k.classes.length k.pseudos.length) := by
    rw [count, Word.toNat_add, tests, addCount]
    rfl
  have types : (c.count k).types.toNat =
      addCount c.types.toNat (if k.typeName.isSome then 1 else 0) := by
    change (if k.typeName.isSome then Word.add c.types 1 else c.types).toNat = _
    split
    · exact Word.toNat_add c.types 1
    · exact (min_eq_right (Nat.le_of_lt_succ c.types.isLt)).symm
  have compounds : (c.count k).compounds.toNat = addCount c.compounds.toNat 1 :=
    Word.toNat_add c.compounds 1
  rw [value, classes, types, compounds]
  rfl

theorem value_foldl_count (ks : List Compound) (c : Words)
    (short : ∀ k ∈ ks, k.classes.length < 2 ^ 64 ∧ k.pseudos.length < 2 ^ 64) :
    (ks.foldl count c).value = ks.foldl Specificity.count c.value := by
  induction ks generalizing c with
  | nil => rfl
  | cons k ks ih =>
      obtain ⟨hclasses, hpseudos⟩ := short k List.mem_cons_self
      rw [List.foldl_cons, List.foldl_cons, ← value_count c hclasses hpseudos]
      exact ih (c.count k) fun k' hk' => short k' (List.mem_cons_of_mem k hk')

end Words

/-! ### Sums of counts -/

/-- The counts of two selectors together, without a limit. -/
instance : Add Specificity where
  add c d := ⟨c.classes + d.classes, c.types + d.types, c.compounds + d.compounds⟩

/-- The counts of two selectors together, each up to the limit. -/
def addCounts (c d : Specificity) : Specificity where
  classes := addCount c.classes d.classes
  types := addCount c.types d.types
  compounds := addCount c.compounds d.compounds

/-! ### Counter by counter -/

inductive Counter where
  | classes
  | types
  | compounds

def reading (c : Specificity) : Counter → Nat
  | .classes => c.classes
  | .types => c.types
  | .compounds => c.compounds

variable {c d : Specificity}

theorem ext_reading (h : ∀ i, c.reading i = d.reading i) : c = d := by
  obtain ⟨classes, types, compounds⟩ := c
  obtain ⟨classes', types', compounds'⟩ := d
  cases h .classes
  cases h .types
  cases h .compounds
  rfl

@[simp] theorem reading_add (c d : Specificity) (i : Counter) :
    (c + d).reading i = c.reading i + d.reading i := by
  cases i <;> rfl

@[simp] theorem reading_capped (c : Specificity) (i : Counter) :
    c.capped.reading i = min limit (c.reading i) := by
  cases i <;> rfl

@[simp] theorem reading_addCounts (c d : Specificity) (i : Counter) :
    (c.addCounts d).reading i = min limit (c.reading i + d.reading i) := by
  cases i <;> rfl

/-- To cut a sum is to cut its parts and then what they come to. -/
theorem capped_add (c d : Specificity) : (c + d).capped = c.capped.addCounts d.capped := by
  refine ext_reading fun i => ?_
  simp only [reading_add, reading_capped, reading_addCounts]
  omega

/-- Where no counter goes down, one that goes up decides. -/
theorem compare_eq_lt_of_le (h : ∀ i, c.reading i ≤ d.reading i) :
    compare c d = .lt ↔ ∃ i, c.reading i < d.reading i := by
  rw [compare_eq_lt]
  constructor
  · rintro (hlt | ⟨-, hlt | ⟨-, hlt⟩⟩)
    · exact ⟨.classes, hlt⟩
    · exact ⟨.types, hlt⟩
    · exact ⟨.compounds, hlt⟩
  · rintro ⟨i, hlt⟩
    have hclasses := h .classes
    have htypes := h .types
    have hcompounds := h .compounds
    cases i <;> simp only [reading] at * <;> omega

theorem isLE_compare_of_le (h : ∀ i, c.reading i ≤ d.reading i) : (compare c d).isLE := by
  by_cases hgrows : ∃ i, c.reading i < d.reading i
  · rw [(compare_eq_lt_of_le h).mpr hgrows]
    rfl
  · have same : c = d :=
      ext_reading fun i => Nat.le_antisymm (h i) (Nat.not_lt.mp fun hlt => hgrows ⟨i, hlt⟩)
    rw [compare_eq_eq.mpr same]
    rfl

theorem reading_capped_le (c d : Specificity) (i : Counter) :
    c.capped.reading i ≤ (c + d).capped.reading i := by
  rw [reading_capped, reading_capped, reading_add]
  omega

/-- A counter that can grow makes a specificity greater, if something is added to it. -/
theorem compare_capped_add_eq_lt (c d : Specificity) : compare c.capped (c + d).capped = .lt ↔
    ∃ i, 0 < d.reading i ∧ c.capped.reading i < limit := by
  rw [compare_eq_lt_of_le (reading_capped_le c d)]
  refine exists_congr fun i => ?_
  rw [reading_capped, reading_capped, reading_add]
  omega

end Specificity

/-! ### Selectors that grow -/

inductive Addition where
  /-- A test for a class or a pseudo-state. -/
  | test (kind : TestKind) (name : String)
  /-- A test for the type. -/
  | typeTest (name : String)
  | compound (k : Compound)

def Addition.counts : Addition → Specificity
  | .test _ _ => { classes := 1 }
  | .typeTest _ => { types := 1 }
  | .compound k => { classes := k.classTests, types := k.typeTests, compounds := 1 }

/-- A compound gains a test, at any place among its tests; a type, if it has none. -/
inductive Compound.Gains (k k' : Compound) : Addition → Prop where
  | test {kind : TestKind} {name : String} {front back : List String} :
      k'.typeName = k.typeName → k.names kind = front ++ back →
      k'.names kind = front ++ name :: back →
      (∀ other, other ≠ kind → k'.names other = k.names other) → Gains k k' (.test kind name)
  | typeTest {name : String} : k.typeName = none → k'.typeName = some name →
      (∀ kind, k'.names kind = k.names kind) → Gains k k' (.typeTest name)

/-- A selector gains a test in one of its compounds, or a compound at any place. -/
inductive Selector.Gains (s t : Selector) : Addition → Prop where
  | test {k k' : Compound} {a : Addition} {front back : List Compound} :
      s.compounds = front ++ k :: back → t.compounds = front ++ k' :: back → k.Gains k' a →
      Gains s t a
  | compound {k : Compound} {front back : List Compound} : s.compounds = front ++ back →
      t.compounds = front ++ k :: back → Gains s t (.compound k)

namespace Compound

variable {k k' : Compound} {a : Addition}

theorem classTests_eq (k : Compound) :
    k.classTests = (k.names .classTest).length + (k.names .pseudoTest).length := rfl

theorem Gains.tests (h : k.Gains k' a) : k'.classTests = k.classTests + a.counts.classes ∧
    k'.typeTests = k.typeTests + a.counts.types ∧ a.counts.compounds = 0 := by
  cases h with
  | @test kind _ front back htype hnames hnames' hother =>
      refine ⟨?_, by rw [typeTests, typeTests, htype]; rfl, rfl⟩
      have hlength : (k'.names kind).length = (k.names kind).length + 1 := by
        simp only [hnames, hnames', List.length_append, List.length_cons]
        omega
      rw [classTests_eq, classTests_eq]
      cases kind with
      | classTest =>
          rw [hlength, hother .pseudoTest (by decide), Nat.add_right_comm]
          rfl
      | pseudoTest =>
          rw [hlength, hother .classTest (by decide), ← Nat.add_assoc]
          rfl
  | typeTest hnone htype hnames =>
      refine ⟨by rw [classTests_eq, classTests_eq, hnames, hnames]; rfl, ?_, rfl⟩
      rw [typeTests, typeTests, hnone, htype]
      rfl

end Compound

namespace Selector

variable {s t : Selector} {a : Addition}

theorem counts_append (s t : Selector) :
    (⟨s.compounds ++ t.compounds⟩ : Selector).counts = s.counts + t.counts := by
  rw [counts, List.map_append, List.map_append, List.sum_append, List.sum_append,
    List.length_append]
  rfl

theorem counts_of_perm (h : s.compounds.Perm t.compounds) : s.counts = t.counts := by
  rw [counts, counts, (h.map _).sum_eq, (h.map _).sum_eq, h.length_eq]

/-- The exact counts grow by what is added. -/
theorem Gains.counts_eq (h : s.Gains t a) : t.counts = s.counts + a.counts := by
  change Specificity.mk _ _ _ = Specificity.mk _ _ _
  cases h with
  | test hs ht hgains =>
      obtain ⟨hclasses, htypes, hcompounds⟩ := hgains.tests
      simp only [Specificity.mk.injEq, counts, hs, ht, List.map_append, List.map_cons,
        List.sum_append, List.sum_cons, List.length_append, List.length_cons]
      omega
  | compound hs ht =>
      simp only [Specificity.mk.injEq, counts, Addition.counts, hs, ht, List.map_append,
        List.map_cons, List.sum_append, List.sum_cons, List.length_append, List.length_cons]
      omega

def words (s : Selector) : Specificity.Words := s.compounds.foldl Specificity.Words.count {}

theorem value_words (short : ∀ k ∈ s.compounds,
    k.classes.length < 2 ^ 64 ∧ k.pseudos.length < 2 ^ 64) : s.words.value = s.specificity :=
  Specificity.Words.value_foldl_count s.compounds {} short

theorem sum_typeTests (ks : List Compound) :
    (ks.map Compound.typeTests).sum = ks.countP fun k => k.typeName.isSome := by
  induction ks with
  | nil => rfl
  | cons k ks ih =>
      rw [List.map_cons, List.sum_cons, ih, List.countP_cons, Nat.add_comm, Compound.typeTests]

/-- No count wraps: each is exact up to the limit and stays at the limit beyond it, for selectors of
any size, and it comes out the same if it is made with words. It is a matter of the compounds alone
and not of their order, and is the sum of the counts of the parts. What is added to a selector never
makes it less specific, and makes it more specific unless all the counters concerned are at the
limit. -/
theorem specificity_saturates (s : Selector) :
    s.specificity =
      { classes := min (2 ^ 32 - 1)
          (s.compounds.map fun k => k.classes.length + k.pseudos.length).sum
        types := min (2 ^ 32 - 1) (s.compounds.countP fun k => k.typeName.isSome)
        compounds := min (2 ^ 32 - 1) s.compounds.length } ∧
    ((∀ k ∈ s.compounds, k.classes.length < 2 ^ 64 ∧ k.pseudos.length < 2 ^ 64) →
      s.words.value = s.specificity) ∧
    (∀ t : Selector, s.compounds.Perm t.compounds → s.specificity = t.specificity) ∧
    (∀ t : Selector, (⟨s.compounds ++ t.compounds⟩ : Selector).specificity =
      s.specificity.addCounts t.specificity) ∧
    ∀ t a, s.Gains t a → (compare s.specificity t.specificity).isLE ∧
      (compare s.specificity t.specificity = .lt ↔
        ∃ i, 0 < a.counts.reading i ∧ s.specificity.reading i < 2 ^ 32 - 1) := by
  refine ⟨?exact, value_words, ?perm, ?append, ?gains⟩
  case exact =>
    rw [specificity_eq, counts, sum_typeTests]
    rfl
  case perm =>
    intro t h
    rw [specificity_eq, specificity_eq, counts_of_perm h]
  case append =>
    intro t
    rw [specificity_eq, specificity_eq, specificity_eq, counts_append,
      Specificity.capped_add]
  case gains =>
    intro t a h
    rw [specificity_eq, specificity_eq, h.counts_eq]
    exact ⟨Specificity.isLE_compare_of_le (Specificity.reading_capped_le s.counts a.counts),
      Specificity.compare_capped_add_eq_lt s.counts a.counts⟩

end Selector
end StyleCascade
