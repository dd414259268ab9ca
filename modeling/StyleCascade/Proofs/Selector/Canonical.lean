import Mathlib.Data.List.Basic
import StyleCascade.Proofs.Selector.Reading

/-!
# Canonical selectors

What is read from a text is canonical: all names are names indeed and in lower case, no test is
repeated, and each compound asks for something. The other way round every canonical selector is
read from its own text, so these are just the selectors that texts describe
(`canonical_of_parse`, `parse_text`). In particular different ones are never written alike, and a
selector may be known by its text.
-/

namespace StyleCascade

/-- A name in the form in which selectors keep it. -/
structure IsCanonicalName (name : String) : Prop where
  isName : IsName name.toList
  toLower : name.toLower = name

/-- The names of a compound are canonical and its tests different from each other. -/
structure Compound.Tidy (k : Compound) : Prop where
  typeName : ∀ name, k.typeName = some name → IsCanonicalName name
  names : ∀ kind, ∀ name ∈ k.names kind, IsCanonicalName name
  nodup : ∀ kind, (k.names kind).Nodup

/-- A compound as texts describe it. -/
structure Compound.Canonical (k : Compound) : Prop extends k.Tidy where
  isEmpty : k.isEmpty = false

/-- A selector as texts describe it. -/
structure Selector.Canonical (s : Selector) : Prop where
  ne_nil : s.compounds ≠ []
  compounds : ∀ k ∈ s.compounds, k.Canonical

/-- A compound that is put together from names, with any letters in capitals. -/
inductive Compound.Built : Compound → Prop where
  | empty : Built .empty
  | ofType {name : String} : IsName name.toList → Built (.ofType name)
  | withClass {k : Compound} {name : String} : Built k → IsName name.toList →
      Built (k.withClass name)
  | withPseudo {k : Compound} {name : String} : Built k → IsName name.toList →
      Built (k.withPseudo name)

variable {text : List Char} {name : String} {form : CompoundForm} {k : Compound}

/-! ### Names -/

theorem IsName.toLower (h : IsName text) : IsName (text.map Char.toLower) := by
  refine ⟨List.map_eq_nil_iff.not.mpr h.ne_nil, fun c hc => ?_⟩
  obtain ⟨d, hd, rfl⟩ := List.mem_map.mp hc
  rw [Text.isNameChar_toLower, h.isNameChar d hd]

theorem IsName.isCanonicalName_toLower (h : IsName name.toList) : IsCanonicalName name.toLower where
  isName := by
    rw [Text.toList_toLower]
    exact h.toLower
  toLower := Text.toLower_toLower name

theorem IsName.isCanonicalName (h : IsName text) : IsCanonicalName (lowerName text) := by
  apply IsName.isCanonicalName_toLower
  rwa [String.toList_ofList]

theorem IsCanonicalName.lowerName_toList (h : IsCanonicalName name) :
    lowerName name.toList = name := by
  rw [lowerName, String.ofList_toList, h.toLower]

/-! ### Compounds -/

namespace Compound

theorem Tidy.add (h : k.Tidy) (kind : TestKind) (hname : IsCanonicalName name) :
    (k.add kind name).Tidy where
  typeName := by
    rw [typeName_add]
    exact h.typeName
  names kind' other hother := by
    rw [names_add] at hother
    split at hother
    · rcases mem_addNew.mp hother with hother | rfl
      · exact h.names kind' other hother
      · exact hname
    · exact h.names kind' other hother
  nodup kind' := by
    rw [names_add]
    split
    · exact nodup_addNew (h.nodup kind')
    · exact h.nodup kind'

theorem Tidy.addTests {tests : List (TestKind × List Char)} (h : k.Tidy)
    (hnames : ∀ t ∈ tests, IsName t.2) : (k.addTests tests).Tidy := by
  induction tests generalizing k with
  | nil => exact h
  | cons t tests ih =>
      exact ih (h.add t.1 (hnames t List.mem_cons_self).isCanonicalName)
        fun t' ht' => hnames t' (List.mem_cons_of_mem t ht')

theorem tidy_empty : Tidy .empty where
  typeName := nofun
  names kind := by cases kind <;> nofun
  nodup kind := by cases kind <;> exact List.nodup_nil

theorem Built.tidy (h : k.Built) : k.Tidy := by
  induction h with
  | empty => exact tidy_empty
  | @ofType name hname =>
      refine ⟨?_, tidy_empty.names, tidy_empty.nodup⟩
      rintro _ ⟨⟩
      exact hname.isCanonicalName_toLower
  | withClass _ hname ih => exact ih.add .classTest hname.isCanonicalName_toLower
  | withPseudo _ hname ih => exact ih.add .pseudoTest hname.isCanonicalName_toLower

end Compound

/-! ### Telling a canonical selector by its names -/

theorem isCanonicalName_iff :
    IsCanonicalName name ↔ IsName name.toList ∧ name.toList.map Char.toLower = name.toList := by
  rw [← Text.toList_toLower, String.toList_inj]
  exact ⟨fun h => ⟨h.isName, h.toLower⟩, fun h => ⟨h.1, h.2⟩⟩

instance (name : String) : Decidable (IsCanonicalName name) :=
  decidable_of_iff' _ isCanonicalName_iff

theorem Compound.tidy_iff : k.Tidy ↔ (∀ name ∈ k.typeName, IsCanonicalName name) ∧
    (∀ name ∈ k.classes ++ k.pseudos, IsCanonicalName name) ∧ k.classes.Nodup ∧
      k.pseudos.Nodup := by
  constructor
  · intro h
    refine ⟨h.typeName, fun name hname => ?_, h.nodup .classTest, h.nodup .pseudoTest⟩
    rcases List.mem_append.mp hname with hname | hname
    · exact h.names .classTest name hname
    · exact h.names .pseudoTest name hname
  · rintro ⟨htype, hnames, hclasses, hpseudos⟩
    refine ⟨htype, fun kind name hname => hnames name ?_, fun kind => ?_⟩
    · cases kind with
      | classTest => exact List.mem_append_left _ hname
      | pseudoTest => exact List.mem_append_right _ hname
    · cases kind with
      | classTest => exact hclasses
      | pseudoTest => exact hpseudos

instance (k : Compound) : Decidable k.Tidy := decidable_of_iff' _ Compound.tidy_iff

theorem Selector.canonical_iff {s : Selector} :
    s.Canonical ↔ s.compounds ≠ [] ∧ ∀ k ∈ s.compounds, k.Tidy ∧ k.isEmpty = false := by
  constructor
  · intro h
    exact ⟨h.ne_nil, fun k hk => ⟨(h.compounds k hk).toTidy, (h.compounds k hk).isEmpty⟩⟩
  · rintro ⟨hne, h⟩
    exact ⟨hne, fun k hk => ⟨(h k hk).1, (h k hk).2⟩⟩

instance (s : Selector) : Decidable s.Canonical := decidable_of_iff' _ Selector.canonical_iff

/-! ### What is read is canonical -/

theorem IsTests.isName {tests : List (TestKind × List Char)} (h : IsTests text tests) :
    ∀ t ∈ tests, IsName t.2 := by
  induction h with
  | nil => nofun
  | cons kind hname _ ih =>
      intro t ht
      rcases List.mem_cons.mp ht with rfl | ht
      · exact hname
      · exact ih t ht

namespace CompoundForm

theorem names_compound (form : CompoundForm) (kind : TestKind) :
    form.compound.names kind = form.names kind := by
  cases kind <;> rfl

theorem mem_names {kind : TestKind} :
    name ∈ form.names kind ↔
      ∃ letters, (kind, letters) ∈ form.tests ∧ lowerName letters = name := by
  simp only [names, List.mem_eraseDups, List.mem_map, List.mem_filter, decide_eq_true_eq,
    Prod.exists]
  constructor
  · rintro ⟨_, letters, ⟨hmem, rfl⟩, rfl⟩
    exact ⟨letters, hmem, rfl⟩
  · rintro ⟨letters, hmem, rfl⟩
    exact ⟨kind, letters, ⟨hmem, rfl⟩, rfl⟩

end CompoundForm

theorem IsWord.tidy (h : IsWord text form) : form.compound.Tidy := by
  rw [CompoundForm.compound_eq]
  cases h with
  | @typed letters _ _ hname htests =>
      refine Compound.Tidy.addTests ⟨?_, ?_, ?_⟩ htests.isName
      · rintro _ ⟨⟩
        exact hname.isCanonicalName
      · exact Compound.tidy_empty.names
      · exact Compound.tidy_empty.nodup
  | untyped htests => exact Compound.tidy_empty.addTests htests.isName

theorem Compound.isEmpty_iff : k.isEmpty = true ↔ k = .empty := by
  obtain ⟨typeName, classes, pseudos⟩ := k
  simp [isEmpty, empty, and_assoc]

theorem IsCompound.canonical (h : IsCompound text form) : form.compound.Canonical where
  toTidy := h.word.tidy
  isEmpty := by
    by_contra hempty
    rw [Bool.not_eq_false, Compound.isEmpty_iff] at hempty
    obtain ⟨hword, hne⟩ := h
    cases hword with
    | typed => cases congrArg Compound.typeName hempty
    | untyped htests =>
        cases htests with
        | nil => exact absurd rfl hne
        | @cons kind letters _ tests _ _ =>
            have hmem : lowerName letters ∈
                (CompoundForm.mk none ((kind, letters) :: tests)).names kind :=
              CompoundForm.mem_names.mpr ⟨letters, List.mem_cons_self, rfl⟩
            rw [← CompoundForm.names_compound, hempty] at hmem
            cases kind <;> cases hmem

theorem IsSequence.isCompound {forms : List CompoundForm} (h : IsSequence text forms) :
    ∀ form ∈ forms, ∃ word, IsCompound word form := by
  induction h with
  | last hword _ =>
      intro form hform
      obtain rfl := List.mem_singleton.mp hform
      exact ⟨_, hword⟩
  | more hword _ _ _ ih =>
      intro form hform
      rcases List.mem_cons.mp hform with rfl | hform
      · exact ⟨_, hword⟩
      · exact ih form hform

theorem Selector.canonical_of_parse {text : String} {s : Selector} (h : parse text = .ok s) :
    s.Canonical := by
  obtain ⟨forms, hselector, rfl⟩ := parse_eq_ok_iff.mp h
  obtain ⟨blanks, rest, -, hsequence, -⟩ := isSelector_iff.mp hselector
  refine ⟨List.map_eq_nil_iff.not.mpr hselector.ne_nil, fun k hk => ?_⟩
  obtain ⟨form, hform, rfl⟩ := List.mem_map.mp hk
  obtain ⟨word, hword⟩ := hsequence.isCompound form hform
  exact hword.canonical

/-! ### What is canonical is read from its text -/

namespace Compound

/-- A compound as its own text shows it. -/
def writtenForm (k : Compound) : CompoundForm where
  typeName := k.typeName.map String.toList
  tests := k.classes.map (fun name => (.classTest, name.toList)) ++
    k.pseudos.map fun name => (.pseudoTest, name.toList)

theorem names_writtenForm (k : Compound) (kind : TestKind) :
    k.writtenForm.names kind =
      ((k.names kind).map fun name => lowerName name.toList).eraseDups := by
  cases kind <;>
    simp [writtenForm, CompoundForm.names, names, List.filter_map, Function.comp_def]

/-- Reading changes nothing of a compound that is tidy. -/
theorem Tidy.compound_writtenForm (h : k.Tidy) : k.writtenForm.compound = k := by
  apply ext_names
  · cases htype : k.typeName with
    | none => simp [CompoundForm.compound, writtenForm, htype]
    | some name =>
        simp [CompoundForm.compound, writtenForm, htype, (h.typeName name htype).lowerName_toList]
  · intro kind
    have kept : (k.names kind).map (fun name => lowerName name.toList) = k.names kind :=
      (List.map_congr_left fun name hname => (h.names kind name hname).lowerName_toList).trans
        (List.map_id _)
    rw [CompoundForm.names_compound, names_writtenForm, kept, eraseDups_of_nodup (h.nodup kind)]

theorem isTests_flatMap {names : List String} (kind : TestKind)
    (h : ∀ name ∈ names, IsCanonicalName name) :
    IsTests (names.flatMap kind.chars) (names.map fun name => (kind, name.toList)) := by
  induction names with
  | nil => exact .nil
  | cons name names ih =>
      exact .cons kind (h name List.mem_cons_self).isName
        (ih fun other hother => h other (List.mem_cons_of_mem name hother))

theorem Tidy.isWord (h : k.Tidy) : IsWord k.chars k.writtenForm := by
  have htests := (isTests_flatMap .classTest (h.names .classTest)).append
    (isTests_flatMap .pseudoTest (h.names .pseudoTest))
  rw [chars, writtenForm, List.append_assoc]
  cases htype : k.typeName with
  | none => exact .untyped htests
  | some name => exact .typed (h.typeName name htype).isName htests

theorem Canonical.isCompound (h : k.Canonical) : IsCompound k.chars k.writtenForm := by
  refine ⟨h.toTidy.isWord, fun hnil => ?_⟩
  have hword := h.toTidy.isWord
  rw [hnil] at hword
  have hempty : k = .empty := by
    rw [← h.toTidy.compound_writtenForm, hword.unique (.untyped .nil)]
    rfl
  have := h.isEmpty
  rw [hempty] at this
  cases this

end Compound

namespace Selector

variable {s : Selector}

theorem isSequence_chars {compounds : List Compound} (hne : compounds ≠ [])
    (h : ∀ k ∈ compounds, k.Canonical) :
    IsSequence (List.intercalate [' '] (compounds.map Compound.chars))
      (compounds.map Compound.writtenForm) := by
  induction compounds with
  | nil => exact absurd rfl hne
  | cons k compounds ih =>
      have hk := (h k List.mem_cons_self).isCompound
      cases compounds with
      | nil => simpa using hk.isSequence
      | cons k' compounds =>
          have hspace : IsBlanks [' '] := by
            intro c hc
            obtain rfl := List.mem_singleton.mp hc
            decide
          have hrest := ih (List.cons_ne_nil _ _) fun k'' hk'' =>
            h k'' (List.mem_cons_of_mem k hk'')
          rw [List.map_cons, List.map_cons, List.intercalate_cons_cons, List.append_assoc]
          exact .more hk hspace (List.cons_ne_nil _ _) hrest

/-- A canonical selector is read from its text. -/
theorem Canonical.parse_text (h : s.Canonical) : parse s.text = .ok s := by
  refine parse_eq_ok_iff.mpr ⟨s.compounds.map Compound.writtenForm, ?_, ?_⟩
  · rw [text, String.toList_ofList]
    exact (isSequence_chars h.ne_nil h.compounds).isSelector
  · obtain ⟨compounds⟩ := s
    rw [List.map_map, Selector.mk.injEq]
    exact ((List.map_congr_left fun k hk =>
      (h.compounds k hk).toTidy.compound_writtenForm).trans (List.map_id _)).symm

/-- A text that is written for a canonical selector describes it. -/
theorem Canonical.parse_of_text_eq {text : String} (h : s.Canonical) (htext : s.text = text) :
    parse text = .ok s :=
  htext ▸ h.parse_text

/-- A name in lower case describes the selector that asks for it as a type. -/
theorem parse_typeName {name : String} (hname : IsCanonicalName name) :
    parse name = .ok ⟨[{ typeName := some name }]⟩ := by
  have canonical : (⟨[{ typeName := some name }]⟩ : Selector).Canonical := by
    simpa [canonical_iff, Compound.tidy_iff, Compound.isEmpty] using hname
  refine canonical.parse_of_text_eq ?_
  simp [text, chars, Compound.chars, List.intercalate]

/-- Of canonical selectors no two are written alike. -/
theorem Canonical.eq_of_text_eq {s' : Selector} (h : s.Canonical) (h' : s'.Canonical)
    (heq : s.text = s'.text) : s = s' := by
  have hs := h.parse_text
  rw [heq, h'.parse_text] at hs
  exact (Except.ok.inj hs).symm

/-- Texts describe the canonical selectors and no others, each of them also by the text that is
written for it; so that text tells it from all others. Whatever is put together from names, with a
compound or more and none of them without a test, is such a selector. -/
theorem canonical_iff_parse :
    (∀ s : Selector, s.Canonical ↔ ∃ text, parse text = .ok s) ∧
    (∀ s : Selector, s.Canonical ↔ parse s.text = .ok s) ∧
    Set.InjOn Selector.text {s | ∃ text, parse text = .ok s} ∧
    ∀ s : Selector, s.compounds ≠ [] → (∀ k ∈ s.compounds, k.Built ∧ k.isEmpty = false) →
      parse s.text = .ok s := by
  refine ⟨?_, ?_, ?_, ?_⟩
  · intro s
    exact ⟨fun h => ⟨s.text, h.parse_text⟩, fun ⟨_, h⟩ => canonical_of_parse h⟩
  · intro s
    exact ⟨Canonical.parse_text, canonical_of_parse⟩
  · rintro s ⟨_, h⟩ s' ⟨_, h'⟩ heq
    exact (canonical_of_parse h).eq_of_text_eq (canonical_of_parse h') heq
  · intro s hne hbuilt
    apply Canonical.parse_text
    exact ⟨hne, fun k hk => ⟨(hbuilt k hk).1.tidy, (hbuilt k hk).2⟩⟩

end Selector
end StyleCascade
