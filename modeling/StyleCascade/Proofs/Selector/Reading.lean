import StyleCascade.Proofs.Names
import StyleCascade.Proofs.Selector.Grammar
import StyleCascade.Selector.Parser

/-!
# Readers follow the grammar

Each reader succeeds just on what the rule of its name builds, gives back what was built, and moves
on to the place behind it. `Cursor.Passes` says which run of characters lies between two places. A
reader goes as far as it can, so the rule alone does not tell where it stops: behind a name it
stops in front of what is no character of a name, behind a word in front of a blank or at the end.
-/

namespace StyleCascade

theorem lowerName_eq (letters : List Char) :
    lowerName letters = String.ofList (letters.map Char.toLower) := by
  rw [lowerName, ← String.toList_inj, Text.toList_toLower, String.toList_ofList,
    String.toList_ofList]

/-! ### Adding tests one by one -/

namespace Compound

/-- The names that a compound asks for by tests of a kind. -/
def names (k : Compound) : TestKind → List String
  | .classTest => k.classes
  | .pseudoTest => k.pseudos

variable {k : Compound} {kind kind' : TestKind} {name : String}

theorem ext_names {k k' : Compound} (htype : k.typeName = k'.typeName)
    (hnames : ∀ kind, k.names kind = k'.names kind) : k = k' := by
  obtain ⟨typeName, classes, pseudos⟩ := k
  obtain ⟨typeName', classes', pseudos'⟩ := k'
  cases htype
  cases hnames .classTest
  cases hnames .pseudoTest
  rfl

@[simp] theorem typeName_add : (k.add kind name).typeName = k.typeName := by
  cases kind <;> rfl

theorem names_add :
    (k.add kind name).names kind' =
      if kind = kind' then addNew (k.names kind') name else k.names kind' := by
  cases kind <;> cases kind' <;> rfl

def addTests (k : Compound) (tests : List (TestKind × List Char)) : Compound :=
  tests.foldl (fun k t => k.add t.1 (lowerName t.2)) k

@[simp] theorem typeName_addTests (k : Compound) (tests : List (TestKind × List Char)) :
    (k.addTests tests).typeName = k.typeName := by
  induction tests generalizing k with
  | nil => rfl
  | cons t tests ih => rw [addTests, List.foldl_cons, ← addTests, ih, typeName_add]

theorem names_addTests (k : Compound) (tests : List (TestKind × List Char)) (kind : TestKind) :
    (k.addTests tests).names kind =
      ((tests.filter fun t => t.1 = kind).map fun t => lowerName t.2).foldl addNew
        (k.names kind) := by
  induction tests generalizing k with
  | nil => rfl
  | cons t tests ih =>
      rw [addTests, List.foldl_cons, ← addTests, ih, names_add, List.filter_cons]
      by_cases hkind : t.1 = kind
      · rw [if_pos hkind, if_pos (by simpa using hkind)]
        rfl
      · rw [if_neg hkind, if_neg (by simpa using hkind)]

end Compound

theorem CompoundForm.compound_eq (form : CompoundForm) :
    form.compound =
      ({ typeName := form.typeName.map lowerName } : Compound).addTests form.tests := by
  apply Compound.ext_names
  · rw [Compound.typeName_addTests]
    rfl
  · intro kind
    rw [Compound.names_addTests]
    cases kind <;> exact (foldl_addNew _).symm

namespace Cursor

variable {c next stop : Cursor} {p : Char → Bool} {run run' rest : List Char} {k k' : Compound}

/-- From one place to another one passes a run of characters. -/
structure Passes (c : Cursor) (run : List Char) (next : Cursor) : Prop where
  rest_eq : c.rest = run ++ next.rest
  pos_eq : next.pos = c.pos + utf8Length run

theorem Passes.refl (c : Cursor) : c.Passes [] c := ⟨rfl, rfl⟩

theorem Passes.trans (h : c.Passes run next) (h' : next.Passes run' stop) :
    c.Passes (run ++ run') stop where
  rest_eq := by rw [h.rest_eq, h'.rest_eq, List.append_assoc]
  pos_eq := by rw [h'.pos_eq, h.pos_eq, utf8Length_append, Nat.add_assoc]

/-- The place behind a run that comes next. -/
theorem exists_passes (h : c.rest = run ++ rest) : ∃ next, c.Passes run next ∧ next.rest = rest :=
  ⟨⟨c.pos + utf8Length run, rest⟩, ⟨h, rfl⟩, rfl⟩

/-- The end of the text. -/
theorem exists_passes_rest (c : Cursor) : ∃ stop, c.Passes c.rest stop := by
  obtain ⟨stop, hpasses, -⟩ := exists_passes (List.append_nil c.rest).symm
  exact ⟨stop, hpasses⟩

theorem Passes.unique (h : c.Passes run next) (h' : c.Passes run stop) : next = stop := by
  obtain ⟨pos, rest⟩ := next
  obtain ⟨pos', rest'⟩ := stop
  obtain rfl : pos = pos' := h.pos_eq.trans h'.pos_eq.symm
  obtain rfl : rest = rest' := List.append_cancel_left (h.rest_eq.symm.trans h'.rest_eq)
  rfl

/-- What is skipped is the longest run of characters of the class. -/
theorem skip_eq_iff :
    c.skip p = next ↔
      ∃ run, (∀ ch ∈ run, p ch = true) ∧ c.Passes run next ∧ StopsBefore p next.rest := by
  constructor
  · rintro rfl
    refine ⟨c.rest.takeWhile p, List.all_eq_true.mp List.all_takeWhile,
      ⟨List.takeWhile_append_dropWhile.symm, rfl⟩, fun ch hch => ?_⟩
    have hhead := List.head?_dropWhile_not p c.rest
    rw [rest_skip, Option.mem_def] at hch
    rwa [hch] at hhead
  · rintro ⟨run, hrun, hpasses, hstops⟩
    have hskip : c.Passes run (c.skip p) := by
      constructor
      · rw [rest_skip, hpasses.rest_eq, hstops.dropWhile hrun]
      · rw [pos_skip, hpasses.rest_eq, hstops.takeWhile hrun]
    exact hskip.unique hpasses

/-! ### Names -/

theorem name_eq_ok_iff {n : String} :
    c.name = (.ok n, next) ↔ ∃ letters, IsName letters ∧ n = lowerName letters ∧
      c.Passes letters next ∧ StopsBefore Text.isNameChar next.rest := by
  constructor
  · intro h
    obtain ⟨run, hrun, hpasses, hstops⟩ := skip_eq_iff.mp (Eq.refl (c.skip Text.isNameChar))
    have hletters : c.rest.takeWhile Text.isNameChar = run := by
      rw [hpasses.rest_eq, hstops.takeWhile hrun]
    rw [name, hletters] at h
    split at h
    · cases h
    next hne =>
      cases h
      rw [← lowerName_eq]
      exact ⟨run, ⟨by simpa using hne, hrun⟩, rfl, hpasses, hstops⟩
  · rintro ⟨letters, hname, rfl, hpasses, hstops⟩
    have hletters : c.rest.takeWhile Text.isNameChar = letters := by
      rw [hpasses.rest_eq, hstops.takeWhile hname.isNameChar]
    have hskip := skip_eq_iff.mpr ⟨letters, hname.isNameChar, hpasses, hstops⟩
    rw [name, hletters, hskip, ← lowerName_eq]
    exact if_neg (by simpa using hname.ne_nil)

/-- Where no name begins, none is read. -/
theorem name_of_stopsBefore (h : StopsBefore Text.isNameChar c.rest) :
    c.name = (.error (.expectedName c.pos), c) := by
  have hnone : ∀ ch ∈ ([] : List Char), Text.isNameChar ch = true := nofun
  have hletters : c.rest.takeWhile Text.isNameChar = [] := h.takeWhile hnone
  rw [name, hletters]
  rfl

/-! ### Tests -/

theorem tests_of_atBlank (k : Compound) (h : AtBlank c.rest) : c.tests k = (.ok k, c) := by
  rw [tests]
  split
  · rfl
  next ch rest hrest => exact if_pos (h ch (by rw [hrest]; rfl))

theorem tests_of_mark {kind : TestKind} (hrest : c.rest = kind.mark :: rest) (k : Compound) :
    c.tests k =
      match name ⟨c.pos + kind.mark.utf8Size, rest⟩ with
      | (.error e, stop) => (.error e, stop)
      | (.ok n, next) => next.tests (k.add kind n) := by
  rw [tests]
  split
  next hnil => rw [hrest] at hnil; cases hnil
  next ch rest' hrest' =>
    obtain ⟨rfl, rfl⟩ := List.cons.inj (hrest.symm.trans hrest')
    rw [kind.isBlank_mark]
    simp only [Bool.false_eq_true, if_false]
    split
    next hnone => rw [TestKind.ofMark?_eq_some.mpr rfl] at hnone; cases hnone
    next kind' hkind =>
      obtain rfl := Option.some.inj (hkind.symm.trans (TestKind.ofMark?_eq_some.mpr rfl))
      split
      next e stop hn => rw [hn]
      next n next hn => rw [hn]

/-- Tests are read up to the first blank. -/
theorem tests_eq_ok_iff :
    c.tests k = (.ok k', next) ↔ ∃ run tests, IsTests run tests ∧ k' = k.addTests tests ∧
      c.Passes run next ∧ AtBlank next.rest := by
  constructor
  · intro h
    fun_induction Cursor.tests k c with
    | case1 k c hrest =>
        cases h
        exact ⟨[], [], .nil, rfl, .refl _, by rw [hrest]; exact atBlank_nil⟩
    | case2 k c ch rest hrest hblank =>
        cases h
        refine ⟨[], [], .nil, rfl, .refl _, ?_⟩
        rw [hrest]
        exact atBlank_cons.mpr hblank
    | case3 | case4 => cases h
    | case5 k c ch rest hrest _ kind hkind n next' hn ih =>
        obtain rfl := TestKind.ofMark?_eq_some.mp hkind
        obtain ⟨letters, hname, rfl, hletters, -⟩ := name_eq_ok_iff.mp hn
        obtain ⟨run, tests, htests, rfl, hrun, hblank⟩ := ih h
        refine ⟨_, _, .cons kind hname htests, rfl, ?_, hblank⟩
        have hmark : c.Passes [kind.mark] ⟨c.pos + kind.mark.utf8Size, rest⟩ := ⟨hrest, rfl⟩
        exact hmark.trans (hletters.trans hrun)
  · rintro ⟨run, tests, htests, rfl, hpasses, hblank⟩
    induction htests generalizing c k with
    | nil =>
        obtain rfl := (Passes.refl c).unique hpasses
        exact tests_of_atBlank k hblank
    | @cons kind letters run tests hname htests ih =>
        have hrest : c.rest = kind.mark :: (letters ++ (run ++ next.rest)) := by
          rw [hpasses.rest_eq, List.cons_append, List.append_assoc]
        let behind : Cursor := ⟨c.pos + kind.mark.utf8Size, letters ++ (run ++ next.rest)⟩
        obtain ⟨middle, hletters, hmiddle⟩ := exists_passes (Eq.refl behind.rest)
        have hn : behind.name = (.ok (lowerName letters), middle) := by
          refine name_eq_ok_iff.mpr ⟨letters, hname, rfl, hletters, ?_⟩
          rw [hmiddle]
          exact htests.stopsBefore_isNameChar.append hblank.stopsBefore_isNameChar
        rw [tests_of_mark hrest, hn]
        refine ih ⟨hmiddle, ?_⟩
        rw [hpasses.pos_eq, hletters.pos_eq, utf8Length_cons, utf8Length_append, Nat.add_assoc,
          Nat.add_assoc]

/-! ### Compounds -/

theorem compound_eq_ok_iff :
    c.compound = (.ok k, next) ↔ ∃ run form, IsWord run form ∧ k = form.compound ∧
      c.Passes run next ∧ AtBlank next.rest := by
  constructor
  · intro h
    rw [Cursor.compound] at h
    split at h
    next n middle hn =>
      obtain ⟨letters, hname, rfl, hletters, -⟩ := name_eq_ok_iff.mp hn
      obtain ⟨run, tests, htests, rfl, hrun, hblank⟩ := tests_eq_ok_iff.mp h
      exact ⟨_, _, .typed hname htests, (CompoundForm.compound_eq ⟨some letters, tests⟩).symm,
        hletters.trans hrun, hblank⟩
    · obtain ⟨run, tests, htests, rfl, hrun, hblank⟩ := tests_eq_ok_iff.mp h
      exact ⟨_, _, .untyped htests, (CompoundForm.compound_eq ⟨none, tests⟩).symm, hrun, hblank⟩
  · rintro ⟨run, form, hword, rfl, hpasses, hblank⟩
    rw [CompoundForm.compound_eq]
    cases hword with
    | @typed letters run tests hname htests =>
        obtain ⟨middle, hletters, hmiddle⟩ :=
          exists_passes (hpasses.rest_eq.trans (List.append_assoc letters run next.rest))
        have hn : c.name = (.ok (lowerName letters), middle) := by
          refine name_eq_ok_iff.mpr ⟨letters, hname, rfl, hletters, ?_⟩
          rw [hmiddle]
          exact htests.stopsBefore_isNameChar.append hblank.stopsBefore_isNameChar
        rw [Cursor.compound, hn]
        refine tests_eq_ok_iff.mpr ⟨run, tests, htests, rfl, ⟨hmiddle, ?_⟩, hblank⟩
        rw [hpasses.pos_eq, hletters.pos_eq, utf8Length_append, Nat.add_assoc]
    | untyped htests =>
        have hstops : StopsBefore Text.isNameChar c.rest := by
          rw [hpasses.rest_eq]
          exact htests.stopsBefore_isNameChar.append hblank.stopsBefore_isNameChar
        rw [Cursor.compound, name_of_stopsBefore hstops]
        exact tests_eq_ok_iff.mpr ⟨_, _, htests, rfl, hpasses, hblank⟩

theorem skipBlanks_eq_iff :
    c.skipBlanks = next ↔ ∃ run, IsBlanks run ∧ c.Passes run next ∧
      StopsBefore Text.isBlank next.rest :=
  skip_eq_iff

theorem compounds_of_skipBlanks_nil (h : c.skipBlanks.rest = []) :
    c.compounds = (.ok [], c.skipBlanks) := by
  rw [compounds]
  split
  · rfl
  next hcons => rw [h] at hcons; cases hcons

theorem compounds_of_skipBlanks {ks : List Compound} (hne : c.skipBlanks.rest ≠ [])
    (hk : c.skipBlanks.compound = (.ok k, next)) (hks : next.compounds = (.ok ks, stop)) :
    c.compounds = (.ok (k :: ks), stop) := by
  rw [compounds]
  split
  next hnil => exact absurd hnil hne
  next =>
    split
    next herror => rw [hk] at herror; cases herror
    next k' next' hok =>
      obtain ⟨⟨⟩, rfl⟩ := Prod.mk.inj (hk.symm.trans hok)
      rw [hks]

end Cursor

/-- Compounds with blanks around them, or none at all. -/
inductive IsChain : List Char → List CompoundForm → Prop where
  | none {text : List Char} : IsBlanks text → IsChain text []
  | some {text : List Char} {forms : List CompoundForm} : IsSelector text forms →
      IsChain text forms

/-- A word at the end may be empty. -/
theorem IsWord.isChain {lead word : List Char} {form : CompoundForm} (h : IsWord word form)
    (hlead : IsBlanks lead) : ∃ forms, IsChain (lead ++ word) forms := by
  by_cases hne : word = []
  · subst hne
    rw [List.append_nil]
    exact ⟨[], .none hlead⟩
  · have hword : IsCompound word form := ⟨h, hne⟩
    exact ⟨[form], .some (.mk hlead hword.isSequence)⟩

theorem IsChain.prepend {lead word text : List Char} {form : CompoundForm}
    {forms : List CompoundForm} (h : IsChain text forms) (hlead : IsBlanks lead)
    (hword : IsCompound word form) (hblank : AtBlank text) :
    IsChain (lead ++ (word ++ text)) (form :: forms) := by
  refine .some (.mk hlead ?_)
  cases h with
  | none hblanks => exact .last hword hblanks
  | some hselector =>
      obtain ⟨blanks, rest, hblanks, hsequence, rfl⟩ := isSelector_iff.mp hselector
      refine .more hword hblanks ?_ hsequence
      rintro rfl
      exact hsequence.ne_nil (hblank.eq_nil hsequence.stopsBefore_isBlank)

/-- Compounds stand one behind the other, and blanks are left at the end. -/
@[elab_as_elim]
theorem IsChain.induction {P : ∀ {text forms}, IsChain text forms → Prop}
    (none : ∀ {blanks} (hblanks : IsBlanks blanks), P (.none hblanks))
    (prepend : ∀ {lead word text form forms} (hlead : IsBlanks lead) (hword : IsCompound word form)
      (hblank : AtBlank text) (h : IsChain text forms), P h → P (h.prepend hlead hword hblank))
    {text : List Char} {forms : List CompoundForm} (h : IsChain text forms) : P h := by
  cases h with
  | none hblanks => exact none hblanks
  | some hselector =>
      obtain @⟨lead, _, _, hlead, hsequence⟩ := hselector
      induction hsequence generalizing lead with
      | last hword hblanks => exact prepend hlead hword hblanks.atBlank _ (none hblanks)
      | more hword hblanks hgap _ ih =>
          exact prepend hlead hword (hblanks.atBlank_append hgap) _ (ih hblanks)

namespace Cursor

variable {c next stop : Cursor} {lead word text rest : List Char} {form : CompoundForm}
variable {forms : List CompoundForm} {ch : Char} {k : Compound}

/-- In front of a character that is no blank the compound that is read is not empty. -/
theorem isCompound_of_compound (hrest : c.rest = ch :: rest) (hch : Text.isBlank ch = false)
    (h : c.compound = (.ok k, next)) :
    ∃ word form, IsCompound word form ∧ k = form.compound ∧ c.Passes word next ∧
      AtBlank next.rest := by
  obtain ⟨word, form, hword, hk, hpasses, hblank⟩ := compound_eq_ok_iff.mp h
  refine ⟨word, form, ⟨hword, ?_⟩, hk, hpasses, hblank⟩
  rintro rfl
  have hnext : next.rest = ch :: rest := hpasses.rest_eq.symm.trans hrest
  have := hblank ch (by rw [hnext]; rfl)
  rw [hch] at this
  cases this

theorem isChain_of_compounds {ks : List Compound} (h : c.compounds = (.ok ks, stop)) :
    c.Passes c.rest stop ∧ ∃ forms, IsChain c.rest forms ∧
      ks = forms.map CompoundForm.compound := by
  fun_induction compounds c generalizing ks with
  | case1 c hnil =>
      cases h
      obtain ⟨run, hrun, hpasses, -⟩ := skipBlanks_eq_iff.mp (Eq.refl c.skipBlanks)
      have hrest := hpasses.rest_eq
      rw [hnil, List.append_nil] at hrest
      rw [hrest]
      exact ⟨hpasses, [], .none hrun, rfl⟩
  | case2 | case3 => cases h
  | case4 c ch rest hcons k next hk others stop' hothers ih =>
      cases h
      obtain ⟨lead, hlead, hleads, -⟩ := skipBlanks_eq_iff.mp (Eq.refl c.skipBlanks)
      obtain ⟨word, form, hword, rfl, hwords, hblank⟩ :=
        isCompound_of_compound hcons (isBlank_of_rest_skipBlanks hcons) hk
      obtain ⟨hrests, forms, hforms, rfl⟩ := ih hothers
      have hrest : c.rest = lead ++ (word ++ next.rest) := by
        rw [hleads.rest_eq, hwords.rest_eq]
      rw [hrest]
      exact ⟨hleads.trans (hwords.trans hrests), form :: forms,
        hforms.prepend hlead hword hblank, rfl⟩

theorem rest_skipBlanks (hlead : IsBlanks lead) (hstops : StopsBefore Text.isBlank text)
    (hrest : c.rest = lead ++ text) : c.skipBlanks.rest = text := by
  rw [skipBlanks, rest_skip, hrest, hstops.dropWhile hlead]

theorem compound_skipBlanks (hlead : IsBlanks lead) (hword : IsCompound word form)
    (hblank : AtBlank rest) (hrest : c.rest = lead ++ (word ++ rest)) :
    ∃ next, c.skipBlanks.rest ≠ [] ∧ c.skipBlanks.compound = (.ok form.compound, next) ∧
      next.rest = rest := by
  have hskip := rest_skipBlanks hlead hword.stopsBefore_isBlank hrest
  obtain ⟨next, hnext, hnextrest⟩ := exists_passes hskip
  refine ⟨next, ?_, ?_, hnextrest⟩
  · rw [hskip]
    exact List.append_ne_nil_of_left_ne_nil hword.ne_nil rest
  · exact compound_eq_ok_iff.mpr ⟨word, form, hword.word, rfl, hnext, hnextrest ▸ hblank⟩

theorem compounds_of_isSequence (hlead : IsBlanks lead) (h : IsSequence text forms)
    (hrest : c.rest = lead ++ text) :
    ∃ stop, c.compounds = (.ok (forms.map CompoundForm.compound), stop) := by
  induction h generalizing c lead with
  | last hword hblanks =>
      obtain ⟨next, hne, hk, hnext⟩ := compound_skipBlanks hlead hword hblanks.atBlank hrest
      have hend : next.skipBlanks.rest = [] :=
        rest_skipBlanks hblanks stopsBefore_nil (hnext.trans (List.append_nil _).symm)
      exact ⟨_, compounds_of_skipBlanks hne hk (compounds_of_skipBlanks_nil hend)⟩
  | more hword hblanks hgap _ ih =>
      obtain ⟨next, hne, hk, hnext⟩ :=
        compound_skipBlanks hlead hword (hblanks.atBlank_append hgap) hrest
      obtain ⟨stop, hks⟩ := ih hblanks hnext
      exact ⟨stop, compounds_of_skipBlanks hne hk hks⟩

/-- Compounds are read up to the end. -/
theorem compounds_eq_ok_iff {ks : List Compound} :
    c.compounds = (.ok ks, stop) ↔ c.Passes c.rest stop ∧ ∃ forms, IsChain c.rest forms ∧
      ks = forms.map CompoundForm.compound := by
  constructor
  · exact isChain_of_compounds
  · rintro ⟨hpasses, forms, hforms, rfl⟩
    have total : ∃ stop, c.compounds = (.ok (forms.map CompoundForm.compound), stop) := by
      cases hforms with
      | none hblanks =>
          have hend := rest_skipBlanks (c := c) hblanks stopsBefore_nil (List.append_nil _).symm
          exact ⟨_, compounds_of_skipBlanks_nil hend⟩
      | some hselector =>
          obtain ⟨blanks, text, hblanks, hsequence, hrest⟩ := isSelector_iff.mp hselector
          exact compounds_of_isSequence hblanks hsequence hrest
    obtain ⟨stop', h⟩ := total
    rw [h, hpasses.unique (isChain_of_compounds h).1]

theorem selector_eq_ok_iff {s : Selector} :
    c.selector = (.ok s, stop) ↔ c.Passes c.rest stop ∧ ∃ forms, IsSelector c.rest forms ∧
      s = ⟨forms.map CompoundForm.compound⟩ := by
  constructor
  · intro h
    rw [Cursor.selector] at h
    split at h
    · cases h
    · cases h
    next k ks stop hks =>
      cases h
      obtain ⟨hpasses, forms, hforms, hmap⟩ := compounds_eq_ok_iff.mp hks
      cases hforms with
      | none => cases hmap
      | some hselector => exact ⟨hpasses, forms, hselector, by rw [hmap]⟩
  · rintro ⟨hpasses, forms, hselector, rfl⟩
    have hks := compounds_eq_ok_iff.mpr ⟨hpasses, forms, .some hselector, rfl⟩
    obtain ⟨form, forms, rfl⟩ := List.exists_cons_of_ne_nil hselector.ne_nil
    rw [Cursor.selector, hks]
    rfl

end Cursor

namespace Selector

/-- A text describes a selector when the rules build it, and then the one that its forms stand
for. -/
theorem parse_eq_ok_iff {text : String} {s : Selector} :
    parse text = .ok s ↔ ∃ forms, IsSelector text.toList forms ∧
      s = ⟨forms.map CompoundForm.compound⟩ := by
  constructor
  · intro h
    exact (Cursor.selector_eq_ok_iff.mp (Prod.ext h rfl)).2
  · intro h
    obtain ⟨stop, hpasses⟩ := (Cursor.ofText text).exists_passes_rest
    exact congrArg Prod.fst (Cursor.selector_eq_ok_iff.mpr ⟨hpasses, h⟩)

/-- Reading accepts the texts of the grammar and no others. Such a text is built in one way only,
and what is read is the selector that this way stands for: types, classes and pseudo-states in
lower case, and of repeated tests the first. -/
theorem parse_eq_ok_iff_derivation (text : String) :
    (∀ s, parse text = .ok s ↔ ∃ forms, IsSelector text.toList forms ∧
      s.compounds = forms.map CompoundForm.compound) ∧
    {forms | IsSelector text.toList forms}.Subsingleton := by
  refine ⟨fun s => ?_, fun forms h forms' h' => h.unique h'⟩
  obtain ⟨compounds⟩ := s
  rw [parse_eq_ok_iff]
  simp only [Selector.mk.injEq]

end Selector
end StyleCascade
