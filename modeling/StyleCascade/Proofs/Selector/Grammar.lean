import Mathlib.Data.Set.Subsingleton
import StyleCascade.Selector.Basic

/-!
# The grammar of selectors

The text of a selector is built by these rules. A mark is a full stop or a colon, and a name is a
run of letters, numbers, low lines and hyphens.

    selector := blank* sequence
    sequence := compound blank* | compound blank+ sequence
    compound := name? tests, but not the empty text
    tests    := (mark name)*

`IsSelector text forms` says that the rules build a text, and the forms keep what they were applied
to: for every compound its type and its tests as they are written, in any case and with
repetitions. A text is built in one way at most (`IsSelector.unique`), since every rule goes on for
as long as it can: behind a name comes no character of a name, and behind a compound a blank.
`CompoundForm.compound` is the compound that a form stands for.
-/

namespace StyleCascade

def lowerName (letters : List Char) : String := (String.ofList letters).toLower

/-- A compound as it is written. -/
structure CompoundForm where
  typeName : Option (List Char)
  /-- The tests from left to right. -/
  tests : List (TestKind × List Char)

namespace CompoundForm

/-- The names that are asked for by tests of a kind: in lower case, each where it first occurs. -/
def names (form : CompoundForm) (kind : TestKind) : List String :=
  ((form.tests.filter fun t => t.1 = kind).map fun t => lowerName t.2).eraseDups

/-- The compound that a form stands for. -/
def compound (form : CompoundForm) : Compound where
  typeName := form.typeName.map lowerName
  classes := form.names .classTest
  pseudos := form.names .pseudoTest

end CompoundForm

/-! ### The rules -/

def IsBlanks (text : List Char) : Prop := ∀ c ∈ text, Text.isBlank c = true

instance (text : List Char) : Decidable (IsBlanks text) :=
  decidable_of_iff (text.all Text.isBlank = true) List.all_eq_true

structure IsName (text : List Char) : Prop where
  ne_nil : text ≠ []
  isNameChar : ∀ c ∈ text, Text.isNameChar c = true

instance (text : List Char) : Decidable (IsName text) :=
  decidable_of_iff (text ≠ [] ∧ text.all Text.isNameChar = true)
    ⟨fun h => ⟨h.1, List.all_eq_true.mp h.2⟩,
      fun h => ⟨h.ne_nil, List.all_eq_true.mpr h.isNameChar⟩⟩

/-- Tests, each a name behind the mark of its kind. -/
inductive IsTests : List Char → List (TestKind × List Char) → Prop where
  | nil : IsTests [] []
  | cons (kind : TestKind) {name text : List Char} {tests : List (TestKind × List Char)} :
      IsName name → IsTests text tests →
        IsTests (kind.mark :: (name ++ text)) ((kind, name) :: tests)

/-- A type, or none, and then tests. -/
inductive IsWord : List Char → CompoundForm → Prop where
  | typed {name text : List Char} {tests : List (TestKind × List Char)} :
      IsName name → IsTests text tests → IsWord (name ++ text) ⟨some name, tests⟩
  | untyped {text : List Char} {tests : List (TestKind × List Char)} :
      IsTests text tests → IsWord text ⟨none, tests⟩

/-- A compound is a word that is not empty. -/
structure IsCompound (text : List Char) (form : CompoundForm) : Prop where
  word : IsWord text form
  ne_nil : text ≠ []

/-- Compounds with blanks between them and perhaps at the end. -/
inductive IsSequence : List Char → List CompoundForm → Prop where
  | last {text blanks : List Char} {form : CompoundForm} :
      IsCompound text form → IsBlanks blanks → IsSequence (text ++ blanks) [form]
  | more {text blanks rest : List Char} {form : CompoundForm} {forms : List CompoundForm} :
      IsCompound text form → IsBlanks blanks → blanks ≠ [] → IsSequence rest forms →
        IsSequence (text ++ (blanks ++ rest)) (form :: forms)

/-- Compounds with blanks between them and perhaps at both ends. -/
inductive IsSelector : List Char → List CompoundForm → Prop where
  | mk {blanks text : List Char} {forms : List CompoundForm} :
      IsBlanks blanks → IsSequence text forms → IsSelector (blanks ++ text) forms

/-! ### Where a run of characters ends -/

/-- A text does not begin with a character of a class. -/
def StopsBefore (p : Char → Bool) (text : List Char) : Prop := ∀ c ∈ text.head?, p c = false

/-- A text is at its end, or a blank comes next. -/
def AtBlank (text : List Char) : Prop := ∀ c ∈ text.head?, Text.isBlank c = true

variable {p : Char → Bool} {run run' rest rest' text text' name : List Char}
variable {tests tests' : List (TestKind × List Char)} {form form' : CompoundForm}
variable {forms forms' : List CompoundForm}

theorem stopsBefore_nil : StopsBefore p [] := nofun

theorem atBlank_nil : AtBlank [] := nofun

theorem isBlanks_nil : IsBlanks [] := nofun

theorem stopsBefore_cons {c : Char} : StopsBefore p (c :: rest) ↔ p c = false := by
  simp [StopsBefore]

theorem atBlank_cons {c : Char} : AtBlank (c :: rest) ↔ Text.isBlank c = true := by
  simp [AtBlank]

theorem mem_of_mem_head?_append {c : Char} (hne : run ≠ []) (hc : c ∈ (run ++ rest).head?) :
    c ∈ run := by
  obtain ⟨d, run, rfl⟩ := List.exists_cons_of_ne_nil hne
  obtain rfl : d = c := Option.some.inj hc
  exact List.mem_cons_self

theorem StopsBefore.append (h : StopsBefore p text) (hrest : StopsBefore p rest) :
    StopsBefore p (text ++ rest) := by
  cases text with
  | nil => exact hrest
  | cons c text => exact h

theorem StopsBefore.of_append (h : StopsBefore p (text ++ rest)) : StopsBefore p text := by
  cases text with
  | nil => exact stopsBefore_nil
  | cons c text => exact h

theorem StopsBefore.takeWhile (h : StopsBefore p rest) (hrun : ∀ c ∈ run, p c = true) :
    (run ++ rest).takeWhile p = run := by
  rw [List.takeWhile_append_of_pos hrun]
  cases rest with
  | nil => exact List.append_nil run
  | cons c rest => rw [List.takeWhile_cons_of_neg (by simp [h c rfl]), List.append_nil]

theorem StopsBefore.dropWhile (h : StopsBefore p rest) (hrun : ∀ c ∈ run, p c = true) :
    (run ++ rest).dropWhile p = rest := by
  rw [List.dropWhile_append_of_pos hrun]
  cases rest with
  | nil => rfl
  | cons c rest => exact List.dropWhile_cons_of_neg (by simp [h c rfl])

/-- There is one way to cut a text behind the longest run of characters of a class. -/
theorem StopsBefore.cut_unique (h : StopsBefore p rest) (h' : StopsBefore p rest')
    (hrun : ∀ c ∈ run, p c = true) (hrun' : ∀ c ∈ run', p c = true)
    (heq : run ++ rest = run' ++ rest') : run = run' ∧ rest = rest' := by
  constructor
  · rw [← h.takeWhile hrun, heq, h'.takeWhile hrun']
  · rw [← h.dropWhile hrun, heq, h'.dropWhile hrun']

theorem AtBlank.stopsBefore_isNameChar (h : AtBlank text) : StopsBefore Text.isNameChar text :=
  fun c hc => Text.isNameChar_of_isBlank (h c hc)

theorem AtBlank.of_append (h : AtBlank (text ++ rest)) : AtBlank text := by
  cases text with
  | nil => exact atBlank_nil
  | cons c text => exact h

theorem IsBlanks.atBlank (h : IsBlanks text) : AtBlank text :=
  fun c hc => h c (List.mem_of_mem_head? hc)

theorem IsBlanks.atBlank_append (h : IsBlanks run) (hne : run ≠ []) : AtBlank (run ++ rest) :=
  fun c hc => h c (mem_of_mem_head?_append hne hc)

theorem AtBlank.eq_nil (h : AtBlank text) (hstops : StopsBefore Text.isBlank text) : text = [] := by
  cases text with
  | nil => rfl
  | cons c text =>
      have := hstops c rfl
      rw [h c rfl] at this
      cases this

/-! ### The characters at the start and inside of a compound -/

theorem TestKind.isNameChar_mark (kind : TestKind) : Text.isNameChar kind.mark = false := by
  cases kind <;> decide

theorem TestKind.isBlank_mark (kind : TestKind) : Text.isBlank kind.mark = false := by
  cases kind <;> decide

theorem IsName.isBlank_eq_false (h : IsName name) : ∀ c ∈ name, Text.isBlank c = false :=
  fun c hc => Text.isBlank_of_isNameChar (h.isNameChar c hc)

/-- What begins like a name goes on like one. -/
theorem IsName.not_stopsBefore (h : IsName name) :
    ¬ StopsBefore Text.isNameChar (name ++ rest) := by
  obtain ⟨c, name, rfl⟩ := List.exists_cons_of_ne_nil h.ne_nil
  intro hstops
  have := hstops c rfl
  rw [h.isNameChar c List.mem_cons_self] at this
  cases this

/-- Tests begin with a mark, so a name in front of them ends there. -/
theorem IsTests.stopsBefore_isNameChar (h : IsTests text tests) :
    StopsBefore Text.isNameChar text := by
  cases h with
  | nil => nofun
  | cons kind _ _ => exact stopsBefore_cons.mpr kind.isNameChar_mark

theorem IsTests.append (h : IsTests text tests) (h' : IsTests text' tests') :
    IsTests (text ++ text') (tests ++ tests') := by
  induction h with
  | nil => exact h'
  | cons kind hname _ ih =>
      rw [List.cons_append, List.append_assoc]
      exact .cons kind hname ih

theorem IsTests.isBlank_eq_false (h : IsTests text tests) : ∀ c ∈ text, Text.isBlank c = false := by
  induction h with
  | nil => nofun
  | cons kind hname _ ih =>
      intro c hc
      rcases List.mem_cons.mp hc with rfl | hc
      · exact kind.isBlank_mark
      · rcases List.mem_append.mp hc with hc | hc
        · exact hname.isBlank_eq_false c hc
        · exact ih c hc

/-- No blank stands inside a word. -/
theorem IsWord.isBlank_eq_false (h : IsWord text form) : ∀ c ∈ text, Text.isBlank c = false := by
  cases h with
  | typed hname htests =>
      intro c hc
      rcases List.mem_append.mp hc with hc | hc
      · exact hname.isBlank_eq_false c hc
      · exact htests.isBlank_eq_false c hc
  | untyped htests => exact htests.isBlank_eq_false

theorem IsCompound.stopsBefore_isBlank (h : IsCompound text form) :
    StopsBefore Text.isBlank (text ++ rest) :=
  fun c hc => h.word.isBlank_eq_false c (mem_of_mem_head?_append h.ne_nil hc)

theorem IsSequence.stopsBefore_isBlank (h : IsSequence text forms) :
    StopsBefore Text.isBlank text := by
  cases h with
  | last hword _ => exact hword.stopsBefore_isBlank
  | more hword _ _ _ => exact hword.stopsBefore_isBlank

/-! ### The rules build a text in one way at most -/

theorem IsTests.unique (h : IsTests text tests) (h' : IsTests text tests') : tests = tests' := by
  induction h generalizing tests' with
  | nil =>
      cases h'
      rfl
  | @cons kind name text tests hname htests ih =>
      generalize hwhole : kind.mark :: (name ++ text) = whole at h'
      cases h' with
      | nil => cases hwhole
      | @cons kind' name' text' tests' hname' htests' =>
          obtain ⟨hmark, hbody⟩ := List.cons.inj hwhole
          have hkind : kind = kind' := Option.some.inj <|
            (TestKind.ofMark?_eq_some.mpr rfl).symm.trans (TestKind.ofMark?_eq_some.mpr hmark)
          obtain ⟨rfl, rfl⟩ := htests.stopsBefore_isNameChar.cut_unique
            htests'.stopsBefore_isNameChar hname.isNameChar hname'.isNameChar hbody
          rw [hkind, ih htests']

/-- A word begins like a name if and only if it has a type. -/
theorem IsWord.unique (h : IsWord text form) (h' : IsWord text form') : form = form' := by
  cases h with
  | @typed name text tests hname htests =>
      generalize hwhole : name ++ text = whole at h'
      cases h' with
      | typed hname' htests' =>
          obtain ⟨rfl, rfl⟩ := htests.stopsBefore_isNameChar.cut_unique
            htests'.stopsBefore_isNameChar hname.isNameChar hname'.isNameChar hwhole
          rw [htests.unique htests']
      | untyped htests' =>
          subst hwhole
          exact absurd htests'.stopsBefore_isNameChar hname.not_stopsBefore
  | untyped htests =>
      cases h' with
      | typed hname' _ => exact absurd htests.stopsBefore_isNameChar hname'.not_stopsBefore
      | untyped htests' => rw [htests.unique htests']

/-- There is one way to cut a text where the first blank stands. -/
theorem AtBlank.cut_unique (hrest : AtBlank rest) (hrest' : AtBlank rest')
    (hrun : ∀ c ∈ run, Text.isBlank c = false) (hrun' : ∀ c ∈ run', Text.isBlank c = false)
    (heq : run ++ rest = run' ++ rest') : run = run' ∧ rest = rest' := by
  have stops : ∀ {rest}, AtBlank rest → StopsBefore (fun c => !Text.isBlank c) rest :=
    fun hrest c hc => congrArg not (hrest c hc)
  exact (stops hrest).cut_unique (stops hrest') (fun c hc => congrArg not (hrun c hc))
    (fun c hc => congrArg not (hrun' c hc)) heq

/-- A word ends where the first blank stands, or with the text. -/
theorem IsWord.cut_unique (h : IsWord text form) (h' : IsWord text' form') (hrest : AtBlank rest)
    (hrest' : AtBlank rest') (heq : text ++ rest = text' ++ rest') :
    form = form' ∧ rest = rest' := by
  obtain ⟨rfl, hrest⟩ := hrest.cut_unique hrest' h.isBlank_eq_false h'.isBlank_eq_false heq
  exact ⟨h.unique h', hrest⟩

/-- A compound without blanks behind it. -/
theorem IsCompound.isSequence (h : IsCompound text form) : IsSequence text [form] := by
  have hlast := IsSequence.last h isBlanks_nil
  rwa [List.append_nil] at hlast

theorem IsSequence.ne_nil (h : IsSequence text forms) : text ≠ [] := by
  cases h with
  | last hword _ => exact List.append_ne_nil_of_left_ne_nil hword.ne_nil _
  | more hword _ _ _ => exact List.append_ne_nil_of_left_ne_nil hword.ne_nil _

/-- Behind blanks at the end there is no further compound. -/
theorem IsSequence.not_isBlanks (h : IsSequence text forms) : ¬ IsBlanks (run ++ text) := by
  intro hblanks
  have htext : IsBlanks text := fun c hc => hblanks c (List.mem_append_right run hc)
  exact h.ne_nil (htext.atBlank.eq_nil h.stopsBefore_isBlank)

theorem IsSequence.unique (h : IsSequence text forms) (h' : IsSequence text forms') :
    forms = forms' := by
  induction h generalizing forms' with
  | @last text blanks form hword hblanks =>
      generalize hwhole : text ++ blanks = whole at h'
      cases h' with
      | last hword' hblanks' =>
          rw [(hword.word.cut_unique hword'.word hblanks.atBlank hblanks'.atBlank hwhole).1]
      | more hword' hblanks' hne' hrest' =>
          obtain ⟨-, rfl⟩ := hword.word.cut_unique hword'.word hblanks.atBlank
            (hblanks'.atBlank_append hne') hwhole
          exact absurd hblanks hrest'.not_isBlanks
  | @more text blanks rest form forms hword hblanks hne hrest ih =>
      generalize hwhole : text ++ (blanks ++ rest) = whole at h'
      cases h' with
      | last hword' hblanks' =>
          obtain ⟨-, rfl⟩ := hword.word.cut_unique hword'.word (hblanks.atBlank_append hne)
            hblanks'.atBlank hwhole
          exact absurd hblanks' hrest.not_isBlanks
      | more hword' hblanks' hne' hrest' =>
          obtain ⟨rfl, hgap⟩ := hword.word.cut_unique hword'.word (hblanks.atBlank_append hne)
            (hblanks'.atBlank_append hne') hwhole
          obtain ⟨-, rfl⟩ := hrest.stopsBefore_isBlank.cut_unique hrest'.stopsBefore_isBlank
            hblanks hblanks' hgap
          rw [ih hrest']

/-- Compounds without blanks in front of them. -/
theorem IsSequence.isSelector (h : IsSequence text forms) : IsSelector text forms :=
  .mk isBlanks_nil h

theorem isSelector_iff : IsSelector text forms ↔
    ∃ blanks rest, IsBlanks blanks ∧ IsSequence rest forms ∧ text = blanks ++ rest := by
  constructor
  · rintro ⟨hblanks, hsequence⟩
    exact ⟨_, _, hblanks, hsequence, rfl⟩
  · rintro ⟨blanks, rest, hblanks, hsequence, rfl⟩
    exact .mk hblanks hsequence

theorem IsSelector.ne_nil (h : IsSelector text forms) : forms ≠ [] := by
  obtain ⟨_, hsequence⟩ := h
  cases hsequence <;> exact List.cons_ne_nil _ _

theorem IsSelector.unique (h : IsSelector text forms) (h' : IsSelector text forms') :
    forms = forms' := by
  obtain ⟨blanks, rest, hblanks, hsequence, rfl⟩ := isSelector_iff.mp h
  obtain ⟨blanks', rest', hblanks', hsequence', hwhole⟩ := isSelector_iff.mp h'
  obtain ⟨-, rfl⟩ := hsequence.stopsBefore_isBlank.cut_unique hsequence'.stopsBefore_isBlank
    hblanks hblanks' hwhole
  exact hsequence.unique hsequence'

end StyleCascade
