import Mathlib.Order.Bounds.Defs
import StyleCascade.Proofs.Selector.Reading

/-!
# Errors at their place

A text is read for as long as some selector begins like it. So the place of an error can be told
from the grammar alone, and from the place the kind of the error.
-/

namespace StyleCascade

/-!
## Beginnings of selectors

A text is viable when the text of some selector begins with it. Whether a text is viable is told
from left to right by two things that no selector's text has in it: a character that is foreign,
which is neither a blank nor part of a name nor a mark, and a mark without a name behind it
(`Sound`). Compounds with blanks around them can always go on, be it with another test
(`IsChain.viable_mark`).

So where a text stops to be viable there is one longest viable beginning, and `isGreatest_viable`
finds it by the character behind it.
-/

section Beginnings

/-- A character that has no place in the text of a selector. -/
structure IsForeign (c : Char) : Prop where
  isBlank : Text.isBlank c = false
  isNameChar : Text.isNameChar c = false
  ofMark? : TestKind.ofMark? c = none

/-- No character is foreign, and behind every mark a name begins. -/
inductive Sound : List Char → Prop where
  | nil : Sound []
  | blank {c : Char} {rest : List Char} : Text.isBlank c = true → Sound rest → Sound (c :: rest)
  | name {c : Char} {rest : List Char} : Text.isNameChar c = true → Sound rest → Sound (c :: rest)
  | mark (kind : TestKind) {rest : List Char} : ¬ StopsBefore Text.isNameChar rest → Sound rest →
      Sound (kind.mark :: rest)

/-- The text of some selector begins with a text. -/
def Viable (front : List Char) : Prop :=
  ∃ rest s, Selector.parse (String.ofList (front ++ rest)) = .ok s

variable {front front' back run text rest : List Char} {c : Char} {kind : TestKind}
variable {tests : List (TestKind × List Char)} {form : CompoundForm} {forms : List CompoundForm}

/-! ### What no text of a selector has in it -/

theorem Sound.append (h : Sound text) (hrest : Sound rest) : Sound (text ++ rest) := by
  induction h with
  | nil => exact hrest
  | blank hc _ ih => exact .blank hc ih
  | name hc _ ih => exact .name hc ih
  | mark kind named _ ih => exact .mark kind (fun hstops => named hstops.of_append) ih

theorem Sound.of_append (h : Sound (front ++ rest)) : Sound rest := by
  induction front with
  | nil => exact h
  | cons c front ih => cases h with
    | blank _ h | name _ h | mark _ _ h => exact ih h

theorem Sound.not_isForeign (h : Sound (c :: rest)) : ¬ IsForeign c := by
  intro foreign
  cases h with
  | blank hc => simp [foreign.isBlank] at hc
  | name hc => simp [foreign.isNameChar] at hc
  | mark kind =>
      have := foreign.ofMark?
      rw [TestKind.ofMark?_eq_some.mpr rfl] at this
      cases this

theorem Sound.not_stopsBefore (h : Sound (kind.mark :: rest)) :
    ¬ StopsBefore Text.isNameChar rest := by
  generalize hmark : kind.mark = c at h
  cases h with
  | blank hc => simp [← hmark, kind.isBlank_mark] at hc
  | name hc => simp [← hmark, kind.isNameChar_mark] at hc
  | mark _ named => exact named

theorem IsBlanks.sound (h : IsBlanks text) : Sound text := by
  induction text with
  | nil => exact .nil
  | cons c text ih =>
      exact .blank (h c List.mem_cons_self) (ih fun d hd => h d (List.mem_cons_of_mem c hd))

theorem IsName.sound (h : IsName text) : Sound text := by
  obtain ⟨-, h⟩ := h
  induction text with
  | nil => exact .nil
  | cons c text ih =>
      exact .name (h c List.mem_cons_self) (ih fun d hd => h d (List.mem_cons_of_mem c hd))

theorem IsTests.sound (h : IsTests text tests) : Sound text := by
  induction h with
  | nil => exact .nil
  | cons kind hname _ ih => exact .mark kind hname.not_stopsBefore (hname.sound.append ih)

theorem IsWord.sound (h : IsWord text form) : Sound text := by
  cases h with
  | typed hname htests => exact hname.sound.append htests.sound
  | untyped htests => exact htests.sound

theorem IsSequence.sound (h : IsSequence text forms) : Sound text := by
  induction h with
  | last hword hblanks => exact hword.word.sound.append hblanks.sound
  | more hword hblanks _ _ ih => exact hword.word.sound.append (hblanks.sound.append ih)

theorem IsSelector.sound (h : IsSelector text forms) : Sound text := by
  obtain ⟨hblanks, hsequence⟩ := h
  exact hblanks.sound.append hsequence.sound

theorem IsChain.sound (h : IsChain text forms) : Sound text := by
  cases h with
  | none hblanks => exact hblanks.sound
  | some hselector => exact hselector.sound

/-- The last character of a text that can stand by itself is no mark. -/
theorem Sound.getLast?_ne_mark (h : Sound text) (kind : TestKind) :
    text.getLast? ≠ some kind.mark := by
  intro hlast
  obtain ⟨front, rfl⟩ := List.getLast?_eq_some_iff.mp hlast
  exact h.of_append.not_stopsBefore stopsBefore_nil

/-! ### How a selector's text can go on -/

theorem IsWord.append_tests (h : IsWord text form) (htests : IsTests run tests) :
    ∃ form', IsWord (text ++ run) form' := by
  cases h with
  | typed hname htests' =>
      rw [List.append_assoc]
      exact ⟨_, .typed hname (htests'.append htests)⟩
  | untyped htests' => exact ⟨_, .untyped (htests'.append htests)⟩

/-- Tests at the end belong to the last compound, or make a new one behind a blank. -/
theorem IsSequence.append_tests (h : IsSequence text forms) (htests : IsTests run tests)
    (hne : run ≠ []) : ∃ forms', IsSequence (text ++ run) forms' := by
  have hcompound : IsCompound run ⟨none, tests⟩ := ⟨.untyped htests, hne⟩
  induction h with
  | @last text blanks form hword hblanks =>
      by_cases hgap : blanks = []
      · subst hgap
        obtain ⟨form', hword'⟩ := hword.word.append_tests htests
        have hlonger : IsCompound (text ++ run) form' :=
          ⟨hword', List.append_ne_nil_of_left_ne_nil hword.ne_nil run⟩
        rw [List.append_nil]
        exact ⟨_, hlonger.isSequence⟩
      · rw [List.append_assoc]
        exact ⟨_, .more hword hblanks hgap hcompound.isSequence⟩
  | more hword hblanks hgap _ ih =>
      obtain ⟨forms', hforms⟩ := ih
      rw [List.append_assoc, List.append_assoc]
      exact ⟨_, .more hword hblanks hgap hforms⟩

theorem IsChain.append_tests (h : IsChain text forms) (htests : IsTests run tests)
    (hne : run ≠ []) : ∃ forms', IsSelector (text ++ run) forms' := by
  cases h with
  | none hblanks =>
      have hcompound : IsCompound run ⟨Option.none, tests⟩ := ⟨.untyped htests, hne⟩
      exact ⟨_, .mk hblanks hcompound.isSequence⟩
  | some hselector =>
      obtain ⟨hblanks, hsequence⟩ := hselector
      obtain ⟨forms', hforms⟩ := hsequence.append_tests htests hne
      rw [List.append_assoc]
      exact ⟨_, .mk hblanks hforms⟩

/-! ### Viable beginnings -/

theorem viable_iff : Viable front ↔ ∃ rest forms, IsSelector (front ++ rest) forms := by
  simp only [Viable, Selector.parse_eq_ok_iff, String.toList_ofList]
  constructor
  · rintro ⟨rest, _, forms, hselector, -⟩
    exact ⟨rest, forms, hselector⟩
  · rintro ⟨rest, forms, hselector⟩
    exact ⟨rest, _, forms, hselector, rfl⟩

theorem Viable.of_isPrefix (h : Viable front) (hfront : front' <+: front) : Viable front' := by
  obtain ⟨more, rfl⟩ := hfront
  obtain ⟨rest, s, hs⟩ := h
  exact ⟨more ++ rest, s, by rwa [← List.append_assoc]⟩

/-- Behind compounds there may be a mark. -/
theorem IsChain.viable_mark (h : IsChain front forms) (kind : TestKind) :
    Viable (front ++ [kind.mark]) := by
  have hname : IsName ['a'] := by
    refine ⟨List.cons_ne_nil _ _, fun c hc => ?_⟩
    obtain rfl := List.mem_singleton.mp hc
    decide
  obtain ⟨forms', hselector⟩ := h.append_tests (.cons kind hname .nil) (List.cons_ne_nil _ _)
  exact viable_iff.mpr ⟨['a'], forms', by simpa using hselector⟩

theorem not_viable_of_isForeign (hc : IsForeign c) : ¬ Viable (front ++ [c]) := by
  intro viable
  obtain ⟨rest, forms, hselector⟩ := viable_iff.mp viable
  rw [List.append_assoc] at hselector
  exact hselector.sound.of_append.not_isForeign hc

theorem not_viable_of_mark (hc : Text.isNameChar c = false) :
    ¬ Viable (front ++ [kind.mark] ++ [c]) := by
  intro viable
  obtain ⟨rest, forms, hselector⟩ := viable_iff.mp viable
  rw [List.append_assoc, List.append_assoc] at hselector
  exact hselector.sound.of_append.not_stopsBefore (stopsBefore_cons.mpr hc)

/-- Where a viable beginning cannot take up the next character, no viable beginning goes further. -/
theorem Viable.isPrefix (viable : Viable front') (hfront : front' <+: front ++ back)
    (stuck : ∀ c ∈ back.head?, ¬ Viable (front ++ [c])) : front' <+: front := by
  obtain hshort | ⟨more, rfl⟩ :=
    List.prefix_or_prefix_of_prefix hfront (List.prefix_append front back)
  · exact hshort
  · cases more with
    | nil => exact ⟨[], by rw [List.append_nil, List.append_nil]⟩
    | cons c more =>
        obtain ⟨rest, hrest⟩ := (List.prefix_append_right_inj front).mp hfront
        have hnext : front ++ [c] <+: front ++ c :: more := ⟨more, by simp⟩
        exact absurd (viable.of_isPrefix hnext) (stuck c (by rw [← hrest]; rfl))

/-- A viable beginning that cannot take up the next character is the longest one. -/
theorem isGreatest_viable (viable : Viable front)
    (stuck : ∀ c ∈ back.head?, ¬ Viable (front ++ [c])) :
    IsGreatest {n | ∃ front', front' <+: front ++ back ∧ Viable front' ∧ utf8Length front' = n}
      (utf8Length front) := by
  refine ⟨⟨front, List.prefix_append front back, viable, rfl⟩, ?_⟩
  rintro _ ⟨front', hfront, viable', rfl⟩
  obtain ⟨more, rfl⟩ := viable'.isPrefix hfront stuck
  rw [utf8Length_append]
  exact Nat.le_add_right _ _

end Beginnings

/-!
## Where reading fails

A reader gives up for one of two reasons, and reports the place where it stands (`Cursor.Fails`).
Behind what its rule has built so far comes a foreign character; or it has passed a mark there, and
no name begins behind the mark. Every reader hands on the reason of the reader it called, with
what it had read itself put in front.

What a rule has built is a viable beginning, also with a mark behind it, and neither reason leaves
a way to go on. So the place reported is the end of the longest viable beginning of the text
(`Selector.parse_error_exact`). A text has one such beginning, and so a reason that is found by
other means than reading is the one reported (`Selector.parse_eq_of_fails`).
-/

def ParseError.pos? : ParseError → Option Nat
  | .empty => none
  | .unexpectedChar _ pos => some pos
  | .expectedName pos => some pos

/-- The last character of a text is a full stop or a colon. -/
def EndsInMark (text : List Char) : Prop := ∃ kind : TestKind, text.getLast? = some kind.mark

/-- An error tells where, in a text of two parts, the beginning of a selector ends, and why. -/
structure ParseError.Pinpoints (e : ParseError) (front back : List Char) : Prop where
  /-- The place between the two parts is reported. -/
  pos? : e.pos? = some (utf8Length front)
  /-- Some selector's text begins like this. -/
  viable : Viable front
  /-- None begins like this with one more character. -/
  stuck : ∀ c ∈ back.head?, ¬ Viable (front ++ [c])
  /-- It is a name that is missing just if a mark is in front of the place. -/
  expectedName_iff : e = .expectedName (utf8Length front) ↔ EndsInMark front
  /-- Otherwise it is the next character that is wrong. -/
  unexpectedChar : ¬ EndsInMark front → ∃ c ∈ back.head?, e = .unexpectedChar c (utf8Length front)

namespace ParseError

variable {e e' : ParseError} {front front' back back' : List Char} {forms : List CompoundForm}

/-- A text has one such place at most, and one error for it. -/
theorem Pinpoints.unique (h : e.Pinpoints front back) (h' : e'.Pinpoints front' back')
    (heq : front ++ back = front' ++ back') : e = e' := by
  have hle : front <+: front' := h.viable.isPrefix (heq ▸ List.prefix_append _ _) h'.stuck
  have hge : front' <+: front := h'.viable.isPrefix (heq ▸ List.prefix_append _ _) h.stuck
  obtain rfl := hle.eq_of_length_le hge.length_le
  obtain rfl := List.append_cancel_left heq
  by_cases hmark : EndsInMark front
  · rw [h.expectedName_iff.mpr hmark, h'.expectedName_iff.mpr hmark]
  · obtain ⟨c, hc, rfl⟩ := h.unexpectedChar hmark
    obtain ⟨c', hc', rfl⟩ := h'.unexpectedChar hmark
    rw [Option.mem_unique hc hc']

/-- Where compounds go on up to the end, there is none. -/
theorem Pinpoints.not_isChain (h : e.Pinpoints front back) : ¬ IsChain (front ++ back) forms := by
  intro hchain
  cases back with
  | nil =>
      rw [List.append_nil] at hchain
      have hmark : ¬ EndsInMark front := fun ⟨kind, hlast⟩ =>
        hchain.sound.getLast?_ne_mark kind hlast
      obtain ⟨c, ⟨⟩, -⟩ := h.unexpectedChar hmark
  | cons c back =>
      have viable := (hchain.viable_mark .classTest).of_isPrefix (List.prefix_append _ _)
      exact h.stuck c rfl (viable.of_isPrefix ⟨back, by simp⟩)

end ParseError

namespace Cursor

/-- From a place on, a rule builds a run, and behind the run reading cannot go on. -/
inductive Fails (c : Cursor) (rule : List Char → Prop) : ParseError → Prop where
  /-- A foreign character comes next. -/
  | unexpected {run rest : List Char} {ch : Char} {stop : Cursor} : rule run → c.Passes run stop →
      stop.rest = ch :: rest → IsForeign ch → Fails c rule (.unexpectedChar ch stop.pos)
  /-- A mark comes next, and no name behind it. -/
  | expected {run : List Char} {kind : TestKind} {stop : Cursor} : rule run →
      c.Passes (run ++ [kind.mark]) stop → StopsBefore Text.isNameChar stop.rest →
      Fails c rule (.expectedName stop.pos)

variable {c next stop : Cursor} {rule rule' : List Char → Prop} {e : ParseError} {k : Compound}
variable {front : List Char}

/-- What was read in front may count as part of a larger rule. -/
theorem Fails.behind (h : next.Fails rule e) (hfront : c.Passes front next)
    (larger : ∀ run, run <+: next.rest → rule run → rule' (front ++ run)) : c.Fails rule' e := by
  cases h with
  | @unexpected run _ _ stop hrun hpasses hrest hch =>
      have hread := larger run ⟨stop.rest, hpasses.rest_eq.symm⟩ hrun
      exact .unexpected hread (hfront.trans hpasses) hrest hch
  | @expected run kind stop hrun hpasses hstops =>
      have hread := larger run
        ⟨[kind.mark] ++ stop.rest, by rw [hpasses.rest_eq, List.append_assoc]⟩ hrun
      have hstop : c.Passes (front ++ run ++ [kind.mark]) stop := by
        rw [List.append_assoc]
        exact hfront.trans hpasses
      exact .expected hread hstop hstops

theorem name_eq_error (h : c.name = (.error e, stop)) :
    StopsBefore Text.isNameChar c.rest ∧ e = .expectedName c.pos := by
  rw [name] at h
  split at h
  next hnone =>
    cases h
    refine ⟨fun ch hch => ?_, rfl⟩
    obtain ⟨rest, hrest⟩ := List.head?_eq_some_iff.mp hch
    rw [hrest, List.takeWhile_cons] at hnone
    simpa using hnone
  · cases h

theorem tests_eq_error (hstops : StopsBefore Text.isNameChar c.rest)
    (h : c.tests k = (.error e, stop)) : c.Fails (fun run => ∃ tests, IsTests run tests) e := by
  fun_induction Cursor.tests k c with
  | case1 | case2 => cases h
  | case3 k c ch rest hrest hblank hkind =>
      cases h
      have hch : IsForeign ch :=
        ⟨Bool.eq_false_iff.mpr hblank, hstops ch (by rw [hrest]; rfl), hkind⟩
      exact .unexpected ⟨[], .nil⟩ (.refl _) hrest hch
  | case4 k c ch rest hrest _ kind hkind e' stop' hn =>
      cases h
      obtain rfl := TestKind.ofMark?_eq_some.mp hkind
      obtain ⟨hbehind, rfl⟩ := name_eq_error hn
      have hmark : c.Passes ([] ++ [kind.mark]) ⟨c.pos + kind.mark.utf8Size, rest⟩ := ⟨hrest, rfl⟩
      exact .expected ⟨[], .nil⟩ hmark hbehind
  | case5 k c ch rest hrest _ kind hkind n next hn ih =>
      obtain rfl := TestKind.ofMark?_eq_some.mp hkind
      obtain ⟨letters, hname, -, hletters, hnext⟩ := name_eq_ok_iff.mp hn
      have hmark : c.Passes [kind.mark] ⟨c.pos + kind.mark.utf8Size, rest⟩ := ⟨hrest, rfl⟩
      refine (ih hnext h).behind (hmark.trans hletters) ?_
      rintro run - ⟨tests, htests⟩
      exact ⟨_, .cons kind hname htests⟩

theorem compound_eq_error (h : c.compound = (.error e, stop)) :
    c.Fails (fun run => ∃ form, IsWord run form) e := by
  rw [Cursor.compound] at h
  split at h
  next n next hn =>
    obtain ⟨letters, hname, -, hletters, hnext⟩ := name_eq_ok_iff.mp hn
    refine (tests_eq_error hnext h).behind hletters ?_
    rintro run - ⟨tests, htests⟩
    exact ⟨_, .typed hname htests⟩
  next hn =>
    refine (tests_eq_error (name_eq_error hn).1 h).behind (.refl c) ?_
    rintro run - ⟨tests, htests⟩
    exact ⟨_, .untyped htests⟩

theorem compounds_eq_error (h : c.compounds = (.error e, stop)) :
    c.Fails (fun run => ∃ forms, IsChain run forms) e := by
  fun_induction compounds c with
  | case1 | case4 => cases h
  | case2 c ch rest hcons e' stop' hk =>
      cases h
      obtain ⟨lead, hlead, hleads, -⟩ := skipBlanks_eq_iff.mp (Eq.refl c.skipBlanks)
      refine (compound_eq_error hk).behind hleads ?_
      rintro run - ⟨form, hword⟩
      exact hword.isChain hlead
  | case3 c ch rest hcons k next hk e' stop' hothers ih =>
      cases h
      obtain ⟨lead, hlead, hleads, -⟩ := skipBlanks_eq_iff.mp (Eq.refl c.skipBlanks)
      obtain ⟨word, form, hword, -, hwords, hblank⟩ :=
        isCompound_of_compound hcons (isBlank_of_rest_skipBlanks hcons) hk
      refine (ih hothers).behind (hleads.trans hwords) ?_
      rintro run ⟨behind, hnext⟩ ⟨forms, hforms⟩
      -- The compound has stopped in front of a blank, so the run is apart from it.
      refine ⟨form :: forms, ?_⟩
      rw [List.append_assoc]
      exact hforms.prepend hlead hword (AtBlank.of_append (hnext ▸ hblank))

/-- Reading a selector fails on blanks alone, or where compounds cannot go on. -/
theorem selector_eq_error (h : c.selector = (.error e, stop)) :
    IsBlanks c.rest ∧ e = .empty ∨ c.Fails (fun run => ∃ forms, IsChain run forms) e := by
  rw [Cursor.selector] at h
  split at h
  next hks =>
    cases h
    exact .inr (compounds_eq_error hks)
  next hks =>
    cases h
    obtain ⟨-, forms, hforms, hnone⟩ := compounds_eq_ok_iff.mp hks
    cases hforms with
    | none hblanks => exact .inl ⟨hblanks, rfl⟩
    | some hselector => exact absurd (List.map_eq_nil_iff.mp hnone.symm) hselector.ne_nil
  · cases h

end Cursor

theorem utf8Length_eq (run : List Char) : utf8Length run = (String.ofList run).utf8ByteSize := by
  induction run with
  | nil => rfl
  | cons c run ih =>
      rw [utf8Length_cons, ih, String.ofList_cons, String.utf8ByteSize_append,
        String.utf8ByteSize_singleton]

/-- The end of a beginning of a text is no place inside a character. -/
theorem isValid_utf8Length {text : String} {front back : List Char}
    (h : text.toList = front ++ back) : (⟨utf8Length front⟩ : String.Pos.Raw).IsValid text := by
  refine String.Pos.Raw.isValid_iff_exists_append.mpr ⟨.ofList front, .ofList back, ?_, ?_⟩
  · rw [← String.ofList_append, ← h, String.ofList_toList]
  · rw [utf8Length_eq]
    rfl

namespace Selector

variable {text : String} {e : ParseError}

theorem isBlanks_or_fails (h : parse text = .error e) : IsBlanks text.toList ∧ e = .empty ∨
    (Cursor.ofText text).Fails (fun run => ∃ forms, IsChain run forms) e :=
  Cursor.selector_eq_error (Prod.ext h rfl)

theorem parse_eq_empty_iff : parse text = .error .empty ↔ IsBlanks text.toList := by
  constructor
  · intro h
    obtain ⟨hblanks, -⟩ | fails := isBlanks_or_fails h
    · exact hblanks
    · cases fails
  · intro hblanks
    obtain ⟨stop, hpasses⟩ := (Cursor.ofText text).exists_passes_rest
    have hks := Cursor.compounds_eq_ok_iff.mpr ⟨hpasses, [], .none hblanks, rfl⟩
    rw [parse, Cursor.selector, hks]
    rfl

/-- Behind compounds neither a foreign character nor a mark without a name can go on. -/
theorem pinpoints_of_fails
    (h : (Cursor.ofText text).Fails (fun run => ∃ forms, IsChain run forms) e) :
    ∃ front back, text.toList = front ++ back ∧ e.Pinpoints front back := by
  cases h with
  | @unexpected run rest c stop hrun hpasses hrest hc =>
      -- A run that stands by itself does not end in a mark.
      obtain ⟨forms, hchain⟩ := hrun
      have hpos : stop.pos = utf8Length run := hpasses.pos_eq.trans (Nat.zero_add _)
      have hend : ¬ EndsInMark run := fun ⟨kind, hlast⟩ => hchain.sound.getLast?_ne_mark kind hlast
      refine ⟨run, stop.rest, hpasses.rest_eq, ?_⟩
      rw [hrest, hpos]
      constructor
      case pos? => rfl
      case viable => exact (hchain.viable_mark .classTest).of_isPrefix (List.prefix_append _ _)
      case stuck =>
        rintro _ ⟨⟩
        exact not_viable_of_isForeign hc
      case expectedName_iff => exact iff_of_false nofun hend
      case unexpectedChar => exact fun _ => ⟨c, rfl, rfl⟩
  | @expected run kind stop hrun hpasses hstops =>
      obtain ⟨forms, hchain⟩ := hrun
      have hpos : stop.pos = utf8Length (run ++ [kind.mark]) :=
        hpasses.pos_eq.trans (Nat.zero_add _)
      have hend : EndsInMark (run ++ [kind.mark]) := ⟨kind, List.getLast?_concat⟩
      refine ⟨run ++ [kind.mark], stop.rest, hpasses.rest_eq, ?_⟩
      rw [hpos]
      constructor
      case pos? => rfl
      case viable => exact hchain.viable_mark kind
      case stuck => exact fun c hc => not_viable_of_mark (hstops c hc)
      case expectedName_iff => exact iff_of_true rfl hend
      case unexpectedChar => exact fun hnone => absurd hend hnone

/-- Where compounds cannot go on, reading fails for no other reason. -/
theorem parse_eq_of_fails
    (h : (Cursor.ofText text).Fails (fun run => ∃ forms, IsChain run forms) e) :
    parse text = .error e := by
  obtain ⟨front, back, htext, pinpoints⟩ := pinpoints_of_fails h
  cases hparse : parse text with
  | ok s =>
      obtain ⟨forms, hselector, -⟩ := parse_eq_ok_iff.mp hparse
      exact absurd (.some (htext ▸ hselector)) pinpoints.not_isChain
  | error e' =>
      obtain ⟨hblanks, -⟩ | fails := isBlanks_or_fails hparse
      · exact absurd (.none (htext ▸ hblanks)) pinpoints.not_isChain
      · obtain ⟨front', back', htext', pinpoints'⟩ := pinpoints_of_fails fails
        rw [pinpoints.unique pinpoints' (htext.symm.trans htext')]

/-- Reading reports that there is no compound just for blanks alone. Every other error reports the
end of the longest beginning of the text that the text of some selector has as well, and whether
it is a name that is missing there or a character that is wrong. -/
theorem parse_error_exact (text : String) :
    (parse text = .error .empty ↔ ∀ c ∈ text.toList, Text.isBlank c = true) ∧
    ∀ e pos, parse text = .error e → e.pos? = some pos →
      (⟨pos⟩ : String.Pos.Raw).IsValid text ∧
      IsGreatest {n | ∃ front, front <+: text.toList ∧ Viable front ∧ utf8Length front = n} pos ∧
      ∃ front back, text.toList = front ++ back ∧ e.Pinpoints front back := by
  refine ⟨parse_eq_empty_iff, fun e pos h hpos => ?_⟩
  obtain ⟨-, rfl⟩ | fails := isBlanks_or_fails h
  · cases hpos
  obtain ⟨front, back, htext, pinpoints⟩ := pinpoints_of_fails fails
  obtain rfl : utf8Length front = pos := Option.some.inj (pinpoints.pos?.symm.trans hpos)
  exact ⟨isValid_utf8Length htext, htext ▸ isGreatest_viable pinpoints.viable pinpoints.stuck,
    front, back, htext, pinpoints⟩

/-- The letter in front of the wrong character takes up two bytes. -/
theorem parse_error_exact_behind_letter :
    parse "a é!" = .error (.unexpectedChar '!' 4) ∧ ∃ front back,
      "a é!".toList = front ++ back ∧ (ParseError.unexpectedChar '!' 4).Pinpoints front back := by
  have wrong : parse "a é!" = .error (.unexpectedChar '!' 4) := by decide +kernel
  obtain ⟨-, -, places⟩ := (parse_error_exact "a é!").2 _ 4 wrong rfl
  exact ⟨wrong, places⟩

end Selector
end StyleCascade
