import StyleCascade.Proofs.Selector.Joining
import StyleCascade.Proofs.Stylesheet.Lookup

/-!
# Spellings of a selector

One selector can be written in many ways. The letters of ASCII may be in either case. There may be
any blanks between the compounds, at least one, and any at both ends. Whatever the spelling, a text
leads to the same rule, or to none (`spelling_immaterial`).

In lower case a text is taken apart by the same rules at the same places. This holds for a text with
an error as well, and the error is the same: no letter is ever the wrong character, and none takes
up more bytes than its form in lower case. With other blanks the places are others, and with them
the errors; what stays the same is whether there is one.
-/

namespace StyleCascade

variable {text text' rest lead word : List Char} {tests : List (TestKind × List Char)}
  {form : CompoundForm} {forms : List CompoundForm}

/-! ### Lower case -/

def CompoundForm.toLower (form : CompoundForm) : CompoundForm where
  typeName := form.typeName.map (List.map Char.toLower)
  tests := form.tests.map (Prod.map id (List.map Char.toLower))

theorem lowerName_map_toLower (letters : List Char) :
    lowerName (letters.map Char.toLower) = lowerName letters := by
  rw [lowerName_eq, lowerName_eq, List.map_map]
  exact congrArg String.ofList (List.map_congr_left fun c _ => Text.toLower_toLower_char c)

theorem CompoundForm.compound_toLower (form : CompoundForm) :
    form.toLower.compound = form.compound := by
  have names : ∀ kind, form.toLower.names kind = form.names kind := by
    intro kind
    simp [CompoundForm.names, CompoundForm.toLower, List.filter_map, Function.comp_def,
      lowerName_map_toLower]
  have typeName : form.toLower.typeName.map lowerName = form.typeName.map lowerName := by
    simp [CompoundForm.toLower, Function.comp_def, lowerName_map_toLower]
  rw [CompoundForm.compound, CompoundForm.compound, names, names, typeName]

theorem TestKind.toLower_mark (kind : TestKind) : kind.mark.toLower = kind.mark :=
  Text.toLower_of_isNameChar_eq_false kind.isNameChar_mark

theorem IsForeign.toLower {c : Char} (h : IsForeign c) : c.toLower = c :=
  Text.toLower_of_isNameChar_eq_false h.isNameChar

theorem utf8Length_map_toLower (run : List Char) :
    utf8Length (run.map Char.toLower) = utf8Length run := by
  induction run with
  | nil => rfl
  | cons c run ih => rw [List.map_cons, utf8Length_cons, utf8Length_cons, ih, Text.utf8Size_toLower]

theorem StopsBefore.toLower {p : Char → Bool} (hp : ∀ c, p c.toLower = p c)
    (h : StopsBefore p text) : StopsBefore p (text.map Char.toLower) := by
  intro c hc
  rw [List.head?_map] at hc
  obtain ⟨d, hd, rfl⟩ := Option.mem_map.mp hc
  rw [hp, h d hd]

theorem AtBlank.toLower (h : AtBlank text) : AtBlank (text.map Char.toLower) := by
  intro c hc
  rw [List.head?_map] at hc
  obtain ⟨d, hd, rfl⟩ := Option.mem_map.mp hc
  rw [Text.isBlank_toLower, h d hd]

theorem IsBlanks.toLower (h : IsBlanks text) : IsBlanks (text.map Char.toLower) := by
  intro c hc
  obtain ⟨d, hd, rfl⟩ := List.mem_map.mp hc
  rw [Text.isBlank_toLower, h d hd]

theorem IsTests.toLower (h : IsTests text tests) :
    IsTests (text.map Char.toLower) (tests.map (Prod.map id (List.map Char.toLower))) := by
  induction h with
  | nil => exact .nil
  | cons kind hname _ ih =>
      rw [List.map_cons, List.map_append, kind.toLower_mark]
      exact .cons kind hname.toLower ih

theorem IsWord.toLower (h : IsWord text form) : IsWord (text.map Char.toLower) form.toLower := by
  cases h with
  | typed hname htests =>
      rw [List.map_append]
      exact .typed hname.toLower htests.toLower
  | untyped htests => exact .untyped htests.toLower

theorem IsChain.toLower (h : IsChain text forms) :
    IsChain (text.map Char.toLower) (forms.map CompoundForm.toLower) := by
  induction h using IsChain.induction with
  | none hblanks => exact .none hblanks.toLower
  | prepend hlead hword hblank _ ih =>
      rw [List.map_append, List.map_append]
      refine ih.prepend hlead.toLower ⟨hword.word.toLower, ?_⟩ hblank.toLower
      exact List.map_eq_nil_iff.not.mpr hword.ne_nil

namespace Cursor

variable {c next : Cursor} {run : List Char} {rule : List Char → Prop} {e : ParseError}

def toLower (c : Cursor) : Cursor := ⟨c.pos, c.rest.map Char.toLower⟩

theorem Passes.toLower (h : c.Passes run next) :
    c.toLower.Passes (run.map Char.toLower) next.toLower where
  rest_eq := by rw [Cursor.toLower, Cursor.toLower, h.rest_eq, List.map_append]
  pos_eq := by rw [utf8Length_map_toLower]; exact h.pos_eq

/-- The text in lower case has the same error at the same place. -/
theorem Fails.toLower (h : c.Fails rule e)
    (hrule : ∀ run, rule run → rule (run.map Char.toLower)) : c.toLower.Fails rule e := by
  cases h with
  | @unexpected run rest ch stop hrun hpasses hrest hch =>
      have hnext : stop.toLower.rest = ch :: rest.map Char.toLower := by
        rw [Cursor.toLower, hrest, List.map_cons, hch.toLower]
      -- as with `Fails.append`, the goal does not tell what is left at the stop
      have fails := Fails.unexpected (hrule run hrun) hpasses.toLower hnext hch
      exact fails
  | @expected run kind stop hrun hpasses hstops =>
      have hmark := hpasses.toLower
      rw [List.map_append, List.map_singleton, kind.toLower_mark] at hmark
      have fails := Fails.expected (hrule run hrun) hmark (hstops.toLower Text.isNameChar_toLower)
      exact fails

end Cursor

/-- A text is read in lower case, be there an error in it or not. -/
theorem Selector.parse_toLower (text : String) : parse text.toLower = parse text := by
  cases hparse : parse text with
  | ok s =>
      obtain ⟨forms, hforms, hchain, rfl⟩ := parse_eq_ok_iff_isChain.mp hparse
      refine parse_eq_ok_iff_isChain.mpr ⟨forms.map CompoundForm.toLower, ?_, ?_, ?_⟩
      · exact List.map_eq_nil_iff.not.mpr hforms
      · rw [Text.toList_toLower]
        exact hchain.toLower
      · rw [List.map_map]
        exact congrArg _ (List.map_congr_left fun form _ => form.compound_toLower.symm)
  | error e =>
      obtain ⟨hblanks, rfl⟩ | fails := isBlanks_or_fails hparse
      · rw [parse_eq_empty_iff, Text.toList_toLower]
        exact hblanks.toLower
      · apply parse_eq_of_fails
        rw [Cursor.ofText, Text.toList_toLower]
        refine fails.toLower ?_
        rintro run ⟨forms, hrun⟩
        exact ⟨_, hrun.toLower⟩

/-! ### Blanks -/

/-- Two texts differ in their blanks only. They have the same words. Between two words there are
blanks in both texts, and in front of the first and behind the last word there may be none. -/
inductive Respaced : List Char → List Char → Prop where
  | blanks {text text' : List Char} : IsBlanks text → IsBlanks text' → Respaced text text'
  | word {lead lead' word rest rest' : List Char} : IsBlanks lead → IsBlanks lead' → word ≠ [] →
      (∀ c ∈ word, Text.isBlank c = false) → AtBlank rest → AtBlank rest' → Respaced rest rest' →
      Respaced (lead ++ (word ++ rest)) (lead' ++ (word ++ rest'))

theorem Respaced.symm (h : Respaced text text') : Respaced text' text := by
  induction h with
  | blanks hblanks hblanks' => exact .blanks hblanks' hblanks
  | word hlead hlead' hne hword hrest hrest' _ ih =>
      exact .word hlead' hlead hne hword hrest' hrest ih

/-- The first word of a text is its first compound. -/
theorem IsChain.exists_cons (h : IsChain (lead ++ (word ++ rest)) forms) (hlead : IsBlanks lead)
    (hne : word ≠ []) (hword : ∀ c ∈ word, Text.isBlank c = false) (hrest : AtBlank rest) :
    ∃ form forms', forms = form :: forms' ∧ IsCompound word form ∧ IsChain rest forms' := by
  have hstops : StopsBefore Text.isBlank (word ++ rest) := fun c hc =>
    hword c (mem_of_mem_head?_append hne hc)
  generalize hwhole : lead ++ (word ++ rest) = whole at h
  induction h using IsChain.induction with
  | none hblanks =>
      obtain ⟨c, hc⟩ := List.exists_mem_of_ne_nil word hne
      have hblank := hblanks c (hwhole ▸ by simp [hc])
      rw [hword c hc] at hblank
      cases hblank
  | prepend hlead' hword' hrest' hchain _ =>
      obtain ⟨-, hbehind⟩ :=
        hstops.cut_unique hword'.stopsBefore_isBlank hlead hlead' hwhole
      obtain ⟨rfl, rfl⟩ :=
        hrest.cut_unique hrest' hword hword'.word.isBlank_eq_false hbehind
      exact ⟨_, _, rfl, hword', hchain⟩

theorem IsChain.respaced (h : IsChain text forms) (hspaced : Respaced text text') :
    IsChain text' forms := by
  induction hspaced generalizing forms with
  | blanks hblanks hblanks' =>
      cases h with
      | none _ => exact .none hblanks'
      | some hselector =>
          obtain ⟨lead, rest, -, hsequence, rfl⟩ := isSelector_iff.mp hselector
          exact absurd hblanks hsequence.not_isBlanks
  | word hlead hlead' hne hword hrest hrest' _ ih =>
      obtain ⟨form, forms', rfl, hcompound, hchain⟩ := h.exists_cons hlead hne hword hrest
      exact (ih hchain).prepend hlead' hcompound hrest'

theorem Selector.parse_of_respaced {text text' : String} {s : Selector}
    (hspaced : Respaced text.toList text'.toList) (h : parse text = .ok s) :
    parse text' = .ok s := by
  obtain ⟨forms, hforms, hchain, rfl⟩ := parse_eq_ok_iff_isChain.mp h
  exact parse_eq_ok_iff_isChain.mpr ⟨forms, hforms, hchain.respaced hspaced, rfl⟩

/-! ### Rules -/

namespace Stylesheet

section Same

variable {text text' : String}
  (same : ∀ s, Selector.parse text = .ok s ↔ Selector.parse text' = .ok s)
include same

theorem exists_error_of_same {e : ParseError} (h : Selector.parse text = .error e) :
    ∃ e', Selector.parse text' = .error e' := by
  cases hparse' : Selector.parse text' with
  | error e' => exact ⟨e', rfl⟩
  | ok s =>
      rw [(same s).mpr hparse'] at h
      cases h

/-- To ask for either of two texts has the same result when they describe the same selector, or
none. -/
theorem handle_eq_of_same (sheet : Stylesheet) :
    (sheet.handle text).value = (sheet.handle text').value := by
  cases hparse : Selector.parse text with
  | error e =>
      obtain ⟨e', hparse'⟩ := exists_error_of_same same hparse
      rw [handle_of_error hparse, handle_of_error hparse']
  | ok s =>
      have hparse' := (same s).mp hparse
      cases hindex : sheet.index[s.text]? with
      | some slot => rw [handle_of_indexed hparse hindex, handle_of_indexed hparse' hindex]
      | none => rw [handle_of_new hparse hindex, handle_of_new hparse' hindex]

/-- They also lead to one rule, or to none, when the second one is asked for later. -/
theorem leadsTo_or_rejects_of_same (visits : List Visit) (writes : List Write)
    (more : List Visit) :
    (∃ slot, (run visits).LeadsTo text slot ∧
        (run (visits ++ ⟨text, writes⟩ :: more)).LeadsTo text' slot) ∨
      (run visits).Rejects text ∧ (run (visits ++ ⟨text, writes⟩ :: more)).Rejects text' := by
  cases hparse : Selector.parse text with
  | error e =>
      obtain ⟨e', hparse'⟩ := exists_error_of_same same hparse
      exact .inr ⟨rejects_of_error _ hparse, rejects_of_error _ hparse'⟩
  | ok s =>
      have hparse' := (same s).mp hparse
      exact .inl ((leadsTo_same_iff visits text text' writes more).mpr ⟨s, hparse, hparse'⟩)

end Same

/-- A text in lower case is read as the text is, with the same error if there is one. With other
blanks between its words a text describes the same selector, if it describes any. In both cases
the two texts stand for each other in every sheet. To ask for one is to ask for the other, and
asked for one after the other, at whatever times, they have one rule or are both rejected. -/
theorem spelling_immaterial (text : String) :
    Selector.parse text.toLower = Selector.parse text ∧
    (∀ text', Respaced text.toList text'.toList →
      ∀ s, Selector.parse text = .ok s ↔ Selector.parse text' = .ok s) ∧
    ∀ text', text' = text.toLower ∨ Respaced text.toList text'.toList →
      (∀ sheet : Stylesheet, (sheet.handle text).value = (sheet.handle text').value) ∧
      ∀ visits writes more,
        (∃ slot, (run visits).LeadsTo text slot ∧
            (run (visits ++ ⟨text, writes⟩ :: more)).LeadsTo text' slot) ∨
          (run visits).Rejects text ∧
            (run (visits ++ ⟨text, writes⟩ :: more)).Rejects text' := by
  have respaced : ∀ text', Respaced text.toList text'.toList →
      ∀ s, Selector.parse text = .ok s ↔ Selector.parse text' = .ok s := fun text' hspaced s =>
    ⟨Selector.parse_of_respaced hspaced, Selector.parse_of_respaced hspaced.symm⟩
  refine ⟨Selector.parse_toLower text, respaced, fun text' spelled => ?_⟩
  have same : ∀ s, Selector.parse text = .ok s ↔ Selector.parse text' = .ok s := by
    obtain rfl | hspaced := spelled
    · intro s
      rw [Selector.parse_toLower]
    · exact respaced text' hspaced
  exact ⟨handle_eq_of_same same, leadsTo_or_rejects_of_same same⟩

/-- A tabulator, and a wide blank at the end, in the place of one space. -/
theorem spelling_immaterial_wide_blank :
    Respaced "Window.MAIN :Hover".toList "Window.MAIN\t:Hover\u3000".toList ∧
    (∃ s, Selector.parse "Window.MAIN :Hover" = .ok s ∧
      Selector.parse "Window.MAIN\t:Hover\u3000" = .ok s) ∧
    ∀ sheet : Stylesheet, (sheet.handle "Window.MAIN :Hover").value =
      (sheet.handle "Window.MAIN\t:Hover\u3000").value := by
  obtain ⟨space, tab, wide⟩ : IsBlanks [' '] ∧ IsBlanks ['\t'] ∧ IsBlanks ['\u3000'] := by
    decide +kernel
  have window : ∀ c ∈ "Window.MAIN".toList, Text.isBlank c = false := by
    simp
    decide
  have hover : ∀ c ∈ ":Hover".toList, Text.isBlank c = false := by
    simp
    decide
  have behind : Respaced ([' '] ++ (":Hover".toList ++ []))
      (['\t'] ++ (":Hover".toList ++ ['\u3000'])) :=
    .word space tab (by decide) hover atBlank_nil wide.atBlank (.blanks isBlanks_nil wide)
  have whole : Respaced ([] ++ ("Window.MAIN".toList ++ ([' '] ++ (":Hover".toList ++ []))))
      ([] ++ ("Window.MAIN".toList ++ (['\t'] ++ (":Hover".toList ++ ['\u3000'])))) :=
    .word isBlanks_nil isBlanks_nil (by decide) window (space.atBlank_append (by simp))
      (tab.atBlank_append (by simp)) behind
  have hspaced : Respaced "Window.MAIN :Hover".toList "Window.MAIN\t:Hover\u3000".toList := whole
  have hparse : Selector.parse "Window.MAIN :Hover" =
      .ok ⟨[⟨some "window", ["main"], []⟩, ⟨none, [], ["hover"]⟩]⟩ := by decide +kernel
  obtain ⟨-, respaced, rules⟩ := spelling_immaterial "Window.MAIN :Hover"
  exact ⟨hspaced, ⟨_, hparse, (respaced _ hspaced _).mp hparse⟩, (rules _ (.inr hspaced)).1⟩

end Stylesheet
end StyleCascade
