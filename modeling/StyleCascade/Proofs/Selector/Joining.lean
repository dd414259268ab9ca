import StyleCascade.Proofs.Selector.Failure

/-!
# Texts side by side

With blanks between them two texts are read one after the other. If both can be read, the compounds
of the second one follow those of the first one; for this a text of blanks counts as one that can be
read and has no compounds (`parse_eq_of_isChain`). Otherwise the first error is reported, and if it
is in the second text, at its place in the whole.

Blanks are needed between the texts, since a compound goes on up to the next blank. One is enough,
and it also keeps a mark at the end of the first text from taking up a name of the second one
(`Fails.append`).
-/

namespace StyleCascade

/-- An error whose place is a number of bytes further on. -/
def ParseError.later (n : Nat) : ParseError → ParseError
  | .empty => .empty
  | .unexpectedChar c pos => .unexpectedChar c (pos + n)
  | .expectedName pos => .expectedName (pos + n)

variable {text text' blanks : List Char} {forms forms' : List CompoundForm} {e : ParseError}

/-! ### Compounds -/

theorem IsBlanks.append (h : IsBlanks text) (h' : IsBlanks text') : IsBlanks (text ++ text') := by
  intro c hc
  rcases List.mem_append.mp hc with hc | hc
  · exact h c hc
  · exact h' c hc

theorem IsChain.blanks_append (h : IsChain text forms) (hblanks : IsBlanks blanks) :
    IsChain (blanks ++ text) forms := by
  cases h with
  | none hrest => exact .none (hblanks.append hrest)
  | some hselector =>
      obtain ⟨lead, rest, hlead, hsequence, rfl⟩ := isSelector_iff.mp hselector
      rw [← List.append_assoc]
      exact .some (.mk (hblanks.append hlead) hsequence)

/-- Behind a blank the compounds of another text may follow. -/
theorem IsChain.append (h : IsChain text forms) (h' : IsChain text' forms')
    (hblank : AtBlank text') : IsChain (text ++ text') (forms ++ forms') := by
  induction h using IsChain.induction with
  | none hblanks => exact h'.blanks_append hblanks
  | @prepend lead word text form forms hlead hword htext _ ih =>
      rw [List.append_assoc, List.append_assoc]
      refine ih.prepend hlead hword ?_
      cases text with
      | nil => exact hblank
      | cons c text => exact htext

theorem IsChain.append_blanks (h : IsChain text forms) (h' : IsChain text' forms')
    (hblanks : IsBlanks blanks) (hne : blanks ≠ []) :
    IsChain (text ++ blanks ++ text') (forms ++ forms') := by
  rw [List.append_assoc]
  exact h.append (h'.blanks_append hblanks) (hblanks.atBlank_append hne)

/-! ### Errors -/

namespace Cursor

variable {c : Cursor} {rule : List Char → Prop} {more : List Char}

/-- With bytes in front of it a text has the same error at a later place. -/
theorem Fails.later (h : (⟨0, text⟩ : Cursor).Fails rule e) (n : Nat) :
    (⟨n, text⟩ : Cursor).Fails rule (e.later n) := by
  have moved : ∀ {run stop}, (⟨0, text⟩ : Cursor).Passes run stop →
      (⟨n, text⟩ : Cursor).Passes run ⟨stop.pos + n, stop.rest⟩ := by
    intro run stop hpasses
    have hpos : stop.pos = 0 + utf8Length run := hpasses.pos_eq
    refine ⟨hpasses.rest_eq, ?_⟩
    change stop.pos + n = n + utf8Length run
    omega
  cases h with
  | unexpected hrun hpasses hrest hch => exact .unexpected hrun (moved hpasses) hrest hch
  | expected hrun hpasses hstops => exact .expected hrun (moved hpasses) hstops

/-- An error stays what it is when a blank and other text come behind. -/
theorem Fails.append (h : c.Fails rule e) (hblank : AtBlank more) :
    (⟨c.pos, c.rest ++ more⟩ : Cursor).Fails rule e := by
  have longer : ∀ {run stop}, c.Passes run stop →
      (⟨c.pos, c.rest ++ more⟩ : Cursor).Passes run ⟨stop.pos, stop.rest ++ more⟩ := by
    intro run stop hpasses
    refine ⟨?_, hpasses.pos_eq⟩
    rw [hpasses.rest_eq, List.append_assoc]
  cases h with
  | unexpected hrun hpasses hrest hch =>
      -- the goal only tells the place of the stop, so what is left there is fixed by the facts
      have fails := Fails.unexpected hrun (longer hpasses) (congrArg (· ++ more) hrest) hch
      exact fails
  | expected hrun hpasses hstops =>
      have hstops' := hstops.append hblank.stopsBefore_isNameChar
      have fails := Fails.expected hrun (longer hpasses) hstops'
      exact fails

end Cursor

/-! ### Whole texts -/

namespace Selector

variable {s t : String} {a b : Selector}

/-- What is read from compounds, or from none. -/
theorem parse_eq_of_isChain (h : IsChain s.toList forms) :
    parse s = if forms = [] then .error .empty else .ok ⟨forms.map CompoundForm.compound⟩ := by
  cases h with
  | none hblanks => exact parse_eq_empty_iff.mpr hblanks
  | some hselector =>
      rw [if_neg hselector.ne_nil]
      exact parse_eq_ok_iff.mpr ⟨forms, hselector, rfl⟩

theorem parse_eq_ok_iff_isChain : parse s = .ok a ↔
    ∃ forms, forms ≠ [] ∧ IsChain s.toList forms ∧ a = ⟨forms.map CompoundForm.compound⟩ := by
  constructor
  · intro h
    obtain ⟨forms, hselector, ha⟩ := parse_eq_ok_iff.mp h
    exact ⟨forms, hselector.ne_nil, .some hselector, ha⟩
  · rintro ⟨forms, hne, hchain, rfl⟩
    rw [parse_eq_of_isChain hchain, if_neg hne]

theorem fails_of_ne_empty (h : parse s = .error e) (hne : e ≠ .empty) :
    (Cursor.ofText s).Fails (fun run => ∃ forms, IsChain run forms) e := by
  obtain ⟨-, hempty⟩ | fails := isBlanks_or_fails h
  · exact absurd hempty hne
  · exact fails

/-- A text can be read as compounds, or as none, if it is read without an error or has nothing to
read in it. -/
theorem exists_isChain (h : parse s = .error .empty ∨ ∃ a, parse s = .ok a) :
    ∃ forms, IsChain s.toList forms := by
  obtain h | ⟨a, h⟩ := h
  · exact ⟨[], .none (parse_eq_empty_iff.mp h)⟩
  · obtain ⟨forms, -, hchain, -⟩ := parse_eq_ok_iff_isChain.mp h
    exact ⟨forms, hchain⟩

section Parted

variable {blanks t : String} (hblanks : IsBlanks blanks.toList) (hne : blanks ≠ "")
include hblanks hne

theorem isChain_parted (h : IsChain s.toList forms) (h' : IsChain t.toList forms') :
    IsChain (s ++ blanks ++ t).toList (forms ++ forms') := by
  rw [String.toList_append, String.toList_append]
  exact h.append_blanks h' hblanks (String.toList_eq_nil_iff.not.mpr hne)

theorem parse_parted_of_error (h : parse s = .error e) (he : e ≠ .empty) :
    parse (s ++ blanks ++ t) = .error e := by
  have hblank : AtBlank (blanks.toList ++ t.toList) :=
    hblanks.atBlank_append (String.toList_eq_nil_iff.not.mpr hne)
  apply parse_eq_of_fails
  rw [Cursor.ofText, String.toList_append, String.toList_append, List.append_assoc]
  exact (fails_of_ne_empty h he).append hblank

theorem parse_parted_of_error_right (h : IsChain s.toList forms) (h' : parse t = .error e)
    (he : e ≠ .empty) :
    parse (s ++ blanks ++ t) = .error (e.later (s ++ blanks).utf8ByteSize) := by
  have hpasses : (Cursor.ofText (s ++ blanks ++ t)).Passes (s ++ blanks).toList
      ⟨(s ++ blanks).utf8ByteSize, t.toList⟩ := by
    refine ⟨String.toList_append, ?_⟩
    rw [utf8Length_eq, String.ofList_toList]
    exact (Nat.zero_add _).symm
  apply parse_eq_of_fails
  refine ((fails_of_ne_empty h' he).later _).behind hpasses ?_
  rintro run - ⟨forms', hrun⟩
  rw [String.toList_append]
  exact ⟨_, h.append_blanks hrun hblanks (String.toList_eq_nil_iff.not.mpr hne)⟩

end Parted

/-- Two texts with blanks between them are read as the first one and then the second one; where
there is nothing to read in one of them, it is the other one that is read. An error in the first
text is the error of the whole, and so is one in the second text, at its place behind the first
text and the blanks. -/
theorem parse_parted (s blanks t : String) (hblanks : IsBlanks blanks.toList)
    (hne : blanks ≠ "") :
    (∀ a b, parse s = .ok a → parse t = .ok b →
      parse (s ++ blanks ++ t) = .ok ⟨a.compounds ++ b.compounds⟩) ∧
    (∀ a, parse s = .ok a → parse t = .error .empty → parse (s ++ blanks ++ t) = .ok a) ∧
    (∀ e, (parse s = .error .empty ∨ ∃ a, parse s = .ok a) → parse t = .error e → e ≠ .empty →
      parse (s ++ blanks ++ t) = .error (e.later (s ++ blanks).utf8ByteSize)) ∧
    (parse s = .error .empty → (parse t = .error .empty ∨ ∃ b, parse t = .ok b) →
      parse (s ++ blanks ++ t) = parse t) ∧
    ∀ e, parse s = .error e → e ≠ .empty → parse (s ++ blanks ++ t) = .error e := by
  refine ⟨?both, ?first, ?errorRight, ?second, ?error⟩
  case both =>
    intro a b hs ht
    obtain ⟨forms, hforms, hchain, rfl⟩ := parse_eq_ok_iff_isChain.mp hs
    obtain ⟨forms', -, hchain', rfl⟩ := parse_eq_ok_iff_isChain.mp ht
    refine parse_eq_ok_iff_isChain.mpr
      ⟨forms ++ forms', ?_, isChain_parted hblanks hne hchain hchain', ?_⟩
    · exact List.append_ne_nil_of_left_ne_nil hforms forms'
    · rw [List.map_append]
  case first =>
    intro a hs ht
    obtain ⟨forms, hforms, hchain, rfl⟩ := parse_eq_ok_iff_isChain.mp hs
    have hwhole := isChain_parted hblanks hne hchain (.none (parse_eq_empty_iff.mp ht))
    rw [List.append_nil] at hwhole
    exact parse_eq_ok_iff_isChain.mpr ⟨forms, hforms, hwhole, rfl⟩
  case errorRight =>
    intro e hs ht he
    obtain ⟨forms, hchain⟩ := exists_isChain hs
    exact parse_parted_of_error_right hblanks hne hchain ht he
  case second =>
    intro hs ht
    obtain ⟨forms, hchain⟩ := exists_isChain ht
    have hwhole := isChain_parted hblanks hne (.none (parse_eq_empty_iff.mp hs)) hchain
    rw [parse_eq_of_isChain hwhole, parse_eq_of_isChain hchain, List.nil_append]
  case error =>
    intro e hs he
    exact parse_parted_of_error hblanks hne hs he

/-- The letter in front takes up two bytes and the wide blank three of them, and so the name that
is missing behind the colon is missing at the tenth byte. -/
theorem parse_parted_wide_blank :
    IsBlanks "\u3000 ".toList ∧ (∃ a, parse "é.a" = .ok a) ∧
    parse "b:" = .error (.expectedName 2) ∧ parse "é.a\u3000 b:" = .error (.expectedName 10) := by
  have hblanks : IsBlanks "\u3000 ".toList := by decide +kernel
  have hs : ∃ a, parse "é.a" = .ok a := ⟨⟨[⟨some "é", ["a"], []⟩]⟩, by decide +kernel⟩
  have ht : parse "b:" = .error (.expectedName 2) := by decide +kernel
  obtain ⟨-, -, errorRight, -⟩ := parse_parted "é.a" "\u3000 " "b:" hblanks (by decide)
  exact ⟨hblanks, hs, ht, errorRight _ (.inr hs) ht nofun⟩

end Selector
end StyleCascade
