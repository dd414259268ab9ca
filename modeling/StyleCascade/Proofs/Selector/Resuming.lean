import StyleCascade.Proofs.Selector.Joining

/-!
# Reading on

A reader can be asked for a selector again, and reads on from where it stopped. It then gives what
the rest of the text gives when read alone, with the places of errors counted from the start of the
whole text (`Cursor.selector_eq_parse`). So all depends on where a reading stops (`Cursor.Reads`):
at the end of the text if it gives a selector or finds nothing to read, and otherwise at the place
that its error reports.

An unexpected character is not passed, and is in the way for good. A missing name is no obstacle:
the mark in front of its place is passed, and there are no more such errors than marks. In the end
every reading gives the same (`Cursor.readings_settle`).
-/

namespace StyleCascade
namespace Cursor

variable {c next stop stop' : Cursor} {front run run' : List Char} {e : ParseError} {k : Compound}
variable {rule : List Char → Prop} {ch : Char} {rest : List Char}

/-! ### Where an error leaves the reader -/

/-- A place is told by the number of bytes in front of it. -/
theorem Passes.eq_of_pos_eq (h : c.Passes run stop) (h' : c.Passes run' stop')
    (hpos : stop.pos = stop'.pos) : stop = stop' := by
  have shorter : ∀ {run run' : List Char}, run <+: run' → utf8Length run = utf8Length run' →
      run = run' := by
    rintro run _ ⟨more, rfl⟩ hlength
    cases more with
    | nil => exact (List.append_nil run).symm
    | cons ch more =>
        have := ch.utf8Size_pos
        rw [utf8Length_append, utf8Length_cons] at hlength
        omega
  have hlength : utf8Length run = utf8Length run' :=
    Nat.add_left_cancel (h.pos_eq.symm.trans (hpos.trans h'.pos_eq))
  have hrun : run = run' := by
    obtain hle | hge := List.prefix_or_prefix_of_prefix ⟨_, h.rest_eq.symm⟩ ⟨_, h'.rest_eq.symm⟩
    · exact shorter hle hlength
    · exact (shorter hge hlength.symm).symm
  exact h.unique (hrun ▸ h')

/-- A reader has moved on to the place that its error reports. -/
structure Reports (c : Cursor) (e : ParseError) (stop : Cursor) : Prop where
  passes : ∃ run, c.Passes run stop
  pos? : e.pos? = some stop.pos

theorem Reports.behind (h : next.Reports e stop) (hfront : c.Passes front next) :
    c.Reports e stop := by
  obtain ⟨run, hpasses⟩ := h.passes
  exact ⟨⟨front ++ run, hfront.trans hpasses⟩, h.pos?⟩

theorem name_reports (h : c.name = (.error e, stop)) : c.Reports e stop := by
  rw [name] at h
  split at h
  · cases h
    exact ⟨⟨[], .refl _⟩, rfl⟩
  · cases h

theorem tests_reports (h : c.tests k = (.error e, stop)) : c.Reports e stop := by
  fun_induction Cursor.tests k c with
  | case1 | case2 => cases h
  | case3 k c ch rest hrest hblank hkind =>
      cases h
      exact ⟨⟨[], .refl _⟩, rfl⟩
  | case4 k c ch rest hrest _ kind hkind e' stop' hn =>
      cases h
      have hmark : c.Passes [ch] ⟨c.pos + ch.utf8Size, rest⟩ := ⟨hrest, rfl⟩
      exact (name_reports hn).behind hmark
  | case5 k c ch rest hrest _ kind hkind n next hn ih =>
      have hmark : c.Passes [ch] ⟨c.pos + ch.utf8Size, rest⟩ := ⟨hrest, rfl⟩
      obtain ⟨letters, -, -, hletters, -⟩ := name_eq_ok_iff.mp hn
      exact (ih h).behind (hmark.trans hletters)

theorem compound_reports (h : c.compound = (.error e, stop)) : c.Reports e stop := by
  rw [Cursor.compound] at h
  split at h
  next n next hn =>
    obtain ⟨letters, -, -, hletters, -⟩ := name_eq_ok_iff.mp hn
    exact (tests_reports h).behind hletters
  · exact tests_reports h

theorem compounds_reports (h : c.compounds = (.error e, stop)) : c.Reports e stop := by
  fun_induction compounds c with
  | case1 | case4 => cases h
  | case2 c ch rest hcons e' stop' hk =>
      cases h
      obtain ⟨lead, -, hlead, -⟩ := skipBlanks_eq_iff.mp (Eq.refl c.skipBlanks)
      exact (compound_reports hk).behind hlead
  | case3 c ch rest hcons k next hk e' stop' hothers ih =>
      cases h
      obtain ⟨lead, -, hlead, -⟩ := skipBlanks_eq_iff.mp (Eq.refl c.skipBlanks)
      obtain ⟨word, -, -, -, hword, -⟩ := compound_eq_ok_iff.mp hk
      exact (ih hothers).behind (hlead.trans hword)

theorem selector_reports (h : c.selector = (.error e, stop)) (he : e ≠ .empty) :
    c.Reports e stop := by
  rw [Cursor.selector] at h
  split at h
  next hks =>
    cases h
    exact compounds_reports hks
  · cases h
    exact absurd rfl he
  · cases h

/-- Where there is nothing to read all of the text is passed. -/
theorem passes_of_selector_eq_empty (h : c.selector = (.error .empty, stop)) :
    c.Passes c.rest stop := by
  rw [Cursor.selector] at h
  split at h
  next hks =>
    cases h
    cases (compounds_reports hks).pos?
  next hks =>
    cases h
    exact (compounds_eq_ok_iff.mp hks).1
  · cases h

/-! ### One reading -/

/-- An error at a place further on is that of the rest of the text alone. -/
theorem Fails.earlier (h : c.Fails rule e) :
    ∃ e', (⟨0, c.rest⟩ : Cursor).Fails rule e' ∧ e = e'.later c.pos := by
  have alone : ∀ {run stop}, c.Passes run stop →
      (⟨0, c.rest⟩ : Cursor).Passes run ⟨utf8Length run, stop.rest⟩ :=
    fun hpasses => ⟨hpasses.rest_eq, (Nat.zero_add _).symm⟩
  cases h with
  | unexpected hrun hpasses hrest hch =>
      refine ⟨_, .unexpected hrun (alone hpasses) hrest hch, ?_⟩
      rw [ParseError.later, hpasses.pos_eq, Nat.add_comm]
  | expected hrun hpasses hstops =>
      refine ⟨_, .expected hrun (alone hpasses) hstops, ?_⟩
      rw [ParseError.later, hpasses.pos_eq, Nat.add_comm]

/-- A reading gives what the rest of the text gives alone. -/
theorem selector_eq_parse (c : Cursor) :
    c.selector.1 = (Selector.parse (String.ofList c.rest)).mapError (ParseError.later c.pos) := by
  have hrest : (String.ofList c.rest).toList = c.rest := String.toList_ofList
  cases hread : c.selector with | mk result stop
  cases result with
  | ok s =>
      obtain ⟨-, hforms⟩ := selector_eq_ok_iff.mp hread
      rw [Selector.parse_eq_ok_iff.mpr (hrest.symm ▸ hforms)]
      rfl
  | error e =>
      obtain ⟨hblanks, rfl⟩ | fails := selector_eq_error hread
      · rw [Selector.parse_eq_empty_iff.mpr (hrest.symm ▸ hblanks)]
        rfl
      · obtain ⟨e', fails', rfl⟩ := fails.earlier
        rw [← hrest] at fails'
        rw [Selector.parse_eq_of_fails fails']
        rfl

/-- What a reading gives, and where it stops. -/
inductive Reads (c : Cursor) : Except ParseError Selector → Cursor → Prop where
  /-- A selector goes up to the end. -/
  | selector {s : Selector} {stop : Cursor} : c.Passes c.rest stop → Reads c (.ok s) stop
  /-- So does the search for one. -/
  | nothing {stop : Cursor} : c.Passes c.rest stop → Reads c (.error .empty) stop
  /-- A character that does not belong is still ahead. -/
  | unexpected {run rest : List Char} {ch : Char} {stop : Cursor} : c.Passes run stop →
      stop.rest = ch :: rest → IsForeign ch → Reads c (.error (.unexpectedChar ch stop.pos)) stop
  /-- A mark without a name is behind. -/
  | expected {run : List Char} {kind : TestKind} {stop : Cursor} :
      c.Passes (run ++ [kind.mark]) stop → Reads c (.error (.expectedName stop.pos)) stop

theorem reads_selector (c : Cursor) : c.Reads c.selector.1 c.selector.2 := by
  cases hread : c.selector with | mk result stop
  cases result with
  | ok s => exact .selector (selector_eq_ok_iff.mp hread).1
  | error e =>
      obtain ⟨-, rfl⟩ | fails := selector_eq_error hread
      · exact .nothing (passes_of_selector_eq_empty hread)
      · -- The reason tells a place, and there is only one with as many bytes in front of it.
        cases fails with
        | @unexpected run rest ch reported _ hpasses hrest hch =>
            obtain ⟨⟨run', hstop⟩, hpos⟩ := selector_reports hread nofun
            obtain rfl := hpasses.eq_of_pos_eq hstop (Option.some.inj hpos)
            exact .unexpected hpasses hrest hch
        | @expected run kind reported _ hpasses _ =>
            obtain ⟨⟨run', hstop⟩, hpos⟩ := selector_reports hread nofun
            obtain rfl := hpasses.eq_of_pos_eq hstop (Option.some.inj hpos)
            exact .expected hpasses

theorem Reads.passes {result : Except ParseError Selector} (h : c.Reads result stop) :
    ∃ run, c.Passes run stop := by
  cases h with
  | selector hpasses | nothing hpasses => exact ⟨_, hpasses⟩
  | unexpected hpasses _ _ => exact ⟨_, hpasses⟩
  | expected hpasses => exact ⟨_, hpasses⟩

theorem Passes.rest_eq_nil (h : c.Passes c.rest stop) : stop.rest = [] :=
  List.append_right_eq_self.mp h.rest_eq.symm

/-- A selector, or none, is read up to the end. -/
theorem Reads.rest_eq_nil {result : Except ParseError Selector} (h : c.Reads result stop)
    (hend : result = .error .empty ∨ ∃ s, result = .ok s) : stop.rest = [] := by
  cases h with
  | selector hpasses | nothing hpasses => exact hpasses.rest_eq_nil
  | unexpected | expected => simp at hend

/-- Every other error reports the place. -/
theorem Reads.pos? (h : c.Reads (.error e) stop) (he : e ≠ .empty) : e.pos? = some stop.pos := by
  cases h with
  | nothing => exact absurd rfl he
  | unexpected | expected => rfl

/-- At the end there is nothing to read. -/
theorem selector_of_rest_nil (h : c.rest = []) : c.selector = (.error .empty, c) := by
  have hskip : c.skipBlanks = c := skipBlanks_eq_iff.mpr
    ⟨[], isBlanks_nil, .refl c, by rw [h]; exact stopsBefore_nil⟩
  have hks := compounds_of_skipBlanks_nil (hskip.symm ▸ h)
  rw [Cursor.selector, hks, hskip]

/-- A character that does not belong is not passed. -/
theorem selector_of_isForeign (hrest : c.rest = ch :: rest) (hch : IsForeign ch) :
    c.selector = (.error (.unexpectedChar ch c.pos), c) := by
  have nothing : ∃ forms, IsChain ([] : List Char) forms := ⟨[], .none isBlanks_nil⟩
  have fails : (Cursor.ofText (String.ofList c.rest)).Fails
      (fun run => ∃ forms, IsChain run forms) (.unexpectedChar ch 0) :=
    .unexpected nothing (.refl _) (String.toList_ofList.trans hrest) hch
  have herror : c.selector.1 = .error (.unexpectedChar ch (0 + c.pos)) := by
    rw [selector_eq_parse, Selector.parse_eq_of_fails fails]
    rfl
  rw [Nat.zero_add] at herror
  have hread : c.selector = (.error (.unexpectedChar ch c.pos), c.selector.2) := Prod.ext herror rfl
  obtain ⟨⟨run, hstop⟩, hpos⟩ := selector_reports hread nofun
  rw [hread, ← (Passes.refl c).eq_of_pos_eq hstop (Option.some.inj hpos)]

/-! ### One reading after the other -/

def after (c : Cursor) (count : Nat) : Cursor := (fun c : Cursor => c.selector.2)^[count] c

/-- What is read after a number of readings. -/
def reading (c : Cursor) (count : Nat) : Except ParseError Selector := (c.after count).selector.1

theorem after_succ (c : Cursor) (count : Nat) :
    c.after (count + 1) = (c.after count).selector.2 :=
  Function.iterate_succ_apply' _ count c

theorem reading_succ (c : Cursor) (count : Nat) :
    c.reading (count + 1) = c.selector.2.reading count := by
  rw [reading, after, Function.iterate_succ_apply]
  rfl

theorem selectors_eq (c : Cursor) (count : Nat) :
    c.selectors count = (List.range count).map c.reading := by
  induction count generalizing c with
  | zero => rfl
  | succ count ih =>
      rw [selectors, ih, List.range_succ_eq_map, List.map_cons, List.map_map]
      simp only [Function.comp_def, Nat.succ_eq_add_one, reading_succ]
      rfl

/-- The place after any number of readings is one in the text. -/
theorem exists_passes_after (c : Cursor) (count : Nat) : ∃ run, c.Passes run (c.after count) := by
  induction count with
  | zero => exact ⟨[], .refl c⟩
  | succ count ih =>
      obtain ⟨run, hrun⟩ := ih
      obtain ⟨run', hrun'⟩ := (c.after count).reads_selector.passes
      rw [after_succ]
      exact ⟨run ++ run', hrun.trans hrun'⟩

/-- A reader that stays where it is gives the same every time. -/
theorem reading_of_selector_eq {result : Except ParseError Selector}
    (h : c.selector = (result, c)) (count : Nat) : c.reading count = result := by
  have hstay : c.after count = c := Function.iterate_fixed (congrArg Prod.snd h) count
  rw [reading, hstay, h]

/-- What a reader gives in the end. -/
inductive Settled (result : Nat → Except ParseError Selector) : Prop where
  /-- There is nothing more to read. -/
  | exhausted : (∀ i, result i = .error .empty) → Settled result
  /-- One selector is read, and then there is nothing more. -/
  | last {s : Selector} : result 0 = .ok s → (∀ i, result (i + 1) = .error .empty) →
      Settled result
  /-- A character is in the way. -/
  | stuck {ch : Char} {pos : Nat} : (∀ i, result i = .error (.unexpectedChar ch pos)) →
      Settled result

theorem Settled.constant {result : Nat → Except ParseError Selector} (h : Settled result)
    (i : Nat) : result (i + 1) = result 1 := by
  cases h with
  | exhausted h => rw [h, h]
  | last _ h => rw [h i, h 0]
  | stuck h => rw [h, h]

def marks (text : List Char) : Nat := text.countP fun c => c == '.' || c == ':'

theorem marks_append (front back : List Char) : marks (front ++ back) = marks front + marks back :=
  List.countP_append

theorem marks_mark (kind : TestKind) : marks [kind.mark] = 1 := by
  cases kind <;> rfl

/-- The places of missing names, and what comes behind them. Each reading that misses a name has
passed a mark. -/
theorem exists_places (c : Cursor) : ∃ places : List Nat, (∀ pos ∈ places, c.pos < pos) ∧
    places.Pairwise (· < ·) ∧ places.length ≤ marks c.rest ∧
    (∀ i pos, places[i]? = some pos → c.reading i = .error (.expectedName pos)) ∧
    Settled fun i => c.reading (places.length + i) := by
  induction hcount : marks c.rest using Nat.strong_induction_on generalizing c with | _ count ih
  cases hread : c.selector with | mk result stop
  have first : c.reading 0 = result := congrArg Prod.fst hread
  have later : ∀ i, c.reading (i + 1) = stop.reading i := by
    intro i
    rw [reading_succ, hread]
  have reads : c.Reads result stop := by
    simpa only [hread] using c.reads_selector
  cases reads with
  | selector hpasses =>
      have atEnd := selector_of_rest_nil hpasses.rest_eq_nil
      have exhausted : ∀ i, c.reading (i + 1) = .error .empty :=
        fun i => (later i).trans (reading_of_selector_eq atEnd i)
      exact ⟨[], nofun, .nil, Nat.zero_le _, nofun,
        .last (by simpa using first) (by simpa using exhausted)⟩
  | nothing hpasses =>
      have atEnd := selector_of_rest_nil hpasses.rest_eq_nil
      have exhausted : ∀ i, c.reading i = .error .empty := by
        intro i
        cases i with
        | zero => exact first
        | succ i => exact (later i).trans (reading_of_selector_eq atEnd i)
      exact ⟨[], nofun, .nil, Nat.zero_le _, nofun, .exhausted (by simpa using exhausted)⟩
  | @unexpected _ _ ch _ _ hrest hch =>
      have inTheWay := selector_of_isForeign hrest hch
      have stuck : ∀ i, c.reading i = .error (.unexpectedChar ch stop.pos) := by
        intro i
        cases i with
        | zero => exact first
        | succ i => exact (later i).trans (reading_of_selector_eq inTheWay i)
      exact ⟨[], nofun, .nil, Nat.zero_le _, nofun, .stuck (by simpa using stuck)⟩
  | @expected run kind _ hpasses =>
      have fewer : marks c.rest = marks run + 1 + marks stop.rest := by
        rw [hpasses.rest_eq, marks_append, marks_append, marks_mark]
      obtain ⟨places, above, ascending, few, missing, settled⟩ :=
        ih (marks stop.rest) (by omega) stop rfl
      have behind : c.pos < stop.pos := by
        have := kind.mark.utf8Size_pos
        rw [hpasses.pos_eq, utf8Length_append, utf8Length_cons]
        omega
      refine ⟨stop.pos :: places, ?_, List.pairwise_cons.mpr ⟨above, ascending⟩, ?_, ?_, ?_⟩
      · intro pos hpos
        rcases List.mem_cons.mp hpos with rfl | hpos
        · exact behind
        · exact behind.trans (above pos hpos)
      · rw [List.length_cons]
        omega
      · intro i pos hi
        cases i with
        | zero =>
            obtain rfl : stop.pos = pos := by simpa using hi
            exact first
        | succ i => exact (later i).trans (missing i pos (by simpa using hi))
      · simpa [List.length_cons, Nat.add_right_comm _ 1, later] using settled

/-- One reader asked again and again. Each time it gives what the rest of the text gives when read
alone, with its place added to that of an error. A selector, or none, takes it to the end of the
text, and any other error to the place that it reports. So there come some missing names at first,
each further on than the one before and each behind a mark of its own, and then nothing new: either
a selector, or none, and then nothing more to read, or a character that is in the way every time. -/
theorem readings_settle (text : String) :
    let place := (ofText text).after
    let result := (ofText text).reading
    (∀ count, (ofText text).selectors count = (List.range count).map result) ∧
    (∀ i, ∃ front, text.toList = front ++ (place i).rest ∧ (place i).pos = utf8Length front ∧
      result i = (Selector.parse (String.ofList (place i).rest)).mapError
        (ParseError.later (place i).pos)) ∧
    (∀ i, (∀ s, result i = .ok s → (place (i + 1)).pos = text.utf8ByteSize) ∧
      (result i = .error .empty → (place (i + 1)).pos = text.utf8ByteSize) ∧
      ∀ e, result i = .error e → e ≠ .empty → e.pos? = some (place (i + 1)).pos) ∧
    (∃ places : List Nat, places.Pairwise (· < ·) ∧ places.length ≤ marks text.toList ∧
      (∀ i pos, places[i]? = some pos → result i = .error (.expectedName pos)) ∧
      Settled fun i => result (places.length + i)) ∧
    ∀ i, marks text.toList < i → result i = result (marks text.toList + 1) := by
  intro place result
  have passed : ∀ i, ∃ front, text.toList = front ++ (place i).rest ∧
      (place i).pos = utf8Length front := by
    intro i
    obtain ⟨front, hfront⟩ := (ofText text).exists_passes_after i
    exact ⟨front, hfront.rest_eq, hfront.pos_eq.trans (Nat.zero_add _)⟩
  obtain ⟨places, -, ascending, few, missing, settled⟩ := (ofText text).exists_places
  refine ⟨selectors_eq _, fun i => ?rest, fun i => ?stops, ⟨places, ascending, few, missing,
    settled⟩, fun i hi => ?constant⟩
  case rest =>
    obtain ⟨front, hfront, hpos⟩ := passed i
    exact ⟨front, hfront, hpos, (place i).selector_eq_parse⟩
  case stops =>
    have atEnd : (place (i + 1)).rest = [] → (place (i + 1)).pos = text.utf8ByteSize := by
      intro hrest
      obtain ⟨front, hfront, hpos⟩ := passed (i + 1)
      rw [hrest, List.append_nil] at hfront
      rw [hpos, utf8Length_eq, ← hfront, String.ofList_toList]
    have reads : (place i).Reads (result i) (place (i + 1)) := by
      have hnext : place (i + 1) = (place i).selector.2 := after_succ _ i
      rw [hnext]
      exact (place i).reads_selector
    refine ⟨fun s hs => atEnd ?_, fun he => atEnd ?_, fun e he hne => ?_⟩
    · exact reads.rest_eq_nil (.inr ⟨s, hs⟩)
    · exact reads.rest_eq_nil (.inl he)
    · exact (he ▸ reads).pos? hne
  case constant =>
    have same : ∀ i, marks text.toList < i → result i = result (places.length + 1) := by
      intro i hi
      obtain ⟨j, rfl⟩ := Nat.exists_eq_add_of_lt (Nat.lt_of_le_of_lt few hi)
      exact settled.constant j
    rw [same i hi, same _ (Nat.lt_succ_self _)]

/-- A dangling full stop behind a letter of two bytes is passed, and the selector behind it read. -/
theorem readings_settle_dangling :
    (ofText "é. .a").reading 0 = .error (.expectedName 3) ∧
    (ofText "é. .a").reading 1 = .ok ⟨[{ classes := ["a"] }]⟩ ∧
    ((ofText "é. .a").after 1).pos = 3 ∧ ((ofText "é. .a").after 2).pos = 6 ∧
    ∀ i, 2 < i → (ofText "é. .a").reading i = .error .empty := by
  have dangling : (ofText "é. .a").reading 0 = .error (.expectedName 3) := by decide +kernel
  have behind : (ofText "é. .a").reading 1 = .ok ⟨[{ classes := ["a"] }]⟩ := by decide +kernel
  have last : (ofText "é. .a").reading 3 = .error .empty := by decide +kernel
  obtain ⟨-, -, stops, -, constant⟩ := readings_settle "é. .a"
  have first : some 3 = some ((ofText "é. .a").after 1).pos := (stops 0).2.2 _ dangling nofun
  exact ⟨dangling, behind, (Option.some.inj first).symm, (stops 1).1 _ behind,
    fun i hi => (constant i hi).trans last⟩

end Cursor
end StyleCascade
