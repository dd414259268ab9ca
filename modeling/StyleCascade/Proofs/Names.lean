import Mathlib.Data.List.DropRight
import Mathlib.Data.List.Induction
import StyleCascade.Text.Basic

/-!
# Names and lists of names

A name is stored without blanks at its ends and in lower case, and in a list of names only once.
What the three steps do to a text or to a list can be told of each on its own.
-/

namespace StyleCascade.Text

/-!
## Lower case

Only the capital letters of ASCII have another form in lower case, the letter 0x20 code points
further on. So a text in lower case has its names, its blanks and all other characters in the same
places, and to put it in lower case once more changes nothing.
-/

theorem toNat_toLower (c : Char) :
    c.toLower.toNat = if 0x41 ≤ c.toNat ∧ c.toNat ≤ 0x5A then c.toNat + 0x20 else c.toNat := by
  have hupper : c.val ≥ 'A'.val ∧ c.val ≤ 'Z'.val ↔ 0x41 ≤ c.toNat ∧ c.toNat ≤ 0x5A := Iff.rfl
  delta Char.toLower
  split
  next h =>
    have hlast := (hupper.mp h).2
    rw [if_pos (hupper.mp h)]
    change (c.val + 0x20).toNat = c.toNat + 0x20
    rw [UInt32.toNat_add, Char.toNat_val]
    change (c.toNat + 0x20) % 2 ^ 32 = c.toNat + 0x20
    omega
  next h => rw [if_neg fun h' => h (hupper.mpr h')]

theorem toLower_toLower_char (c : Char) : c.toLower.toLower = c.toLower := by
  rw [← Char.toNat_inj, toNat_toLower c.toLower, if_neg]
  rw [toNat_toLower]
  split <;> omega

/-- A character is kept, unless it and its form in lower case are letters of ASCII. -/
theorem toLower_cases (c : Char) : c.toLower = c ∨ (isNameChar c = true ∧ c.utf8Size = 1) ∧
    isNameChar c.toLower = true ∧ c.toLower.utf8Size = 1 := by
  have letter : ∀ {d : Char} {r}, r ∈ alphanumerics.intervals → r.1 ≤ d.toNat → d.toNat ≤ r.2 →
      d.toNat ≤ 127 → isNameChar d = true ∧ d.utf8Size = 1 := by
    intro d r hr hfirst hlast hascii
    have := (CodePoints.contains_iff alphanumerics_ascending d).mpr ⟨r, hr, hfirst, hlast⟩
    rw [isNameChar, isAlphanumeric, this]
    exact ⟨rfl, Char.utf8Size_eq_one_iff.mpr hascii⟩
  have hlower := toNat_toLower c
  split at hlower
  next hupper =>
    right
    constructor
    · exact letter (r := (0x41, 0x5A)) (by decide) hupper.1 hupper.2 (by omega)
    · exact letter (r := (0x61, 0x7A)) (by decide) (by omega) (by omega) (by omega)
  · exact .inl (Char.toNat_inj.mp hlower)

/-- The letters of ASCII are characters of names in either case. -/
theorem isNameChar_toLower (c : Char) : isNameChar c.toLower = isNameChar c := by
  obtain hkept | ⟨⟨hname, -⟩, hname', -⟩ := toLower_cases c
  · rw [hkept]
  · rw [hname, hname']

theorem toLower_of_isNameChar_eq_false {c : Char} (h : isNameChar c = false) : c.toLower = c := by
  obtain hkept | ⟨⟨hname, -⟩, -⟩ := toLower_cases c
  · exact hkept
  · rw [h] at hname
    cases hname

theorem utf8Size_toLower (c : Char) : c.toLower.utf8Size = c.utf8Size := by
  obtain hkept | ⟨⟨-, hsize⟩, -, hsize'⟩ := toLower_cases c
  · rw [hkept]
  · rw [hsize, hsize']

theorem isBlank_toLower (c : Char) : isBlank c.toLower = isBlank c := by
  obtain hkept | ⟨⟨hname, -⟩, hname', -⟩ := toLower_cases c
  · rw [hkept]
  · rw [isBlank_of_isNameChar hname, isBlank_of_isNameChar hname']

theorem toList_toLower (s : String) : s.toLower.toList = s.toList.map Char.toLower :=
  String.toList_map

theorem toLower_toLower (s : String) : s.toLower.toLower = s.toLower := by
  rw [← String.toList_inj, toList_toLower, toList_toLower, List.map_map]
  exact List.map_congr_left fun c _ => toLower_toLower_char c

/-!
## Trimmed texts

A text is trimmed when neither its first nor its last character is blank. Cutting the blanks at both
ends trims a text (`trimmed_trim`) and leaves alone what is trimmed already (`trim_eq_self_iff`). It
does not matter whether a text is put in lower case before or after, since blanks are in the same
places in either case (`trim_toLower`).
-/

variable {s : String}

structure Trimmed (s : String) : Prop where
  first : ∀ c, s.toList.head? = some c → isBlank c = false
  last : ∀ c, s.toList.getLast? = some c → isBlank c = false

theorem toList_trim (s : String) :
    (trim s).toList = (s.toList.dropWhile isBlank).rdropWhile isBlank := by
  rw [trim, String.toList_ofList, List.rdropWhile]

theorem isBlank_of_head?_dropWhile {l : List Char} {c : Char}
    (h : (l.dropWhile isBlank).head? = some c) : isBlank c = false := by
  have hhead := List.head?_dropWhile_not isBlank l
  rwa [h] at hhead

theorem trimmed_trim (s : String) : Trimmed (trim s) where
  first c hc := by
    -- What is cut behind leaves the first character in its place.
    rw [toList_trim] at hc
    obtain ⟨cut, hcut⟩ := List.rdropWhile_prefix isBlank (s.toList.dropWhile isBlank)
    obtain ⟨rest, hrest⟩ := List.head?_eq_some_iff.mp hc
    refine isBlank_of_head?_dropWhile (l := s.toList) ?_
    rw [← hcut, hrest]
    rfl
  last c hc := by
    rw [toList_trim, List.rdropWhile, List.getLast?_reverse] at hc
    exact isBlank_of_head?_dropWhile hc

theorem trim_eq_self_iff : trim s = s ↔ Trimmed s := by
  constructor
  · intro h
    exact h ▸ trimmed_trim s
  · intro h
    have front : s.toList.dropWhile isBlank = s.toList := by
      cases hlist : s.toList with
      | nil => rfl
      | cons c rest =>
          have hfirst := h.first c (by rw [hlist, List.head?_cons])
          rw [List.dropWhile_cons_of_neg (by rw [hfirst]; exact Bool.false_ne_true)]
    have back : s.toList.rdropWhile isBlank = s.toList := by
      rw [List.rdropWhile_eq_self_iff]
      intro hne
      rw [h.last _ (List.getLast?_eq_some_getLast hne)]
      exact Bool.false_ne_true
    rw [← String.toList_inj, toList_trim, front, back]

theorem trim_trim (s : String) : trim (trim s) = trim s :=
  trim_eq_self_iff.mpr (trimmed_trim s)

/-- A text without blanks has none to cut. -/
theorem trim_of_isBlank_eq_false (h : ∀ c ∈ s.toList, isBlank c = false) : trim s = s :=
  trim_eq_self_iff.mpr
    ⟨fun c hc => h c (List.mem_of_head? hc), fun c hc => h c (List.mem_of_getLast? hc)⟩

theorem trimmed_toLower : Trimmed s.toLower ↔ Trimmed s := by
  have ends : ∀ a : Option Char,
      (∀ c, a.map Char.toLower = some c → isBlank c = false) ↔
        ∀ c, a = some c → isBlank c = false := by
    intro a
    cases a with
    | none => simp
    | some c => simp [isBlank_toLower]
  constructor
  · rintro ⟨first, last⟩
    rw [toList_toLower, List.head?_map, ends] at first
    rw [toList_toLower, List.getLast?_map, ends] at last
    exact ⟨first, last⟩
  · rintro ⟨first, last⟩
    refine ⟨?_, ?_⟩
    · rwa [toList_toLower, List.head?_map, ends]
    · rwa [toList_toLower, List.getLast?_map, ends]

theorem trim_toLower (s : String) : trim s.toLower = (trim s).toLower := by
  have same : isBlank ∘ Char.toLower = isBlank := funext isBlank_toLower
  rw [← String.toList_inj, toList_trim, toList_toLower, toList_toLower, toList_trim,
    List.dropWhile_map, same, List.rdropWhile, ← List.map_reverse, List.dropWhile_map, same,
    ← List.map_reverse, List.rdropWhile]

end StyleCascade.Text

namespace StyleCascade

/-!
## Lists without repetitions

Tests, classes and rules are kept in lists to which an entry is added only when it is new. A list
that is filled in this way has each entry once, at the place of its first occurrence
(`foldl_addNew`).
-/

variable {α : Type} {l : List α} {a b : α}

/-- Entries keep their places when a list goes on. -/
theorem getElem?_of_prefix {l' : List α} {i : Nat} (h : l <+: l') (ha : l[i]? = some a) :
    l'[i]? = some a := by
  obtain ⟨hlt, rfl⟩ := List.getElem?_eq_some_iff.mp ha
  exact List.prefix_iff_getElem?.mp h i hlt

variable [DecidableEq α]

/-- Add an entry at the end of a list, unless it is there. -/
def addNew (l : List α) (a : α) : List α := if a ∈ l then l else l ++ [a]

theorem mem_addNew : b ∈ addNew l a ↔ b ∈ l ∨ b = a := by
  rw [addNew]
  split
  next ha => exact ⟨.inl, fun h => h.elim id fun heq => heq ▸ ha⟩
  · rw [List.mem_append, List.mem_singleton]

theorem nodup_addNew (h : l.Nodup) : (addNew l a).Nodup := by
  rw [addNew]
  split
  · exact h
  next ha =>
    rw [List.nodup_append]
    refine ⟨h, List.pairwise_singleton _ a, fun b hb c hc heq => ?_⟩
    obtain rfl := List.mem_singleton.mp hc
    exact ha (heq ▸ hb)

theorem prefix_addNew (l : List α) (a : α) : l <+: addNew l a := by
  rw [addNew]
  split
  · exact List.prefix_refl l
  · exact List.prefix_append l [a]

theorem prefix_foldl_addNew (l added : List α) : l <+: added.foldl addNew l := by
  induction added generalizing l with
  | nil => exact List.prefix_refl l
  | cons a added ih => exact (prefix_addNew l a).trans (ih (addNew l a))

/-- Entries that are added one by one are kept where they first occur. -/
theorem foldl_addNew (l : List α) : l.foldl addNew [] = l.eraseDups := by
  induction l using List.reverseRecOn with
  | nil => rfl
  | append_singleton l a ih =>
      rw [List.foldl_append, List.foldl_cons, List.foldl_nil, ih, List.eraseDups_append, addNew]
      by_cases ha : a ∈ l
      · simp [ha, List.removeAll]
      · simp [ha, List.removeAll, List.eraseDups_cons]

theorem nodup_eraseDups (l : List α) : l.eraseDups.Nodup := by
  rw [← foldl_addNew]
  induction l using List.reverseRecOn with
  | nil => exact List.nodup_nil
  | append_singleton l a ih =>
      rw [List.foldl_append]
      exact nodup_addNew ih

theorem eraseDups_of_nodup (h : l.Nodup) : l.eraseDups = l := by
  rw [← foldl_addNew]
  induction l using List.reverseRecOn with
  | nil => rfl
  | append_singleton l a ih =>
      obtain ⟨hl, -, hapart⟩ := List.nodup_append.mp h
      rw [List.foldl_append, ih hl]
      exact if_neg fun ha => hapart a ha a (List.mem_singleton.mpr rfl) rfl

end StyleCascade
