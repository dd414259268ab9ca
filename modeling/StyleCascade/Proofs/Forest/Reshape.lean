import StyleCascade.Proofs.Forest.Shape

/-!
# Taking out and putting in

`detach` erases a component from the list of its parent's children, and `attach` adds one at the
end of a list. In both cases the sibling links have to be right for every component of the list,
and what a component has to its left and to its right depends on where the list is cut. No cycle
comes into being when the component that is put in is not above its new parent.
-/

namespace StyleCascade
namespace Forest

/-- When two lists meet, each entry of the joint list is left or right of the meeting point. -/
theorem split_of_append_eq {front back left right : List ComponentId} {d : ComponentId}
    (h : front ++ back = left ++ d :: right) :
    (∃ mid, front = left ++ d :: mid ∧ right = mid ++ back) ∨
      ∃ mid, left = front ++ mid ∧ back = mid ++ d :: right := by
  obtain ⟨mid, hleft, hback⟩ | ⟨mid, hfront, hright⟩ := List.append_eq_append_iff.mp h
  · exact .inr ⟨mid, hleft, hback⟩
  · cases mid with
    | nil => exact .inr ⟨[], by simpa using hfront.symm, by simpa using hright.symm⟩
    | cons x mid =>
        obtain ⟨rfl, rfl⟩ := List.cons_eq_cons.mp hright
        exact .inl ⟨mid, hfront, rfl⟩

theorem getLast?_eq_some_iff_of_nodup {left mid : List ComponentId} {d : ComponentId}
    (h : (left ++ d :: mid).Nodup) : (left ++ d :: mid).getLast? = some d ↔ mid = [] := by
  constructor
  · intro hlast
    rw [List.getLast?_append_cons] at hlast
    cases mid with
    | nil => rfl
    | cons x mid =>
        rw [List.getLast?_cons_cons] at hlast
        exact absurd (List.mem_of_getLast? hlast) (List.nodup_cons.mp h.of_append_right).1
  · rintro rfl
    exact List.getLast?_concat ..

theorem head?_eq_some_iff_of_nodup {mid right : List ComponentId} {d : ComponentId}
    (h : (mid ++ d :: right).Nodup) : (mid ++ d :: right).head? = some d ↔ mid = [] := by
  constructor
  · intro hhead
    cases mid with
    | nil => rfl
    | cons x mid =>
        obtain rfl : x = d := Option.some.inj hhead
        exact absurd (List.mem_append_right mid List.mem_cons_self) (List.nodup_cons.mp h).1
  · rintro rfl
    rfl

namespace Shape

variable {f : Forest} {kids : ComponentId → List ComponentId} {p q c d : ComponentId}
variable {front mid back left right line : List ComponentId}

theorem parent?_detach (h : Shape f kids) (hc : c < f.size) (i : ComponentId) :
    (f.detach c).parent? i = if i = c then none else f.parent? i := by
  rw [parent?, links_detach hc (h.below c), parent?]

/-! ### Taking out -/

/-- The links around the gap, told by where the list of the children is cut. -/
theorem links_detach_of_split (h : Shape f kids) (hsplit : kids p = front ++ c :: back)
    (i : ComponentId) :
    (f.detach c).links i =
      { parent := if i = c then none else (f.links i).parent
        firstChild := if front.getLast? = none ∧ some p = some i then back.head?
          else (f.links i).firstChild
        lastChild := if back.head? = none ∧ some p = some i then front.getLast?
          else (f.links i).lastChild
        prevSibling := if i = c then none
          else if back.head? = some i then front.getLast? else (f.links i).prevSibling
        nextSibling := if i = c then none
          else if front.getLast? = some i then back.head? else (f.links i).nextSibling } := by
  have hc : c ∈ kids p := hsplit ▸ List.mem_append_right front List.mem_cons_self
  have hparent : (f.links c).parent = some p := (h.parent_iff p c).mpr hc
  rw [links_detach (h.lt_size p c hc).2 (h.below c), hparent,
    (h.siblings p front c back hsplit).1, (h.siblings p front c back hsplit).2]

/-- The siblings of a component of another list stay. -/
theorem siblings_detach_of_not_mem (h : Shape f kids) (hc : c ∈ kids p) (hd : d ∉ kids p) :
    ((f.detach c).links d).prevSibling = (f.links d).prevSibling ∧
      ((f.detach c).links d).nextSibling = (f.links d).nextSibling := by
  obtain ⟨front, back, hsplit⟩ := List.append_of_mem hc
  have hdc : d ≠ c := fun heq => hd (heq ▸ hc)
  have hbefore : front.getLast? ≠ some d := fun hlast =>
    hd (hsplit ▸ List.mem_append_left _ (List.mem_of_getLast? hlast))
  have hbehind : back.head? ≠ some d := fun hhead =>
    hd (hsplit ▸ List.mem_append_right _ (List.mem_cons_of_mem c (List.mem_of_head? hhead)))
  rw [h.links_detach_of_split hsplit]
  simp only [if_neg hdc, if_neg hbefore, if_neg hbehind, and_self]

/-- Left of the gap the right neighbour changes, if the gap is next to it. -/
theorem siblings_detach_left (h : Shape f kids)
    (hsplit : kids p = left ++ d :: (mid ++ c :: back)) :
    ((f.detach c).links d).prevSibling = left.getLast? ∧
      ((f.detach c).links d).nextSibling = (mid ++ back).head? := by
  have hsplit' : kids p = (left ++ d :: mid) ++ c :: back := by
    rw [hsplit, List.append_assoc, List.cons_append]
  have hnodup := hsplit' ▸ h.nodup p
  rw [List.nodup_append, List.nodup_cons] at hnodup
  obtain ⟨hfront, -, hdisjoint⟩ := hnodup
  have hd : d ∈ left ++ d :: mid := List.mem_append_right left List.mem_cons_self
  have hbehind : back.head? ≠ some d := fun hhead =>
    hdisjoint d hd d (List.mem_cons_of_mem c (List.mem_of_head? hhead)) rfl
  rw [h.links_detach_of_split hsplit']
  simp only [if_neg (hdisjoint d hd c List.mem_cons_self), if_neg hbehind,
    getLast?_eq_some_iff_of_nodup hfront, (h.siblings p left d _ hsplit).1,
    (h.siblings p left d _ hsplit).2, true_and]
  cases mid <;> rfl

/-- Right of the gap the left neighbour changes, if the gap is next to it. -/
theorem siblings_detach_right (h : Shape f kids)
    (hsplit : kids p = front ++ c :: (mid ++ d :: right)) :
    ((f.detach c).links d).prevSibling = (front ++ mid).getLast? ∧
      ((f.detach c).links d).nextSibling = right.head? := by
  have hsplit' : kids p = (front ++ c :: mid) ++ d :: right := by
    rw [hsplit, List.append_assoc, List.cons_append]
  have hnodup := hsplit ▸ h.nodup p
  rw [List.nodup_append, List.nodup_cons] at hnodup
  obtain ⟨-, ⟨hc, hback⟩, hdisjoint⟩ := hnodup
  have hd : d ∈ mid ++ d :: right := List.mem_append_right mid List.mem_cons_self
  have hbefore : front.getLast? ≠ some d := fun hlast =>
    hdisjoint d (List.mem_of_getLast? hlast) d (List.mem_cons_of_mem c hd) rfl
  rw [h.links_detach_of_split hsplit]
  simp only [if_neg (ne_of_mem_of_not_mem hd hc), if_neg hbefore, head?_eq_some_iff_of_nodup hback,
    (h.siblings p _ d right hsplit').1, (h.siblings p _ d right hsplit').2, and_true]
  cases mid with
  | nil => simp
  | cons x mid => simp [List.getLast?_append]

theorem erase_of_split (h : Shape f kids) (hsplit : kids p = front ++ c :: back) :
    (kids p).erase c = front ++ back := by
  have hnodup := hsplit ▸ h.nodup p
  have hfront : c ∉ front := fun hmem =>
    (List.nodup_append.mp hnodup).2.2 c hmem c List.mem_cons_self rfl
  rw [hsplit, List.erase_append_right _ hfront, List.erase_cons_head]

theorem erase_of_ne (h : Shape f kids) (hc : c ∈ kids p) (hq : q ≠ p) :
    (kids q).erase c = kids q :=
  List.erase_of_not_mem fun hmem => hq (h.parent_unique hmem hc)

theorem siblings_detach (h : Shape f kids) (hc : c ∈ kids p)
    (hd : (kids q).erase c = left ++ d :: right) :
    ((f.detach c).links d).prevSibling = left.getLast? ∧
      ((f.detach c).links d).nextSibling = right.head? := by
  obtain ⟨front, back, hsplit⟩ := List.append_of_mem hc
  by_cases hq : q = p
  · subst hq
    rw [h.erase_of_split hsplit] at hd
    obtain ⟨mid, rfl, rfl⟩ | ⟨mid, rfl, rfl⟩ := split_of_append_eq hd
    · exact h.siblings_detach_left (by rw [hsplit, List.append_assoc, List.cons_append])
    · exact h.siblings_detach_right hsplit
  · rw [h.erase_of_ne hc hq] at hd
    have hdq : d ∈ kids q := hd ▸ List.mem_append_right left List.mem_cons_self
    have same := h.siblings_detach_of_not_mem hc fun hdp => hq (h.parent_unique hdq hdp)
    rw [same.1, same.2]
    exact h.siblings q left d right hd

/-- A component that is taken out is erased from the list that it stands in. -/
theorem detach (h : Shape f kids) (hc : c ∈ kids p) :
    Shape (f.detach c) fun q => (kids q).erase c := by
  obtain ⟨front, back, hsplit⟩ := List.append_of_mem hc
  have hparent := h.parent?_detach (h.lt_size p c hc).2
  have hlinks := h.links_detach_of_split hsplit
  refine ⟨?_, ?_, ?_, ?_, ?_, fun _ _ _ _ => h.siblings_detach hc, ?_, ?_⟩
  · intro q d hd
    rw [size_detach]
    exact h.lt_size q d (List.mem_of_mem_erase hd)
  · intro q
    exact (h.nodup q).erase c
  · intro q d
    rw [hparent, (h.nodup q).mem_erase_iff, ← h.parent_iff]
    by_cases hd : d = c
    · simp [hd]
    · rw [if_neg hd]
      exact (and_iff_right hd).symm
  · intro q
    rw [hlinks]
    by_cases hq : q = p
    · subst hq
      rw [h.erase_of_split hsplit, h.firstChild, hsplit]
      cases front <;> simp
    · rw [h.erase_of_ne hc hq, ← h.firstChild]
      simp [Ne.symm hq]
  · intro q
    rw [hlinks]
    by_cases hq : q = p
    · subst hq
      rw [h.erase_of_split hsplit, h.lastChild, hsplit]
      cases back <;> simp [List.getLast?_append]
    · rw [h.erase_of_ne hc hq, ← h.lastChild]
      simp [Ne.symm hq]
  · intro d hd
    by_cases hdc : d = c
    · rw [hlinks]
      exact ⟨if_pos hdc, if_pos hdc⟩
    · rw [hparent, if_neg hdc] at hd
      have same := h.siblings_detach_of_not_mem hc (h.not_mem_of_parent_none hd p)
      rw [same.1, same.2]
      exact h.alone d hd
  · intro d
    obtain ⟨line, hline⟩ := h.ends d
    exact hline.cut (by rw [hparent, if_pos rfl]) fun x hx => by rw [hparent, if_neg hx]

/-! ### Putting in -/

theorem parent?_attach (h : Shape f kids) (hp : p < f.size) (hc : c < f.size) (i : ComponentId) :
    (f.attach p c).parent? i = if i = c then some p else f.parent? i := by
  rw [parent?, links_attach hp hc (h.below p), parent?]

theorem links_attach_of_shape (h : Shape f kids) (hp : p < f.size) (hc : c < f.size)
    (i : ComponentId) :
    (f.attach p c).links i =
      { parent := if i = c then some p else (f.links i).parent
        firstChild := if i = p then (f.links i).firstChild.or (some c)
          else (f.links i).firstChild
        lastChild := if i = p then some c else (f.links i).lastChild
        prevSibling := if i = c then (kids p).getLast? else (f.links i).prevSibling
        nextSibling := if (kids p).getLast? = some i then some c
          else (f.links i).nextSibling } := by
  rw [links_attach hp hc (h.below p), h.lastChild p]

/-- The siblings stay for all but the new child and the one before it. -/
theorem siblings_attach_of_ne (h : Shape f kids) (hp : p < f.size) (hc : c < f.size) (hd : d ≠ c)
    (hlast : (kids p).getLast? ≠ some d) :
    ((f.attach p c).links d).prevSibling = (f.links d).prevSibling ∧
      ((f.attach p c).links d).nextSibling = (f.links d).nextSibling := by
  rw [h.links_attach_of_shape hp hc]
  simp only [if_neg hd, if_neg hlast, and_self]

/-- Among the older children, the right neighbour of the last one changes. -/
theorem siblings_attach_left (h : Shape f kids) (hp : p < f.size) (hc : c < f.size) (hd : d ≠ c)
    (hsplit : kids p = left ++ d :: mid) :
    ((f.attach p c).links d).prevSibling = left.getLast? ∧
      ((f.attach p c).links d).nextSibling = (mid ++ [c]).head? := by
  have hnodup := hsplit ▸ h.nodup p
  rw [h.links_attach_of_shape hp hc, hsplit]
  simp only [if_neg hd, getLast?_eq_some_iff_of_nodup hnodup, (h.siblings p left d mid hsplit).1,
    (h.siblings p left d mid hsplit).2, true_and]
  cases mid <;> rfl

/-- The new child stands behind the older ones. -/
theorem siblings_attach_new (h : Shape f kids) (hp : p < f.size) (hc : c < f.size)
    (hroot : f.parent? c = none) :
    ((f.attach p c).links c).prevSibling = (kids p).getLast? ∧
      ((f.attach p c).links c).nextSibling = none := by
  have hlast : (kids p).getLast? ≠ some c := fun hlast =>
    h.not_mem_of_parent_none hroot p (List.mem_of_getLast? hlast)
  rw [h.links_attach_of_shape hp hc]
  simp only [if_true, if_neg hlast, (h.alone c hroot).2, and_self]

theorem siblings_attach (h : Shape f kids) (hp : p < f.size) (hc : c < f.size)
    (hroot : f.parent? c = none)
    (hd : Function.update kids p (kids p ++ [c]) q = left ++ d :: right) :
    ((f.attach p c).links d).prevSibling = left.getLast? ∧
      ((f.attach p c).links d).nextSibling = right.head? := by
  have hnone := h.not_mem_of_parent_none hroot
  by_cases hq : q = p
  · subst hq
    rw [Function.update_self] at hd
    obtain ⟨mid, hsplit, rfl⟩ | ⟨mid, rfl, hright⟩ := split_of_append_eq hd
    · have hdq : d ∈ kids q := hsplit ▸ List.mem_append_right left List.mem_cons_self
      exact h.siblings_attach_left hp hc (ne_of_mem_of_not_mem hdq (hnone q)) hsplit
    · obtain ⟨rfl, rfl, rfl⟩ : mid = [] ∧ c = d ∧ right = [] := by
        cases mid <;> simp_all
      rw [List.append_nil]
      exact h.siblings_attach_new hp hc hroot
  · rw [Function.update_of_ne hq] at hd
    have hdq : d ∈ kids q := hd ▸ List.mem_append_right left List.mem_cons_self
    have same := h.siblings_attach_of_ne hp hc (ne_of_mem_of_not_mem hdq (hnone q))
      fun hlast => hq (h.parent_unique hdq (List.mem_of_getLast? hlast))
    rw [same.1, same.2]
    exact h.siblings q left d right hd

theorem mem_update_append : d ∈ Function.update kids p (kids p ++ [c]) q ↔
    d ∈ kids q ∨ q = p ∧ d = c := by
  by_cases hq : q = p
  · subst hq
    simp
  · simp [hq]

/-- A component without parent that is not above its new parent is added to the parent's list. -/
theorem attach (h : Shape f kids) (hp : p < f.size) (hc : c < f.size)
    (hroot : f.parent? c = none) (hline : Walk f.parent? (some p) line) (hfree : c ∉ line) :
    Shape (f.attach p c) (Function.update kids p (kids p ++ [c])) := by
  have hparent := h.parent?_attach hp hc
  have hlinks := h.links_attach_of_shape hp hc
  refine ⟨?_, ?_, ?_, ?_, ?_, fun _ _ _ _ => h.siblings_attach hp hc hroot, ?_, ?_⟩
  · intro q d hd
    rw [size_attach]
    rcases mem_update_append.mp hd with hd | ⟨rfl, rfl⟩
    · exact h.lt_size q d hd
    · exact ⟨hp, hc⟩
  · intro q
    by_cases hq : q = p
    · subst hq
      rw [Function.update_self, ← List.concat_eq_append]
      exact (h.nodup q).concat (h.not_mem_of_parent_none hroot q)
    · rw [Function.update_of_ne hq]
      exact h.nodup q
  · intro q d
    rw [hparent, mem_update_append, ← h.parent_iff]
    by_cases hd : d = c
    · subst hd
      simp [hroot, eq_comm]
    · simp [hd]
  · intro q
    rw [hlinks]
    by_cases hq : q = p
    · subst hq
      simp only [Function.update_self, if_true, h.firstChild]
      cases kids q <;> rfl
    · rw [Function.update_of_ne hq, ← h.firstChild]
      exact if_neg hq
  · intro q
    rw [hlinks]
    by_cases hq : q = p
    · subst hq
      rw [Function.update_self, List.getLast?_concat]
      exact if_pos rfl
    · rw [Function.update_of_ne hq, ← h.lastChild q]
      exact if_neg hq
  · intro d hd
    rw [hparent] at hd
    have hdc : d ≠ c := by
      rintro rfl
      rw [if_pos rfl] at hd
      cases hd
    rw [if_neg hdc] at hd
    have same := h.siblings_attach_of_ne hp hc hdc fun hlast =>
      h.not_mem_of_parent_none hd p (List.mem_of_getLast? hlast)
    rw [same.1, same.2]
    exact h.alone d hd
  · intro d
    obtain ⟨line', hline'⟩ := h.ends d
    apply hline'.extend hroot fun x hx => by rw [hparent, if_neg hx]
    rw [hparent, if_pos rfl]
    exact hline.congr fun x hx => by rw [hparent, if_neg (ne_of_mem_of_not_mem hx hfree)]

end Shape
end Forest
end StyleCascade
