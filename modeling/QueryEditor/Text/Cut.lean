/-!
# Cutting text in two

`Text.cut` cuts a text at the first occurrence of a character.
-/

namespace QueryEditor

namespace Text

/-- What stands before and after the first `sep`, if there is one. -/
def cut (sep : Char) : List Char → Option (List Char × List Char)
  | [] => none
  | c :: cs =>
    if c = sep then some ([], cs)
    else (cut sep cs).map fun (before, after) => (c :: before, after)

theorem cut_eq_some {sep : Char} {cs before after : List Char}
    (h : cut sep cs = some (before, after)) : cs = before ++ sep :: after ∧ sep ∉ before := by
  induction cs generalizing before with
  | nil => simp [cut] at h
  | cons c cs ih =>
    unfold cut at h
    split at h
    · obtain ⟨rfl, rfl⟩ := by simpa using h
      simp_all
    · obtain ⟨⟨b, a⟩, hb, he⟩ := Option.map_eq_some_iff.1 h
      obtain ⟨rfl, rfl⟩ := by simpa using he
      obtain ⟨rfl, hn⟩ := ih hb
      exact ⟨rfl, by simp_all [eq_comm]⟩

theorem cut_append {sep : Char} {before : List Char} (h : sep ∉ before) (after : List Char) :
    cut sep (before ++ sep :: after) = some (before, after) := by
  induction before with
  | nil => simp [cut]
  | cons c before ih =>
    rw [List.mem_cons, not_or] at h
    simp [cut, Ne.symm h.1, ih h.2]

theorem cut_eq_none_iff {sep : Char} {cs : List Char} : cut sep cs = none ↔ sep ∉ cs := by
  constructor
  · intro hcut hmem
    obtain ⟨before, after, rfl, hbefore⟩ := List.eq_append_cons_of_mem hmem
    rw [cut_append hbefore] at hcut
    cases hcut
  · intro hmem
    refine Option.eq_none_iff_forall_ne_some.2 fun ⟨before, after⟩ hcut => hmem ?_
    rw [(cut_eq_some hcut).1]
    exact List.mem_append_right _ List.mem_cons_self

end Text

end QueryEditor
