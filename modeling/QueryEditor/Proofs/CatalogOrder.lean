import Mathlib.Data.String.Basic
import QueryEditor.Proofs.CatalogRuns

/-!
# The order of a catalog

The entities of every catalog that can arise stand in strict order of their names, so each is found
by its name, and of several entities with one object type code the one with the smallest name is
found by it.

* `Catalog.Sorted` : the invariant; `Catalog.Reachable.sorted` : every catalog has it.
* `Catalog.Sorted.entityOfCode?_eq_some_iff` : **which entity an object type code selects.**
-/

namespace QueryEditor

namespace Catalog

variable {c : Catalog} {e : Entity} {es : List Entity}

/-- The names of the entities are strictly increasing. -/
def Sorted (es : List Entity) : Prop := es.Pairwise (·.logicalName < ·.logicalName)

theorem mem_of_mem_insert {other : Entity} (h : other ∈ insert e es) : other = e ∨ other ∈ es := by
  induction es with
  | nil => exact .inl (List.mem_singleton.1 h)
  | cons f fs ih =>
    unfold insert at h
    split at h
    · exact (List.mem_cons.1 h).imp_right fun h => h
    · split at h
      · exact (List.mem_cons.1 h).imp_right (List.mem_cons_of_mem f)
      · obtain rfl | h := List.mem_cons.1 h
        · exact .inr List.mem_cons_self
        · exact (ih h).imp_right (List.mem_cons_of_mem f)

/-- An entity is put in its place. -/
theorem Sorted.insert (h : Sorted es) (e : Entity) : Sorted (insert e es) := by
  induction es with
  | nil => exact List.pairwise_singleton _ _
  | cons f fs ih =>
    obtain ⟨hf, hfs⟩ := List.pairwise_cons.1 h
    unfold Catalog.insert
    split
    case isTrue hlt =>
      refine List.pairwise_cons.2 ⟨fun other hother => ?_, h⟩
      obtain rfl | hother := List.mem_cons.1 hother
      · exact hlt
      · exact hlt.trans (hf other hother)
    case isFalse hnot =>
      split
      case isTrue heq =>
        exact List.pairwise_cons.2 ⟨fun other hother => heq ▸ hf other hother, hfs⟩
      case isFalse hne =>
        refine List.pairwise_cons.2 ⟨fun other hother => ?_, ih hfs⟩
        obtain rfl | hother := mem_of_mem_insert hother
        · exact lt_of_le_of_ne (not_lt.1 hnot) (Ne.symm hne)
        · exact hf other hother

theorem Sorted.insertAll {known all : List Entity} (h : Sorted known)
    (hall : insertAll known es = .ok all) : Sorted all := by
  induction es generalizing known with
  | nil => cases hall; exact h
  | cons e es ih =>
    unfold Catalog.insertAll at hall
    split at hall
    · cases hall
    · exact ih (h.insert _) hall

/-- **The entities of every catalog stand in the order of their names.** -/
theorem Reachable.sorted (h : c.Reachable) : Sorted c.entities := by
  induction h with
  | unavailable => exact List.Pairwise.nil
  | @ofEntities es c h =>
    unfold Catalog.ofEntities at h
    cases hall : insertAll [] es with
    | error _ => rw [hall] at h; cases h
    | ok all =>
      rw [hall] at h
      cases h
      exact Sorted.insertAll List.Pairwise.nil hall
  | @act c a _ ih =>
    cases a with
    | lookUp q node scope =>
      have hrequest (schema : String) : (c.request schema).entities = c.entities := by
        unfold request
        split <;> rfl
      obtain ⟨_, hready⟩ | ⟨schema, -, -, hmissing⟩ := attributesFor_cases c q node scope
      · rw [Catalog.act, hready]
        exact ih
      · rw [Catalog.act, hmissing, hrequest]
        exact ih
    | arrive e => exact ih.insert _
    | take => exact ih

/-! ### Looking entities up -/

/-- **Which entity an object type code selects**: of those that have it the one with the smallest
name. -/
theorem Sorted.entityOfCode?_eq_some_iff (h : Sorted c.entities) {code : Int32} :
    c.entityOfCode? code = some e ↔
      e ∈ c.entities ∧ e.objectTypeCode = some code ∧
        ∀ other ∈ c.entities, other.objectTypeCode = some code →
          e.logicalName ≤ other.logicalName := by
  rw [entityOfCode?, List.find?_eq_some_iff_append]
  constructor
  · rintro ⟨hcode, before, after, hsplit, hbefore⟩
    rw [hsplit] at h ⊢
    have hafter := (List.pairwise_cons.1 (List.pairwise_append.1 h).2.1).1
    refine ⟨by simp, by simpa using hcode, fun other hother hsame => ?_⟩
    obtain hother | hother := List.mem_append.1 hother
    · have := hbefore other hother
      simp [hsame] at this
    · obtain rfl | hother := List.mem_cons.1 hother
      · exact le_rfl
      · exact (hafter other hother).le
  · rintro ⟨hmem, hcode, hsmallest⟩
    obtain ⟨before, after, hsplit⟩ := List.append_of_mem hmem
    refine ⟨by simpa using hcode, before, after, hsplit, fun other hother => ?_⟩
    rw [hsplit] at h hsmallest
    have hlt := (List.pairwise_append.1 h).2.2 other hother e List.mem_cons_self
    by_contra hsame
    exact absurd hlt (not_lt.2 (hsmallest other (List.mem_append_left _ hother)
      (by simpa using hsame)))

end Catalog

end QueryEditor
