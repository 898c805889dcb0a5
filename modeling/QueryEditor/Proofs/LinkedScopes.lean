import QueryEditor.Proofs.CatalogRuns
import QueryEditor.Proofs.Validation

/-!
# The scopes that a query offers

A query lists the linked entities that a condition may be about, each under a name of its own.
A condition that gives such a name as its scope should be about that linked entity.  The scope is
read without the white space around it, but the names in the list are compared as they stand.  So
a name with white space around it is not found: the condition is about another linked entity that
goes by the name without the white space, or about the root entity.

* `Catalog.forall_answersFor_iff` : what a lookup of attributes says of the entity it is about.
* `Query.schemaOf?_scopeName` : which entity the name of a linked entity stands for.
* `Query.offered_scope_found_iff` : **when it stands for the linked entity itself.**
* `Query.padded_scope_not_found` : names with white space that stand for other entities.
-/

namespace QueryEditor

/-- A text without white space around it, and not empty. -/
def Text.IsPlain (s : String) : Prop := s ≠ "" ∧ trim s = s

theorem Text.IsPlain.not_blank {s : String} (h : IsPlain s) : blank s = false := by
  refine Bool.eq_false_iff.2 fun hblank => h.1 ?_
  rw [← h.2, trim_of_blank hblank]

/-! ### What a lookup says -/

namespace Catalog

/-- A lookup of attributes is about an entity: it finds its attributes where they are loaded, and
asks for them where they are not. -/
structure AnswersFor (c : Catalog) (q : Query) (node : Nat) (scope : Option String)
    (schema : String) : Prop where
  loaded : ∀ attributes, c.attributes? schema = some attributes →
    (c.attributesFor q node scope).1 = some attributes
  missing : c.attributes? schema = none →
    (c.attributesFor q node scope).1 = none ∧ schema ∈ (c.attributesFor q node scope).2.requests

variable {q : Query} {node : Nat} {scope : Option String} {schema : String}

theorem answersFor_of_schemaOf? (h : q.schemaOf? node scope = some schema) (c : Catalog) :
    c.AnswersFor q node scope schema := by
  constructor
  case loaded =>
    intro attributes hloaded
    simp [attributesFor, h, hloaded]
  case missing =>
    intro hmissing
    have hlookup : c.attributesFor q node scope = (none, c.request schema) := by
      simp [attributesFor, h, hmissing]
    rw [hlookup]
    exact ⟨rfl, mem_requests_request.2 (.inr rfl)⟩

/-- **Lookups are about the entity that the condition is about**, and in all catalogs about no
other. -/
theorem forall_answersFor_iff :
    (∀ c : Catalog, c.AnswersFor q node scope schema) ↔ q.schemaOf? node scope = some schema := by
  refine ⟨fun h => ?_, answersFor_of_schemaOf?⟩
  -- before a connection nothing is loaded, and the one request shows what the lookup was about
  obtain ⟨hnone, hmem⟩ := (h unavailable).missing rfl
  cases hschema : q.schemaOf? node scope with
  | none =>
    rw [attributesFor, hschema] at hnone
    cases hnone
  | some other =>
    have hlookup : unavailable.attributesFor q node scope = (none, ⟨[], false, [other]⟩) := by
      rw [attributesFor, hschema]
      rfl
    rw [hlookup, List.mem_singleton] at hmem
    rw [hmem]

end Catalog

/-! ### The entity that a name stands for -/

namespace Query

variable {q : Query} {node steps i : Nat} {l : Link}

theorem schema?_of_closestWithin (h : q.closestWithin steps node = some i) :
    ((q.kind? i).bind NodeKind.schema?).isSome = true := by
  induction steps generalizing node with
  | zero => cases h
  | succ steps ih =>
    obtain ⟨p, -, h⟩ := Option.bind_eq_some_iff.1 h
    split at h
    case isTrue hp =>
      cases h
      exact hp
    case isFalse => exact ih h

/-- Linked entities are listed only where the root entity is the closest. -/
theorem enclosing?_of_mem_linkedEntities (h : l ∈ q.linkedEntities node) :
    q.enclosing? node = some q.rootName := by
  unfold linkedEntities at h
  split at h
  case isTrue hclosest =>
    obtain ⟨name, hname⟩ := Option.isSome_iff_exists.1 (schema?_of_closestWithin hclosest)
    rw [enclosing?, hclosest, Option.bind_some, rootName, hname]
    rfl
  case isFalse => cases h

/-- The entity that the name of a linked entity stands for if it is not found as it stands: the
first linked entity that goes by it without its white space, or else the root entity. -/
def takenFor (q : Query) (node : Nat) (l : Link) : String :=
  if Text.blank l.scopeName then q.rootName
  else (((q.linkedEntities node).find? (·.scopeName == Text.trim l.scopeName)).map (·.name)).getD
    q.rootName

/-- A linked entity is found by a plain name that no other one has. -/
theorem scopedLink?_of_isPlain (hl : l ∈ q.linkedEntities node)
    (hown : ∀ other ∈ q.linkedEntities node, other ≠ l → other.scopeName ≠ l.scopeName)
    (hplain : Text.IsPlain l.scopeName) : q.scopedLink? node l.scopeName = some l := by
  rw [scopedLink?, if_neg (by simp [hplain.not_blank]), hplain.2]
  obtain ⟨other, hfind⟩ : ∃ other,
      (q.linkedEntities node).find? (·.scopeName == l.scopeName) = some other :=
    Option.isSome_iff_exists.1 (List.find?_isSome.2 ⟨l, hl, by simp⟩)
  have hname : other.scopeName = l.scopeName := by simpa using List.find?_some hfind
  rw [hfind, not_imp_not.1 (hown other (List.mem_of_find?_eq_some hfind)) hname]

/-- **Which entity the name of a linked entity stands for.** -/
theorem schemaOf?_scopeName (hl : l ∈ q.linkedEntities node)
    (hown : ∀ other ∈ q.linkedEntities node, other ≠ l → other.scopeName ≠ l.scopeName) :
    (Text.IsPlain l.scopeName → q.schemaOf? node (some l.scopeName) = some l.name) ∧
      (¬Text.IsPlain l.scopeName →
        q.schemaOf? node (some l.scopeName) = some (q.takenFor node l)) := by
  rw [schemaOf?, Option.bind_some, enclosing?_of_mem_linkedEntities hl]
  constructor
  · intro hplain
    rw [scopedLink?_of_isPlain hl hown hplain]
    rfl
  · intro _
    rw [scopedLink?, takenFor]
    split
    · rfl
    · cases (q.linkedEntities node).find? (·.scopeName == Text.trim l.scopeName) <;> rfl

/-- **When the name of a linked entity stands for it.**  Let no other linked entity in the list have
its name.  Then the lookups with this name as the scope are about the linked entity exactly when the
name is not empty and has no white space around it, or when what it is taken for instead is the same
entity by chance. -/
theorem offered_scope_found_iff (hl : l ∈ q.linkedEntities node)
    (hown : ∀ other ∈ q.linkedEntities node, other ≠ l → other.scopeName ≠ l.scopeName) :
    (∀ c : Catalog, c.AnswersFor q node (some l.scopeName) l.name) ↔
      Text.IsPlain l.scopeName ∨ q.takenFor node l = l.name := by
  obtain ⟨hfound, hnot⟩ := schemaOf?_scopeName hl hown
  rw [Catalog.forall_answersFor_iff]
  by_cases hplain : Text.IsPlain l.scopeName
  · simp [hfound hplain, hplain]
  · simp [hnot hplain, hplain]

/-- A query on accounts with these linked entities, and a filter for conditions after them. -/
def withLinks (links : List Link) : Query :=
  (links.foldl (fun q l => q.add root (.link l)) (ofEntity "account")).add root .filter

/-- Contacts are linked to accounts twice, once by a name of their own. -/
theorem offered_scope_found_of_contact :
    let l : Link := ⟨"contact", some "primary contact"⟩
    let q := withLinks [⟨"contact", none⟩, l]
    l ∈ q.linkedEntities 4 ∧
      (∀ other ∈ q.linkedEntities 4, other ≠ l → other.scopeName ≠ l.scopeName) ∧
      ∀ c : Catalog, c.AnswersFor q 4 (some l.scopeName) l.name := by
  intro l q
  have hl : l ∈ q.linkedEntities 4 := by decide +kernel
  have hown : ∀ other ∈ q.linkedEntities 4, other ≠ l → other.scopeName ≠ l.scopeName := by
    decide +kernel
  have hplain : Text.IsPlain l.scopeName := ⟨by decide +kernel, by decide +kernel⟩
  exact ⟨hl, hown, (offered_scope_found_iff hl hown).2 (.inl hplain)⟩

/-- **A name with white space around it is not found**: alone it stands for the root entity, and
beside the same name without the white space for the entity of that name. -/
theorem padded_scope_not_found :
    let padded : Link := ⟨"contact", some " pc "⟩
    let plain : Link := ⟨"lead", some "pc"⟩
    let alone := withLinks [padded]
    let both := withLinks [padded, plain]
    alone.linkedEntities 3 = [padded] ∧ alone.schemaOf? 3 (some padded.scopeName) = some "account" ∧
      both.linkedEntities 4 = [padded, plain] ∧ padded.scopeName ≠ plain.scopeName ∧
      both.schemaOf? 4 (some padded.scopeName) = some "lead" ∧
      ¬(∀ c : Catalog, c.AnswersFor alone 3 (some padded.scopeName) padded.name) ∧
      ¬∀ c : Catalog, c.AnswersFor both 4 (some padded.scopeName) padded.name := by
  intro padded plain alone both
  have halone : alone.schemaOf? 3 (some padded.scopeName) = some "account" := by decide +kernel
  have hboth : both.schemaOf? 4 (some padded.scopeName) = some "lead" := by decide +kernel
  refine ⟨by decide +kernel, halone, by decide +kernel, by decide +kernel, hboth, ?_, ?_⟩
  · rw [Catalog.forall_answersFor_iff, halone]
    decide
  · rw [Catalog.forall_answersFor_iff, hboth]
    decide

end Query

end QueryEditor
