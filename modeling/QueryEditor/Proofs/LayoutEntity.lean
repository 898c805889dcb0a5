import QueryEditor.Proofs.CatalogOrder
import QueryEditor.Proofs.LayoutRoundTrip

/-!
# The entity of a document

A document says by an object type code which entity its cells are for.  It is written for any
entity with a primary id and a primary name, with the code left out where the entity has none, and
the reader looks the code up among all entities of the catalog.

* `Layout.read_of_toXml` : what is read of a document that was written, for any layout.
* `Layout.read_toXml_finds_entity_iff` : **when the reader finds the entity of a document again**:
  the entity needs a code, and no entity with a smaller name may have the same one.  Otherwise the
  cells are passed over or go to another entity (`Layout.read_toXml_without_code`).
-/

namespace QueryEditor

namespace Layout

variable {l : Layout} {xml root : String} {catalog : Catalog} {columns : List Column} {e : Entity}

/-- What is read of a document that was written: the first of several written cells of a name
counts. -/
theorem read_of_toXml (h : l.toXml = .ok xml) (he : l.entity = some e) :
    Layout.read xml catalog root columns =
      .ok ((ofGrid catalog root (some
        { object := e.objectTypeCode,
          cells := Cell.firstOfEach (·.name) (l.written.map Grid.bare) })).reconcileColumns
            columns) := by
  obtain ⟨e', primaryId, primaryName, he', rfl⟩ := exists_of_toXml h
  obtain rfl : e' = e := Option.some.inj (he'.symm.trans he)
  rw [read_eq, blank_render, if_neg (by decide), Grid.read_gridElement_firstOfEach]
  rfl

theorem ofGrid_of_none {g : Grid} (h : g.object.bind catalog.entityOfCode? = none) :
    ofGrid catalog root (some g) =
      { entityName := root, entity := catalog.entity? root } := by
  rw [ofGrid, Option.bind_some, h]
  rfl

theorem ofGrid_of_some {g : Grid} (h : g.object.bind catalog.entityOfCode? = some e) :
    ofGrid catalog root (some g) =
      { entityName := e.logicalName, entity := some e, cells := g.cells } := by
  rw [ofGrid, Option.bind_some, h]
  rfl

/-- **When the reader finds the entity of a document again.**  A layout for an entity of the
catalog was written.  Reading the document with the same catalog gives a layout for that entity
with the cells of the document, whatever the root and the columns of the query are, exactly when
the entity has an object type code that no entity with a smaller name has. -/
theorem read_toXml_finds_entity_iff (hc : catalog.Reachable) (hmem : e ∈ catalog.entities)
    (he : l.entity = some e) (h : l.toXml = .ok xml) :
    (∀ root columns, ∃ l', Layout.read xml catalog root columns = .ok l' ∧
        l'.entity = some e ∧ l'.entityName = e.logicalName ∧
        l'.cells = Cell.reconcileColumns columns
          (Cell.firstOfEach (·.name) ((l.visible.filter (·.isBound)).map Grid.bare))) ↔
      e.objectTypeCode.isSome = true ∧
        ∀ other ∈ catalog.entities, other.objectTypeCode = e.objectTypeCode →
          e.logicalName ≤ other.logicalName := by
  -- both sides say that the code of the entity selects it
  trans e.objectTypeCode.bind catalog.entityOfCode? = some e
  · constructor
    · intro hall
      cases hfound : e.objectTypeCode.bind catalog.entityOfCode? with
      | none =>
        -- the layout would go by the name of the root, which can be any
        have hroot (root : String) : root = e.logicalName := by
          obtain ⟨l', hread, -, hname, -⟩ := hall root []
          rw [read_of_toXml h he, ofGrid_of_none hfound] at hread
          obtain rfl := Except.ok.inj hread
          exact hname
        exact absurd ((hroot "a").trans (hroot "b").symm) (by decide)
      | some found =>
        obtain ⟨l', hread, hentity, -⟩ := hall "" []
        rw [read_of_toXml h he, ofGrid_of_some hfound] at hread
        obtain rfl := Except.ok.inj hread
        exact hentity
    · intro hfound root columns
      rw [read_of_toXml h he, ofGrid_of_some hfound]
      exact ⟨_, rfl, rfl, rfl, rfl⟩
  · cases hcode : e.objectTypeCode with
    | none => simp
    | some code =>
      rw [Option.bind_some, hc.sorted.entityOfCode?_eq_some_iff]
      simp [hmem, hcode]

/-- An entity that can be written. -/
def writable (name : String) (code : Option Int32) : Entity :=
  { logicalName := name, objectTypeCode := code, primaryIdAttribute := some "id",
    primaryNameAttribute := some "name" }

/-- A layout for an entity with two cells of a name. -/
def repeating (e : Entity) : Layout :=
  { entityName := e.logicalName, entity := some e, cells :=
      [⟨"name", 100, some { name := "name" }⟩, ⟨"name", 50, some { name := "name" }⟩] }

/-- The first of two accounts with one code is found again, with the first of its two cells. -/
theorem read_toXml_finds_entity_of_account :
    let account := writable "account" (some 7)
    let catalog : Catalog := ⟨[account, writable "account2" (some 7)], true, []⟩
    catalog.Reachable ∧ account ∈ catalog.entities ∧ (repeating account).entity = some account ∧
      ∃ xml l', (repeating account).toXml = .ok xml ∧
        Layout.read xml catalog "contact" [{ name := "name" }] = .ok l' ∧
        l'.entity = some account ∧
        l'.cells = [⟨"name", 100, some { name := "name" }⟩] := by
  intro account catalog
  have hload : Catalog.ofEntities [writable "account2" (some 7), account] = .ok catalog := by
    decide
  have hc : catalog.Reachable := .ofEntities hload
  have hmem : account ∈ catalog.entities := List.mem_cons_self
  have hxml : (repeating account).toXml = .ok _ := rfl
  have hcode : account.objectTypeCode.isSome = true ∧ ∀ other ∈ catalog.entities,
      other.objectTypeCode = account.objectTypeCode →
        account.logicalName ≤ other.logicalName := by
    decide
  obtain ⟨l', hread, hentity, -, hcells⟩ :=
    (read_toXml_finds_entity_iff hc hmem rfl hxml).2 hcode "contact" [{ name := "name" }]
  refine ⟨hc, hmem, rfl, _, l', hxml, hread, hentity, hcells.trans ?_⟩
  decide

/-- **Documents that lose their entity**: without a code the width that was written is passed over,
and with the code of another account the cells go to that one. -/
theorem read_toXml_without_code :
    (let account := writable "account" none
      let catalog : Catalog := ⟨[account], true, []⟩
      catalog.Reachable ∧ account ∈ catalog.entities ∧ (repeating account).entity = some account ∧
        ∃ xml l', (repeating account).toXml = .ok xml ∧
          Layout.read xml catalog "account" [{ name := "name" }] = .ok l' ∧
          l'.cells = [⟨"name", 0, some { name := "name" }⟩]) ∧
      (let account2 := writable "account2" (some 7)
        let catalog : Catalog := ⟨[writable "account" (some 7), account2], true, []⟩
        catalog.Reachable ∧ account2 ∈ catalog.entities ∧
          (repeating account2).entity = some account2 ∧
          ∃ xml l', (repeating account2).toXml = .ok xml ∧
            Layout.read xml catalog "account2" [{ name := "name" }] = .ok l' ∧
            l'.entityName = "account" ∧ l'.entity = some (writable "account" (some 7))) := by
  constructor
  · intro account catalog
    have hload : Catalog.ofEntities [account] = .ok catalog := by decide
    have hc : catalog.Reachable := .ofEntities hload
    have hxml : (repeating account).toXml = .ok _ := rfl
    refine ⟨hc, List.mem_cons_self, rfl, _, _, hxml, read_of_toXml hxml rfl, ?_⟩
    decide
  · intro account2 catalog
    have hload : Catalog.ofEntities [account2, writable "account" (some 7)] = .ok catalog := by
      decide
    have hc : catalog.Reachable := .ofEntities hload
    have hxml : (repeating account2).toXml = .ok _ := rfl
    refine ⟨hc, by decide, rfl, _, _, hxml, read_of_toXml hxml rfl, ?_⟩
    decide

end Layout

end QueryEditor
