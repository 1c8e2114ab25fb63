import ContentSchema.Proofs.Compilation.Whole
import ContentSchema.Proofs.Definition.Known
import ContentSchema.Proofs.Run.Definitions
import ContentSchema.Schema.Size

/-!
# Compiling without unknown entries

What definitions hold beside their known entries goes nowhere but into the rules of columns, and
these are printed by their known entries only.
-/

namespace ContentSchema

/-! ### Columns and tables -/

/-- The column without unknown entries. -/
def Column.known (c : Column) : Column := { c with rules := c.rules.map (·.known) }

/-- The table without unknown entries. -/
def Table.known (t : Table) : Table := { t with columns := t.columns.map (·.known) }

@[simp] theorem Table.name_known (t : Table) : t.known.name = t.name := rfl

theorem Column.compiled_make_known (c : Column) :
    compiled c.known.make = known <$> compiled c.make := by
  obtain ⟨name, type, nullable, isList, default, attributes, relation, mapName, rules⟩ := c
  rw [make, make, known]
  by_cases hname : name = "" <;> by_cases htype : type = "" <;> simp [hname, htype] <;> rfl

theorem Table.compiled_make_known (t : Table) :
    compiled t.known.make = known <$> compiled t.make := by
  rw [make, make, name_known]
  split <;> rfl

theorem Column.known_of_backRelation {table key : String} {action : ReferentialAction} {c : Column}
    (h : backRelation table key action = .ok c) : c.known = c := by
  obtain ⟨-, -, rfl⟩ := Column.compiled_make_eq_ok.1 h
  rfl

/-! ### Fields -/

namespace Field

variable (f : Field) (settings : BuildSettings)

theorem numberColumn_known : f.known.numberColumn = f.numberColumn.known := by
  rw [numberColumn, numberColumn, known]
  cases f.config with
  | none => rfl
  | some c => cases c <;> rfl

theorem booleanColumn_known : f.known.booleanColumn = f.booleanColumn.known := by
  rw [booleanColumn, booleanColumn, known]
  cases f.config with
  | none => rfl
  | some c => cases c <;> rfl

theorem holdsManyMedia_known : f.known.holdsManyMedia = f.holdsManyMedia := by
  rw [holdsManyMedia, holdsManyMedia, known]
  cases f.config with
  | none => rfl
  | some c => cases c <;> rfl

theorem mediaColumn_known : f.known.mediaColumn settings = (f.mediaColumn settings).known := by
  rw [mediaColumn, mediaColumn, holdsManyMedia_known]
  split <;> rfl

theorem relationColumn_known (c : RelationConfig) :
    f.known.relationColumn { c with extras := [] } settings =
      (f.relationColumn c settings).known := by
  rw [relationColumn, relationColumn]
  cases c.cardinality <;> rfl

theorem proposedColumn_known (type : FieldType) :
    f.known.proposedColumn type settings = Column.known <$> f.proposedColumn type settings := by
  cases type with
  | text | rich | select | json | date => rfl
  | number => exact congrArg Except.ok f.numberColumn_known
  | boolean => exact congrArg Except.ok f.booleanColumn_known
  | media => exact congrArg Except.ok (f.mediaColumn_known settings)
  | relation =>
    rw [proposedColumn, proposedColumn, relation?_known]
    cases f.relation? with
    | none => rfl
    | some c => exact congrArg Except.ok (f.relationColumn_known settings c)
  | component =>
    rw [proposedColumn, proposedColumn, component?_known]
    cases f.component? <;> rfl

theorem column_known : f.known.column settings = Column.known <$> f.column settings := by
  rw [column, column, type_known, proposedColumn_known]
  cases f.proposedColumn f.type settings with
  | error e => rfl
  | ok c => exact c.compiled_make_known

theorem componentReference_known (owner : String) :
    f.known.componentReference owner settings =
      Column.known <$> f.componentReference owner settings := by
  rw [componentReference, componentReference, component?_known]
  cases f.component? with
  | none => rfl
  | some c =>
    exact Column.compiled_make_known
      { Column.bare f.key (Naming.componentTableName owner f.key settings.convention) with
        nullable := true, isList := c.repeatable }

end Field

theorem mapM_column_known (fields : List Field) (settings : BuildSettings) :
    (fields.map Field.known).mapM (·.column settings) =
      List.map Column.known <$> fields.mapM (·.column settings) :=
  mapM_map fun f _ => f.column_known settings

/-! ### Tables of a definition -/

theorem translationTable_known (owner : String) (fields : List Field) (settings : BuildSettings)
    (mapName : Option String) :
    translationTable owner (fields.map Field.known) settings mapName =
      Table.known <$> translationTable owner fields settings mapName := by
  rw [translationTable, translationTable]
  refine bind_eq_map_bind (mapM_column_known fields settings) fun columns _ => ?_
  refine bind_eq_map_bind (id_map _).symm fun toOwner htoOwner => ?_
  have hknown : translationTableOf owner (columns.map Column.known) toOwner mapName =
      (translationTableOf owner columns toOwner mapName).known := by
    simp only [translationTableOf, Table.known, List.map_append, List.map_cons, List.map_nil,
      Column.known_of_backRelation htoOwner]
    rfl
  show compiled (translationTableOf owner (columns.map Column.known) toOwner mapName).make = _
  rw [hknown]
  exact Table.compiled_make_known _

theorem splitTranslatable_known (fields : List Field) :
    splitTranslatable (fields.map Field.known) =
      ((splitTranslatable fields).1.map Field.known,
        (splitTranslatable fields).2.map Field.known) := by
  simp only [splitTranslatable, List.partition_eq_filter_filter, List.filter_map]
  rfl

theorem alone_or_translated_known {moved : List Field} {base : Table}
    {second second' : Compiled Table} (h : second' = Table.known <$> second) :
    (if (moved.map Field.known).isEmpty then pure [base.known] else do
      let t ← second'
      pure [base.known, t]) = List.map Table.known <$> (if moved.isEmpty then pure [base] else do
      let t ← second
      pure [base, t] : Compiled (List Table)) := by
  rw [List.isEmpty_map, h]
  split
  · rfl
  · cases second <;> rfl

/-- The embedding without unknown entries. -/
def Embedding.known (e : Embedding) : Embedding := { e with context := e.context.map (·.known) }

namespace Component

variable (c : Component) (e : Embedding) (settings : BuildSettings)

/-- The tables of a component step by step. -/
theorem tables_eq : c.tables e settings = do
    let columns ← (c.keptFields settings).mapM (·.column settings)
    let toOwner ← Column.backRelation e.owner (Naming.foreignKeyName e.owner) .cascade
    let instances ← compiled (c.instanceTable e settings columns toOwner).make
    if (c.movedFields settings).isEmpty then return [instances]
    else
      let translations ← translationTable (e.tableName settings) (c.movedFields settings) settings
        (some (Naming.snakeCase (Naming.translationModelName (e.tableName settings))))
      return [instances, translations] := rfl

theorem placeFields_known : c.known.placeFields settings =
    ((c.placeFields settings).1.map Field.known, (c.placeFields settings).2.map Field.known) := by
  rw [placeFields, placeFields, storedFields_known]
  split
  · exact splitTranslatable_known _
  · rfl

theorem movedFields_known :
    c.known.movedFields settings = (c.movedFields settings).map Field.known :=
  congrArg Prod.fst (c.placeFields_known settings)

theorem keptFields_known :
    c.known.keptFields settings = (c.keptFields settings).map Field.known :=
  congrArg Prod.snd (c.placeFields_known settings)

theorem instanceTable_known {columns : List Column} {toOwner : Column}
    (h : toOwner.known = toOwner) :
    c.known.instanceTable e.known settings (columns.map Column.known) toOwner =
      (c.instanceTable e settings columns toOwner).known := by
  have hvariants : (e.known.context.any fun c => c.hasVariants) =
      e.context.any fun c => c.hasVariants := by
    rw [Embedding.known]
    cases e.context <;> simp
  rw [instanceTable, hvariants, movedFields_known, List.isEmpty_map, instanceTable, Table.known]
  -- no other column has rules
  simp only [List.map_append, apply_ite (List.map Column.known), List.map_cons, List.map_nil, h]
  rfl

/-- The tables of an embedded component without unknown entries. -/
theorem tables_known :
    c.known.tables e.known settings = List.map Table.known <$> c.tables e settings := by
  have howner : e.known.owner = e.owner := rfl
  rw [tables_eq, tables_eq, keptFields_known, movedFields_known, howner]
  refine bind_eq_map_bind (mapM_column_known _ settings) fun columns _ => ?_
  refine bind_eq_map_bind (id_map _).symm fun toOwner htoOwner => ?_
  refine bind_eq_map_bind ?_ fun instances _ =>
    alone_or_translated_known (translationTable_known _ _ _ _)
  rw [id, c.instanceTable_known e settings (Column.known_of_backRelation htoOwner)]
  exact Table.compiled_make_known _

end Component

namespace ContentModel

variable (m : ContentModel) (settings : BuildSettings)

/-- The tables of a model step by step. -/
theorem tables_eq (available : Option (List String)) : m.tables settings available =
    let settings := m.effectiveSettings settings
    let name := settings.tableName m.slug
    let moved := m.movedFields settings
    do
      let columns ← m.storedFields.mapM (baseColumn? name settings available (moved.map (·.key)))
      let base ← compiled (m.baseTable settings columns).make
      if moved.isEmpty then return [base]
      else
        let translations ← translationTable name moved settings
          (some (Naming.translationTableName name settings.pattern))
        return [base, translations] := rfl

theorem effectiveSettings_known :
    m.known.effectiveSettings settings = m.effectiveSettings settings := rfl

theorem movedFields_known :
    m.known.movedFields settings = (m.movedFields settings).map Field.known := by
  rw [movedFields, movedFields, storedFields_known]
  split
  · rw [splitTranslatable_known]
  · rfl

theorem baseTable_known (columns : List (Option Column)) :
    m.known.baseTable settings (columns.map (Option.map Column.known)) =
      (m.baseTable settings columns).known := by
  have hindexes : m.known.indexes = m.indexes := by
    rw [indexes, fieldKeys_known]
    rfl
  have hcolumns : (columns.map (Option.map Column.known)).filterMap id =
      (columns.filterMap id).map Column.known := by
    rw [List.filterMap_map, List.map_filterMap]
    rfl
  rw [baseTable, movedFields_known, List.isEmpty_map, hindexes, hcolumns, baseTable, Table.known]
  simp only [List.map_append, apply_ite (List.map Column.known), List.map_cons, List.map_nil]
  rfl

theorem baseColumn?_known (owner : String) (available : Option (List String))
    (moved : List String) (f : Field) :
    baseColumn? owner settings available moved f.known =
      Option.map Column.known <$> baseColumn? owner settings available moved f := by
  have hlacks : lacksComponent available f.known = lacksComponent available f := by
    rw [lacksComponent.eq_def, lacksComponent.eq_def, Field.component?_known]
    cases available <;> cases f.component? <;> rfl
  rw [baseColumn?, baseColumn?, Field.type_known, Field.key_known, hlacks,
    Field.componentReference_known, Field.column_known]
  split
  · split
    · rfl
    · cases f.componentReference owner settings <;> rfl
  · split
    · rfl
    · cases f.column settings <;> rfl

/-- The tables of a model without unknown entries. -/
theorem tables_known (available : Option (List String)) :
    m.known.tables settings available = List.map Table.known <$> m.tables settings available := by
  rw [tables_eq, tables_eq, effectiveSettings_known, storedFields_known]
  dsimp only
  rw [movedFields_known, List.map_map]
  refine bind_eq_map_bind (mapM_map fun f _ => baseColumn?_known _ _ _ _ f) fun columns _ => ?_
  refine bind_eq_map_bind ?_ fun base _ =>
    alone_or_translated_known (translationTable_known _ _ _ _)
  rw [m.baseTable_known (m.effectiveSettings settings) columns]
  exact Table.compiled_make_known _

end ContentModel

/-! ### Additions -/

theorem Field.manyToMany?_known (f : Field) :
    f.known.manyToMany? = f.manyToMany?.map fun c => { c with extras := [] } := by
  rw [manyToMany?, manyToMany?, relation?_known]
  cases f.relation? with
  | none => rfl
  | some c =>
    dsimp only [Option.map_some]
    split <;> rfl

/-- A junction table has no rules. -/
theorem Field.junctionTable_known (f : Field) (owner : String) (settings : BuildSettings) :
    f.known.junctionTable owner settings = Table.known <$> f.junctionTable owner settings := by
  rw [junctionTable, junctionTable, manyToMany?_known]
  cases f.manyToMany? with
  | none => rfl
  | some c =>
    refine bind_eq_map_bind (id_map _).symm fun toOwner htoOwner => ?_
    refine bind_eq_map_bind (id_map _).symm fun toTarget htoTarget => ?_
    have hknown : (junctionTableOf owner (settings.targetName c.target) settings toOwner
        toTarget).known =
          junctionTableOf owner (settings.targetName c.target) settings toOwner toTarget := by
      simp only [junctionTableOf, Table.known, List.map_cons, List.map_nil,
        Column.known_of_backRelation htoOwner, Column.known_of_backRelation htoTarget]
      rfl
    have hmake := Table.compiled_make_known (junctionTableOf owner (settings.targetName c.target)
      settings toOwner toTarget)
    rw [hknown] at hmake
    exact hmake

/-- The addition without unknown entries. -/
def Addition.known : Addition → Addition
  | component tables => component (tables.map (·.known))
  | junction table => junction table.known
  | missing warning => missing warning

/-- The components without unknown entries. -/
def Components.known (components : Components) : Components :=
  components.map fun e => (e.1, e.2.known)

namespace Components

variable (components : Components)

theorem find?_known (slug : String) :
    components.known.find? slug = (components.find? slug).map (·.known) := by
  induction components with
  | nil => rfl
  | cons e components ih =>
    obtain ⟨key, c⟩ := e
    rw [find?, find?, known, List.map_cons, List.lookup_cons, List.lookup_cons]
    cases slug == key with
    | true => rfl
    | false => exact ih

theorem slugs_known : components.known.slugs = components.slugs := by
  rw [slugs, known, List.map_map]
  rfl

theorem ofList_known (list : List Component) :
    ofList (list.map (·.known)) = (ofList list).known := by
  have hpairs : (list.map (·.known)).map (fun c => (c.slug, c)) =
      (list.map fun c => (c.slug, c)).map fun e => (e.1, e.2.known) := by
    rw [List.map_map, List.map_map]
    rfl
  rw [ofList_eq_foldl_putBy, ofList_eq_foldl_putBy, hpairs]
  exact foldl_putBy_map (fun _ => rfl) _ []

end Components

namespace ContentModel

variable (m : ContentModel) (settings : BuildSettings) (components : Components)

theorem additionOf_known (owner : String) (f : Field) :
    m.known.additionOf settings components.known owner f.known =
      Option.map Addition.known <$> m.additionOf settings components owner f := by
  rw [additionOf.eq_def, additionOf.eq_def, Field.component?_known]
  cases f.component? with
  | some c =>
    dsimp only [Option.map_some]
    rw [Components.find?_known]
    cases components.find? c.slug with
    | none => rfl
    | some component =>
      refine bind_eq_map_bind (component.tables_known ⟨owner, f.key, c.repeatable, c.context⟩
        settings) fun ts _ => ?_
      rfl
  | none =>
    dsimp only [Option.map_none]
    rw [Field.manyToMany?_known, Option.isSome_map, Field.junctionTable_known]
    split
    · cases f.junctionTable owner settings <;> rfl
    · rfl

theorem additions_known :
    m.known.additions settings components.known =
      List.map Addition.known <$> m.additions settings components := by
  rw [additions, additions, storedFields_known]
  refine bind_eq_map_bind (mapM_map fun f _ => m.additionOf_known _ components _ f) fun found _ => ?_
  refine congrArg Except.ok ?_
  rw [List.filterMap_map, List.map_filterMap]
  rfl

theorem derivedWarnings_known : m.known.derivedWarnings = m.derivedWarnings := by
  rw [derivedWarnings, derivedWarnings, known, List.filter_map, List.map_map]
  rfl

end ContentModel

/-! ### Whole compilations -/

section Compile

variable (models : List ContentModel) (components : Components) (settings : BuildSettings)

theorem compileOwn_known : compileOwn (models.map (·.known)) components.known settings =
    List.map (List.map Table.known) <$> compileOwn models components settings := by
  rw [compileOwn, compileOwn, Components.slugs_known]
  exact mapM_map fun m _ => m.tables_known settings _

theorem compileAdditions_known :
    compileAdditions (models.map (·.known)) components.known settings =
      List.map (List.map Addition.known) <$> compileAdditions models components settings :=
  mapM_map fun m _ => m.additions_known settings components

/-- Which additions are kept depends on the names of tables only. -/
theorem keepAdditions_known (seen : List String) (additions : List Addition) :
    keepAdditions seen (additions.map (·.known)) =
      ((keepAdditions seen additions).1.map (·.known), (keepAdditions seen additions).2) := by
  induction additions generalizing seen with
  | nil => rfl
  | cons a additions ih =>
    cases a with
    | component ts =>
      rw [List.map_cons, Addition.known, keepAdditions.eq_2, keepAdditions.eq_2, ih]
      dsimp only
      rw [List.map_append]
    | junction t =>
      rw [List.map_cons, Addition.known, keepAdditions.eq_3, keepAdditions.eq_3, Table.name_known]
      split
      · exact ih seen
      · rw [ih]
        rfl
    | missing w => exact ih seen

theorem additionWarnings_known (additions : List Addition) :
    additionWarnings (additions.map (·.known)) = additionWarnings additions := by
  rw [additionWarnings, additionWarnings, List.filterMap_map]
  refine List.filterMap_congr fun a _ => ?_
  cases a <;> rfl

/-- The group without unknown entries. -/
def Group.known (g : Group) : Group := ⟨g.own.map (·.known), g.derived.map (·.known)⟩

theorem groupTables_known (seen : List String) (parts : List (List Table × List Addition)) :
    groupTables seen (parts.map (Prod.map (List.map Table.known) (List.map Addition.known))) =
      (groupTables seen parts).map (·.known) := by
  induction parts generalizing seen with
  | nil => rfl
  | cons part parts ih =>
    obtain ⟨own, additions⟩ := part
    rw [List.map_cons, Prod.map, groupTables, keepAdditions_known]
    dsimp only
    rw [ih, groupTables]
    rfl

/-- The compilation without unknown entries. -/
def Compilation.known (c : Compilation) : Compilation := { c with groups := c.groups.map (·.known) }

theorem Compilation.tables_known (c : Compilation) :
    c.known.tables = c.tables.map (·.known) := by
  rw [tables, tables, known, List.flatMap_map, List.map_flatMap]
  refine List.flatMap_congr fun g _ => ?_
  rw [List.map_append]
  rfl

theorem Compilation.derivedCount_known (c : Compilation) : c.known.derivedCount = c.derivedCount := by
  rw [derivedCount, derivedCount, known, List.flatMap_map, List.length_flatMap, List.length_flatMap]
  simp [Group.known]

theorem Compilation.ofParts_known (own : List (List Table)) (additions : List (List Addition)) :
    Compilation.ofParts (models.map (·.known)) (own.map (List.map Table.known))
      (additions.map (List.map Addition.known)) = (Compilation.ofParts models own additions).known := by
  rw [ofParts, ofParts, known, List.zip_map, groupTables_known, List.flatMap_map, List.flatMap_map,
    List.flatMap_congr fun m _ => m.derivedWarnings_known,
    List.flatMap_congr fun a _ => additionWarnings_known a]

end Compile

/-! ### Merging and printing -/

theorem collisionsFrom_known (seen : List String) (tables : List Table) :
    collisionsFrom seen (tables.map (·.known)) = collisionsFrom seen tables := by
  induction tables generalizing seen with
  | nil => rfl
  | cons t tables ih =>
    rw [List.map_cons, collisionsFrom, collisionsFrom, ih]
    rfl

theorem mergeTables_known (external generated : List Table) :
    mergeTables (external.map (·.known)) (generated.map (·.known)) =
      ((mergeTables external generated).1.map (·.known), (mergeTables external generated).2) := by
  rw [mergeTables, mergeTables, ← List.map_append, collisionsFrom_known]
  exact congrArg (·, _) (foldl_putBy_map (fun _ => rfl) _ [])

/-- The comment shows no unknown entries. -/
theorem FieldRules.comment?_known (r : FieldRules) : r.known.comment? = r.comment? := by
  have hcalls : r.known.calls = r.calls := rfl
  rw [comment?, hcalls, comment?]

theorem Column.printLines_known (c : Column) (nameWidth typeWidth : Nat) :
    c.known.printLines nameWidth typeWidth = c.printLines nameWidth typeWidth := by
  have hprint : c.known.print nameWidth typeWidth = c.print nameWidth typeWidth := rfl
  have hcomment : c.known.rules.bind (·.comment?) = c.rules.bind (·.comment?) := by
    rw [known]
    cases c.rules with
    | none => rfl
    | some r => rw [Option.map_some, Option.bind_some, Option.bind_some, r.comment?_known]
  rw [printLines, hprint, hcomment, printLines]

theorem Column.holdsOversized_known (c : Column) : c.known.holdsOversized = c.holdsOversized := by
  rw [holdsOversized, holdsOversized, known]
  cases c.rules <;> rfl

theorem Table.print_known (t : Table) : t.known.print = t.print := by
  have hnames : t.known.nameWidth = t.nameWidth := by
    rw [nameWidth, known, List.foldl_map]
    rfl
  have htypes : t.known.typeWidth = t.typeWidth := by
    rw [typeWidth, known, List.foldl_map]
    rfl
  rw [print, bodyLines, hnames, htypes, known, List.flatMap_map,
    List.flatMap_congr fun c _ => c.printLines_known _ _]
  rfl

namespace Schema

/-- The schema without unknown entries in the rules of its columns. -/
def known (s : Schema) : Schema := { s with tables := s.tables.map (·.known) }

variable (s : Schema)

theorem print_known : s.known.print = s.print := by
  have htables : (s.tables.map (·.known)).map (·.print) = s.tables.map (·.print) := by
    rw [List.map_map]
    exact List.map_congr_left fun t _ => t.print_known
  rw [print, known, htables]
  rfl

theorem holdsOversized_known : s.known.holdsOversized = s.holdsOversized := by
  have htable : ∀ t : Table, (t.known.columns.any fun c => c.holdsOversized) =
      t.columns.any fun c => c.holdsOversized := by
    intro t
    rw [Table.known, List.any_map]
    exact congrArg _ (funext Column.holdsOversized_known)
  rw [holdsOversized, known, List.any_map]
  exact congrArg (_ || s.tables.any ·) (funext htable)

end Schema

end ContentSchema
