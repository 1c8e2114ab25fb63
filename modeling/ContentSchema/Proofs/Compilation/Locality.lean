import ContentSchema.Proofs.Compilation.Junctions
import ContentSchema.Proofs.Repeats

/-!
# Models compiled together and alone

Models are compiled one by one; all that passes from one to the next are the names of the junctions
so far.  So the tables of a compilation are those of its models, each compiled alone, after each
other and without the junctions that repeat the name of an earlier one
(`exists_assembled_of_compileModels`).

The run with the names that were seen is compared with leaving out repetitions afterwards
(`keepAdditions_fst`, `groupTables_append`).
-/

namespace ContentSchema

/-! ### Junctions among tables -/

namespace Table

/-- Whether the table is a junction: some of its columns are unique together, and some have an
index. -/
def isJunction (t : Table) : Bool := !t.unique.isEmpty && !t.indexes.isEmpty

/-- Whether both tables are junctions, and they have the same name. -/
def repeats (t u : Table) : Bool := t.isJunction && u.isJunction && t.name == u.name

variable {t u : Table}

theorem isJunction_eq_false_iff : t.isJunction = false ↔ t.OneSided := by
  simp only [isJunction, OneSided, Bool.and_eq_false_iff, Bool.not_eq_false', List.isEmpty_iff]

theorem repeats_iff : t.repeats u = true ↔
    t.isJunction = true ∧ u.isJunction = true ∧ t.name = u.name := by
  rw [repeats, Bool.and_eq_true, Bool.and_eq_true, beq_iff_eq, and_assoc]

theorem repeats_symm (t u : Table) (h : t.repeats u = true) : u.repeats t = true := by
  obtain ⟨ht, hu, hname⟩ := repeats_iff.1 h
  exact repeats_iff.2 ⟨hu, ht, hname.symm⟩

theorem repeats_trans (t u v : Table) (htu : t.repeats u = true) (huv : u.repeats v = true) :
    t.repeats v = true := by
  obtain ⟨ht, -, htu⟩ := repeats_iff.1 htu
  obtain ⟨-, hv, huv⟩ := repeats_iff.1 huv
  exact repeats_iff.2 ⟨ht, hv, htu.trans huv⟩

/-- Tables that repeat each other repeat the same tables. -/
theorem repeats_congr (h : t.repeats u = true) (v : Table) : t.repeats v = u.repeats v :=
  Bool.eq_iff_iff.2 ⟨repeats_trans u t v (repeats_symm t u h), repeats_trans t u v h⟩

theorem repeats_eq_false (h : t.isJunction = false) (u : Table) :
    t.repeats u = false ∧ u.repeats t = false := by
  simp [repeats, h]

end Table

/-! ### What is kept of additions -/

/-- The tables of an addition. -/
def Addition.tables : Addition → List Table
  | .component tables => tables
  | .junction table => [table]
  | .missing _ => []

/-- The table of a junction is one, and no table of a component is. -/
def Addition.Proper : Addition → Prop
  | .component tables => ∀ t ∈ tables, t.isJunction = false
  | .junction table => table.isJunction = true
  | .missing _ => True

/-- Whether the table is no junction whose name is among those seen. -/
def Table.fresh (seen : List String) (t : Table) : Bool := !(t.isJunction && seen.contains t.name)

section Kept

variable {seen : List String} {additions more : List Addition} {t u : Table}

theorem Table.fresh_cons (hu : u.isJunction = true) :
    t.fresh (u.name :: seen) = (t.fresh seen && !t.repeats u) := by
  rw [fresh, fresh, repeats, hu, List.contains_cons, Bool.and_true]
  cases t.isJunction <;> cases t.name == u.name <;> simp

theorem Table.fresh_cons_of_mem {name : String} (h : name ∈ seen) :
    t.fresh (name :: seen) = t.fresh seen := by
  rw [fresh, fresh, List.contains_cons]
  cases heq : t.name == name with
  | false => rfl
  | true => rw [beq_iff_eq.1 heq, List.contains_iff_mem.2 h, Bool.true_or]

/-- What repeats a junction is no longer fresh when its name was seen. -/
theorem filter_fresh_cons (hu : u.isJunction = true) (l : List Table) :
    (l.filter fun t => decide (t.repeats u = false)).filter (·.fresh seen) =
      l.filter (·.fresh (u.name :: seen)) := by
  rw [List.filter_filter]
  refine List.filter_congr fun t _ => ?_
  rw [Table.fresh_cons hu]
  cases t.repeats u <;> rfl

theorem Table.fresh_nil (t : Table) : t.fresh [] = true := by
  simp [fresh]

theorem keepAdditions_append :
    keepAdditions seen (additions ++ more) =
      ((keepAdditions seen additions).1 ++
        (keepAdditions (keepAdditions seen additions).2 more).1,
        (keepAdditions (keepAdditions seen additions).2 more).2) := by
  induction additions generalizing seen with
  | nil => rfl
  | cons a additions ih =>
    rw [List.cons_append]
    cases a with
    | component tables => simp only [keepAdditions, ih, List.append_assoc]
    | missing warning => simp only [keepAdditions, ih]
    | junction table =>
      simp only [keepAdditions]
      split
      · exact ih
      · simp only [ih, List.cons_append]

/-- The tables that are kept are those that repeat no earlier one and are no junctions with a name
that was seen. -/
theorem keepAdditions_fst (h : ∀ a ∈ additions, a.Proper) :
    (keepAdditions seen additions).1 =
      ((additions.flatMap (·.tables)).eraseDupsBy Table.repeats).filter (·.fresh seen) := by
  induction additions generalizing seen with
  | nil => rfl
  | cons a additions ih =>
    obtain ⟨ha, hrest⟩ := List.forall_mem_cons.1 h
    rw [List.flatMap_cons]
    cases a with
    | missing warning => exact ih hrest
    | component tables =>
      have hone : tables.Pairwise fun t u => u.repeats t = false :=
        List.pairwise_of_forall_mem_list fun t ht u _ => (Table.repeats_eq_false (ha t ht) u).2
      have hnone : ∀ u : Table, tables.any (u.repeats ·) = false := fun u =>
        List.any_eq_false.2 fun t ht => by simp [(Table.repeats_eq_false (ha t ht) u).2]
      have hfresh : tables.filter (·.fresh seen) = tables :=
        List.filter_eq_self.2 fun t ht => by simp [Table.fresh, ha t ht]
      simp only [keepAdditions, Addition.tables, eraseDupsBy_append Table.repeats_trans,
        eraseDupsBy_eq_self hone, hnone, Bool.not_false, List.filter_true, List.filter_append,
        hfresh, ih hrest]
    | junction table =>
      have htogether : ∀ t u : Table, t.repeats u = true →
          decide (t.repeats table = false) = decide (u.repeats table = false) := fun t u h => by
        rw [Table.repeats_congr h]
      have hfresh : table.fresh seen = !seen.contains table.name := by
        rw [Table.fresh, show table.isJunction = true from ha, Bool.true_and]
      rw [Addition.tables, List.singleton_append, List.eraseDupsBy_cons,
        eraseDupsBy_filter htogether, keepAdditions, List.filter_cons, filter_fresh_cons ha, hfresh]
      by_cases hseen : table.name ∈ seen
      · -- neither this table nor those that repeat it were fresh
        rw [if_pos hseen, ih hrest, List.contains_iff_mem.2 hseen]
        simp only [Table.fresh_cons_of_mem hseen, Bool.not_true, Bool.false_eq_true, if_false]
      · rw [if_neg hseen, if_pos (by simpa using hseen)]
        exact congrArg (table :: ·) (ih hrest)

/-- Among proper additions, the junctions are the tables that are junctions. -/
theorem mem_junctionTables_iff (h : ∀ a ∈ additions, a.Proper) :
    t ∈ junctionTables additions ↔ t ∈ additions.flatMap (·.tables) ∧ t.isJunction = true := by
  rw [mem_junctionTables, List.mem_flatMap]
  constructor
  · exact fun ht => ⟨⟨_, ht, List.mem_singleton_self t⟩, h _ ht⟩
  · rintro ⟨⟨a, ha, ht⟩, hjunction⟩
    cases a with
    | missing warning => cases ht
    | junction table =>
      rw [List.mem_singleton.1 ht]
      exact ha
    | component tables =>
      have hother : t.isJunction = false := h _ ha t ht
      rw [hjunction] at hother
      cases hother

/-- After a run, those tables are fresh that repeat none of it. -/
theorem fresh_keepAdditions_snd (h : ∀ a ∈ additions, a.Proper) :
    t.fresh (keepAdditions [] additions).2 =
      !(additions.flatMap (·.tables)).any (t.repeats ·) := by
  rw [Table.fresh, Bool.not_inj_iff, Bool.eq_iff_iff, Bool.and_eq_true, List.contains_iff_mem,
    mem_keepAdditions_snd, or_iff_right List.not_mem_nil, List.mem_map, List.any_eq_true]
  simp only [mem_junctionTables_iff h, Table.repeats_iff]
  constructor
  · rintro ⟨ht, u, ⟨hu, hjunction⟩, hname⟩
    exact ⟨u, hu, ht, hjunction, hname.symm⟩
  · rintro ⟨u, hu, ht, hjunction, hname⟩
    exact ⟨ht, u, ⟨hu, hjunction⟩, hname.symm⟩

end Kept

/-! ### What is kept of models -/

/-- The tables of a group in their order. -/
def Group.tables (g : Group) : List Table := g.own ++ g.derived

/-- The part of a model in a compilation: its own tables, and what its fields add to them. -/
abbrev Part := List Table × List Addition

/-- The own tables of a model, as if a component added them, and its additions. -/
def wholeAdditions (part : Part) : List Addition :=
  .component part.1 :: part.2

section Groups

variable {seen : List String} {parts before after : List Part} {part : Part}

theorem groupTables_cons : groupTables seen (part :: parts) =
    ⟨part.1, (keepAdditions seen part.2).1⟩ ::
      groupTables (keepAdditions seen (wholeAdditions part)).2 parts :=
  rfl

/-- The groups of a list of models are those of its first part, and those of the rest after the
junctions of the first part were seen. -/
theorem groupTables_append : groupTables seen (before ++ after) =
    groupTables seen before ++
      groupTables (keepAdditions seen (before.flatMap wholeAdditions)).2 after := by
  induction before generalizing seen with
  | nil => rfl
  | cons part before ih =>
    rw [List.cons_append, groupTables_cons, groupTables_cons, ih, List.flatMap_cons,
      keepAdditions_append, List.cons_append]

theorem length_groupTables : (groupTables seen parts).length = parts.length := by
  induction parts generalizing seen with
  | nil => rfl
  | cons part parts ih => exact congrArg (· + 1) ih

theorem flatMap_tables_groupTables :
    (groupTables seen parts).flatMap (·.tables) =
      (keepAdditions seen (parts.flatMap wholeAdditions)).1 := by
  induction parts generalizing seen with
  | nil => rfl
  | cons part parts ih =>
    rw [groupTables_cons, List.flatMap_cons, List.flatMap_cons, keepAdditions_append, ih]
    rfl

/-- The group of a model behind others. -/
theorem getElem?_groupTables : (groupTables seen (before ++ part :: after))[before.length]? =
    some ⟨part.1, (keepAdditions
      (keepAdditions seen (before.flatMap wholeAdditions)).2 part.2).1⟩ := by
  rw [groupTables_append, List.getElem?_append_right (length_groupTables ▸ Nat.le_refl _),
    length_groupTables, Nat.sub_self]
  rfl

end Groups

/-! ### Parts of a compilation -/

section Parts

variable {models : List ContentModel} {components : Components} {settings : BuildSettings}
  {compilation : Compilation} {m : ContentModel} {part : Part} {parts : List Part}

/-- The part is what compiling the model gives. -/
structure ContentModel.HasPart (m : ContentModel) (components : Components)
    (settings : BuildSettings) (part : Part) : Prop where
  /-- The own tables. -/
  own : m.tables settings (some components.slugs) = .ok part.1
  /-- The additions. -/
  additions : m.additions settings components = .ok part.2

/-- Each model has the part at its place. -/
abbrev HaveParts (models : List ContentModel) (components : Components) (settings : BuildSettings)
    (parts : List Part) : Prop :=
  List.Forall₂ (fun m part => m.HasPart components settings part) models parts

theorem ContentModel.HasPart.proper (h : m.HasPart components settings part) :
    ∀ a ∈ wholeAdditions part, a.Proper := by
  rw [wholeAdditions, List.forall_mem_cons]
  refine ⟨fun t ht => Table.isJunction_eq_false_iff.2 (oneSided_of_tables h.own t ht), ?_⟩
  intro a ha
  cases a with
  | missing warning => trivial
  | component tables =>
    obtain ⟨_, _, _, _, _, _, htables⟩ := exists_component_of_mem_additions h.additions ha
    exact fun t ht => Table.isJunction_eq_false_iff.2 (Component.oneSided_of_tables htables t ht)
  | junction table =>
    obtain ⟨_, _, htable⟩ := exists_junction_of_mem_additions h.additions ha
    obtain ⟨_, _, _, _, _, _, rfl, -⟩ := Field.junctionTable_eq_ok htable
    rfl

/-- A compilation has the groups of its models' parts. -/
theorem exists_parts_of_compileModels
    (h : compileModels models components settings = .ok compilation) :
    ∃ parts, HaveParts models components settings parts ∧
      compilation.groups = groupTables [] parts := by
  obtain ⟨own, additions, hown, hadditions, rfl⟩ := compileModels_eq_ok.1 h
  refine ⟨_, (forall₂_zip (mapM_eq_ok.1 hown) (mapM_eq_ok.1 hadditions)).imp ?_, rfl⟩
  exact fun m part hpart => ⟨hpart.1, hpart.2⟩

/-- The group of a model in a compilation holds its own tables and what is kept of its additions. -/
theorem exists_group_of_compileModels {before after : List ContentModel}
    (h : compileModels (before ++ m :: after) components settings = .ok compilation) :
    ∃ part seen, m.HasPart components settings part ∧
      compilation.groups[before.length]? = some ⟨part.1, (keepAdditions seen part.2).1⟩ := by
  obtain ⟨parts, hparts, hgroups⟩ := exists_parts_of_compileModels h
  obtain ⟨partsBefore, part, partsAfter, rfl, hlength, hpart⟩ := exists_split_of_forall₂ hparts
  exact ⟨part, _, hpart, by rw [hgroups, ← hlength, getElem?_groupTables]⟩

/-- The tables of a part without repetitions. -/
def partTables (part : Part) : List Table :=
  ((wholeAdditions part).flatMap (·.tables)).eraseDupsBy Table.repeats

theorem proper_of_parts (h : HaveParts models components settings parts) :
    ∀ a ∈ parts.flatMap wholeAdditions, a.Proper := by
  intro a ha
  obtain ⟨part, hpart, ha⟩ := List.mem_flatMap.1 ha
  obtain ⟨m, -, hm⟩ := exists_of_mem_right h hpart
  exact hm.proper a ha

/-- The junctions among parts are those that relations of the models ask for. -/
theorem junctionTables_of_parts (h : HaveParts models components settings parts) :
    junctionTables (parts.flatMap wholeAdditions) =
      (models.flatMap (·.junctions settings)).map (·.table settings) := by
  induction h with
  | nil => rfl
  | cons hm _ ih =>
    rw [List.flatMap_cons, List.flatMap_cons, List.map_append, ← ih,
      ← junctionTables_of_additions hm.additions]
    exact List.filterMap_append

/-- All tables of models that have parts, in order and without repetitions. -/
theorem flatMap_tables_of_parts (h : HaveParts models components settings parts) :
    (groupTables [] parts).flatMap (·.tables) =
      ((parts.flatMap wholeAdditions).flatMap (·.tables)).eraseDupsBy Table.repeats := by
  rw [flatMap_tables_groupTables, keepAdditions_fst (proper_of_parts h)]
  exact List.filter_eq_self.2 fun t _ => t.fresh_nil

theorem exists_tables_eq_of_compileModels
    (h : compileModels models components settings = .ok compilation) :
    ∃ parts, HaveParts models components settings parts ∧ compilation.tables =
      ((parts.flatMap wholeAdditions).flatMap (·.tables)).eraseDupsBy Table.repeats := by
  obtain ⟨parts, hparts, hgroups⟩ := exists_parts_of_compileModels h
  refine ⟨parts, hparts, ?_⟩
  rw [← flatMap_tables_of_parts hparts, ← hgroups]
  rfl

/-- Models that have parts compile, to the tables of these parts. -/
theorem exists_compileModels_of_parts (h : HaveParts models components settings parts) :
    ∃ c, compileModels models components settings = .ok c ∧
      c.tables = ((parts.flatMap wholeAdditions).flatMap (·.tables)).eraseDupsBy Table.repeats := by
  have hown : compileOwn models components settings = .ok (parts.map Prod.fst) :=
    mapM_eq_ok.2 (List.forall₂_map_right_iff.2 (h.imp fun _ _ hm => hm.own))
  have hadditions : compileAdditions models components settings = .ok (parts.map Prod.snd) :=
    mapM_eq_ok.2 (List.forall₂_map_right_iff.2 (h.imp fun _ _ hm => hm.additions))
  refine ⟨_, compileModels_eq_ok.2 ⟨_, _, hown, hadditions, rfl⟩, ?_⟩
  rw [← flatMap_tables_of_parts h, Compilation.tables, Compilation.ofParts, ← List.zip_of_prod rfl rfl]
  rfl

/-- A model that has a part compiles alone, to the tables of this part. -/
theorem ContentModel.HasPart.exists_compileModels (h : m.HasPart components settings part) :
    ∃ single, compileModels [m] components settings = .ok single ∧
      single.tables = partTables part := by
  have hparts : HaveParts [m] components settings [part] := .cons h .nil
  obtain ⟨single, hsingle, htables⟩ := exists_compileModels_of_parts hparts
  exact ⟨single, hsingle, by rw [htables, List.flatMap_singleton, partTables]⟩

/-- Models that have parts compile alone, each to the tables of its part. -/
theorem exists_alone_of_parts (h : HaveParts models components settings parts) :
    ∃ alone, models.mapM (fun m => compileModels [m] components settings) = .ok alone ∧
      alone.map (·.tables) = parts.map partTables := by
  induction h with
  | nil => exact ⟨[], rfl, rfl⟩
  | cons hm _ ih =>
    obtain ⟨single, hsingle, htables⟩ := hm.exists_compileModels
    obtain ⟨alone, halone, hmap⟩ := ih
    exact ⟨single :: alone, mapM_eq_ok.2 (.cons hsingle (mapM_eq_ok.1 halone)),
      by rw [List.map_cons, List.map_cons, htables, hmap]⟩

end Parts

/-! ### Compiled together and alone -/

/-- The group of a model that is compiled behind others, against the model compiled alone. -/
structure Group.Localizes (g : Group) (single : Compilation) (before : List Compilation) :
    Prop where
  /-- The tables are those of the model alone, but for junctions that repeat one from before. -/
  tables : g.tables = single.tables.filter fun t => !(before.flatMap (·.tables)).any (t.repeats ·)
  /-- Tables that are no junctions do not depend on other models. -/
  others : g.tables.filter (!·.isJunction) = single.tables.filter (!·.isJunction)
  /-- A junction is in the group if the model is the first one that needs one of its name. -/
  junctions : ∀ t ∈ single.tables, t.isJunction = true → (t ∈ g.tables ↔
    ∀ c ∈ before, ∀ u ∈ c.tables, u.isJunction = true → u.name ≠ t.name)

/-- A compilation of models, put together from the compilations of each model alone. -/
structure Compilation.Assembled (c : Compilation) (models : List ContentModel)
    (settings : BuildSettings) (alone : List Compilation) : Prop where
  /-- All tables are those of the models alone, but for junctions that repeat an earlier one. -/
  tables : c.tables = (alone.flatMap (·.tables)).eraseDupsBy Table.repeats
  /-- The junctions among them are those that relations of the models ask for. -/
  junctions : ∀ t ∈ c.tables, t.isJunction = true ↔
    ∃ j ∈ models.flatMap (·.junctions settings), t = j.table settings
  /-- Different junctions have different names. -/
  distinct : ((c.tables.filter (·.isJunction)).map (·.name)).Nodup
  /-- Each model has a group. -/
  length : c.groups.length = models.length
  /-- It is that of the model alone, up to junctions of the models before. -/
  groups : ∀ before single after, alone = before ++ single :: after →
    ∃ group, c.groups[before.length]? = some group ∧ group.Localizes single before

section Assembled

variable {models : List ContentModel} {components : Components} {settings : BuildSettings}
  {compilation : Compilation} {alone before after : List Compilation} {single : Compilation}
  {part : Part} {parts partsBefore : List Part} {l : List Table} {name : String}

theorem nodup_names_eraseDupsBy :
    (((l.eraseDupsBy Table.repeats).filter (·.isJunction)).map (·.name)).Nodup := by
  refine List.pairwise_map.2 (List.pairwise_filter.2 (pairwise_eraseDupsBy.imp ?_))
  intro t u hrepeats ht hu hname
  rw [Table.repeats_iff.2 ⟨hu, ht, hname.symm⟩] at hrepeats
  cases hrepeats

/-- Only junctions repeat earlier tables. -/
theorem filter_eraseDupsBy_repeats :
    (l.eraseDupsBy Table.repeats).filter (!·.isJunction) = l.filter (!·.isJunction) := by
  have htogether : ∀ t u : Table, t.repeats u = true → (!t.isJunction) = !u.isJunction := by
    intro t u h
    obtain ⟨ht, hu, -⟩ := Table.repeats_iff.1 h
    rw [ht, hu]
  rw [← eraseDupsBy_filter htogether]
  refine eraseDupsBy_eq_self (List.pairwise_of_forall_mem_list fun t ht u hu => ?_)
  have hjunction : t.isJunction = false := by simpa using (List.mem_filter.1 ht).2
  exact (Table.repeats_eq_false hjunction u).2

/-- Each name of a junction stays the name of one. -/
theorem mem_names_eraseDupsBy_repeats :
    name ∈ ((l.eraseDupsBy Table.repeats).filter (·.isJunction)).map (·.name) ↔
      name ∈ (l.filter (·.isJunction)).map (·.name) := by
  constructor
  · intro h
    obtain ⟨t, ht, rfl⟩ := List.mem_map.1 h
    obtain ⟨ht, hjunction⟩ := List.mem_filter.1 ht
    exact List.mem_map_of_mem (List.mem_filter.2 ⟨eraseDupsBy_subset ht, hjunction⟩)
  · intro h
    obtain ⟨t, ht, rfl⟩ := List.mem_map.1 h
    obtain ⟨ht, hjunction⟩ := List.mem_filter.1 ht
    have hany : (l.eraseDupsBy Table.repeats).any (t.repeats ·) = true := by
      rw [any_eraseDupsBy Table.repeats_trans, List.any_eq_true]
      exact ⟨t, ht, Table.repeats_iff.2 ⟨hjunction, hjunction, rfl⟩⟩
    obtain ⟨u, hu, hrepeats⟩ := List.any_eq_true.1 hany
    obtain ⟨-, hjunction', hname⟩ := Table.repeats_iff.1 hrepeats
    exact List.mem_map.2 ⟨u, List.mem_filter.2 ⟨hu, hjunction'⟩, hname.symm⟩

/-- The tables of compilations that are told part by part. -/
theorem flatMap_tables_eq (h : alone.map (·.tables) = parts.map partTables) :
    alone.flatMap (·.tables) =
      (parts.map fun part => (wholeAdditions part).flatMap (·.tables)).flatMap
        (·.eraseDupsBy Table.repeats) := by
  rw [List.flatMap_def, h, List.flatMap_map, List.flatMap_def]
  rfl

theorem any_flatMap_tables (h : alone.map (·.tables) = parts.map partTables) (t : Table) :
    (alone.flatMap (·.tables)).any (t.repeats ·) =
      ((parts.flatMap wholeAdditions).flatMap (·.tables)).any (t.repeats ·) := by
  rw [flatMap_tables_eq h, List.flatMap_assoc, List.any_flatMap, List.any_flatMap, List.any_map]
  refine List.any_congr rfl fun part => ?_
  exact any_eraseDupsBy Table.repeats_trans

/-- Leaving out junctions changes no other table. -/
theorem Group.localizes_of_tables {g : Group} (h : g.tables =
    single.tables.filter fun t => !(before.flatMap (·.tables)).any (t.repeats ·)) :
    g.Localizes single before where
  tables := h
  others := by
    rw [h, List.filter_filter]
    refine List.filter_congr fun t _ => ?_
    cases hjunction : t.isJunction with
    | true => rfl
    | false => simp [Table.repeats, hjunction]
  junctions := by
    intro t ht hjunction
    rw [h, List.mem_filter, and_iff_right ht, Bool.not_eq_true', List.any_eq_false]
    simp only [List.forall_mem_flatMap, Table.repeats_iff, hjunction, true_and, not_and]
    exact forall₄_congr fun c _ u _ => imp_congr_right fun _ => ne_comm

/-- The group of a part behind others localizes the model alone: the junctions that were seen are
those of the parts before. -/
theorem localizes_of_parts
    (hproperBefore : ∀ a ∈ partsBefore.flatMap wholeAdditions, a.Proper)
    (hproper : ∀ a ∈ wholeAdditions part, a.Proper)
    (hbefore : before.map (·.tables) = partsBefore.map partTables)
    (hsingle : single.tables = partTables part) :
    Group.Localizes ⟨part.1, (keepAdditions
      (keepAdditions [] (partsBefore.flatMap wholeAdditions)).2 part.2).1⟩ single before := by
  refine Group.localizes_of_tables ?_
  calc (keepAdditions (keepAdditions [] (partsBefore.flatMap wholeAdditions)).2
        (wholeAdditions part)).1
      = (partTables part).filter
        (·.fresh (keepAdditions [] (partsBefore.flatMap wholeAdditions)).2) :=
        keepAdditions_fst hproper
    _ = _ := by
        rw [hsingle]
        refine List.filter_congr fun t _ => ?_
        rw [fresh_keepAdditions_snd hproperBefore, any_flatMap_tables hbefore]

/-- Models compile together to the tables that each of them has alone, one after another, without
the junctions whose name an earlier junction has: the name tells the junctions that are left, and
each is in the group of the first model that needs it. -/
theorem exists_assembled_of_compileModels
    (h : compileModels models components settings = .ok compilation) :
    ∃ alone, models.mapM (fun m => compileModels [m] components settings) = .ok alone ∧
      compilation.Assembled models settings alone := by
  obtain ⟨parts, hparts, hgroups⟩ := exists_parts_of_compileModels h
  obtain ⟨alone, halone, hmap⟩ := exists_alone_of_parts hparts
  have hproper := proper_of_parts hparts
  have htables : compilation.tables =
      ((parts.flatMap wholeAdditions).flatMap (·.tables)).eraseDupsBy Table.repeats := by
    rw [← flatMap_tables_of_parts hparts, ← hgroups]
    rfl
  refine ⟨alone, halone, {
    tables := ?_
    junctions := ?_
    distinct := htables ▸ nodup_names_eraseDupsBy
    length := by rw [hgroups, length_groupTables, hparts.length_eq]
    groups := ?_ }⟩
  · rw [htables, flatMap_tables_eq hmap,
      eraseDupsBy_flatMap Table.repeats_trans Table.repeats_symm, List.flatMap_assoc,
      List.flatMap_def]
  · intro t ht
    rw [htables] at ht
    have hmem := eraseDupsBy_subset ht
    rw [← and_iff_right (a := t ∈ _) (b := t.isJunction = true) hmem,
      ← mem_junctionTables_iff hproper, junctionTables_of_parts hparts, List.mem_map]
    simp only [eq_comm]
  · rintro before single after rfl
    -- the parts are split where the models alone are
    rw [List.map_append, List.map_cons] at hmap
    obtain ⟨partsBefore, rest, rfl, hbefore, hrest⟩ := List.map_eq_append_iff.1 hmap.symm
    obtain ⟨part, partsAfter, rfl, hpart, -⟩ := List.map_eq_cons_iff.1 hrest
    have hlength : before.length = partsBefore.length := by
      rw [← List.length_map, ← hbefore, List.length_map]
    rw [List.flatMap_append, List.flatMap_cons, List.forall_mem_append,
      List.forall_mem_append] at hproper
    exact ⟨_, by rw [hgroups, hlength, getElem?_groupTables],
      localizes_of_parts hproper.1 hproper.2.1 hbefore.symm hpart.symm⟩

end Assembled

/-- The junction of the second model is left out, as that of the first one has its name. -/
theorem exists_assembled_rawTopics : ∃ d compilation alone, rawTopics.validate = .ok d ∧
    compileModels d.models d.components .standard = .ok compilation ∧
    d.models.mapM (fun m => compileModels [m] d.components .standard) = .ok alone ∧
    compilation.Assembled d.models .standard alone ∧
    compilation.tables.map (·.name) = ["Post", "PostCategoryTag", "PostCategory"] ∧
    alone.map (fun single => single.tables.map (·.name)) =
      [["Post", "PostCategoryTag"], ["PostCategory", "PostCategoryTag"]] := by
  obtain ⟨d, compilation, hd, hcompilation, halone⟩ : ∃ d compilation,
      rawTopics.validate = .ok d ∧
      compileModels d.models d.components .standard = .ok compilation ∧
      ((d.models.mapM fun m => compileModels [m] d.components .standard).map fun alone =>
        (compilation.tables.map (·.name),
          alone.map fun single => single.tables.map (·.name))) =
        .ok (["Post", "PostCategoryTag", "PostCategory"],
          [["Post", "PostCategoryTag"], ["PostCategory", "PostCategoryTag"]]) :=
    ⟨_, _, rfl, rfl, by decide +kernel⟩
  obtain ⟨alone, hmap, hassembled⟩ := exists_assembled_of_compileModels hcompilation
  rw [hmap] at halone
  obtain ⟨htables, hsingles⟩ := Prod.mk.inj (Except.ok.inj halone)
  exact ⟨d, compilation, alone, hd, hcompilation, hmap, hassembled, htables, hsingles⟩

end ContentSchema
