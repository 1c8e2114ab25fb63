import ContentSchema.Proofs.Compilation.Locality
import ContentSchema.Proofs.Compilation.Merging
import ContentSchema.Proofs.Run.Definitions

/-!
# Models that are declared again

Of several models with one slug all are compiled, and only their tables replace each other, name by
name.  `Overrides` compares the merged tables with those of the list that keeps the last model of
each slug (`lastOfSlug`): they are the same exactly if every name that a model makes which is
declared again has one table in both (`exists_overrides_of_compileModels`).  The last model's tables
win, but a table that only an earlier one makes is left over.

Tables are compared name by name: what is kept under a name is told by the tables of that name
(`lastNamed`), and those of a compilation by the models that make some (`namedBy`).
-/

namespace ContentSchema

/-! ### The last model of a slug -/

/-- The models whose slug no later one has. -/
def lastOfSlug : List ContentModel → List ContentModel
  | [] => []
  | m :: rest => if m.slug ∈ rest.map (·.slug) then lastOfSlug rest else m :: lastOfSlug rest

/-- The models whose slug a later one has. -/
def overridden : List ContentModel → List ContentModel
  | [] => []
  | m :: rest => if m.slug ∈ rest.map (·.slug) then m :: overridden rest else overridden rest

section Slugs

variable {models : List ContentModel} {m : ContentModel}

theorem lastOfSlug_sublist : (lastOfSlug models).Sublist models := by
  induction models with
  | nil => exact List.Sublist.refl _
  | cons m models ih =>
    rw [lastOfSlug]
    split
    · exact ih.cons m
    · exact ih.cons_cons m

theorem mem_slugs_lastOfSlug {slug : String} :
    slug ∈ (lastOfSlug models).map (·.slug) ↔ slug ∈ models.map (·.slug) := by
  induction models with
  | nil => exact Iff.rfl
  | cons m models ih =>
    rw [lastOfSlug]
    split
    · rename_i hlater
      rw [ih, List.map_cons, List.mem_cons]
      refine ⟨Or.inr, ?_⟩
      rintro (rfl | h)
      · exact hlater
      · exact h
    · rw [List.map_cons, List.mem_cons, ih, List.map_cons, List.mem_cons]

/-- Each slug has one last model. -/
theorem lastOfSlug_lastOfSlug : lastOfSlug (lastOfSlug models) = lastOfSlug models := by
  induction models with
  | nil => rfl
  | cons m models ih =>
    rw [lastOfSlug]
    split
    · exact ih
    · rename_i hlast
      rw [lastOfSlug, if_neg (mt mem_slugs_lastOfSlug.1 hlast), ih]

/-- No model behind the last one of a slug has this slug. -/
theorem exists_split_of_mem_lastOfSlug (h : m ∈ lastOfSlug models) :
    ∃ before after, models = before ++ m :: after ∧ ∀ k ∈ after, k.slug ≠ m.slug := by
  induction models with
  | nil => cases h
  | cons k models ih =>
    have hrest : m ∈ lastOfSlug models → ∃ before after,
        k :: models = before ++ m :: after ∧ ∀ k ∈ after, k.slug ≠ m.slug := by
      intro h
      obtain ⟨before, after, rfl, hafter⟩ := ih h
      exact ⟨k :: before, after, rfl, hafter⟩
    rw [lastOfSlug] at h
    split at h
    · exact hrest h
    · rename_i hlast
      rcases List.mem_cons.1 h with rfl | h
      · exact ⟨[], models, rfl, fun k hk hslug => hlast (List.mem_map.2 ⟨k, hk, hslug⟩)⟩
      · exact hrest h

end Slugs

/-! ### Tables of one name -/

/-- The last table with a name. -/
def lastNamed (tables : List Table) (name : String) : Option Table :=
  (tables.filter (·.name == name)).getLast?

section Named

variable {tables more external : List Table} {t : Table} {name : String}

theorem lastNamed_append :
    lastNamed (tables ++ more) name = (lastNamed more name).or (lastNamed tables name) := by
  rw [lastNamed, List.filter_append, List.getLast?_append]
  rfl

theorem mem_mergeTables_iff_lastNamed :
    t ∈ (mergeTables external tables).1 ↔ lastNamed (external ++ tables) t.name = some t := by
  rw [mem_mergeTables_iff, lastNamed, ← List.head?_reverse, ← List.filter_reverse,
    List.head?_filter]

/-- Leaving out junctions that repeat earlier ones goes name by name. -/
theorem filter_name_eraseDupsBy : (tables.eraseDupsBy Table.repeats).filter (·.name == name) =
    (tables.filter (·.name == name)).eraseDupsBy Table.repeats := by
  refine (eraseDupsBy_filter fun t u h => ?_).symm
  rw [(Table.repeats_iff.1 h).2.2]

/-- A table at the end that is no junction stays at the end, whatever stands in front. -/
theorem getLast?_eraseDupsBy_append (hother : t.isJunction = false)
    (h : (more.eraseDupsBy Table.repeats).getLast? = some t) :
    ((tables ++ more).eraseDupsBy Table.repeats).getLast? = some t := by
  have hkeep : ∀ t u : Table, t.repeats u = true →
      (!tables.any (t.repeats ·)) = !tables.any (u.repeats ·) := fun t u h => by
    rw [any_congr_of_repeats Table.repeats_trans Table.repeats_symm h]
  have hfresh : (!tables.any (t.repeats ·)) = true := by
    rw [Bool.not_eq_true', List.any_eq_false]
    exact fun u _ => by rw [(Table.repeats_eq_false hother u).1]; exact Bool.false_ne_true
  obtain ⟨front, heq⟩ := List.getLast?_eq_some_iff.1 h
  rw [eraseDupsBy_append Table.repeats_trans, eraseDupsBy_filter hkeep, heq, List.filter_append,
    List.filter_singleton, hfresh, ← List.append_assoc]
  exact List.getLast?_concat

end Named

/-! ### Which models make a table -/

section Made

variable {models : List ContentModel} {components : Components} {settings : BuildSettings}
  {compilation : Compilation} {m : ContentModel} {part : Part} {parts : List Part} {t : Table}
  {name : String} {external : List Table}

/-- Compiling the model alone makes the table. -/
def ContentModel.Makes (m : ContentModel) (components : Components) (settings : BuildSettings)
    (t : Table) : Prop :=
  ∃ single, compileModels [m] components settings = .ok single ∧ t ∈ single.tables

/-- The tables of a part that have a name. -/
def namedBy (name : String) (part : Part) : List Table :=
  ((wholeAdditions part).flatMap (·.tables)).filter (·.name == name)

theorem ContentModel.HasPart.makes_iff (h : m.HasPart components settings part) :
    m.Makes components settings t ↔ t ∈ partTables part := by
  obtain ⟨single, hsingle, htables⟩ := h.exists_compileModels
  rw [Makes, hsingle, ← htables]
  simp

/-- A model makes no table of a name if there is none in its part. -/
theorem ContentModel.HasPart.namedBy_eq_nil_iff (h : m.HasPart components settings part) :
    namedBy name part = [] ↔ ∀ t, m.Makes components settings t → t.name ≠ name := by
  have hnamed : namedBy name part = [] ↔ (partTables part).filter (·.name == name) = [] := by
    rw [partTables, filter_name_eraseDupsBy, eraseDupsBy_eq_nil_iff]
    rfl
  rw [hnamed, List.filter_eq_nil_iff]
  exact forall_congr' fun t => imp_congr h.makes_iff.symm (by simp)

/-- A model alone makes a table last if there is none of its name behind it. -/
def ContentModel.MakesLast (m : ContentModel) (components : Components) (settings : BuildSettings)
    (t : Table) : Prop :=
  ∃ single, compileModels [m] components settings = .ok single ∧
    lastNamed single.tables t.name = some t

theorem ContentModel.HasPart.makesLast_iff (h : m.HasPart components settings part) :
    m.MakesLast components settings t ↔
      ((namedBy t.name part).eraseDupsBy Table.repeats).getLast? = some t := by
  obtain ⟨single, hsingle, htables⟩ := h.exists_compileModels
  have hlast : lastNamed single.tables t.name =
      ((namedBy t.name part).eraseDupsBy Table.repeats).getLast? := by
    rw [lastNamed, htables, partTables, filter_name_eraseDupsBy]
    rfl
  rw [MakesLast, hsingle, ← hlast]
  simp

/-- The compilation is that of models with these parts. -/
structure Compilation.HasParts (c : Compilation) (models : List ContentModel)
    (components : Components) (settings : BuildSettings) (parts : List Part) : Prop where
  /-- The models compile to it. -/
  compiled : compileModels models components settings = .ok c
  /-- The models have the parts. -/
  haveParts : HaveParts models components settings parts
  /-- The tables of a name are those of the parts without repetitions. -/
  filter_name : ∀ name, c.tables.filter (·.name == name) =
    (parts.flatMap (namedBy name)).eraseDupsBy Table.repeats

theorem hasParts_of_tables_eq {c : Compilation}
    (hcompiled : compileModels models components settings = .ok c)
    (hparts : HaveParts models components settings parts)
    (hc : c.tables =
      ((parts.flatMap wholeAdditions).flatMap (·.tables)).eraseDupsBy Table.repeats) :
    c.HasParts models components settings parts := by
  refine ⟨hcompiled, hparts, fun name => ?_⟩
  rw [hc, filter_name_eraseDupsBy, List.flatMap_assoc, List.filter_flatMap]
  rfl

namespace Compilation.HasParts

variable {c : Compilation} (h : c.HasParts models components settings parts)
include h

/-- A name occurs if some model makes a table of it. -/
theorem mem_names_iff : name ∈ c.tables.map (·.name) ↔
    ∃ m ∈ models, ∃ t, m.Makes components settings t ∧ t.name = name := by
  have hfilter : name ∉ c.tables.map (·.name) ↔ c.tables.filter (·.name == name) = [] := by
    simp [List.filter_eq_nil_iff]
  have hnone : name ∉ c.tables.map (·.name) ↔
      ∀ m ∈ models, ∀ t, m.Makes components settings t → t.name ≠ name := by
    rw [hfilter, h.filter_name, eraseDupsBy_eq_nil_iff, List.flatMap_eq_nil_iff]
    constructor
    · intro hall m hm
      obtain ⟨part, hpart, hm⟩ := exists_of_mem_left h.haveParts hm
      exact hm.namedBy_eq_nil_iff.1 (hall part hpart)
    · intro hall part hpart
      obtain ⟨m, hm, hpart⟩ := exists_of_mem_right h.haveParts hpart
      exact hpart.namedBy_eq_nil_iff.2 (hall m hm)
  rw [← not_iff_not, hnone]
  simp

/-- The last table of a name is the one that a model makes last, if no model behind it makes one
and it is no junction. -/
theorem lastNamed_eq {before after : List ContentModel} (hmodels : models = before ++ m :: after)
    (hafter : ∀ k ∈ after, ∀ u, k.Makes components settings u → u.name ≠ t.name)
    (hlast : m.MakesLast components settings t) (hother : t.isJunction = false) :
    lastNamed c.tables t.name = some t := by
  subst hmodels
  have hdrop := (List.forall₂_drop_append _ _ _ h.haveParts.flip).flip
  obtain ⟨part, rest, hpart, hrest, heq⟩ := List.forall₂_cons_left_iff.1 hdrop
  have hnone : rest.flatMap (namedBy t.name) = [] := by
    refine List.flatMap_eq_nil_iff.2 fun p hp => ?_
    obtain ⟨k, hk, hp⟩ := exists_of_mem_right hrest hp
    exact hp.namedBy_eq_nil_iff.2 (hafter k hk)
  rw [lastNamed, h.filter_name, ← List.take_append_drop before.length parts, heq,
    List.flatMap_append, List.flatMap_cons, hnone, List.append_nil]
  exact getLast?_eraseDupsBy_append hother (hpart.makesLast_iff.1 hlast)

/-- If all tables of a name are junctions, the first one is kept. -/
theorem lastNamed_junction {j : Junction}
    (hall : ∀ m ∈ models, ∀ t, m.Makes components settings t → t.name = name →
      t.isJunction = true)
    (hj : (models.flatMap (·.junctions settings)).find? (·.name settings == name) = some j) :
    lastNamed c.tables name = some (j.table settings) := by
  have hname : j.name settings = name := by simpa using List.find?_some hj
  have hmem : j.table settings ∈ c.tables.filter (·.name == name) := by
    refine List.mem_filter.2 ⟨(junction_mem_tables_iff h.compiled).2 ?_, beq_iff_eq.2 hname⟩
    rw [hname]
    exact hj
  have hjunction : ∀ t ∈ c.tables.filter (·.name == name), t.isJunction = true := by
    intro t ht
    rw [h.filter_name] at ht
    obtain ⟨part, hpart, ht⟩ := List.mem_flatMap.1 (eraseDupsBy_subset ht)
    obtain ⟨m, hm, hpart⟩ := exists_of_mem_right h.haveParts hpart
    obtain ⟨ht, htname⟩ := List.mem_filter.1 ht
    by_contra hother
    -- the model alone keeps all of its tables that are no junctions
    have hkept : t ∈ (partTables part).filter (!·.isJunction) := by
      rw [partTables, filter_eraseDupsBy_repeats]
      exact List.mem_filter.2 ⟨ht, by simpa using hother⟩
    have hmakes := hpart.makes_iff.2 (List.mem_of_mem_filter hkept)
    exact hother (hall m hm t hmakes (beq_iff_eq.1 htname))
  have hdistinct : (c.tables.filter (·.name == name)).Pairwise fun t u => u.repeats t = false := by
    rw [h.filter_name]
    exact pairwise_eraseDupsBy
  have hrepeats : ∀ t ∈ c.tables.filter (·.name == name),
      ∀ u ∈ c.tables.filter (·.name == name), t.repeats u = true := fun t ht u hu =>
    Table.repeats_iff.2 ⟨hjunction t ht, hjunction u hu,
      (beq_iff_eq.1 (List.mem_filter.1 ht).2).trans (beq_iff_eq.1 (List.mem_filter.1 hu).2).symm⟩
  rw [lastNamed, eq_singleton_of_repeats hdistinct hrepeats hmem]
  rfl

end Compilation.HasParts

/-! ### All models and the last ones -/

/-- The last models have parts if all models do, and they are the same but for names that models
which are declared again make. -/
theorem exists_parts_lastOfSlug (h : HaveParts models components settings parts) :
    ∃ kept, HaveParts (lastOfSlug models) components settings kept ∧
      ∀ name, (∀ m ∈ overridden models, ∀ t, m.Makes components settings t → t.name ≠ name) →
        kept.flatMap (namedBy name) = parts.flatMap (namedBy name) := by
  induction h with
  | nil => exact ⟨[], .nil, fun _ _ => rfl⟩
  | @cons m part models parts hm _ ih =>
    obtain ⟨kept, hkept, hsame⟩ := ih
    rw [lastOfSlug, overridden]
    split
    · refine ⟨kept, hkept, fun name hname => ?_⟩
      rw [List.forall_mem_cons] at hname
      rw [List.flatMap_cons, hm.namedBy_eq_nil_iff.2 hname.1, hsame name hname.2]
      rfl
    · refine ⟨part :: kept, .cons hm hkept, fun name hname => ?_⟩
      rw [List.flatMap_cons, List.flatMap_cons, hsame name hname]

/-- Two compilations, of models and of the last one of each slug among them, after merging. -/
structure Overrides (models : List ContentModel) (components : Components)
    (settings : BuildSettings) (external : List Table) (c last : Compilation) : Prop where
  /-- A name has the same table in both if no model that is declared again makes it. -/
  untouched : ∀ t, (∀ m ∈ overridden models, ∀ u, m.Makes components settings u → u.name ≠ t.name) →
    (t ∈ (mergeTables external c.tables).1 ↔ t ∈ (mergeTables external last.tables).1)
  /-- All tables are the same exactly if those are whose names such a model makes. -/
  same_iff : (∀ t, t ∈ (mergeTables external c.tables).1 ↔
      t ∈ (mergeTables external last.tables).1) ↔
    ∀ m ∈ overridden models, ∀ u, m.Makes components settings u →
      ∀ t ∈ (mergeTables external c.tables).1, t.name = u.name →
        t ∈ (mergeTables external last.tables).1
  /-- The last model of a slug wins: what it makes last is in both, unless it is a junction or a
  model with another slug makes a table of its name. -/
  wins : ∀ m ∈ lastOfSlug models, ∀ t, m.MakesLast components settings t → t.isJunction = false →
    (∀ k ∈ models, k.slug ≠ m.slug → ∀ u, k.Makes components settings u → u.name ≠ t.name) →
      t ∈ (mergeTables external c.tables).1 ∧ t ∈ (mergeTables external last.tables).1
  /-- Of junctions with one name the first one wins in both, also if its model is declared again. -/
  first : ∀ name, (∀ m ∈ models, ∀ t, m.Makes components settings t → t.name = name →
      t.isJunction = true) →
    (∀ j, (models.flatMap (·.junctions settings)).find? (·.name settings == name) = some j →
      j.table settings ∈ (mergeTables external c.tables).1) ∧
    ∀ j, ((lastOfSlug models).flatMap (·.junctions settings)).find?
        (·.name settings == name) = some j →
      j.table settings ∈ (mergeTables external last.tables).1
  /-- A table that is neither external nor made by a last model is left over. -/
  leftover : ∀ m ∈ overridden models, ∀ u, m.Makes components settings u →
    u.name ∉ external.map (·.name) →
    (∀ k ∈ lastOfSlug models, ∀ t, k.Makes components settings t → t.name ≠ u.name) →
      (∃ t ∈ (mergeTables external c.tables).1, t.name = u.name) ∧
        ∀ t ∈ (mergeTables external last.tables).1, t.name ≠ u.name

theorem mem_of_mem_overridden (h : m ∈ overridden models) : m ∈ models := by
  induction models with
  | nil => cases h
  | cons k models ih =>
    rw [overridden] at h
    split at h
    · rcases List.mem_cons.1 h with rfl | h
      · exact List.mem_cons_self
      · exact List.mem_cons_of_mem _ (ih h)
    · exact List.mem_cons_of_mem _ (ih h)

/-- A table that is compiled last under its name stays when it is merged. -/
theorem mem_mergeTables_of_lastNamed {c : Compilation}
    (h : lastNamed c.tables t.name = some t) : t ∈ (mergeTables external c.tables).1 := by
  rw [mem_mergeTables_iff_lastNamed, lastNamed_append, h]
  rfl

/-- If all tables of a name are junctions, the first one stays when it is merged. -/
theorem Compilation.HasParts.first {c : Compilation} {j : Junction}
    (h : c.HasParts models components settings parts)
    (hall : ∀ m ∈ models, ∀ t, m.Makes components settings t → t.name = name →
      t.isJunction = true)
    (hj : (models.flatMap (·.junctions settings)).find? (·.name settings == name) = some j) :
    j.table settings ∈ (mergeTables external c.tables).1 := by
  have hname : j.name settings = name := by simpa using List.find?_some hj
  refine mem_mergeTables_of_lastNamed ?_
  rw [show (j.table settings).name = name from hname]
  exact h.lastNamed_junction hall hj

/-- The last model's tables win, if no model with another slug makes tables of their names. -/
theorem Compilation.HasParts.wins {c : Compilation}
    (h : c.HasParts models components settings parts) (hm : m ∈ lastOfSlug models)
    (hlast : m.MakesLast components settings t) (hother : t.isJunction = false)
    (halone : ∀ k ∈ models, k.slug ≠ m.slug → ∀ u, k.Makes components settings u →
      u.name ≠ t.name) : t ∈ (mergeTables external c.tables).1 := by
  obtain ⟨before, after, hmodels, hafter⟩ := exists_split_of_mem_lastOfSlug hm
  refine mem_mergeTables_of_lastNamed (h.lastNamed_eq hmodels (fun k hk => ?_) hlast hother)
  exact halone k (by rw [hmodels]; simp [hk]) (hafter k hk)

/-- What some model makes is there under its name when it is merged. -/
theorem Compilation.HasParts.exists_mem_mergeTables {c : Compilation}
    (h : c.HasParts models components settings parts) (hm : m ∈ models)
    (ht : m.Makes components settings t) : ∃ u ∈ (mergeTables external c.tables).1, u.name = t.name :=
  List.mem_map.1 (mem_names_mergeTables.2 (Or.inr (h.mem_names_iff.2 ⟨m, hm, t, ht, rfl⟩)))

/-- A name that is neither external nor made by any model is not there. -/
theorem Compilation.HasParts.name_ne_of_mem_mergeTables {c : Compilation}
    (h : c.HasParts models components settings parts) (hexternal : name ∉ external.map (·.name))
    (hnone : ∀ m ∈ models, ∀ t, m.Makes components settings t → t.name ≠ name)
    (ht : t ∈ (mergeTables external c.tables).1) : t.name ≠ name := by
  rintro rfl
  rcases mem_names_mergeTables.1 (List.mem_map_of_mem ht) with hmem | hmem
  · exact hexternal hmem
  · obtain ⟨m, hm, u, hu, hname⟩ := h.mem_names_iff.1 hmem
    exact hnone m hm u hu hname

/-- Merging keeps the last table of a name, so that it only depends on it. -/
theorem mem_mergeTables_congr {tables more : List Table}
    (h : lastNamed tables t.name = lastNamed more t.name) :
    t ∈ (mergeTables external tables).1 ↔ t ∈ (mergeTables external more).1 := by
  rw [mem_mergeTables_iff_lastNamed, mem_mergeTables_iff_lastNamed, lastNamed_append,
    lastNamed_append, h]

/-- There is one table of a name, so that one that is in both is all there is. -/
theorem mem_mergeTables_of_exists {tables more : List Table}
    (hname : ∃ u ∈ (mergeTables external tables).1, u.name = t.name)
    (hsub : ∀ u ∈ (mergeTables external tables).1, u.name = t.name →
      u ∈ (mergeTables external more).1)
    (ht : t ∈ (mergeTables external more).1) : t ∈ (mergeTables external tables).1 := by
  obtain ⟨u, hu, hut⟩ := hname
  have hsame : u = t := List.inj_on_of_nodup_map nodup_names_mergeTables (hsub u hu hut) ht hut
  exact hsame ▸ hu

/-- The list of the last models compiles if all models do, and the merged tables are the same but
for the names of tables that models which are declared again make. -/
theorem exists_overrides_of_compileModels (external : List Table) {c : Compilation}
    (h : compileModels models components settings = .ok c) :
    ∃ last, compileModels (lastOfSlug models) components settings = .ok last ∧
      Overrides models components settings external c last := by
  obtain ⟨parts, hparts, hc⟩ := exists_tables_eq_of_compileModels h
  obtain ⟨kept, hkept, hsame⟩ := exists_parts_lastOfSlug hparts
  obtain ⟨last, hcompiled, hlast⟩ := exists_compileModels_of_parts hkept
  have hall := hasParts_of_tables_eq h hparts hc
  have hreduced := hasParts_of_tables_eq hcompiled hkept hlast
  have hsub : ∀ {k}, k ∈ lastOfSlug models → k ∈ models := fun hk => lastOfSlug_sublist.subset hk
  have huntouched : ∀ t, (∀ m ∈ overridden models, ∀ u, m.Makes components settings u →
      u.name ≠ t.name) → (t ∈ (mergeTables external c.tables).1 ↔
        t ∈ (mergeTables external last.tables).1) := by
    intro t hname
    refine mem_mergeTables_congr ?_
    rw [lastNamed, lastNamed, hreduced.filter_name, hall.filter_name, hsame t.name hname]
  refine ⟨last, hcompiled, huntouched, ?same, ?wins, ?first, ?leftover⟩
  case same =>
    refine ⟨fun heq _ _ _ _ t ht _ => (heq t).1 ht, fun hover t => ?_⟩
    by_cases hmade : ∀ m ∈ overridden models, ∀ u, m.Makes components settings u → u.name ≠ t.name
    · exact huntouched t hmade
    · simp only [not_forall, not_not] at hmade
      obtain ⟨m, hm, u, hu, hut⟩ := hmade
      refine ⟨fun ht => hover m hm u hu t ht hut.symm, mem_mergeTables_of_exists ?_ ?_⟩
      · exact hut ▸ hall.exists_mem_mergeTables (mem_of_mem_overridden hm) hu
      · exact fun v hv hvt => hover m hm u hu v hv (hvt.trans hut.symm)
  case wins =>
    intro m hm t hlast hother halone
    refine ⟨hall.wins hm hlast hother halone,
      hreduced.wins ?_ hlast hother fun k hk => halone k (hsub hk)⟩
    rw [lastOfSlug_lastOfSlug]
    exact hm
  case first =>
    intro name hjunction
    exact ⟨fun j hj => hall.first hjunction hj,
      fun j hj => hreduced.first (fun k hk => hjunction k (hsub hk)) hj⟩
  case leftover =>
    intro m hm u hu hexternal hnone
    exact ⟨hall.exists_mem_mergeTables (mem_of_mem_overridden hm) hu,
      fun t ht => hreduced.name_ne_of_mem_mergeTables hexternal hnone ht⟩

end Made

/-- A post with a title that is translated, and again without it. -/
def rawVersions : RawDefinitions where
  models := [
    .object [
      ("slug", .text "post"), ("name", .text "Post"),
      ("fields", .list [
        .object [("key", .text "title"), ("label", .text "Title"), ("type", .text "text")]])],
    .object [
      ("slug", .text "post"), ("name", .text "Post"),
      ("fields", .list [
        .object [
          ("key", .text "views"), ("label", .text "Views"), ("type", .text "number"),
          ("translatable", .bool false)]])]]
  components := []
  warnings := []

/-- The translations of the first post are left over, and the post has no column for them. -/
theorem overrides_rawVersions : ∃ d c last, rawVersions.validate = .ok d ∧
    compileModels d.models d.components .standard = .ok c ∧
    compileModels (lastOfSlug d.models) d.components .standard = .ok last ∧
    Overrides d.models d.components .standard [] c last ∧
    (mergeTables [] c.tables).1.map (fun t => (t.name, t.columnNames)) =
      [("Post", ["id", "views", "created_at", "updated_at"]),
        ("PostTranslation", ["id", "post_id", "lang", "title", "post"])] ∧
    (mergeTables [] last.tables).1.map (·.name) = ["Post"] := by
  obtain ⟨d, c, last, hd, hc, hlast, htables, hnames⟩ : ∃ d c last, rawVersions.validate = .ok d ∧
      compileModels d.models d.components .standard = .ok c ∧
      compileModels (lastOfSlug d.models) d.components .standard = .ok last ∧
      (mergeTables [] c.tables).1.map (fun t => (t.name, t.columnNames)) =
        [("Post", ["id", "views", "created_at", "updated_at"]),
          ("PostTranslation", ["id", "post_id", "lang", "title", "post"])] ∧
      (mergeTables [] last.tables).1.map (·.name) = ["Post"] :=
    ⟨_, _, _, rfl, rfl, rfl, by decide +kernel, by decide +kernel⟩
  obtain ⟨last', hlast', hoverrides⟩ := exists_overrides_of_compileModels [] hc
  rw [hlast] at hlast'
  cases hlast'
  exact ⟨d, c, last, hd, hc, hlast, hoverrides, htables, hnames⟩

end ContentSchema
