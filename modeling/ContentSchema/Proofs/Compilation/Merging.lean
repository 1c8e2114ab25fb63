import ContentSchema.Compilation.Merge
import ContentSchema.Proofs.Keyed
import Mathlib.Data.List.Induction

/-!
# Merged tables

What merging external and generated tables keeps: no table is made up and no name is lost, and of
several tables with one name the last one is kept (`mem_mergeTables_iff`).  All tables are kept
exactly if their names are distinct (`mergeTables_eq_append_iff`); each one that is lost is a
collision (`length_mergeTables`).

Merged tables and collisions are found in one pass over all tables (`mergeTables_eq_foldl`).  What
they are for the tables so far (`Merges`) is kept by each table more, and so they are a union by
name in which the last table wins (`merges_mergeTables`).
-/

namespace ContentSchema

variable {external generated tables more : List Table} {t : Table} {name : String}
  {seen : List String}

theorem putTable_eq_putBy : putTable = putBy Table.name := rfl

/-- Each merged table is external or generated. -/
theorem mem_of_mem_mergeTables (h : t ∈ (mergeTables external generated).1) :
    t ∈ external ∨ t ∈ generated := by
  rw [mergeTables, putTable_eq_putBy] at h
  rcases mem_foldl_putBy h with h | h
  · cases h
  · exact List.mem_append.1 h

/-- Merging keeps all names and adds none. -/
theorem mem_names_mergeTables : name ∈ (mergeTables external generated).1.map (·.name) ↔
    name ∈ external.map (·.name) ∨ name ∈ generated.map (·.name) := by
  rw [mergeTables, putTable_eq_putBy, mem_keys_foldl_putBy, List.map_append, List.mem_append]
  simp

theorem nodup_names_mergeTables : ((mergeTables external generated).1.map (·.name)).Nodup :=
  nodup_keys_foldl_putBy List.nodup_nil

/-- Of the tables with one name the last one is kept. -/
theorem mem_mergeTables_iff : t ∈ (mergeTables external generated).1 ↔
    (external ++ generated).reverse.find? (·.name == t.name) = some t :=
  mem_foldl_putBy_iff

/-! ### Collisions -/

theorem collisionsFrom_eq_nil_iff : collisionsFrom seen tables = [] ↔
    (tables.map (·.name)).Nodup ∧ ∀ t ∈ tables, t.name ∉ seen := by
  induction tables generalizing seen with
  | nil => simp [collisionsFrom]
  | cons t tables ih =>
    rw [collisionsFrom, List.append_eq_nil_iff, ih, List.map_cons, List.nodup_cons,
      List.forall_mem_cons]
    by_cases hseen : t.name ∈ seen
    · simp [hseen]
    · simp only [hseen, if_false, true_and, List.mem_cons, not_or, List.mem_map, not_exists,
        not_and]
      constructor
      · rintro ⟨hnodup, hrest⟩
        exact ⟨⟨fun u hu => (hrest u hu).1, hnodup⟩, not_false, fun u hu => (hrest u hu).2⟩
      · rintro ⟨⟨hne, hnodup⟩, -, hrest⟩
        exact ⟨hnodup, fun u hu => ⟨hne u hu, hrest u hu⟩⟩

/-! ### The union by name -/

/-- One table more: it takes the place of the one with its name, which is a collision, or stands at
the end. -/
def mergeStep (state : List Table × List String) (t : Table) : List Table × List String :=
  (putTable state.1 t, state.2 ++ if t.name ∈ state.1.map (·.name) then [t.name] else [])

/-- The names seen so far are those of the tables so far, so that both parts of merging go through
the tables side by side. -/
theorem foldl_mergeStep (hseen : ∀ name, name ∈ seen ↔ name ∈ more.map (·.name))
    (names : List String) : tables.foldl mergeStep (more, names) =
      (tables.foldl putTable more, names ++ collisionsFrom seen tables) := by
  induction tables generalizing more seen names with
  | nil => rw [List.foldl_nil, List.foldl_nil, collisionsFrom, List.append_nil]
  | cons t tables ih =>
    have hnext : ∀ name, name ∈ t.name :: seen ↔ name ∈ (putTable more t).map (·.name) := by
      intro name
      rw [putTable_eq_putBy, mem_keys_putBy, List.mem_cons, hseen, or_comm]
    rw [List.foldl_cons, List.foldl_cons, mergeStep, ih hnext, collisionsFrom, List.append_assoc]
    simp only [hseen]

theorem mergeTables_eq_foldl (external generated : List Table) :
    mergeTables external generated = (external ++ generated).foldl mergeStep ([], []) :=
  (foldl_mergeStep (fun _ => Iff.rfl) []).symm

/-- The tables whose name one before them has, in order. -/
def repeatedTables (tables : List Table) : List Table :=
  (tables.zipIdx.filter fun p => p.1.name ∈ (tables.take p.2).map (·.name)).map Prod.fst

theorem repeatedTables_concat (tables : List Table) (t : Table) :
    repeatedTables (tables ++ [t]) =
      repeatedTables tables ++ if t.name ∈ tables.map (·.name) then [t] else [] := by
  have hbefore : ∀ p ∈ tables.zipIdx, (tables ++ [t]).take p.2 = tables.take p.2 := by
    rintro ⟨u, i⟩ hu
    obtain ⟨-, hlt, -⟩ := List.mem_zipIdx hu
    exact List.take_append_of_le_length (by omega)
  have hlast : (tables ++ [t]).take (0 + tables.length) = tables := by simp
  rw [repeatedTables, List.zipIdx_append, List.filter_append, List.map_append, repeatedTables]
  congr 2
  · refine List.filter_congr fun p hp => ?_
    rw [hbefore p hp]
  · rw [List.zipIdx_singleton, List.filter_singleton, hlast]
    by_cases hname : t.name ∈ tables.map (·.name) <;> simp only [hname, decide_true, decide_false,
      cond_true, cond_false, if_true, if_false, List.map_cons, List.map_nil]

/-- A name behind others is left out if it is one of them. -/
theorem eraseDups_concat (names : List String) (name : String) :
    (names ++ [name]).eraseDups = names.eraseDups ++ if name ∈ names then [] else [name] := by
  rw [List.eraseDups_append, List.cons_removeAll, List.nil_removeAll]
  by_cases hname : name ∈ names
  · rw [if_pos hname, if_neg (by simpa using hname), List.eraseDups_nil]
  · rw [if_neg hname, if_pos (by simpa using hname), List.eraseDups_cons]
    rfl

/-- A name is repeated once less than it occurs. -/
theorem count_repeatedTables (tables : List Table) (name : String) :
    ((repeatedTables tables).map (·.name)).count name = (tables.map (·.name)).count name - 1 := by
  induction tables using List.reverseRecOn with
  | nil => rfl
  | append_singleton tables t ih =>
    rw [repeatedTables_concat, List.map_append, List.count_append, ih, List.map_append,
      List.count_append, List.map_singleton, List.count_singleton]
    by_cases hname : t.name = name
    · subst hname
      by_cases hold : t.name ∈ tables.map (·.name)
      · have hpos := List.count_pos_iff.2 hold
        rw [if_pos hold, if_pos (beq_self_eq_true _), List.map_singleton, List.count_singleton_self]
        omega
      · rw [if_neg hold, if_pos (beq_self_eq_true _), List.count_eq_zero.2 hold]
        rfl
    · have hne : (t.name == name) = false := beq_false_of_ne hname
      rw [hne, if_neg Bool.false_ne_true, Nat.add_zero, Nat.add_eq_left, List.count_eq_zero]
      split <;> simp [Ne.symm hname]

/-- Each table is the first of its name or repeats it. -/
theorem length_repeatedTables (tables : List Table) :
    (tables.map (·.name)).eraseDups.length + (repeatedTables tables).length = tables.length := by
  induction tables using List.reverseRecOn with
  | nil => rfl
  | append_singleton tables t ih =>
    rw [repeatedTables_concat, List.map_append, List.map_singleton, eraseDups_concat,
      List.length_append, List.length_append, List.length_append, ← ih, List.length_singleton]
    by_cases hold : t.name ∈ tables.map (·.name)
    · rw [if_pos hold, if_pos hold, List.length_nil, List.length_singleton]
      omega
    · rw [if_neg hold, if_neg hold, List.length_nil, List.length_singleton]
      omega

/-- Tables merged by name: a table for each name, and a collision for each repetition. -/
structure Merges (tables merged : List Table) (collisions : List String) : Prop where
  /-- The names are those of the tables, in the order in which they occur first. -/
  names : merged.map (·.name) = (tables.map (·.name)).eraseDups
  /-- Under each name there is the last table that has it. -/
  last : ∀ name, merged.find? (·.name == name) = tables.reverse.find? (·.name == name)
  /-- The collisions are the names of the tables whose name one before them has, in order. -/
  repeated : collisions = (repeatedTables tables).map (·.name)
  /-- A name collides once less than it occurs. -/
  count : ∀ name, collisions.count name = (tables.map (·.name)).count name - 1
  /-- Each table is merged or a collision. -/
  length : merged.length + collisions.length = tables.length

/-- How often a name collides and how many tables there are is told by the repetitions. -/
theorem Merges.of_repeated {merged : List Table} {collisions : List String}
    (names : merged.map (·.name) = (tables.map (·.name)).eraseDups)
    (last : ∀ name, merged.find? (·.name == name) = tables.reverse.find? (·.name == name))
    (repeated : collisions = (repeatedTables tables).map (·.name)) :
    Merges tables merged collisions where
  names := names
  last := last
  repeated := repeated
  count := fun name => by rw [repeated, count_repeatedTables]
  length := by
    rw [← List.length_map (f := Table.name), names, repeated, List.length_map]
    exact length_repeatedTables tables

theorem Merges.nil : Merges [] [] [] := .of_repeated rfl (fun _ => rfl) rfl

/-- One table more keeps what merging gives. -/
theorem Merges.step {names : List String} (h : Merges tables more names) (t : Table) :
    Merges (tables ++ [t]) (mergeStep (more, names) t).1 (mergeStep (more, names) t).2 := by
  have hmem : t.name ∈ more.map (·.name) ↔ t.name ∈ tables.map (·.name) := by
    rw [h.names, List.mem_eraseDups]
  have hlast : ∀ name, (putTable more t).find? (·.name == name) =
      (tables ++ [t]).reverse.find? (·.name == name) := by
    intro name
    rw [putTable_eq_putBy, List.reverse_append, List.find?_append]
    by_cases hname : name = t.name
    · rw [hname, find?_putBy_self]
      simp
    · rw [find?_putBy_of_ne hname, h.last]
      simp [Ne.symm hname]
  by_cases hold : t.name ∈ tables.map (·.name)
  · -- the table takes a place that is there, and is a collision
    simp only [mergeStep, if_pos (hmem.2 hold)]
    refine .of_repeated ?_ hlast ?_
    · rw [putTable_eq_putBy, keys_putBy_of_mem (hmem.2 hold), h.names, List.map_append,
        List.map_singleton, eraseDups_concat, if_pos hold, List.append_nil]
    · rw [repeatedTables_concat, if_pos hold, List.map_append, h.repeated, List.map_singleton]
  · -- the table stands at the end, under a name that is new
    have hput : putTable more t = more ++ [t] := putBy_of_not_mem (mt hmem.1 hold)
    simp only [mergeStep, if_neg (mt hmem.1 hold), List.append_nil]
    refine .of_repeated ?_ hlast ?_
    · rw [hput, List.map_append, h.names, List.map_append, List.map_singleton, eraseDups_concat,
        if_neg hold]
    · rw [repeatedTables_concat, if_neg hold, List.append_nil, h.repeated]

/-- A run of tables keeps what merging gives. -/
theorem Merges.foldl {names : List String} (h : Merges tables more names) (rest : List Table) :
    Merges (tables ++ rest) (rest.foldl mergeStep (more, names)).1
      (rest.foldl mergeStep (more, names)).2 := by
  induction rest generalizing tables more names with
  | nil => rwa [List.append_nil]
  | cons t rest ih =>
    rw [List.append_cons]
    exact ih (h.step t)

theorem Merges.of_mergeTables (external generated : List Table) :
    Merges (external ++ generated) (mergeTables external generated).1
      (mergeTables external generated).2 := by
  rw [mergeTables_eq_foldl]
  exact Merges.nil.foldl _

/-- Each table that merging loses is a collision. -/
theorem length_mergeTables :
    (mergeTables external generated).1.length + (mergeTables external generated).2.length =
      external.length + generated.length := by
  rw [(Merges.of_mergeTables external generated).length, List.length_append]

/-- Merging keeps all tables as they are exactly if no two of them have one name. -/
theorem mergeTables_eq_append_iff :
    mergeTables external generated = (external ++ generated, []) ↔
      ((external ++ generated).map (·.name)).Nodup := by
  constructor
  · intro h
    have hnodup : ((mergeTables external generated).1.map (·.name)).Nodup := nodup_names_mergeTables
    rwa [h] at hnodup
  · intro h
    exact Prod.ext (foldl_putBy_of_nodup h)
      (collisionsFrom_eq_nil_iff.2 ⟨h, fun _ _ => List.not_mem_nil⟩)

/-- Merging is a union by name in which the last table of a name wins: the names are different, in
the order in which they occur first, each has the last table of it, and each repetition is a
collision.  What is merged has no more collisions and stays as it is. -/
theorem merges_mergeTables (external generated : List Table) :
    let merged := (mergeTables external generated).1
    Merges (external ++ generated) merged (mergeTables external generated).2 ∧
      (merged.map (·.name)).Nodup ∧ mergeTables merged [] = (merged, []) := by
  intro merged
  have hnodup : (merged.map (·.name)).Nodup := nodup_names_mergeTables
  have hagain : mergeTables merged [] = (merged ++ [], []) :=
    mergeTables_eq_append_iff.2 (by rwa [List.append_nil])
  rw [List.append_nil] at hagain
  exact ⟨Merges.of_mergeTables external generated, hnodup, hagain⟩

end ContentSchema
