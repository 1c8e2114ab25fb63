import ContentSchema.Proofs.Schema.Relations

/-!
# Plain tables are read as they were written

A table is plain if its names are words, its types are bare, its attributes are single tokens and
its defaults are those that the attributes declare (`Table.Plain`).  Plain tables survive writing
and reading unchanged, exactly if no attribute among them is an overlong default
(`parseTables_print_eq_iff`).
-/

namespace ContentSchema

open Text

/-! ### Plain columns and tables -/

/-- The default that the last of several attributes declares, or the given one. -/
def lastDefault (start : Option ColumnDefault) (attrs : List String) :
    Except SchemaError (Option ColumnDefault) :=
  match (attrs.filter fun a => startsWith "@default" a.toList).getLast? with
  | some a => Attribute.defaultValue? a.toList
  | none => .ok start

/-- The text is a single attribute on one line that is neither a relation nor a physical name. -/
structure Attribute.IsPlain (attr : List Char) : Prop where
  /-- It is one token. -/
  token : IsToken attr
  /-- It stands on one line. -/
  unbroken : Unbroken attr
  /-- It is no relation. -/
  not_relation : startsWith "@relation" attr = false
  /-- It is no physical name. -/
  not_map : startsWith "@map" attr = false

/-- The name and type of a column are words without `@`, its marks are those of its type, and all
that follows can be told apart. -/
structure Column.Plain (c : Column) : Prop where
  /-- The name is not empty. -/
  name_ne : c.name ≠ ""
  /-- The name holds no blanks and no `@`. -/
  name : ∀ d ∈ c.name.toList, isBlank d = false ∧ d ≠ '@'
  /-- The name does not begin a comment. -/
  not_comment : startsWith "//" c.name.toList = false
  /-- The type is not empty. -/
  type_ne : c.type ≠ ""
  /-- The type holds no blanks and no `@`. -/
  type : ∀ d ∈ c.type.toList, isBlank d = false ∧ d ≠ '@'
  /-- The type does not end in a mark. -/
  type_end : ¬ ['?'] <:+ c.type.toList ∧ ¬ ['[', ']'] <:+ c.type.toList
  /-- A list is never nullable. -/
  marks : ¬ (c.nullable = true ∧ c.isList = true)
  /-- The attributes are plain. -/
  attributes : ∀ a ∈ c.attributes, Attribute.IsPlain a.toList
  /-- The default is the one that the attributes declare. -/
  default : lastDefault none c.attributes = .ok c.default
  /-- A relation is plain. -/
  relation : ∀ r ∈ c.relation, r.Plain
  /-- A physical name is not empty, stands on one line and holds no quotes or parentheses. -/
  mapName : ∀ n ∈ c.mapName, n ≠ "" ∧ Unbroken n.toList ∧
    ∀ d ∈ n.toList, d ≠ '"' ∧ d ≠ '(' ∧ d ≠ ')'
  /-- There are no rules. -/
  rules : c.rules = none

/-- The name of a table is a word, its columns are plain and its directives list words. -/
structure Table.Plain (t : Table) : Prop where
  /-- The name is not empty. -/
  name_ne : t.name ≠ ""
  /-- The name is a word. -/
  name : Wordy t.name.toList
  /-- There are columns. -/
  columns_ne : t.columns ≠ []
  /-- The columns are plain. -/
  columns : ∀ c ∈ t.columns, c.Plain
  /-- Indexes list words. -/
  indexes : ∀ names ∈ t.indexes, names ≠ [] ∧ AllWords names
  /-- Unique sets list words. -/
  unique : ∀ names ∈ t.unique, names ≠ [] ∧ AllWords names
  /-- A physical name is not empty, stands on one line and holds no quotes. -/
  mapName : ∀ n ∈ t.mapName, n ≠ "" ∧ Unbroken n.toList ∧ '"' ∉ n.toList

namespace Column

variable {c : Column}

/-! ### What follows the type -/

theorem Plain.legible (h : c.Plain) : c.Legible where
  solid_name := fun d hd => (h.name d hd).1
  name_ne_nil := by simpa using h.name_ne
  not_comment := h.not_comment
  not_directive := by
    rw [Bool.eq_false_iff, ne_eq, startsWith_iff]
    intro hp
    exact (h.name '@' (hp.subset (by decide))).2 rfl
  solid_type := fun d hd => (h.type d hd).1
  type_ne_nil := by simpa using h.type_ne
  splitType_signature := splitType_typeSignature (fun _ _ => h.type_end.1) (fun _ => h.type_end.2)
    h.marks

theorem Plain.defaultModifier_eq_nil (h : c.Plain) : c.defaultModifier = [] := by
  rw [defaultModifier]
  split
  · rename_i d hd
    -- a default is declared by an attribute, which is written itself
    have hdefault := h.default
    rw [hd, lastDefault] at hdefault
    split at hdefault
    · rename_i a ha
      have hmem := List.mem_filter.1 (List.mem_of_getLast? ha)
      have hattribute : c.hasAttribute "@default" = true := List.any_eq_true.2 ⟨a, hmem⟩
      rw [if_pos hattribute]
    · cases hdefault
  · rfl

/-- The attribute of a relation as a list. -/
def relationModifier (c : Column) : List (List Char) := (c.relation.map (·.print)).toList

theorem Plain.modifiers_eq (h : c.Plain) :
    c.modifiers = c.attributes.map (·.toList) ++ c.relationModifier ++ c.mapModifier := by
  rw [modifiers, h.defaultModifier_eq_nil, List.append_nil, relationModifier]
  cases c.relation <;> rfl

theorem Plain.mapModifier_eq (h : c.Plain) :
    c.mapModifier = (c.mapName.map mapAttribute).toList := by
  rw [mapModifier]
  cases hname : c.mapName with
  | none => rfl
  | some n =>
    dsimp only
    rw [if_neg (h.mapName n hname).1]
    rfl

theorem isToken_map {n : String} (hn : ∀ d ∈ n.toList, d ≠ '"' ∧ d ≠ '(' ∧ d ≠ ')') :
    Attribute.IsToken (mapAttribute n) := by
  refine ⟨"map".toList, '(' :: (plainQuoted n ++ [')']), rfl, by decide, Or.inr ⟨_, rfl, ?_⟩⟩
  refine Attribute.balanced_of_plain fun c hc => ?_
  rw [plainQuoted, List.cons_append, List.mem_cons, List.mem_append, List.mem_singleton] at hc
  rcases hc with rfl | hc | rfl
  · decide
  · exact (hn c hc).2
  · decide

theorem Plain.of_mem_modifiers (h : c.Plain) {m : List Char} (hm : m ∈ c.modifiers) :
    Attribute.IsToken m ∧ Unbroken m := by
  rcases Column.of_mem_modifiers hm with ⟨a, ha, rfl⟩ | hm | ⟨r, hr, rfl⟩ | ⟨n, hn, rfl⟩
  · exact ⟨(h.attributes a ha).token, (h.attributes a ha).unbroken⟩
  · rw [h.defaultModifier_eq_nil] at hm
    cases hm
  · exact ⟨(h.relation r hr).isToken_print, (h.relation r hr).unbroken_print⟩
  · obtain ⟨-, hunbroken, hfree⟩ := h.mapName n hn
    exact ⟨isToken_map hfree, joinable_mapAttribute joinable_unbroken hunbroken⟩

theorem Plain.split_print (h : c.Plain) (nameWidth typeWidth : Nat) :
    Attribute.split (c.print nameWidth typeWidth) = c.modifiers :=
  Column.split_print h.legible (fun hmem => (h.name _ hmem).2 rfl)
    (fun hmem => (h.type _ hmem).2 rfl) (fun _ hm => (h.of_mem_modifiers hm).1) nameWidth
    typeWidth

/-! ### Reading attributes -/

theorem mapNameAt?_quoted {title n : String} (hne : n ≠ "") (hquote : '"' ∉ n.toList) :
    Attribute.mapNameAt? title (title.toList ++ plainQuoted n ++ [')']) = some n := by
  have hstart : dropStart? title.toList (title.toList ++ plainQuoted n ++ [')']) =
      some ('"' :: (n.toList ++ '"' :: [')'])) := by
    rw [Attribute.dropStart?_eq_some, plainQuoted]
    simp
  have hquoted := @Relation.quotedAt?_append _ [')'] hquote (by simpa using hne)
  have hclose : dropStart? [')'] [')'] = some [] := Attribute.dropStart?_eq_some.2 rfl
  rw [Attribute.mapNameAt?, hstart]
  simp only [Option.bind_eq_bind, Option.bind_some, hquoted, hclose, String.ofList_toList]
  rfl

theorem addAttribute_relation {r : Relation} (h : r.Plain) (c : Column) :
    c.addAttribute r.print = .ok { c with relation := some r } := by
  rw [addAttribute, if_pos r.startsWith_print, Relation.relation_print h]
  rfl

theorem addAttribute_map {n : String} (hne : n ≠ "") (hquote : '"' ∉ n.toList) (c : Column) :
    c.addAttribute (mapAttribute n) = .ok { c with mapName := some n } := by
  have hstart : startsWith "@relation" (mapAttribute n) = false := rfl
  have hmap : startsWith "@map" (mapAttribute n) = true := rfl
  rw [addAttribute, hstart, if_neg Bool.false_ne_true, if_pos hmap, mapAttribute,
    mapNameAt?_quoted hne hquote]
  rfl

theorem lastDefault_append (start : Option ColumnDefault) (attrs : List String) (a : String) :
    lastDefault start (attrs ++ [a]) =
      if startsWith "@default" a.toList then Attribute.defaultValue? a.toList
      else lastDefault start attrs := by
  rw [lastDefault, lastDefault, List.filter_append]
  cases hdefault : startsWith "@default" a.toList <;> simp [hdefault]

/-- Plain attributes are added in order, and the last default among them counts. -/
theorem foldlM_addAttribute_plain {attrs : List String}
    (hplain : ∀ a ∈ attrs, Attribute.IsPlain a.toList)
    (hshort : ∀ a ∈ attrs, ¬ Attribute.IsOverlong a.toList) (c : Column)
    {d : Option ColumnDefault} (hd : lastDefault c.default attrs = .ok d) :
    (attrs.map (·.toList)).foldlM addAttribute c =
      .ok { c with default := d, attributes := c.attributes ++ attrs } := by
  -- from the end, as it is the last default that counts
  induction attrs using List.reverseRecOn generalizing d with
  | nil =>
    cases hd
    rw [List.append_nil]
    rfl
  | append_singleton attrs a ih =>
    have ha := hplain a (by simp)
    have hshort' : ∀ b ∈ attrs, ¬ Attribute.IsOverlong b.toList := fun b hb =>
      hshort b (by simp [hb])
    -- the defaults before the last one do not count, but they are read as well
    obtain ⟨e, he⟩ : ∃ e, lastDefault c.default attrs = .ok e := by
      rw [lastDefault]
      split
      · rename_i b hb
        refine Attribute.exists_defaultValue?_iff.2 (hshort' b ?_)
        exact (List.mem_filter.1 (List.mem_of_getLast? hb)).1
      · exact ⟨_, rfl⟩
    have hlast : ({ c with default := e, attributes := c.attributes ++ attrs } : Column).defaultWith
        a.toList = .ok d := by
      rw [lastDefault_append] at hd
      rw [defaultWith]
      split
      · rename_i hdefault
        rw [if_pos hdefault] at hd
        exact hd
      · rename_i hdefault
        rw [if_neg hdefault] at hd
        exact he.symm.trans hd
    rw [List.map_append, List.foldlM_append,
      ih (fun b hb => hplain b (by simp [hb])) hshort' he, List.map_singleton]
    change ([a.toList].foldlM addAttribute
      { c with default := e, attributes := c.attributes ++ attrs }) = _
    rw [List.foldlM_cons, addAttribute_of_plain ha.not_relation ha.not_map, hlast]
    simp [Except.bind, bind, pure, Except.pure]

theorem foldlM_addAttribute_relation {relation : Option Relation} (h : ∀ r ∈ relation, r.Plain)
    {d : Column} (hd : d.relation = none) :
    (relation.map (·.print)).toList.foldlM addAttribute d =
      .ok { d with relation := relation } := by
  cases relation with
  | none =>
    obtain ⟨⟩ := d
    cases hd
    rfl
  | some r =>
    rw [Option.map_some, Option.toList_some, List.foldlM_cons, addAttribute_relation (h r rfl)]
    rfl

theorem foldlM_addAttribute_map {mapName : Option String}
    (h : ∀ n ∈ mapName, n ≠ "" ∧ '"' ∉ n.toList) {d : Column} (hd : d.mapName = none) :
    (mapName.map mapAttribute).toList.foldlM addAttribute d =
      .ok { d with mapName := mapName } := by
  cases mapName with
  | none =>
    obtain ⟨⟩ := d
    cases hd
    rfl
  | some n =>
    obtain ⟨hne, hquote⟩ := h n rfl
    rw [Option.map_some, Option.toList_some, List.foldlM_cons, addAttribute_map hne hquote]
    rfl

/-- A plain column is read as it was written. -/
theorem Plain.parse?_print (h : c.Plain)
    (hshort : ∀ a ∈ c.attributes, ¬ Attribute.IsOverlong a.toList) (nameWidth typeWidth : Nat) :
    parse? (c.print nameWidth typeWidth) = .ok (some c) := by
  have hattributes := foldlM_addAttribute_plain h.attributes hshort c.head h.default
  have hmap : ∀ n ∈ c.mapName, n ≠ "" ∧ '"' ∉ n.toList := fun n hn =>
    ⟨(h.mapName n hn).1, fun hmem => ((h.mapName n hn).2.2 _ hmem).1 rfl⟩
  -- the reader drops the mark of a nullable list, which a plain column does not have
  have hnullable : (c.nullable && !c.isList) = c.nullable := by
    have hmarks := h.marks
    cases hn : c.nullable with
    | false => rfl
    | true => simpa [hn] using hmarks
  have hall : c.modifiers.foldlM addAttribute c.head = .ok c := by
    rw [h.modifiers_eq, h.mapModifier_eq, relationModifier, List.foldlM_append, List.foldlM_append,
      hattributes]
    change ((c.relation.map (·.print)).toList.foldlM addAttribute _).bind _ = _
    rw [foldlM_addAttribute_relation h.relation rfl]
    change (c.mapName.map mapAttribute).toList.foldlM addAttribute _ = _
    rw [foldlM_addAttribute_map hmap rfl]
    simp only [head, bare, List.nil_append, hnullable, ← h.rules]
  rw [Column.parse?_print h.legible, h.split_print, hall]
  rfl

end Column

/-! ### Directives -/

namespace Table

variable {t : Table}

theorem strip_directive (mid : List Char) :
    strip (indent ++ '@' :: (mid ++ [')'])) = '@' :: (mid ++ [')']) := by
  rw [strip_append (by decide) (by decide), stripEnd_append_solid (by decide)]
  rfl

theorem directiveColumns?_print {title : String} {names : List String} (hne : names ≠ [])
    (h : AllWords names) :
    directiveColumns? title (title.toList ++ '(' :: (bracketed names ++ [')'])) = some names := by
  have hstart : dropStart? (title ++ "([").toList
      (title.toList ++ '(' :: (bracketed names ++ [')'])) =
        some (commaText names ++ ']' :: [')']) := by
    rw [Attribute.dropStart?_eq_some, bracketed, commaText]
    simp [String.toList_append]
  have hbracket : ']' ∉ commaText names :=
    h.not_mem_commaText (by decide) (by decide) (isWordChar_eq_false (by decide))
  rw [directiveColumns?, hstart]
  simp only [Option.bind_eq_bind, Option.bind_some,
    Relation.upTo?_append hbracket (h.commaText_ne_nil hne), names_commaText h]
  rfl

theorem addLine_index {names : List String} (hne : names ≠ []) (h : AllWords names) (t : Table) :
    t.addLine (strip (indent ++ "@@index(".toList ++ bracketed names ++ [')'])) =
      .ok { t with indexes := t.indexes ++ [names] } := by
  have hline : strip (indent ++ "@@index(".toList ++ bracketed names ++ [')']) =
      "@@index".toList ++ '(' :: (bracketed names ++ [')']) :=
    strip_directive ("@index(".toList ++ bracketed names)
  have hadd : t.addLine ("@@index".toList ++ '(' :: (bracketed names ++ [')'])) =
      .ok { t with indexes := t.indexes ++ (directiveColumns? "@@index"
        ("@@index".toList ++ '(' :: (bracketed names ++ [')']))).toList } := rfl
  rw [hline, hadd, directiveColumns?_print hne h]
  rfl

theorem addLine_unique {names : List String} (hne : names ≠ []) (h : AllWords names) (t : Table) :
    t.addLine (strip (indent ++ "@@unique(".toList ++ bracketed names ++ [')'])) =
      .ok { t with unique := t.unique ++ [names] } := by
  have hline : strip (indent ++ "@@unique(".toList ++ bracketed names ++ [')']) =
      "@@unique".toList ++ '(' :: (bracketed names ++ [')']) :=
    strip_directive ("@unique(".toList ++ bracketed names)
  have hadd : t.addLine ("@@unique".toList ++ '(' :: (bracketed names ++ [')'])) =
      .ok { t with unique := t.unique ++ (directiveColumns? "@@unique"
        ("@@unique".toList ++ '(' :: (bracketed names ++ [')']))).toList } := rfl
  rw [hline, hadd, directiveColumns?_print hne h]
  rfl

theorem addLine_map {n : String} (hne : n ≠ "") (hquote : '"' ∉ n.toList) (t : Table) :
    t.addLine (strip (indent ++ "@@map(".toList ++ plainQuoted n ++ [')'])) =
      .ok { t with mapName := some n } := by
  have hline : strip (indent ++ "@@map(".toList ++ plainQuoted n ++ [')']) =
      "@@map(".toList ++ plainQuoted n ++ [')'] :=
    strip_directive ("@map(".toList ++ plainQuoted n)
  have hadd : t.addLine ("@@map(".toList ++ plainQuoted n ++ [')']) =
      match Attribute.mapNameAt? "@@map(" ("@@map(".toList ++ plainQuoted n ++ [')']) with
      | some name => .ok { t with mapName := some name }
      | none => .ok t := rfl
  rw [hline, hadd, Column.mapNameAt?_quoted hne hquote]

/-- Directives of one kind are added in order if each puts its set behind those before it. -/
theorem foldlM_addLine_sets {title : List Char} (put : Table → List (List String) → Table)
    (hnil : ∀ t, put t [] = t)
    (hcons : ∀ t names sets, put (put t [names]) sets = put t (names :: sets))
    (hline : ∀ names, names ≠ [] → AllWords names → ∀ t,
      addLine t (strip (indent ++ title ++ bracketed names ++ [')'])) = .ok (put t [names]))
    {sets : List (List String)} (h : ∀ names ∈ sets, names ≠ [] ∧ AllWords names) (t : Table) :
    ((sets.map fun names => indent ++ title ++ bracketed names ++ [')']).map strip).foldlM addLine
      t = .ok (put t sets) := by
  induction sets generalizing t with
  | nil => exact congrArg Except.ok (hnil t).symm
  | cons names sets ih =>
    obtain ⟨hne, hnames⟩ := h names List.mem_cons_self
    have hrest := ih (fun names' hmem => h names' (List.mem_cons_of_mem _ hmem)) (put t [names])
    rw [List.map_cons, List.map_cons, List.foldlM_cons, hline names hne hnames]
    exact hrest.trans (congrArg Except.ok (hcons t names sets))

theorem foldlM_addLine_indexes {sets : List (List String)}
    (h : ∀ names ∈ sets, names ≠ [] ∧ AllWords names) (t : Table) :
    ((sets.map fun names => indent ++ "@@index(".toList ++ bracketed names ++ [')']).map
      strip).foldlM addLine t = .ok { t with indexes := t.indexes ++ sets } :=
  foldlM_addLine_sets (fun t sets => { t with indexes := t.indexes ++ sets }) (by simp) (by simp)
    (fun _ hne hnames => addLine_index hne hnames) h t

theorem foldlM_addLine_unique {sets : List (List String)}
    (h : ∀ names ∈ sets, names ≠ [] ∧ AllWords names) (t : Table) :
    ((sets.map fun names => indent ++ "@@unique(".toList ++ bracketed names ++ [')']).map
      strip).foldlM addLine t = .ok { t with unique := t.unique ++ sets } :=
  foldlM_addLine_sets (fun t sets => { t with unique := t.unique ++ sets }) (by simp) (by simp)
    (fun _ hne hnames => addLine_unique hne hnames) h t

/-- The directives of a plain table are read as they were written. -/
theorem Plain.foldlM_directiveLines (h : t.Plain) (cols : List Column) :
    (t.directiveLines.map strip).foldlM addLine ⟨t.name, cols, [], [], none⟩ =
      .ok { t with columns := cols } := by
  have hdirectives : (t.directives.map strip).foldlM addLine ⟨t.name, cols, [], [], none⟩ =
      .ok { t with columns := cols } := by
    rw [directives, List.map_append, List.map_append, List.foldlM_append, List.foldlM_append,
      foldlM_addLine_indexes h.indexes]
    change (List.foldlM addLine _ _).bind _ = _
    rw [foldlM_addLine_unique h.unique]
    change List.foldlM addLine _ _ = _
    have hmap := h.mapName
    obtain ⟨name, columns, indexes, unique, mapName⟩ := t
    cases mapName with
    | none => rfl
    | some n =>
      obtain ⟨hne, -, hquote⟩ := hmap n rfl
      simp only [hne, if_false, List.map_singleton, List.foldlM_cons, addLine_map hne hquote]
      rfl
  -- the empty line in front of directives is missing if there are none
  rw [directiveLines]
  split
  · rename_i hempty
    rw [List.isEmpty_iff] at hempty
    rw [hempty] at hdirectives
    exact hdirectives
  · exact hdirectives

/-! ### Plain tables -/

theorem Plain.framed (h : t.Plain) : t.Framed := by
  refine framed_of h.name (by simpa using h.name_ne) (fun c hc => ?_) (fun names hnames f hf => ?_)
    fun n hn => (h.mapName n hn).2.1
  · have hplain := h.columns c hc
    refine ⟨hplain.legible, fun _ hm => (hplain.of_mem_modifiers hm).2, fun r hr => ?_⟩
    rw [hplain.rules] at hr
    cases hr
  · rcases List.mem_append.1 hnames with hnames | hnames
    · exact ((h.indexes names hnames).2 f hf).2.solid.unbroken
    · exact ((h.unique names hnames).2 f hf).2.solid.unbroken

theorem Plain.legible (h : t.Plain) : t.Legible :=
  { h.framed with
    columns_ne_nil := h.columns_ne
    columns := fun c hc => (h.columns c hc).legible }

theorem Plain.readable_iff (h : t.Plain) :
    t.Readable ↔ ∀ c ∈ t.columns, ∀ a ∈ c.attributes, ¬ Attribute.IsOverlong a.toList := by
  refine forall₂_congr fun c hc => ?_
  have hplain := h.columns c hc
  rw [hplain.split_print]
  constructor
  · intro hread a ha
    exact hread _ (by simp [Column.modifiers, List.mem_map_of_mem ha])
  · intro hshort m hm
    rcases Column.of_mem_modifiers hm with ⟨a, ha, rfl⟩ | hm | ⟨r, -, rfl⟩ | ⟨n, -, rfl⟩
    · exact hshort a ha
    · rw [hplain.defaultModifier_eq_nil] at hm
      cases hm
    · exact r.not_isOverlong_print
    · exact @Attribute.not_isOverlong_of_startsWith "@map" _ rfl (by decide)

/-- A plain table without overlong defaults is read as it was written. -/
theorem Plain.table_writtenBlock (h : t.Plain) (hread : t.Readable) :
    t.writtenBlock.table = .ok t := by
  have hcolumns : (t.columns.mapM fun c => Column.parse? (c.print t.nameWidth t.typeWidth)) =
      .ok (t.columns.map some) := by
    rw [mapM_eq_ok, List.forall₂_map_right_iff, List.forall₂_same]
    exact fun c hc => (h.columns c hc).parse?_print (h.readable_iff.1 hread c hc) _ _
  have hsome : (t.columns.map some).reduceOption = t.columns := by simp [List.reduceOption]
  rw [Table.table_writtenBlock h.framed fun c hc => (h.columns c hc).legible, hcolumns]
  change (t.directiveLines.map strip).foldlM addLine ⟨t.name, _, [], [], none⟩ = _
  rw [hsome]
  exact h.foldlM_directiveLines t.columns

end Table

/-! ### Plain schemas -/

theorem newline_not_mem_headTexts_ofTables (ts : List Table) :
    ∀ text ∈ (Schema.ofTables ts).headTexts, '\n' ∉ text.toList := by
  have hhead : (Schema.ofTables ts).headTexts = [defaultUrl] := rfl
  rw [hhead]
  decide

/-- Plain tables are read as they were written, exactly if no attribute among them is an overlong
default. -/
theorem parseTables_print_eq_iff {ts : List Table} (h : ∀ t ∈ ts, t.Plain) :
    parseTables (Schema.ofTables ts).print = .ok ts ↔
      ∀ t ∈ ts, ∀ c ∈ t.columns, ∀ a ∈ c.attributes, ¬ Attribute.IsOverlong a.toList := by
  have hhead := newline_not_mem_headTexts_ofTables ts
  have hreadable : (∀ t ∈ ts, t.Readable) ↔
      ∀ t ∈ ts, ∀ c ∈ t.columns, ∀ a ∈ c.attributes, ¬ Attribute.IsOverlong a.toList :=
    forall₂_congr fun t ht => (h t ht).readable_iff
  rw [← hreadable]
  constructor
  · intro hts
    exact (exists_parseTables_print_iff hhead fun t ht => (h t ht).legible).1 ⟨ts, hts⟩
  · intro hread
    have htables : (ts.map (·.writtenBlock)).mapM Block.table = .ok ts := by
      rw [mapM_eq_ok, List.forall₂_map_left_iff, List.forall₂_same]
      exact fun t ht => (h t ht).table_writtenBlock (hread t ht)
    have hfilter : (ts.filter fun t => !t.columns.isEmpty) = ts := by
      rw [List.filter_eq_self]
      exact fun t ht => by simpa using (h t ht).columns_ne
    rw [parseTables, blocks_print hhead fun t ht => (h t ht).framed]
    exact bind_eq_ok.2 ⟨ts, htables, congrArg _ hfilter⟩

/-- Posts with a number and a writer. -/
def postTable : Table where
  name := "Post"
  columns := [
    { Column.bare "id" "Int" with attributes := ["@id", "@default(7)"], default := some (.int 7) },
    { Column.bare "writer" "User" with
      nullable := true
      relation := some ⟨some "By hand", ["id"], ["key"], some .cascade, none⟩
      mapName := some "written by" }]
  indexes := [["id", "writer"]]
  unique := []
  mapName := some "all posts"

theorem postTable_plain : postTable.Plain := by
  have hid : Attribute.IsPlain "@id".toList :=
    ⟨⟨"id".toList, [], rfl, by decide, Or.inl rfl⟩, by decide, by decide, by decide⟩
  have hseven : Attribute.Balanced ['7'] := .char (by decide) (by decide) .nil
  have hdefault : Attribute.IsPlain "@default(7)".toList :=
    ⟨⟨"default".toList, "(7)".toList, rfl, by decide, Or.inr ⟨['7'], rfl, hseven⟩⟩, by decide,
      by decide, by decide⟩
  have hrelation : Relation.Plain ⟨some "By hand", ["id"], ["key"], some .cascade, none⟩ :=
    ⟨by rintro n ⟨⟩; decide +kernel, by decide +kernel, by decide +kernel⟩
  refine ⟨by decide, by decide +kernel, by decide, ?_, by decide +kernel, by decide, ?_⟩
  · simp only [postTable, List.forall_mem_cons]
    refine ⟨?_, ?_, by simp⟩
    · refine ⟨by decide, by decide, by decide, by decide, by decide, by decide, by decide, ?_, rfl,
        by rintro r ⟨⟩, by rintro n ⟨⟩, rfl⟩
      rw [List.forall_mem_cons, List.forall_mem_singleton]
      exact ⟨hid, hdefault⟩
    · refine ⟨by decide, by decide, by decide, by decide, by decide, by decide, by decide,
        by rintro a ⟨⟩, rfl, ?_, ?_, rfl⟩
      · rintro r ⟨⟩
        exact hrelation
      · rintro n ⟨⟩
        decide
  · rintro n ⟨⟩
    decide

/-- Posts are read as they were written. -/
theorem parseTables_print_postTable :
    parseTables (Schema.ofTables [postTable]).print = .ok [postTable] := by
  refine (parseTables_print_eq_iff ?_).2 ?_
  · rw [List.forall_mem_singleton]
    exact postTable_plain
  · rw [List.forall_mem_singleton]
    simp only [postTable, Column.bare, List.forall_mem_cons]
    refine ⟨⟨?_, ?_, by simp⟩, by simp, by simp⟩
    · exact Attribute.exists_defaultValue?_iff.1 ⟨_, rfl⟩
    · exact Attribute.exists_defaultValue?_iff.1 ⟨_, rfl⟩

end ContentSchema
