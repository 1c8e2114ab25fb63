import ContentSchema.External.Load
import ContentSchema.Proofs.Schema.Relations

/-!
# Tables that were read

Whatever a text holds, the tables that are read from it have legible columns, and each of their
texts is a part of a line: it has all properties of that line that parts inherit
(`Table.collected_of_parseTables`).  So each of them stands on one line
(`Table.legible_of_parseTables`).
-/

namespace ContentSchema

open Text

/-! ### Parts of a line -/

/-- What holds of a text holds of its parts. -/
def Text.Hereditary (P : List Char → Prop) : Prop :=
  ∀ {part cs : List Char}, part <:+: cs → P cs → P part

theorem Text.hereditary_unbroken : Hereditary Unbroken := fun hpart hcs => hcs.of_subset hpart.subset

namespace Attribute

variable {cs rest part attr : List Char}

theorem suffix_of_dropStart? {start : List Char} (h : dropStart? start cs = some rest) :
    rest <:+ cs := by
  rw [dropStart?_eq_some] at h
  rw [h]
  exact List.suffix_append _ _

theorem prefix_of_upTo? {stop : Char} (h : upTo? stop cs = some (part, rest)) : part <+: cs := by
  rw [upTo?, List.span_eq_takeWhile_dropWhile] at h
  simp only at h
  split at h
  · cases h
  · cases h
  · cases h
    exact List.takeWhile_prefix _

theorem infix_of_quotedAt? (h : quotedAt? cs = some (part, rest)) : part <:+: cs := by
  obtain ⟨ds, hds, h⟩ := Option.bind_eq_some_iff.1 h
  exact (prefix_of_upTo? h).isInfix.trans (suffix_of_dropStart? hds).isInfix

theorem infix_of_mem_names {n : String} (h : n ∈ names cs) : n.toList <:+: cs := by
  obtain ⟨w, hw, hn⟩ := List.mem_filterMap.1 h
  obtain ⟨v, hv, rfl⟩ := List.mem_map.1 hw
  split at hn
  · cases hn
  · cases hn
    rw [String.toList_ofList]
    exact (strip_isInfix v).trans (of_mem_splitOnP hv).2

theorem infix_of_columnsAt? {title : String} (h : columnsAt? title cs = some part) :
    part <:+: cs := by
  obtain ⟨ds, hds, h⟩ := Option.bind_eq_some_iff.1 h
  obtain ⟨es, hes, h⟩ := Option.bind_eq_some_iff.1 h
  obtain ⟨⟨inner, after⟩, hinner, h⟩ := Option.bind_eq_some_iff.1 h
  cases h
  have hbracket : part <:+: ds.dropWhile isBlank :=
    (prefix_of_upTo? hinner).isInfix.trans (suffix_of_dropStart? hes).isInfix
  exact (hbracket.trans (List.dropWhile_suffix _).isInfix).trans (suffix_of_dropStart? hds).isInfix

/-- What is found first is read at some place of the text. -/
theorem exists_of_findFirst {α : Type} {read? : List Char → Option α} {a : α}
    (h : findFirst read? cs = some a) : ∃ ds, ds <:+ cs ∧ read? ds = some a := by
  induction cs with
  | nil => exact ⟨[], List.suffix_rfl, h⟩
  | cons c cs ih =>
    rw [findFirst] at h
    split at h
    · rename_i b hb
      cases h
      exact ⟨c :: cs, List.suffix_rfl, hb⟩
    · obtain ⟨ds, hds, hread⟩ := ih h
      exact ⟨ds, hds.trans (List.suffix_cons c cs), hread⟩

theorem infix_of_relationName? (h : relationName? cs = some part) : part <:+: cs := by
  obtain ⟨ds, hds, h⟩ := Option.bind_eq_some_iff.1 h
  obtain ⟨⟨name, after⟩, hname, h⟩ := Option.bind_eq_some_iff.1 h
  cases h
  have hsuffix : ds.dropWhile isBlank <:+ cs :=
    (List.dropWhile_suffix _).trans (suffix_of_dropStart? hds)
  refine (infix_of_quotedAt? hname).trans (List.IsSuffix.isInfix ?_)
  split
  · rename_i es hes
    exact (List.dropWhile_suffix _).trans ((suffix_of_dropStart? hes).trans hsuffix)
  · exact hsuffix

theorem infix_of_mapNameAt? {title n : String} (h : mapNameAt? title cs = some n) :
    n.toList <:+: cs := by
  obtain ⟨ds, hds, h⟩ := Option.bind_eq_some_iff.1 h
  obtain ⟨⟨name, after⟩, hname, h⟩ := Option.bind_eq_some_iff.1 h
  obtain ⟨_, -, h⟩ := Option.bind_eq_some_iff.1 h
  cases h
  rw [String.toList_ofList]
  exact (infix_of_quotedAt? hname).trans (suffix_of_dropStart? hds).isInfix

/-- What a scan has taken in so far. -/
def Scan.text : Scan → List Char
  | .outside => []
  | .inside _ current => current.reverse

theorem infix_of_mem_flush {scan : Scan} (h : attr ∈ scan.flush) : attr <:+: scan.text := by
  cases scan with
  | outside => cases h
  | inside depth current =>
    rw [Scan.flush] at h
    split at h
    · cases h
    · rw [List.mem_singleton.1 h]
      exact strip_isInfix _

theorem infix_of_mem_splitFrom {scan : Scan} (h : attr ∈ splitFrom scan cs) :
    attr <:+: scan.text ++ cs := by
  -- what is found behind the character at hand stands in the line as well
  have hrest : ∀ {current : List Char} {c : Char} {cs : List Char},
      attr <:+: Scan.outside.text ++ cs → attr <:+: current ++ c :: cs := fun h =>
    (h.trans (List.suffix_cons _ _).isInfix).trans (List.suffix_append _ _).isInfix
  have hstep : ∀ {current : List Char} {c : Char} {cs : List Char},
      attr <:+: (c :: current).reverse ++ cs → attr <:+: current.reverse ++ c :: cs := fun h => by
    simpa using h
  fun_induction splitFrom scan cs with
  | case1 scan => simpa using infix_of_mem_flush h
  | case2 c cs ih =>
    have h' := ih h
    by_cases hc : c = '@'
    · rw [if_pos hc] at h'
      rw [hc]
      exact h'
    · rw [if_neg hc] at h'
      exact hrest h'
  | case3 depth current cs ih => exact hstep (ih h)
  | case4 current cs _ ih =>
    rcases List.mem_cons.1 h with rfl | h
    · exact hstep (List.prefix_append _ _).isInfix
    · exact hrest (ih h)
  | case5 depth current cs _ _ ih => exact hstep (ih h)
  | case6 depth current c cs _ _ _ ih =>
    rcases List.mem_append.1 h with h | h
    · exact (infix_of_mem_flush h).trans (List.prefix_append _ _).isInfix
    · exact hrest (ih h)
  | case7 depth current c cs _ _ _ ih => exact hstep (ih h)

/-- The attributes of a line stand in it. -/
theorem infix_of_mem_split (h : attr ∈ split cs) : attr <:+: cs := infix_of_mem_splitFrom h

end Attribute

/-! ### Relations -/

theorem Attribute.infix_of_mem_texts {attr : List Char} {s : String}
    (h : s ∈ (relation attr).texts) : s.toList <:+: attr := by
  have hcolumns : ∀ {title inner}, findFirst (columnsAt? title) attr = some inner →
      s ∈ names inner → s.toList <:+: attr := by
    intro title inner hinner hs
    obtain ⟨ds, hds, hread⟩ := exists_of_findFirst hinner
    exact (infix_of_mem_names hs).trans ((infix_of_columnsAt? hread).trans hds.isInfix)
  rw [Relation.texts, List.mem_append, List.mem_append] at h
  rcases h with (h | h) | h
  · obtain ⟨name, hname, rfl⟩ := Option.map_eq_some_iff.1 (Option.mem_toList.1 h)
    rw [String.toList_ofList]
    exact infix_of_relationName? hname
  · unfold relation at h
    dsimp only at h
    split at h
    · rename_i hinner
      exact hcolumns hinner h
    · cases h
  · unfold relation at h
    dsimp only at h
    split at h
    · rename_i hinner
      exact hcolumns hinner h
    · cases h

/-! ### Columns -/

/-- The first word of a text that begins with no blank stands at its start. -/
theorem prefix_of_words_eq_cons {cs w : List Char} {ws : List (List Char)}
    (hcs : ∀ c ∈ cs.head?, isBlank c = false) (h : words cs = w :: ws) : w <+: cs := by
  have hsplit := List.takeWhile_append_dropWhile (p := fun c => !isBlank c) (l := cs)
  have hsolid : Solid (cs.takeWhile fun c => !isBlank c) := fun c hc => by
    simpa using List.mem_takeWhile_imp hc
  have hne : cs.takeWhile (fun c => !isBlank c) ≠ [] := by
    intro hnil
    cases cs with
    | nil =>
      rw [words_nil] at h
      cases h
    | cons c cs =>
      rw [List.takeWhile_cons, hcs c rfl] at hnil
      cases hnil
  -- the word in front of the first blank, or the whole text if there is none
  have hw : w = cs.takeWhile fun c => !isBlank c := by
    cases hrest : cs.dropWhile fun c => !isBlank c with
    | nil =>
      rw [hrest, List.append_nil] at hsplit
      rw [hsplit] at hsolid hne ⊢
      rw [words_of_solid hsolid hne] at h
      exact (List.cons.inj h).1.symm
    | cons b rest =>
      have hb : isBlank b = true := by
        have hhead := List.head?_dropWhile_not (fun c => !isBlank c) cs
        rw [hrest] at hhead
        simpa using hhead
      rw [hrest] at hsplit
      rw [← hsplit, words_append_cons hsolid hne hb] at h
      exact (List.cons.inj h).1.symm
  rw [hw]
  exact List.takeWhile_prefix _

theorem isBlank_head_strip (cs : List Char) : ∀ c ∈ (strip cs).head?, isBlank c = false := by
  intro c hc
  have hhead := List.head?_dropWhile_not isBlank cs
  obtain ⟨rest, hrest⟩ := List.head?_eq_some_iff.1 hc
  obtain ⟨ds, hds⟩ := stripEnd_isPrefix (cs.dropWhile isBlank)
  rw [strip] at hrest
  rw [hrest] at hds
  rw [← hds] at hhead
  simpa using hhead

namespace Column

/-- Each text of the column has a property, and whatever else it holds was declared by attributes. -/
structure Attributed (P : List Char → Prop) (c : Column) : Prop where
  /-- The name has the property. -/
  name : P c.name.toList
  /-- The type has the property. -/
  type : P c.type.toList
  /-- The attributes have the property. -/
  attributes : ∀ a ∈ c.attributes, P a.toList
  /-- A default is declared by an attribute. -/
  default : c.default ≠ none → c.hasAttribute "@default" = true
  /-- The texts of the relation have the property. -/
  relation : ∀ r ∈ c.relation, ∀ s ∈ r.texts, P s.toList
  /-- The physical name has the property. -/
  mapName : ∀ n ∈ c.mapName, P n.toList
  /-- There are no rules. -/
  rules : c.rules = none

variable {P : List Char → Prop} {c c' : Column} {attr line : List Char}

theorem attributed_bare {name type : String} (hname : P name.toList) (htype : P type.toList)
    (nullable isList : Bool) :
    Attributed P { bare name type with nullable := nullable, isList := isList } where
  name := hname
  type := htype
  attributes := by simp [bare]
  default := fun h => absurd rfl h
  relation := by simp [bare]
  mapName := by simp [bare]
  rules := rfl

theorem Attributed.addAttribute (hP : Hereditary P) (hc : c.Attributed P) (hattr : P attr)
    (h : c.addAttribute attr = .ok c') : c'.Attributed P := by
  cases hrelation : startsWith "@relation" attr with
  | true =>
    rw [Column.addAttribute, if_pos hrelation] at h
    cases h
    refine { hc with relation := ?_ }
    rintro r ⟨⟩ s hs
    exact hP (Attribute.infix_of_mem_texts hs) hattr
  | false =>
    cases hmap : startsWith "@map" attr with
    | true =>
      rw [Column.addAttribute, hrelation, if_neg Bool.false_ne_true, if_pos hmap] at h
      cases h
      exact { hc with mapName := fun n hn => hP (Attribute.infix_of_mapNameAt? hn) hattr }
    | false =>
      rw [addAttribute_of_plain hrelation hmap] at h
      obtain ⟨d, hd, h⟩ := bind_eq_ok.1 h
      cases h
      refine { hc with attributes := ?_, default := fun hne => ?_ }
      · intro a ha
        rcases List.mem_append.1 ha with ha | ha
        · exact hc.attributes a ha
        · rw [List.mem_singleton.1 ha, String.toList_ofList]
          exact hattr
      · -- a default that was not declared before is declared by this attribute
        rw [defaultWith] at hd
        rw [hasAttribute, List.any_append, Bool.or_eq_true]
        split at hd
        · rename_i hdefault
          have hstart : startsWith "@default" (String.ofList attr).toList = true := by
            rw [String.toList_ofList]
            exact hdefault
          exact Or.inr (List.any_eq_true.2 ⟨_, List.mem_singleton_self _, hstart⟩)
        · cases hd
          exact Or.inl (hc.default hne)

theorem Attributed.defaultModifier_eq_nil (hc : c.Attributed P) : c.defaultModifier = [] := by
  rw [defaultModifier]
  split
  · rename_i d hd
    rw [if_pos (hc.default (by simp [hd]))]
  · rfl

/-- What stands behind a type is put together from texts that have the property, some of them in
quotes. -/
theorem Attributed.joinable_modifier {Q : List Char → Prop} (hQ : Joinable Q)
    (hplain : ∀ {cs : List Char}, P cs → Q cs) (hquoted : ∀ {cs : List Char}, P cs → Q (quoted cs))
    (hc : c.Attributed P) {m : List Char} (hm : m ∈ c.modifiers) : Q m := by
  rcases of_mem_modifiers hm with ⟨a, ha, rfl⟩ | hm | ⟨r, hr, rfl⟩ | ⟨n, hn, rfl⟩
  · exact hplain (hc.attributes a ha)
  · rw [hc.defaultModifier_eq_nil] at hm
    cases hm
  · have htexts := hc.relation r hr
    refine r.joinable_print hQ (fun n hn => hquoted (htexts n ?_)) fun n hn => hplain (htexts n ?_)
    · rw [Option.mem_def] at hn
      simp [Relation.texts, hn]
    · rw [Relation.texts, List.append_assoc]
      exact List.mem_append_right _ hn
  · exact joinable_mapAttribute hQ (hplain (hc.mapName n hn))

theorem Legible.of_shape (h : c.Legible) (hshape : c'.shape = c.shape) : c'.Legible := by
  simp only [shape, Shape.mk.injEq] at hshape
  obtain ⟨hname, htype, hsignature, hnullable, hlist⟩ := hshape
  obtain ⟨hn, hne, hcomment, hdirective, ht, hte, hsplit⟩ := h
  constructor
  · rwa [hname]
  · rwa [hname]
  · rwa [hname]
  · rwa [hname]
  · rwa [htype]
  · rwa [htype]
  · rw [hsignature, htype, hnullable, hlist]
    exact hsplit

/-- A type without the mark of a list has no more marks once the others are split off. -/
theorem not_suffix_of_splitType {token type : List Char} {nullable : Bool}
    (h : splitType token = (type, nullable, false)) :
    ¬ ['[', ']'] <:+ type ∧ (nullable = false → ¬ ['?'] <:+ type) := by
  rw [splitType] at h
  split at h
  · cases h
  · rename_i hopen
    cases h
    refine ⟨?_, fun hnullable => ?_⟩
    · rintro ⟨ds, hds⟩
      refine hopen ds.reverse ?_
      rw [← hds]
      simp
    · rw [if_neg (of_decide_eq_false hnullable)]
      rintro ⟨ds, rfl⟩
      simp at hnullable

/-- Splitting the marks off a type only takes characters away at its end. -/
theorem prefix_of_splitType {token type : List Char} {nullable isList : Bool}
    (h : splitType token = (type, nullable, isList)) : type <+: token := by
  have hdrop : (if token.getLast? = some '?' then token.dropLast else token) <+: token := by
    split
    · exact List.dropLast_prefix _
    · exact List.prefix_rfl
  rw [splitType] at h
  split at h
  · rename_i rest hrest
    cases h
    refine List.IsPrefix.trans ?_ hdrop
    rw [← List.reverse_suffix, List.reverse_reverse, hrest]
    exact (List.suffix_cons _ _).trans (List.suffix_cons _ _)
  · cases h
    exact hdrop

theorem startsWith_eq_false_of_isPrefix {start : String} {cs ds : List Char} (hds : ds <+: cs)
    (h : startsWith start cs = false) : startsWith start ds = false := by
  rw [Bool.eq_false_iff, ne_eq, startsWith_iff] at h ⊢
  exact fun hstart => h (hstart.trans hds)

/-- A column whose marks were split off its type is legible. -/
theorem legible_of_splitType {name token type : List Char} {nullable isList : Bool}
    (hname : Solid name) (hname_ne : name ≠ []) (hcomment : startsWith "//" name = false)
    (hdirective : startsWith "@@" name = false) (htoken : Solid token) (htype_ne : type ≠ [])
    (hsplit : splitType token = (type, nullable, isList)) :
    { bare (String.ofList name) (String.ofList type) with
      nullable := nullable && !isList, isList := isList }.Legible where
  solid_name := by simpa [bare] using hname
  name_ne_nil := by simpa [bare] using hname_ne
  not_comment := by simpa [bare] using hcomment
  not_directive := by simpa [bare] using hdirective
  solid_type := by
    have hsolid : Solid type := fun d hd =>
      htoken d ((prefix_of_splitType hsplit).subset hd)
    simpa [bare] using hsolid
  type_ne_nil := by simpa [bare] using htype_ne
  splitType_signature := by
    refine splitType_typeSignature (fun hlist hnull => ?_) (fun hlist => ?_) ?_
    · subst hlist
      simpa [bare] using (not_suffix_of_splitType hsplit).2 (by simpa using hnull)
    · subst hlist
      simpa [bare] using (not_suffix_of_splitType hsplit).1
    · cases isList <;> simp

/-- A column that is read begins with a name and a type that stand in its line. -/
theorem exists_of_parse? (h : parse? line = .ok (some c)) :
    ∃ name token rest type nullable isList, words line = name :: token :: rest ∧
      splitType token = (type, nullable, isList) ∧ type ≠ [] ∧
      (Attribute.split line).foldlM addAttribute
        { bare (String.ofList name) (String.ofList type) with
          nullable := nullable && !isList, isList := isList } = .ok c := by
  rw [parse?.eq_def] at h
  split at h
  · rename_i name token rest hwords
    obtain ⟨type, nullable, isList, hsplit⟩ : ∃ type nullable isList,
        splitType token = (type, nullable, isList) := ⟨_, _, _, rfl⟩
    simp only [hsplit] at h
    split at h
    · cases h
    · rename_i htype
      obtain ⟨c', hfold, hc⟩ := map_eq_ok.1 h
      cases hc
      exact ⟨name, token, rest, type, nullable, isList, hwords, hsplit, by simpa using htype, hfold⟩
  · cases h

/-- A column is legible if it is read from a line that is no comment and no directive. -/
theorem legible_of_parse? (hhead : ∀ d ∈ line.head?, isBlank d = false)
    (hcomment : startsWith "//" line = false) (hdirective : startsWith "@@" line = false)
    (h : parse? line = .ok (some c)) : c.Legible := by
  obtain ⟨name, token, rest, type, nullable, isList, hwords, hsplit, htype, hfold⟩ :=
    exists_of_parse? h
  obtain ⟨hname_ne, hname, -⟩ := @of_mem_words line name (by simp [hwords])
  obtain ⟨-, htoken, -⟩ := @of_mem_words line token (by simp [hwords])
  have hstart := prefix_of_words_eq_cons hhead hwords
  have hbare := legible_of_splitType hname hname_ne
    (startsWith_eq_false_of_isPrefix hstart hcomment)
    (startsWith_eq_false_of_isPrefix hstart hdirective) htoken htype hsplit
  exact hbare.of_shape (shape_foldlM_addAttribute hfold)

/-- A column has the properties of the line that it is read from. -/
theorem attributed_of_parse? (hP : Hereditary P) (hline : P line)
    (h : parse? line = .ok (some c)) : c.Attributed P := by
  obtain ⟨name, token, rest, type, nullable, isList, hwords, hsplit, -, hfold⟩ :=
    exists_of_parse? h
  obtain ⟨-, -, hname⟩ := @of_mem_words line name (by simp [hwords])
  obtain ⟨-, -, htoken⟩ := @of_mem_words line token (by simp [hwords])
  have htype := (prefix_of_splitType hsplit).isInfix.trans htoken
  refine foldlM_preserves (P := Attributed P) (fun d hd a ha d' h => ?_)
    (attributed_bare ?_ ?_ _ _) hfold
  · exact hd.addAttribute hP (hP (Attribute.infix_of_mem_split ha) hline) h
  · rw [String.toList_ofList]
    exact hP hname hline
  · rw [String.toList_ofList]
    exact hP htype hline

end Column

/-! ### Tables -/

namespace Table

/-- What lines have added to a table is legible, and each text of it has a property. -/
structure Collected (P : List Char → Prop) (t : Table) : Prop where
  /-- The columns are legible and have the property. -/
  columns : ∀ c ∈ t.columns, c.Legible ∧ c.Attributed P
  /-- The columns that directives list have the property. -/
  sets : ∀ names ∈ t.indexes ++ t.unique, ∀ n ∈ names, P n.toList
  /-- The physical name has the property. -/
  mapName : ∀ n ∈ t.mapName, P n.toList

variable {P : List Char → Prop} {t t' : Table} {line : List Char}

theorem infix_of_directiveColumns? {title : String} {sets : List String}
    (h : directiveColumns? title line = some sets) : ∀ n ∈ sets, n.toList <:+: line := by
  obtain ⟨rest, hrest, h⟩ := Option.bind_eq_some_iff.1 h
  obtain ⟨⟨inner, after⟩, hinner, h⟩ := Option.bind_eq_some_iff.1 h
  cases h
  intro n hn
  exact (Attribute.infix_of_mem_names hn).trans
    ((Attribute.prefix_of_upTo? hinner).isInfix.trans (Attribute.suffix_of_dropStart? hrest).isInfix)

theorem Collected.addLine (hP : Hereditary P) (ht : t.Collected P) (hline : P line)
    (hhead : ∀ d ∈ line.head?, isBlank d = false) (h : t.addLine line = .ok t') :
    t'.Collected P ∧ t'.name = t.name := by
  rw [Table.addLine] at h
  split at h
  · cases h
    exact ⟨ht, rfl⟩
  rename_i hcomment
  split at h
  · cases h
    refine ⟨{ ht with sets := fun names hnames => ?_ }, rfl⟩
    simp only [List.mem_append, Option.mem_toList] at hnames
    rcases hnames with (hnames | hnames) | hnames
    · exact ht.sets names (List.mem_append_left _ hnames)
    · exact fun n hn => hP (infix_of_directiveColumns? hnames n hn) hline
    · exact ht.sets names (List.mem_append_right _ hnames)
  split at h
  · cases h
    refine ⟨{ ht with sets := fun names hnames => ?_ }, rfl⟩
    simp only [List.mem_append, Option.mem_toList] at hnames
    rcases hnames with hnames | hnames | hnames
    · exact ht.sets names (List.mem_append_left _ hnames)
    · exact ht.sets names (List.mem_append_right _ hnames)
    · exact fun n hn => hP (infix_of_directiveColumns? hnames n hn) hline
  split at h
  · split at h
    · rename_i n hn
      cases h
      refine ⟨{ ht with mapName := ?_ }, rfl⟩
      rintro n' ⟨⟩
      exact hP (Attribute.infix_of_mapNameAt? hn) hline
    · cases h
      exact ⟨ht, rfl⟩
  split at h
  · cases h
    exact ⟨ht, rfl⟩
  rename_i hdirective
  obtain ⟨found, hfound, h⟩ := bind_eq_ok.1 h
  cases h
  refine ⟨{ ht with columns := fun c hc => ?_ }, rfl⟩
  rcases List.mem_append.1 hc with hc | hc
  · exact ht.columns c hc
  · rw [Option.mem_toList] at hc
    rw [hc] at hfound
    simp only [Bool.or_eq_true, not_or, Bool.not_eq_true] at hcomment
    exact ⟨Column.legible_of_parse? hhead hcomment.2 (by simpa using hdirective) hfound,
      Column.attributed_of_parse? hP hline hfound⟩

/-- The table of a block has the block's name and what the block's lines collect. -/
theorem collected_of_table {b : Block} (hP : Hereditary P) (hlines : ∀ l ∈ lines b.body, P l)
    (h : b.table = .ok t) : t.Collected P ∧ t.name = String.ofList b.name := by
  refine foldlM_preserves (P := fun u => u.Collected P ∧ u.name = String.ofList b.name) ?_ ?_ h
  · rintro u ⟨hu, hname⟩ line hline u' hu'
    obtain ⟨l, hl, rfl⟩ := List.mem_map.1 hline
    obtain ⟨hcollected, hname'⟩ :=
      hu.addLine hP (hP (strip_isInfix l) (hlines l hl)) (isBlank_head_strip l) hu'
    exact ⟨hcollected, hname'.trans hname⟩
  · exact ⟨⟨by simp, by simp, by simp⟩, rfl⟩

theorem Collected.legible (ht : t.Collected Unbroken) (hname : Wordy t.name.toList)
    (hne : t.name.toList ≠ []) (hcols : t.columns ≠ []) : t.Legible := by
  have hframed : t.Framed := by
    refine framed_of hname hne (fun c hc => ?_) ht.sets ht.mapName
    obtain ⟨hlegible, hattributed⟩ := ht.columns c hc
    refine ⟨hlegible, fun _ => hattributed.joinable_modifier joinable_unbroken id unbroken_quoted,
      fun r hr => ?_⟩
    rw [hattributed.rules] at hr
    cases hr
  exact { hframed with columns_ne_nil := hcols, columns := fun c hc => (ht.columns c hc).1 }

end Table

/-! ### Texts -/

/-- The header of a block names a word, and the rest of the text follows it. -/
theorem of_header?_eq_some {cs name rest : List Char} (h : header? cs = some (name, rest)) :
    Wordy name ∧ name ≠ [] ∧ rest <:+ cs := by
  rw [header?] at h
  split at h
  · cases h
  · rename_i tail htail
    simp only at h
    split at h
    · cases h
    · rename_i hname
      split at h
      · rename_i after hafter
        cases h
        simp only [Bool.or_eq_true, not_or, decide_eq_true_eq, List.isEmpty_iff] at hname
        refine ⟨fun c hc => List.mem_takeWhile_imp hc, hname.2, ?_⟩
        calc rest <:+ '\x7b' :: rest := List.suffix_cons _ _
          _ <:+ (tail.dropWhile isBlank).dropWhile isWordChar := hafter ▸ List.dropWhile_suffix _
          _ <:+ tail.dropWhile isBlank := List.dropWhile_suffix _
          _ <:+ tail := List.dropWhile_suffix _
          _ <:+ cs := Attribute.suffix_of_dropStart? htail
      · cases h

theorem of_body?_eq_some {cs body rest : List Char} (h : body? cs = some (body, rest)) :
    body <+: cs ∧ rest <:+ cs := by
  fun_induction body? cs generalizing body rest with
  | case1 tail =>
    cases h
    exact ⟨⟨_, rfl⟩, (List.suffix_cons _ _).trans (List.suffix_cons _ _)⟩
  | case2 c cs _ ih =>
    obtain ⟨⟨inner, after⟩, hinner, h⟩ := Option.map_eq_some_iff.1 h
    cases h
    obtain ⟨hfront, hsuffix⟩ := ih hinner
    exact ⟨(List.prefix_cons_inj c).2 hfront, hsuffix.trans (List.suffix_cons _ _)⟩
  | case3 => cases h

/-- The name of each block is a word, and its body stands in the text. -/
theorem of_mem_blocksFrom {lineStart : Bool} {cs : List Char} {b : Block}
    (h : b ∈ blocksFrom lineStart cs) : Wordy b.name ∧ b.name ≠ [] ∧ b.body <:+: cs := by
  fun_induction blocksFrom lineStart cs with
  | case1 => cases h
  | case2 c tail b' rest hblock _ ih =>
    obtain ⟨⟨name, after⟩, hheader, hbody⟩ := Option.bind_eq_some_iff.1 hblock
    obtain ⟨⟨body, _⟩, hread, hb⟩ := Option.map_eq_some_iff.1 hbody
    cases hb
    obtain ⟨hwordy, hne, hafter⟩ := of_header?_eq_some hheader
    obtain ⟨hbody, hrest⟩ := of_body?_eq_some hread
    rcases List.mem_cons.1 h with rfl | h
    · exact ⟨hwordy, hne, hbody.isInfix.trans hafter.isInfix⟩
    · obtain ⟨hwordy, hne, hpart⟩ := ih h
      exact ⟨hwordy, hne, hpart.trans (hrest.trans hafter).isInfix⟩
  | case3 c tail _ ih =>
    obtain ⟨hwordy, hne, hpart⟩ := ih h
    exact ⟨hwordy, hne, hpart.trans (List.suffix_cons _ _).isInfix⟩
  | case4 lineStart c tail _ ih =>
    obtain ⟨hwordy, hne, hpart⟩ := ih h
    exact ⟨hwordy, hne, hpart.trans (List.suffix_cons _ _).isInfix⟩

/-- The tables that are read from a text have the properties of its lines. -/
theorem Table.collected_of_parseTables {P : List Char → Prop} (hP : Hereditary P)
    {text : List Char} (htext : ∀ l, Unbroken l → l <:+: text → P l) {ts : List Table}
    (h : parseTables text = .ok ts) :
    ∀ t ∈ ts, t.Collected P ∧ Wordy t.name.toList ∧ t.name.toList ≠ [] ∧ t.columns ≠ [] := by
  obtain ⟨found, hfound, h⟩ := bind_eq_ok.1 h
  cases h
  intro t ht
  obtain ⟨ht, hcols⟩ := List.mem_filter.1 ht
  obtain ⟨b, hb, htable⟩ := exists_of_mem_mapM hfound ht
  obtain ⟨hwordy, hne, hbody⟩ := of_mem_blocksFrom hb
  obtain ⟨hcollected, hname⟩ := collected_of_table hP (fun l hl => by
    obtain ⟨hunbroken, hpart⟩ := of_mem_lines hl
    exact htext l hunbroken (hpart.trans hbody)) htable
  rw [hname, String.toList_ofList]
  exact ⟨hcollected, hwordy, hne, by simpa using hcols⟩

/-- The tables that are read from a text are legible. -/
theorem Table.legible_of_parseTables {text : List Char} {ts : List Table}
    (h : parseTables text = .ok ts) : ∀ t ∈ ts, t.Legible := by
  intro t ht
  obtain ⟨hcollected, hname, hne, hcols⟩ :=
    collected_of_parseTables hereditary_unbroken (fun _ hl _ => hl) h t ht
  exact hcollected.legible hname hne hcols

/-! ### Files -/

theorem mem_of_mem_filterTables {tables : List Table} {taken leftOut : Option (List String)}
    {t : Table} (h : t ∈ filterTables tables taken leftOut) : t ∈ tables := by
  have hpick : ∀ {us : List Table} {names : List String} {p : Table → Bool},
      t ∈ (if names.isEmpty then us else us.filter p) → t ∈ us := by
    intro us names p ht
    split at ht
    · exact ht
    · exact (List.mem_filter.1 ht).1
  cases leftOut with
  | none =>
    cases taken with
    | none => exact h
    | some names => exact hpick h
  | some names =>
    cases taken with
    | none => exact hpick h
    | some names => exact hpick (hpick h)

/-- External tables are legible, whatever their files hold. -/
theorem FileSystem.legible_of_mem_externalTables {fs : FileSystem} {source : Option ExternalTables}
    {t : Table} (h : t ∈ (fs.externalTables source).1) : t.Legible := by
  rw [externalTables.eq_def] at h
  split at h
  · cases h
  · split at h
    · cases h
    · obtain ⟨loaded, hloaded, ht⟩ := List.mem_flatMap.1 h
      obtain ⟨path, -, rfl⟩ := List.mem_map.1 hloaded
      rw [loadTables] at ht
      split at ht
      · rename_i tables htables
        obtain ⟨text, -, hparse⟩ := bind_eq_ok.1 htables
        exact Table.legible_of_parseTables (mapError_eq_ok.1 hparse) t (mem_of_mem_filterTables ht)
      · cases ht

end ContentSchema
