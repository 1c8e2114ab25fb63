import ContentSchema.Proofs.Schema.Blocks
import ContentSchema.Proofs.Schema.Defaults
import Mathlib.Data.List.ReduceOption

/-!
# The shape of written tables

Names, types and marks survive writing and reading, whatever attributes the columns have.  A column
is legible if its name and type are words that the reader takes for a name and a type
(`Column.Legible`); the tables of a schema with legible columns are read with their shapes, unless
an overlong default stops the reader (`exists_parseTables_print_iff`, `shape_parseTables_print`).
-/

namespace ContentSchema

open Text

/-! ### Marks of types -/

theorem splitType_append_brackets (cs : List Char) :
    splitType (cs ++ ['[', ']']) = (cs, false, true) := by
  have hlast : (cs ++ ['[', ']']).getLast? = some ']' := by simp
  simp [splitType, hlast]

theorem reverse_ne_of_not_suffix {cs : List Char} (h : ¬ ['[', ']'] <:+ cs) (rest : List Char) :
    cs.reverse ≠ ']' :: '[' :: rest := by
  intro hrest
  refine h ⟨rest.reverse, ?_⟩
  rw [← List.reverse_reverse cs, hrest]
  simp

theorem splitType_append_question {cs : List Char} (h : ¬ ['[', ']'] <:+ cs) :
    splitType (cs ++ ['?']) = (cs, true, false) := by
  have hopen := reverse_ne_of_not_suffix h
  have hdrop : (cs ++ ['?']).dropLast = cs := List.dropLast_concat
  rw [splitType]
  simp only [hdrop, List.getLast?_concat, decide_true, if_true]

theorem splitType_of_not_suffix {cs : List Char} (hquestion : ¬ ['?'] <:+ cs)
    (hbrackets : ¬ ['[', ']'] <:+ cs) : splitType cs = (cs, false, false) := by
  have hopen := reverse_ne_of_not_suffix hbrackets
  have hlast : cs.getLast? ≠ some '?' := by
    intro hlast
    obtain ⟨ds, hds⟩ := List.getLast?_eq_some_iff.1 hlast
    exact hquestion ⟨ds, hds.symm⟩
  rw [splitType]
  simp only [hlast, decide_false, if_false]

/-- The marks that a type is written with are found, if the type has no marks itself. -/
theorem Column.splitType_typeSignature {c : Column}
    (hquestion : c.isList = false → c.nullable = false → ¬ ['?'] <:+ c.type.toList)
    (hbrackets : c.isList = false → ¬ ['[', ']'] <:+ c.type.toList)
    (hmarks : ¬ (c.nullable = true ∧ c.isList = true)) :
    splitType c.typeSignature.toList = (c.type.toList, c.nullable, c.isList) := by
  rw [typeSignature]
  cases hlist : c.isList with
  | true =>
    have hnullable : c.nullable = false := by simpa [hlist] using hmarks
    rw [if_pos rfl, hnullable, String.toList_append]
    exact splitType_append_brackets _
  | false =>
    rw [if_neg Bool.false_ne_true]
    cases hnullable : c.nullable with
    | true =>
      rw [if_pos rfl, String.toList_append]
      exact splitType_append_question (hbrackets hlist)
    | false =>
      rw [if_neg Bool.false_ne_true]
      exact splitType_of_not_suffix (hquestion hlist hnullable) (hbrackets hlist)

/-! ### Lines of columns -/

namespace Column

/-- The column's name and type are read as they are written. -/
structure Legible (c : Column) : Prop where
  /-- The name holds no blanks. -/
  solid_name : Solid c.name.toList
  /-- The name is not empty. -/
  name_ne_nil : c.name.toList ≠ []
  /-- The line is no comment. -/
  not_comment : startsWith "//" c.name.toList = false
  /-- The line is no directive. -/
  not_directive : startsWith "@@" c.name.toList = false
  /-- The type holds no blanks. -/
  solid_type : Solid c.type.toList
  /-- The type is not empty. -/
  type_ne_nil : c.type.toList ≠ []
  /-- The marks of the type are found, and no others. -/
  splitType_signature : splitType c.typeSignature.toList = (c.type.toList, c.nullable, c.isList)

variable {c : Column}

theorem Legible.solid_signature (h : c.Legible) : Solid c.typeSignature.toList := by
  intro d hd
  rw [typeSignature] at hd
  have hmarks : ∀ e ∈ ['[', ']', '?'], isBlank e = false := by decide
  split at hd
  · rw [String.toList_append, List.mem_append] at hd
    rcases hd with hd | hd
    · exact h.solid_type d hd
    · exact hmarks d (List.mem_of_mem_take (i := 2) hd)
  split at hd
  · rw [String.toList_append, List.mem_append] at hd
    rcases hd with hd | hd
    · exact h.solid_type d hd
    · exact hmarks d (List.mem_of_mem_drop (i := 2) hd)
  · exact h.solid_type d hd

theorem Legible.signature_ne_nil (h : c.Legible) : c.typeSignature.toList ≠ [] := by
  rw [typeSignature]
  split
  · simp [String.toList_append, h.type_ne_nil]
  split
  · simp [String.toList_append, h.type_ne_nil]
  · exact h.type_ne_nil

/-- The attribute of a physical name. -/
def mapAttribute (name : String) : List Char := "@map(".toList ++ plainQuoted name ++ [')']

theorem joinable_mapAttribute {P : List Char → Prop} (hP : Joinable P) {name : String}
    (h : P name.toList) : P (mapAttribute name) :=
  hP.append_marks (hP.marks_append (by decide) (hP.quotes h)) (by decide)

/-- What follows a type is an attribute of the column, or that of its default, of its relation or of
its physical name. -/
theorem of_mem_modifiers {m : List Char} (h : m ∈ c.modifiers) :
    (∃ a ∈ c.attributes, m = a.toList) ∨ m ∈ c.defaultModifier ∨ (∃ r ∈ c.relation, m = r.print) ∨
      ∃ n ∈ c.mapName, m = mapAttribute n := by
  rw [modifiers, List.mem_append, List.mem_append, List.mem_append] at h
  rcases h with ((h | h) | h) | h
  · obtain ⟨a, ha, rfl⟩ := List.mem_map.1 h
    exact Or.inl ⟨a, ha, rfl⟩
  · exact Or.inr (Or.inl h)
  · split at h
    · rename_i r hr
      exact Or.inr (Or.inr (Or.inl ⟨r, hr, List.mem_singleton.1 h⟩))
    · cases h
  · rw [mapModifier] at h
    split at h
    · rename_i n hn
      split at h
      · cases h
      · exact Or.inr (Or.inr (Or.inr ⟨n, hn, List.mem_singleton.1 h⟩))
    · cases h

/-- What stands in a column's line behind the type. -/
def lineTail (typeWidth : Nat) (c : Column) : List Char :=
  stripEnd (List.replicate (typeWidth - c.typeSignature.toList.length) ' ' ++
    c.modifiers.flatMap ([' '] ++ ·))

/-- What stands in a column's line behind the name and a blank. -/
def lineRest (nameWidth typeWidth : Nat) (c : Column) : List Char :=
  List.replicate (nameWidth - c.name.toList.length) ' ' ++
    ' ' :: (c.typeSignature.toList ++ c.lineTail typeWidth)

theorem lineTail_eq_nil_or (typeWidth : Nat) (c : Column) :
    c.lineTail typeWidth = [] ∨ ∃ rest, c.lineTail typeWidth = ' ' :: rest := by
  have hprefix := stripEnd_isPrefix
    (List.replicate (typeWidth - c.typeSignature.toList.length) ' ' ++
      c.modifiers.flatMap ([' '] ++ ·))
  cases htail : c.lineTail typeWidth with
  | nil => exact Or.inl rfl
  | cons d ds =>
    rw [lineTail] at htail
    rw [htail] at hprefix
    obtain ⟨t, ht⟩ := hprefix
    refine Or.inr ⟨ds, ?_⟩
    cases hn : typeWidth - c.typeSignature.toList.length with
    | succ n =>
      rw [hn, List.replicate_succ, List.cons_append, List.cons_append] at ht
      rw [(List.cons.inj ht).1]
    | zero =>
      rw [hn, List.replicate_zero, List.nil_append] at ht
      cases hm : c.modifiers with
      | nil =>
        rw [hm] at ht
        cases ht
      | cons m ms =>
        rw [hm, List.flatMap_cons, List.singleton_append, List.cons_append, List.cons_append] at ht
        rw [(List.cons.inj ht).1]

theorem exists_lineRest_eq (nameWidth typeWidth : Nat) (c : Column) :
    ∃ rest, c.lineRest nameWidth typeWidth = ' ' :: rest := by
  rw [lineRest]
  cases nameWidth - c.name.toList.length with
  | zero => exact ⟨_, rfl⟩
  | succ n => exact ⟨_, rfl⟩

theorem print_eq (h : c.Legible) (nameWidth typeWidth : Nat) :
    c.print nameWidth typeWidth = c.name.toList ++ c.lineRest nameWidth typeWidth := by
  obtain ⟨init, d, hsig⟩ := (List.eq_nil_or_concat' _).resolve_left h.signature_ne_nil
  have hd : isBlank d = false := h.solid_signature d (by simp [hsig])
  have hcut := stripEnd_append_solid hd
    (c.name.toList ++ List.replicate (nameWidth - c.name.toList.length) ' ' ++ ' ' :: init)
    (List.replicate (typeWidth - c.typeSignature.toList.length) ' ' ++
      c.modifiers.flatMap ([' '] ++ ·))
  rw [print, joinWith_cons, padEnd, padEnd, lineRest, lineTail]
  rw [hsig] at hcut ⊢
  simpa using hcut

/-- A column's line is put together from its name, its type and its attributes. -/
theorem joinable_print {P : List Char → Prop} (hP : Joinable P)
    (hstart : ∀ {cs ds : List Char}, cs <+: ds → P ds → P cs) (hname : P c.name.toList)
    (htype : P c.type.toList) (hmodifiers : ∀ m ∈ c.modifiers, P m) (nameWidth typeWidth : Nat) :
    P (c.print nameWidth typeWidth) := by
  have hpad : ∀ {cs : List Char} (width : Nat), P cs → P (padEnd width cs) := by
    intro cs width hcs
    refine hP.append_marks hcs fun d hd => ?_
    rw [List.eq_of_mem_replicate hd]
    decide
  have hsignature : P c.typeSignature.toList := by
    rw [typeSignature]
    split
    · rw [String.toList_append]
      exact hP.append_marks htype (by decide)
    split
    · rw [String.toList_append]
      exact hP.append_marks htype (by decide)
    · exact htype
  have hhead := hP.append_cons (c := ' ') (by decide) (hpad nameWidth hname)
    (hpad typeWidth hsignature)
  refine hstart (stripEnd_isPrefix _) (hP.joinWith (by decide) (by decide) ?_)
  exact List.forall_mem_cons.2 ⟨hhead, hmodifiers⟩

/-- If no line ends within the attributes, none does within the column's line. -/
theorem unbroken_print (h : c.Legible) (hmodifiers : ∀ m ∈ c.modifiers, Unbroken m)
    (nameWidth typeWidth : Nat) : Unbroken (c.print nameWidth typeWidth) :=
  joinable_print joinable_unbroken (fun hcs hds => hds.of_subset hcs.subset) h.solid_name.unbroken
    h.solid_type.unbroken hmodifiers nameWidth typeWidth

theorem print_ne_nil (h : c.Legible) (nameWidth typeWidth : Nat) :
    c.print nameWidth typeWidth ≠ [] := by
  rw [print_eq h]
  exact fun hnil => h.name_ne_nil (List.append_eq_nil_iff.1 hnil).1

theorem words_print (h : c.Legible) (nameWidth typeWidth : Nat) :
    words (c.print nameWidth typeWidth) =
      c.name.toList :: c.typeSignature.toList :: words (c.lineTail typeWidth) := by
  have hspace : ∀ d ∈ List.replicate (nameWidth - c.name.toList.length) ' ' ++ [' '],
      isBlank d = true := by
    intro d hd
    rw [← List.replicate_succ', List.mem_replicate] at hd
    rw [hd.2]
    decide
  have htail : words (c.typeSignature.toList ++ c.lineTail typeWidth) =
      c.typeSignature.toList :: words (c.lineTail typeWidth) := by
    rcases c.lineTail_eq_nil_or typeWidth with htail | ⟨rest, htail⟩
    · rw [htail, List.append_nil, words_of_solid h.solid_signature h.signature_ne_nil, words_nil]
    · have hblank := @words_blanks_append [' '] (by decide) rest
      rw [List.singleton_append] at hblank
      rw [htail, words_append_cons h.solid_signature h.signature_ne_nil (by decide), hblank]
  have hrest : c.lineRest nameWidth typeWidth =
      List.replicate (nameWidth - c.name.toList.length) ' ' ++ [' '] ++
        (c.typeSignature.toList ++ c.lineTail typeWidth) := by
    rw [lineRest, List.append_assoc, List.singleton_append]
  obtain ⟨rest, hhead⟩ := c.exists_lineRest_eq nameWidth typeWidth
  have hwords : words (c.lineRest nameWidth typeWidth) = words rest := by
    rw [hhead]
    exact @words_blanks_append [' '] (by decide) rest
  rw [print_eq h, hhead, words_append_cons h.solid_name h.name_ne_nil (by decide), ← hwords, hrest,
    words_blanks_append hspace, htail]

theorem strip_print (h : c.Legible) (nameWidth typeWidth : Nat) :
    strip (indent ++ c.print nameWidth typeWidth) = c.print nameWidth typeWidth := by
  obtain ⟨d, ds, hd⟩ := List.exists_cons_of_ne_nil h.name_ne_nil
  have hblank : isBlank d = false := h.solid_name d (by simp [hd])
  have hend : stripEnd (c.print nameWidth typeWidth) = c.print nameWidth typeWidth :=
    stripEnd_stripEnd _
  rw [print_eq h, hd, List.cons_append] at hend ⊢
  have hcut := stripEnd_append_solid hblank [] (ds ++ c.lineRest nameWidth typeWidth)
  rw [List.nil_append, List.nil_append] at hcut
  rw [strip_append (by decide) hblank, ← hcut]
  exact hend

theorem startsWith_print (h : c.Legible) {start : String} (hstart : ' ' ∉ start.toList)
    (nameWidth typeWidth : Nat) :
    startsWith start (c.print nameWidth typeWidth) = startsWith start c.name.toList := by
  rw [Bool.eq_iff_iff, startsWith_iff, startsWith_iff, print_eq h]
  constructor
  · intro hp
    rcases List.prefix_or_prefix_of_prefix hp (List.prefix_append _ _) with hp' | hp'
    · exact hp'
    · -- a longer beginning would hold the blank behind the name
      obtain ⟨t, ht⟩ := hp'
      obtain ⟨rest, hhead⟩ := c.exists_lineRest_eq nameWidth typeWidth
      rw [← ht, hhead, List.prefix_append_right_inj] at hp
      cases t with
      | nil => rw [← ht, List.append_nil]
      | cons d ds =>
        rw [(List.cons_prefix_cons.1 hp).1] at ht
        exact absurd (ht ▸ List.mem_append_right _ List.mem_cons_self) hstart
  · exact fun hp => hp.trans (List.prefix_append _ _)

/-- The column that is read before any of its attributes. -/
def head (c : Column) : Column :=
  { bare c.name c.type with nullable := c.nullable && !c.isList, isList := c.isList }

theorem parse?_print (h : c.Legible) (nameWidth typeWidth : Nat) :
    parse? (c.print nameWidth typeWidth) =
      some <$> (Attribute.split (c.print nameWidth typeWidth)).foldlM addAttribute c.head := by
  have htype : c.type.toList.isEmpty = false := by simpa using h.type_ne_nil
  rw [parse?, words_print h]
  simp only [h.splitType_signature, htype, String.ofList_toList, Bool.false_eq_true, if_false]
  rfl

/-- The column's line can be read unless one of the attributes found in it is overlong. -/
theorem exists_parse?_print_iff (h : c.Legible) (nameWidth typeWidth : Nat) :
    (∃ found, parse? (c.print nameWidth typeWidth) = .ok found) ↔
      ∀ a ∈ Attribute.split (c.print nameWidth typeWidth), ¬ Attribute.IsOverlong a := by
  rw [← exists_foldlM_addAttribute_iff (c := c.head), parse?_print h]
  constructor
  · rintro ⟨_, hfound⟩
    obtain ⟨c', hc', -⟩ := map_eq_ok.1 hfound
    exact ⟨c', hc'⟩
  · rintro ⟨c', hc'⟩
    exact ⟨some c', map_eq_ok.2 ⟨c', hc', rfl⟩⟩

theorem Legible.nullable_eq_false (h : c.Legible) (hlist : c.isList = true) :
    c.nullable = false := by
  have hsig := h.splitType_signature
  have hlast : (c.type.toList ++ ['[', ']']).getLast? = some ']' := by simp
  rw [typeSignature, if_pos hlist, String.toList_append] at hsig
  simpa [splitType, hlast] using congrArg (fun p => p.2.1) hsig.symm

/-- A line that is read gives a column of the shape that was written. -/
theorem shape_parse?_print (h : c.Legible) {nameWidth typeWidth : Nat} {found : Option Column}
    (hfound : parse? (c.print nameWidth typeWidth) = .ok found) :
    ∃ c', found = some c' ∧ c'.shape = c.shape := by
  rw [parse?_print h] at hfound
  obtain ⟨c', hc', rfl⟩ := map_eq_ok.1 hfound
  refine ⟨c', rfl, (shape_foldlM_addAttribute hc').trans ?_⟩
  have hnullable : (c.nullable && !c.isList) = c.nullable := by
    cases hlist : c.isList with
    | false => simp
    | true => simp [h.nullable_eq_false hlist]
  simp only [shape, typeSignature, head, bare, hnullable]

/-- The line in front of a column's own, if its rules need one. -/
def commentLines (c : Column) : List (List Char) :=
  match c.rules.bind (·.comment?) with
  | some comment => [indent ++ comment]
  | none => []

end Column

/-! ### Lines of tables -/

namespace Table

variable {t : Table}

theorem addLine_comment {line : List Char} (h : startsWith "//" line = true) (t : Table) :
    t.addLine line = .ok t := by
  rw [addLine, h, Bool.or_true, if_pos rfl]
  rfl

/-- Directives leave the name and the columns of a table alone and can always be read. -/
theorem exists_addLine_directive {line : List Char} (h : startsWith "@@" line = true) (t : Table) :
    ∃ t', t.addLine line = .ok t' ∧ t'.name = t.name ∧ t'.columns = t.columns := by
  have hline : (line.isEmpty || startsWith "//" line) = false := by
    obtain ⟨rest, rfl⟩ := startsWith_iff.1 h
    rfl
  rw [addLine, hline, if_neg Bool.false_ne_true]
  split
  · exact ⟨_, rfl, rfl, rfl⟩
  split
  · exact ⟨_, rfl, rfl, rfl⟩
  split
  · split
    · exact ⟨_, rfl, rfl, rfl⟩
    · exact ⟨_, rfl, rfl, rfl⟩
  · exact ⟨_, rfl, rfl, rfl⟩

theorem addLine_print {c : Column} (h : c.Legible) (nameWidth typeWidth : Nat) (t : Table) :
    t.addLine (c.print nameWidth typeWidth) =
      (Column.parse? (c.print nameWidth typeWidth)).bind fun found =>
        .ok { t with columns := t.columns ++ found.toList } := by
  have hempty : (c.print nameWidth typeWidth).isEmpty = false := by
    simpa using Column.print_ne_nil h nameWidth typeWidth
  have hcomment : startsWith "//" (c.print nameWidth typeWidth) = false := by
    rw [Column.startsWith_print h (by decide), h.not_comment]
  have hdirective : startsWith "@@" (c.print nameWidth typeWidth) = false := by
    rw [Column.startsWith_print h (by decide), h.not_directive]
  have hlonger : ∀ start : String, "@@".toList <+: start.toList →
      startsWith start (c.print nameWidth typeWidth) = false := by
    intro start hstart
    rw [Bool.eq_false_iff, ne_eq, startsWith_iff]
    intro hp
    rw [startsWith_iff.2 (hstart.trans hp)] at hdirective
    cases hdirective
  rw [addLine, hempty, hcomment, hlonger "@@index" (by decide), hlonger "@@unique" (by decide),
    hlonger "@@map" (by decide), hdirective]
  rfl

theorem foldlM_addLine_commentLines (c : Column) (t : Table) :
    (c.commentLines.map strip).foldlM addLine t = .ok t := by
  rw [Column.commentLines]
  split
  · rename_i comment hcomment
    obtain ⟨r, -, hr⟩ := Option.bind_eq_some_iff.1 hcomment
    obtain ⟨rest, rfl⟩ := FieldRules.exists_of_comment?_eq_some hr
    have hstrip := @strip_append indent '/' (by decide) (by decide) ('/' :: '/' :: rest)
    have hcut := stripEnd_append_solid (c := '/') (by decide) [] ('/' :: rest)
    rw [List.nil_append, List.nil_append] at hcut
    rw [List.map_singleton, hstrip, hcut, List.foldlM_cons, addLine_comment (by rfl)]
    rfl
  · rfl

/-- The lines of columns are read one column at a time; comments do not matter. -/
theorem foldlM_addLine_printLines {cols : List Column} (h : ∀ c ∈ cols, c.Legible)
    (nameWidth typeWidth : Nat) (t : Table) :
    ((cols.flatMap (·.printLines nameWidth typeWidth)).map strip).foldlM addLine t =
      (cols.mapM fun c => Column.parse? (c.print nameWidth typeWidth)).bind fun found =>
        .ok { t with columns := t.columns ++ found.reduceOption } := by
  induction cols generalizing t with
  | nil => simp [pure, Except.pure, Except.bind, List.reduceOption]
  | cons c cols ih =>
    have hc := h c List.mem_cons_self
    have hcols := ih fun c' hc' => h c' (List.mem_cons_of_mem _ hc')
    have hline : c.printLines nameWidth typeWidth =
        c.commentLines ++ [indent ++ c.print nameWidth typeWidth] := rfl
    rw [List.flatMap_cons, List.map_append, List.foldlM_append, hline, List.map_append,
      List.foldlM_append, foldlM_addLine_commentLines]
    change ([strip (indent ++ c.print nameWidth typeWidth)].foldlM addLine t).bind _ = _
    rw [Column.strip_print hc, List.foldlM_cons, addLine_print hc, List.mapM_cons]
    cases Column.parse? (c.print nameWidth typeWidth) with
    | error e => rfl
    | ok found =>
      change ((cols.flatMap (·.printLines nameWidth typeWidth)).map strip).foldlM addLine
        { t with columns := t.columns ++ found.toList } = _
      rw [hcols]
      cases cols.mapM fun c => Column.parse? (c.print nameWidth typeWidth) with
      | error e => rfl
      | ok rest =>
        cases found <;> simp [Except.bind, bind, pure, Except.pure, List.reduceOption]

/-- The lines of a body behind those of the columns. -/
def directiveLines (t : Table) : List (List Char) :=
  if t.directives.isEmpty then [] else [] :: t.directives

/-- A table is read as its columns, to which the directives add. -/
theorem table_writtenBlock (hframed : t.Framed) (h : ∀ c ∈ t.columns, c.Legible) :
    t.writtenBlock.table =
      (t.columns.mapM fun c => Column.parse? (c.print t.nameWidth t.typeWidth)).bind fun found =>
        (t.directiveLines.map strip).foldlM addLine
          ⟨t.name, found.reduceOption, [], [], none⟩ := by
  have hlines : lines t.writtenBlock.body = [] :: t.bodyLines := by
    have hbody : t.writtenBlock.body = ([] :: t.bodyLines).flatMap (· ++ ['\n']) := by
      rw [List.flatMap_cons]
      rfl
    rw [hbody]
    exact lines_flatMap (List.forall_mem_cons.2 ⟨unbroken_nil, hframed.unbroken⟩)
  have hbody : t.bodyLines =
      t.columns.flatMap (·.printLines t.nameWidth t.typeWidth) ++ t.directiveLines := rfl
  have hblank : ∀ u : Table, u.addLine (strip []) = .ok u := fun u => rfl
  rw [Block.table, hlines, List.map_cons, List.foldlM_cons, hblank, hbody, List.map_append]
  change ((t.columns.flatMap (·.printLines t.nameWidth t.typeWidth)).map strip ++
    t.directiveLines.map strip).foldlM addLine _ = _
  rw [List.foldlM_append, foldlM_addLine_printLines h]
  change (Except.bind _ _).bind _ = _
  cases t.columns.mapM fun c => Column.parse? (c.print t.nameWidth t.typeWidth) with
  | error e => rfl
  | ok found =>
    change (t.directiveLines.map strip).foldlM addLine
      ⟨String.ofList t.name.toList, _, [], [], none⟩ = _
    rw [String.ofList_toList]
    rfl

theorem exists_of_mem_directives {l : List Char} (h : l ∈ t.directives) :
    ∃ rest, l = indent ++ '@' :: '@' :: rest := by
  rw [directives, List.mem_append, List.mem_append] at h
  rcases h with (h | h) | h
  · obtain ⟨names, -, rfl⟩ := List.mem_map.1 h
    exact ⟨_, rfl⟩
  · obtain ⟨names, -, rfl⟩ := List.mem_map.1 h
    exact ⟨_, rfl⟩
  · split at h
    · split at h
      · cases h
      · rw [List.mem_singleton.1 h]
        exact ⟨_, rfl⟩
    · cases h

theorem startsWith_strip_directive {l : List Char} (h : l ∈ t.directives) :
    startsWith "@@" (strip l) = true := by
  obtain ⟨rest, rfl⟩ := exists_of_mem_directives h
  have hcut := stripEnd_append_solid (c := '@') (by decide) [] rest
  rw [List.nil_append, List.nil_append] at hcut
  rw [strip_append (by decide) (by decide), hcut]
  rfl

/-- Directives can always be read, and leave the name and the columns alone. -/
theorem exists_foldlM_directives {ls : List (List Char)} (h : ∀ l ∈ ls, startsWith "@@" l = true)
    (t : Table) :
    ∃ t', ls.foldlM addLine t = .ok t' ∧ t'.name = t.name ∧ t'.columns = t.columns := by
  induction ls generalizing t with
  | nil => exact ⟨t, rfl, rfl, rfl⟩
  | cons l ls ih =>
    obtain ⟨t₁, h₁, hname₁, hcols₁⟩ := exists_addLine_directive (h l List.mem_cons_self) t
    obtain ⟨t', h', hname, hcols⟩ := ih (fun l' hl' => h l' (List.mem_cons_of_mem _ hl')) t₁
    refine ⟨t', ?_, hname.trans hname₁, hcols.trans hcols₁⟩
    rw [List.foldlM_cons, h₁]
    exact h'

theorem exists_foldlM_directiveLines (t u : Table) :
    ∃ u', (t.directiveLines.map strip).foldlM addLine u = .ok u' ∧ u'.name = u.name ∧
      u'.columns = u.columns := by
  have hdirectives : ∀ l ∈ t.directives.map strip, startsWith "@@" l = true := by
    intro l hl
    obtain ⟨d, hd, rfl⟩ := List.mem_map.1 hl
    exact startsWith_strip_directive hd
  rw [directiveLines]
  split
  · exact ⟨u, rfl, rfl, rfl⟩
  · exact exists_foldlM_directives hdirectives u

theorem joinable_bracketed {P : List Char → Prop} (hP : Joinable P) {names : List String}
    (h : ∀ n ∈ names, P n.toList) : P (bracketed names) := by
  refine hP.cons (by decide) (hP.append_marks (hP.joinWith (by decide) (by decide) ?_) (by decide))
  exact List.forall_mem_map.2 h

/-- A directive is put together from names. -/
theorem joinable_of_mem_directives {P : List Char → Prop} (hP : Joinable P)
    (hsets : ∀ names ∈ t.indexes ++ t.unique, ∀ n ∈ names, P n.toList)
    (hmap : ∀ n ∈ t.mapName, P n.toList) {l : List Char} (hl : l ∈ t.directives) : P l := by
  have hset : ∀ title names, (∀ c ∈ indent ++ title, isMark c = true) →
      names ∈ t.indexes ++ t.unique → P (indent ++ title ++ bracketed names ++ [')']) := by
    intro title names htitle hnames
    exact hP.append_marks (hP.marks_append htitle (joinable_bracketed hP (hsets names hnames)))
      (by decide)
  rw [directives, List.mem_append, List.mem_append] at hl
  rcases hl with (hl | hl) | hl
  · obtain ⟨names, hnames, rfl⟩ := List.mem_map.1 hl
    exact hset _ names (by decide) (List.mem_append_left _ hnames)
  · obtain ⟨names, hnames, rfl⟩ := List.mem_map.1 hl
    exact hset _ names (by decide) (List.mem_append_right _ hnames)
  · split at hl
    · rename_i n hn
      split at hl
      · cases hl
      · rw [List.mem_singleton.1 hl]
        exact hP.append_marks (hP.marks_append (by decide) (hP.quotes (hmap n hn))) (by decide)
    · cases hl

/-- A table is one block if its name is a word and no line ends within what its lines show. -/
theorem framed_of (hname : Wordy t.name.toList) (hne : t.name.toList ≠ [])
    (hcols : ∀ c ∈ t.columns, c.Legible ∧ (∀ m ∈ c.modifiers, Unbroken m) ∧
      ∀ r ∈ c.rules, ∀ s ∈ r.texts, Unbroken s.toList)
    (hsets : ∀ names ∈ t.indexes ++ t.unique, ∀ n ∈ names, Unbroken n.toList)
    (hmap : ∀ n ∈ t.mapName, Unbroken n.toList) : t.Framed where
  wordy := hname
  named := hne
  unbroken l hl := by
    rw [bodyLines, List.mem_append] at hl
    rcases hl with hl | hl
    · obtain ⟨c, hc, hl⟩ := List.mem_flatMap.1 hl
      obtain ⟨hlegible, hmodifiers, hrules⟩ := hcols c hc
      rcases List.mem_append.1 hl with hl | hl
      · split at hl
        · rename_i comment hcomment
          obtain ⟨r, hr, hcall⟩ := Option.bind_eq_some_iff.1 hcomment
          rw [List.mem_singleton.1 hl, unbroken_append]
          exact ⟨by decide, FieldRules.unbroken_of_comment?_eq_some (hrules r hr) hcall⟩
        · cases hl
      · rw [List.mem_singleton.1 hl, unbroken_append]
        exact ⟨by decide, Column.unbroken_print hlegible hmodifiers _ _⟩
    · split at hl
      · cases hl
      · rcases List.mem_cons.1 hl with rfl | hl
        · exact unbroken_nil
        · exact joinable_of_mem_directives joinable_unbroken hsets hmap hl

/-! ### Shapes of tables -/

/-- The shape of a table: its name and the shapes of its columns in order. -/
def shape (t : Table) : String × List Column.Shape := (t.name, t.columns.map (·.shape))

/-- The name of the table and the names and types of its columns are read as they are written. -/
structure Legible (t : Table) : Prop extends t.Framed where
  /-- There are columns. -/
  columns_ne_nil : t.columns ≠ []
  /-- The columns are legible. -/
  columns : ∀ c ∈ t.columns, c.Legible

/-- No line of a column shows an overlong default. -/
def Readable (t : Table) : Prop :=
  ∀ c ∈ t.columns, ∀ a ∈ Attribute.split (c.print t.nameWidth t.typeWidth),
    ¬ Attribute.IsOverlong a

theorem exists_table_writtenBlock_iff (h : t.Legible) :
    (∃ t', t.writtenBlock.table = .ok t') ↔ t.Readable := by
  rw [table_writtenBlock h.toFramed h.columns]
  constructor
  · rintro ⟨t', ht'⟩ c hc
    obtain ⟨found, hfound, -⟩ := bind_eq_ok.1 ht'
    obtain ⟨c', -, hc'⟩ := exists_of_mapM_of_mem hfound hc
    exact (Column.exists_parse?_print_iff (h.columns c hc) _ _).1 ⟨c', hc'⟩
  · intro hread
    obtain ⟨found, hfound⟩ : ∃ found, (t.columns.mapM fun c =>
        Column.parse? (c.print t.nameWidth t.typeWidth)) = .ok found := by
      refine exists_mapM_eq_ok fun c hc => ?_
      exact (Column.exists_parse?_print_iff (h.columns c hc) _ _).2 (hread c hc)
    obtain ⟨t', ht', -, -⟩ :=
      exists_foldlM_directiveLines t ⟨t.name, found.reduceOption, [], [], none⟩
    exact ⟨t', bind_eq_ok.2 ⟨found, hfound, ht'⟩⟩

/-- A table that is read has the shape of the one that was written. -/
theorem shape_table_writtenBlock (h : t.Legible) {t' : Table}
    (ht' : t.writtenBlock.table = .ok t') :
    t'.shape = t.shape := by
  rw [table_writtenBlock h.toFramed h.columns] at ht'
  obtain ⟨found, hfound, ht'⟩ := bind_eq_ok.1 ht'
  obtain ⟨u, hu, hname, hcols⟩ :=
    exists_foldlM_directiveLines t ⟨t.name, found.reduceOption, [], [], none⟩
  rw [hu] at ht'
  cases ht'
  have hshapes : found.reduceOption.map (·.shape) = t.columns.map (·.shape) := by
    have hpairs : found.map (Option.map Column.shape) = t.columns.map (some ∘ Column.shape) := by
      refine map_eq_map_of_forall₂ (mapM_eq_ok.1 hfound) fun c hc col hcol => ?_
      obtain ⟨c', rfl, hshape⟩ := Column.shape_parse?_print (h.columns c hc) hcol
      exact congrArg some hshape
    rw [← List.reduceOption_map, hpairs, List.reduceOption, List.filterMap_map]
    simp
  rw [shape, shape, hname, hcols, hshapes]

end Table

/-! ### Shapes of schemas -/

/-- The text of a schema can be read unless one of its tables shows an overlong default. -/
theorem exists_parseTables_print_iff {s : Schema} (hhead : ∀ text ∈ s.headTexts, '\n' ∉ text.toList)
    (h : ∀ t ∈ s.tables, t.Legible) :
    (∃ ts, parseTables s.print = .ok ts) ↔ ∀ t ∈ s.tables, t.Readable := by
  rw [parseTables, blocks_print hhead fun t ht => (h t ht).toFramed]
  constructor
  · rintro ⟨ts, hts⟩ t ht
    obtain ⟨found, hfound, -⟩ := bind_eq_ok.1 hts
    obtain ⟨t', -, ht'⟩ := exists_of_mapM_of_mem hfound (List.mem_map_of_mem ht)
    exact (Table.exists_table_writtenBlock_iff (h t ht)).1 ⟨t', ht'⟩
  · intro hread
    obtain ⟨found, hfound⟩ : ∃ found, (s.tables.map (·.writtenBlock)).mapM Block.table =
        .ok found := by
      refine exists_mapM_eq_ok fun b hb => ?_
      obtain ⟨t, ht, rfl⟩ := List.mem_map.1 hb
      exact (Table.exists_table_writtenBlock_iff (h t ht)).2 (hread t ht)
    exact ⟨_, bind_eq_ok.2 ⟨found, hfound, rfl⟩⟩

/-- Tables are read with the shapes that were written, in order. -/
theorem shape_parseTables_print {s : Schema} (hhead : ∀ text ∈ s.headTexts, '\n' ∉ text.toList)
    (h : ∀ t ∈ s.tables, t.Legible) {ts : List Table} (hts : parseTables s.print = .ok ts) :
    ts.map (·.shape) = s.tables.map (·.shape) := by
  rw [parseTables, blocks_print hhead fun t ht => (h t ht).toFramed] at hts
  obtain ⟨found, hfound, hts⟩ := bind_eq_ok.1 hts
  cases hts
  have hpairs : List.Forall₂ (fun t t' => t.writtenBlock.table = .ok t') s.tables found := by
    rw [← List.forall₂_map_left_iff (R := fun b t' => Block.table b = .ok t')]
    exact mapM_eq_ok.1 hfound
  have hfilter : (found.filter fun t => !t.columns.isEmpty) = found := by
    rw [List.filter_eq_self]
    intro t' ht'
    obtain ⟨t, ht, hread⟩ := exists_of_mem_right hpairs ht'
    have hshape := congrArg Prod.snd (Table.shape_table_writtenBlock (h t ht) hread)
    have hne : t'.columns ≠ [] := by
      intro hnil
      rw [Table.shape, Table.shape, hnil] at hshape
      exact (h t ht).columns_ne_nil (List.map_eq_nil_iff.1 hshape.symm)
    simpa using hne
  rw [hfilter]
  exact map_eq_map_of_forall₂ hpairs fun t ht t' => Table.shape_table_writtenBlock (h t ht)

end ContentSchema
