import ContentSchema.Proofs.Schema.Entries

/-!
# Relations that are written and read

The attribute of a relation is a row of entries behind its name.  The reader searches it for each of
the titles of columns and actions, and takes from it what the entries say (`Relation.Lists.relation`).
A written relation of plain names is such a text, and is read as it was written (`relation_print`).
-/

namespace ContentSchema

open Text Attribute

namespace Relation

/-- The name of a relation as it is written. -/
def nameText (r : Relation) : List (List Char) :=
  match r.name with
  | some n => if n = "" then [] else [quoted n.toList]
  | none => []

/-- The entry of a list of columns. -/
def columnEntry (title : String) (names : List String) : List (String × List Char) :=
  if names.isEmpty then [] else [(title, bracketed names)]

/-- The entry of an action. -/
def actionEntry (title : String) (a : Option ReferentialAction) : List (String × List Char) :=
  match a with
  | some a => [(title, a.name.toList)]
  | none => []

/-- The entries of a relation. -/
def entries (r : Relation) : List (String × List Char) :=
  columnEntry "fields" r.fields ++ columnEntry "references" r.references ++
    actionEntry "onDelete" r.onDelete ++ actionEntry "onUpdate" r.onUpdate

variable {r : Relation}

theorem map_entryText_columnEntry (title : String) (names : List String) :
    (columnEntry title names).map entryText =
      if names.isEmpty then [] else [title.toList ++ ':' :: ' ' :: bracketed names] := by
  rw [columnEntry]
  split <;> rfl

theorem map_entryText_actionEntry (title : String) (a : Option ReferentialAction) :
    (actionEntry title a).map entryText = match a with
      | some a => [title.toList ++ ':' :: ' ' :: a.name.toList]
      | none => [] := by
  cases a <;> rfl

theorem print_eq_entries (r : Relation) :
    r.print = "@relation(".toList ++
      joinWith [',', ' '] (r.nameText ++ r.entries.map entryText) ++ [')'] := by
  unfold print
  simp only [entries, List.map_append, map_entryText_columnEntry, map_entryText_actionEntry,
    ← List.append_assoc]
  rfl

/-- The text of a relation behind the start of its attribute. -/
theorem print_eq (r : Relation) :
    r.print = "@relation(".toList ++ match r.nameText with
      | q :: _ => q ++ moreEntries r.entries
      | [] => entriesText r.entries := by
  rw [print_eq_entries]
  cases hname : r.nameText with
  | cons q qs =>
    have hqs : qs = [] := by
      rw [nameText] at hname
      split at hname
      · split at hname
        · cases hname
        · exact (List.cons.inj hname).2.symm
      · cases hname
    rw [hqs, List.singleton_append, joinWith_cons, List.append_assoc, List.append_assoc,
      List.flatMap_map]
    rfl
  | nil => rw [List.nil_append, List.append_assoc, joinWith_entries]

theorem startsWith_print (r : Relation) : startsWith "@relation" r.print = true := by
  rw [print_eq]
  rfl

/-- A relation is no default. -/
theorem not_isOverlong_print (r : Relation) : ¬ Attribute.IsOverlong r.print :=
  Attribute.not_isOverlong_of_startsWith r.startsWith_print (by decide)

/-- The names in a relation are plain: that of the relation consists of words and spaces, those of
columns are words. -/
structure Plain (r : Relation) : Prop where
  /-- A name is not empty and consists of words and spaces. -/
  name : ∀ n ∈ r.name, n ≠ "" ∧ ∀ c ∈ n.toList, isWordChar c = true ∨ c = ' '
  /-- Columns of this table are words. -/
  fields : AllWords r.fields
  /-- Columns of the other table are words. -/
  references : AllWords r.references

/-- Characters of words and spaces are shown as they are. -/
theorem escapeChar_of_plain {c : Char} (h : isWordChar c = true ∨ c = ' ') :
    escapeChar c = [c] := by
  have hspecial : ∀ d ∈ ['"', '\\', '\n', '\r', '\t', '\x08', '\x0c'],
      (d.toNat < 128 ∧ d.isAlphanum = false ∧ d ≠ '_') ∧ d ≠ ' ' := by
    decide
  have hne : ∀ d ∈ ['"', '\\', '\n', '\r', '\t', '\x08', '\x0c'], c ≠ d := by
    rintro d hd rfl
    rcases h with hw | hs
    · rw [isWordChar_eq_false (hspecial c hd).1] at hw
      cases hw
    · exact (hspecial c hd).2 hs
  have hcontrol : ¬ c.toNat < 32 := by
    intro hlt
    have hall : ∀ n < 32, ((Char.ofNat n).isAlphanum || Char.ofNat n == '_') = false ∧
        Char.ofNat n ≠ ' ' := by
      decide
    have hc := hall _ hlt
    rw [Char.ofNat_toNat, ← isWordChar_of_lt (by omega)] at hc
    rcases h with hw | hs
    · rw [hc.1] at hw
      cases hw
    · exact hc.2 hs
  rw [escapeChar, if_neg (hne _ (by decide)), if_neg (hne _ (by decide)),
    if_neg (hne _ (by decide)), if_neg (hne _ (by decide)), if_neg (hne _ (by decide)),
    if_neg (hne _ (by decide)), if_neg (hne _ (by decide)), if_neg hcontrol]

theorem quoted_of_plain {cs : List Char} (h : ∀ c ∈ cs, isWordChar c = true ∨ c = ' ') :
    quoted cs = '"' :: cs ++ ['"'] := by
  have hflat : cs.flatMap escapeChar = cs := by
    induction cs with
    | nil => rfl
    | cons c cs ih =>
      rw [List.flatMap_cons, escapeChar_of_plain (h c List.mem_cons_self),
        ih fun d hd => h d (List.mem_cons_of_mem _ hd)]
      rfl
  rw [quoted, hflat]

theorem mem_columnEntry_iff {title : String} {names : List String} {e : String × List Char} :
    e ∈ columnEntry title names ↔ e = (title, bracketed names) ∧ names ≠ [] := by
  cases names <;> simp [columnEntry]

theorem mem_actionEntry_iff {title : String} {a : Option ReferentialAction}
    {e : String × List Char} :
    e ∈ actionEntry title a ↔ ∃ b, a = some b ∧ e = (title, b.name.toList) := by
  cases a <;> simp [actionEntry]

theorem mem_entries_iff {e : String × List Char} : e ∈ r.entries ↔
    (e = ("fields", bracketed r.fields) ∧ r.fields ≠ []) ∨
      (e = ("references", bracketed r.references) ∧ r.references ≠ []) ∨
      (∃ a, r.onDelete = some a ∧ e = ("onDelete", a.name.toList)) ∨
      ∃ a, r.onUpdate = some a ∧ e = ("onUpdate", a.name.toList) := by
  simp only [entries, List.mem_append, or_assoc, mem_columnEntry_iff, mem_actionEntry_iff]

/-- The titles of entries. -/
def titles : List String := ["fields", "references", "onDelete", "onUpdate"]

theorem title_mem_titles {e : String × List Char} (h : e ∈ r.entries) : e.1 ∈ titles := by
  rcases mem_entries_iff.1 h with ⟨rfl, -⟩ | ⟨rfl, -⟩ | ⟨a, -, rfl⟩ | ⟨a, -, rfl⟩ <;> simp [titles]

theorem distinct_of_mem_titles {title : String} (ht : title ∈ titles) {e : String × List Char}
    (he : e.1 ∈ "name" :: titles) : Distinct title e := by
  have hall : ∀ t ∈ titles, ∀ u ∈ "name" :: titles,
      u = t ∨ ¬ t.toList <:+ u.toList ∧ ¬ u.toList <:+ t.toList := by
    decide
  exact hall title ht e.1 he

theorem colon_not_mem_name (a : ReferentialAction) : ':' ∉ a.name.toList := by cases a <;> decide

theorem wordy_name (a : ReferentialAction) : Wordy a.name.toList := by cases a <;> decide

theorem Plain.colon_not_mem (h : r.Plain) {e : String × List Char} (he : e ∈ r.entries) :
    ':' ∉ e.1.toList ∧ ':' ∉ e.2 := by
  have htitles : ∀ t ∈ titles, ':' ∉ t.toList := by decide
  refine ⟨htitles _ (title_mem_titles he), ?_⟩
  rcases mem_entries_iff.1 he with ⟨rfl, -⟩ | ⟨rfl, -⟩ | ⟨a, -, rfl⟩ | ⟨a, -, rfl⟩
  · exact h.fields.colon_not_mem_bracketed
  · exact h.references.colon_not_mem_bracketed
  · exact colon_not_mem_name a
  · exact colon_not_mem_name a

theorem Plain.nameText_cases (h : r.Plain) :
    (r.name = none ∧ r.nameText = []) ∨
      ∃ n, r.name = some n ∧ n ≠ "" ∧ (∀ c ∈ n.toList, isWordChar c = true ∨ c = ' ') ∧
        r.nameText = ['"' :: n.toList ++ ['"']] := by
  cases hname : r.name with
  | none => exact Or.inl ⟨rfl, by rw [nameText, hname]⟩
  | some n =>
    obtain ⟨hne, hplain⟩ := h.name n hname
    refine Or.inr ⟨n, rfl, hne, hplain, ?_⟩
    rw [nameText, hname]
    simp only [hne, if_false, quoted_of_plain hplain]

theorem not_mem_of_plain {cs : List Char} (h : ∀ c ∈ cs, isWordChar c = true ∨ c = ' ') {c : Char}
    (hword : isWordChar c = false) (hspace : c ≠ ' ') : c ∉ cs := by
  intro hmem
  rcases h c hmem with hc | hc
  · rw [hc] at hword
    cases hword
  · exact hspace hc

/-- The text lists the entries: what is looked for behind one of the titles is read at the first
entry with the title at which it can be. -/
structure Lists (cs : List Char) (es : List (String × List Char)) : Prop where
  /-- Where the search for a title ends. -/
  findFirst_eq : ∀ {α : Type} {read? : List Char → Option α} {title : String}
    (value : String × List Char → Option α), title ∈ titles →
    (∀ cs a, read? cs = some a → title.toList ++ [':'] <+: cs) →
    (∀ e ∈ es, e.1 = title → ∀ rest, rest.head? = some ',' ∨ rest.head? = some ')' →
      read? (entryText e ++ rest) = value e) →
    findFirst read? cs = es.findSome? (entryValue? title value)

/-- Entries are listed behind any text without a colon, if there is none in their titles and values
and no other title than the name of the relation. -/
theorem lists_append_entriesText {k : List Char} {es : List (String × List Char)} (hk : ':' ∉ k)
    (hcolon : ∀ e ∈ es, ':' ∉ e.1.toList ∧ ':' ∉ e.2) (htitles : ∀ e ∈ es, e.1 ∈ "name" :: titles) :
    Lists (k ++ entriesText es) es := by
  refine ⟨fun {α read? title} value ht hread hvalue => ?_⟩
  have htitle : ':' ∉ title.toList := by
    have hall : ∀ t ∈ titles, ':' ∉ t.toList := by decide
    exact hall title ht
  exact findFirst_entriesText hread htitle hk hcolon
    (fun e he => distinct_of_mem_titles ht (htitles e he)) hvalue

/-- A plain relation lists its entries. -/
theorem Plain.lists_print (h : r.Plain) : Lists r.print r.entries := by
  have htitles : ∀ e ∈ r.entries, e.1 ∈ "name" :: titles := fun e he =>
    List.mem_cons_of_mem _ (title_mem_titles he)
  have hcolon : ∀ e ∈ r.entries, ':' ∉ e.1.toList ∧ ':' ∉ e.2 := fun e he => h.colon_not_mem he
  rw [print_eq]
  rcases h.nameText_cases with ⟨-, hname⟩ | ⟨n, -, -, hplain, hname⟩
  · rw [hname]
    exact lists_append_entriesText (by decide) hcolon htitles
  · obtain ⟨sep, hsep, hmore⟩ := exists_moreEntries_eq r.entries
    have hn := not_mem_of_plain hplain (c := ':') (isWordChar_eq_false (by decide)) (by decide)
    rw [hname]
    dsimp only
    rw [hmore, ← List.append_assoc, ← List.append_assoc]
    exact lists_append_entriesText (by simp [hn, hsep]) hcolon htitles

theorem of_mem_bracketed {names : List String} (h : AllWords names) {c : Char}
    (hc : c ∈ bracketed names) : isWordChar c = true ∨ c ∈ [' ', ',', '[', ']'] := by
  rw [bracketed, List.cons_append, List.mem_cons, List.mem_append, List.mem_singleton] at hc
  rcases hc with rfl | hc | rfl
  · exact Or.inr (by decide)
  · rcases mem_commaText hc with rfl | rfl | ⟨f, hf, hcf⟩
    · exact Or.inr (by decide)
    · exact Or.inr (by decide)
    · exact Or.inl ((h f hf).2 c hcf)
  · exact Or.inr (by decide)

/-- What a plain relation shows between its parentheses. -/
theorem Plain.of_mem_parts (h : r.Plain) {c : Char}
    (hc : c ∈ joinWith [',', ' '] (r.nameText ++ r.entries.map entryText)) :
    isWordChar c = true ∨ c ∈ [' ', ',', ':', '[', ']', '"'] := by
  have hcolumns : ∀ names, AllWords names → c ∈ bracketed names →
      isWordChar c = true ∨ c ∈ [' ', ',', ':', '[', ']', '"'] := by
    intro names hnames hmem
    have hall : ∀ d ∈ [' ', ',', '[', ']'], d ∈ [' ', ',', ':', '[', ']', '"'] := by decide
    exact (of_mem_bracketed hnames hmem).imp_right (hall c)
  rcases mem_joinWith hc with hc | ⟨t, ht, hct⟩
  · simp only [List.mem_cons, List.not_mem_nil, or_false] at hc
    rcases hc with rfl | rfl <;> exact Or.inr (by decide)
  rcases List.mem_append.1 ht with ht | ht
  · rcases h.nameText_cases with ⟨-, hname⟩ | ⟨n, -, -, hplain, hname⟩
    · rw [hname] at ht
      cases ht
    · rw [hname, List.mem_singleton] at ht
      rw [ht, List.cons_append, List.mem_cons, List.mem_append, List.mem_singleton] at hct
      rcases hct with rfl | hct | rfl
      · exact Or.inr (by decide)
      · rcases hplain c hct with hw | rfl
        · exact Or.inl hw
        · exact Or.inr (by decide)
      · exact Or.inr (by decide)
  · obtain ⟨e, he, rfl⟩ := List.mem_map.1 ht
    have htitles : ∀ u ∈ titles, Wordy u.toList := by decide
    rw [entryText, List.mem_append, List.mem_cons, List.mem_cons] at hct
    rcases hct with hct | rfl | rfl | hct
    · exact Or.inl (htitles _ (title_mem_titles he) c hct)
    · exact Or.inr (by decide)
    · exact Or.inr (by decide)
    · rcases mem_entries_iff.1 he with ⟨rfl, -⟩ | ⟨rfl, -⟩ | ⟨a, -, rfl⟩ | ⟨a, -, rfl⟩
      · exact hcolumns _ h.fields hct
      · exact hcolumns _ h.references hct
      · exact Or.inl (wordy_name a c hct)
      · exact Or.inl (wordy_name a c hct)

/-- A plain relation is written as one token. -/
theorem Plain.isToken_print (h : r.Plain) : Attribute.IsToken r.print := by
  refine ⟨"relation".toList, _, print_eq_entries r, by decide, Or.inr ⟨_, rfl, ?_⟩⟩
  refine Attribute.balanced_of_plain fun c hc => ?_
  have hparen : isWordChar '(' = false ∧ isWordChar ')' = false :=
    ⟨isWordChar_eq_false (by decide), isWordChar_eq_false (by decide)⟩
  rcases h.of_mem_parts hc with hw | hmem
  · constructor
    · rintro rfl
      rw [hparen.1] at hw
      cases hw
    · rintro rfl
      rw [hparen.2] at hw
      cases hw
  · have hall : ∀ d ∈ [' ', ',', ':', '[', ']', '"'], d ≠ '(' ∧ d ≠ ')' := by decide
    exact hall c hmem

/-- The texts that a relation shows. -/
def texts (r : Relation) : List String := r.name.toList ++ r.fields ++ r.references

/-- The text of a relation is put together from its name in quotes and its columns. -/
theorem joinable_print {P : List Char → Prop} (hP : Joinable P)
    (hname : ∀ n ∈ r.name, P (quoted n.toList))
    (hcolumns : ∀ n ∈ r.fields ++ r.references, P n.toList) : P r.print := by
  have hentry : ∀ e ∈ r.entries, P (entryText e) := by
    intro e he
    have htitles : ∀ u ∈ titles, ∀ d ∈ u.toList, isMark d = true := by decide
    have haction : ∀ a : ReferentialAction, ∀ d ∈ a.name.toList, isMark d = true := by
      intro a
      cases a <;> decide
    have hbody : P e.2 := by
      rcases mem_entries_iff.1 he with ⟨rfl, -⟩ | ⟨rfl, -⟩ | ⟨a, -, rfl⟩ | ⟨a, -, rfl⟩
      · exact Table.joinable_bracketed hP fun n hn => hcolumns n (List.mem_append_left _ hn)
      · exact Table.joinable_bracketed hP fun n hn => hcolumns n (List.mem_append_right _ hn)
      · exact hP.marks (haction a)
      · exact hP.marks (haction a)
    exact hP.marks_append (htitles _ (title_mem_titles he))
      (hP.cons (by decide) (hP.cons (by decide) hbody))
  have hparts : ∀ p ∈ r.nameText ++ r.entries.map entryText, P p := by
    intro p hp
    rcases List.mem_append.1 hp with hp | hp
    · rw [nameText] at hp
      split at hp
      · rename_i n hn
        split at hp
        · cases hp
        · rw [List.mem_singleton.1 hp]
          exact hname n hn
      · cases hp
    · obtain ⟨e, he, rfl⟩ := List.mem_map.1 hp
      exact hentry e he
  rw [print_eq_entries]
  exact hP.append_marks
    (hP.marks_append (by decide) (hP.joinWith (by decide) (by decide) hparts)) (by decide)

theorem Plain.unbroken_print (h : r.Plain) : Unbroken r.print := by
  refine joinable_print joinable_unbroken (fun n hn => unbroken_quoted fun c hc => ?_) fun n hn => ?_
  · rcases (h.name n hn).2 c hc with hw | rfl
    · exact isLineBreak_eq_false (isBlank_of_isWordChar hw)
    · decide
  · rcases List.mem_append.1 hn with hn | hn
    · exact (h.fields n hn).2.solid.unbroken
    · exact (h.references n hn).2.solid.unbroken

/-! ### Reading a relation -/

theorem prefix_of_dropStart? {title : String} {cs rest : List Char}
    (h : dropStart? (title ++ ":").toList cs = some rest) : title.toList ++ [':'] <+: cs := by
  rw [Attribute.dropStart?_eq_some, String.toList_append] at h
  rw [h]
  exact List.prefix_append _ _

theorem prefix_of_columnsAt? {title : String} {cs inner : List Char}
    (h : Attribute.columnsAt? title cs = some inner) : title.toList ++ [':'] <+: cs := by
  obtain ⟨rest, hrest, -⟩ := Option.bind_eq_some_iff.1 h
  exact prefix_of_dropStart? hrest

theorem prefix_of_wordAt? {title : String} {cs word : List Char}
    (h : Attribute.wordAt? title cs = some word) : title.toList ++ [':'] <+: cs := by
  obtain ⟨rest, hrest, -⟩ := Option.bind_eq_some_iff.1 h
  exact prefix_of_dropStart? hrest

theorem upTo?_append {stop : Char} {part rest : List Char} (hpart : stop ∉ part) (hne : part ≠ []) :
    Attribute.upTo? stop (part ++ stop :: rest) = some (part, rest) := by
  have hall : ∀ c ∈ part, decide (c ≠ stop) = true := by
    intro c hc
    rw [decide_eq_true_eq]
    rintro rfl
    exact hpart hc
  have hspan : (part ++ stop :: rest).span (· ≠ stop) = (part, stop :: rest) := by
    rw [List.span_eq_takeWhile_dropWhile, List.takeWhile_append_of_pos hall,
      List.dropWhile_append_of_pos hall, List.takeWhile_cons, List.dropWhile_cons]
    simp
  rw [Attribute.upTo?, hspan]
  cases part with
  | nil => exact absurd rfl hne
  | cons c cs => rfl

/-- The text of columns, if there are any. -/
def columnsText? (names : List String) : Option (List Char) :=
  if names.isEmpty then none else some (commaText names)

theorem columnsAt?_entryText {title : String} {names : List String} (h : AllWords names)
    (rest : List Char) : Attribute.columnsAt? title (entryText (title, bracketed names) ++ rest) =
      columnsText? names := by
  have hbracket : ']' ∉ commaText names :=
    h.not_mem_commaText (by decide) (by decide) (isWordChar_eq_false (by decide))
  have hstart : dropStart? (title ++ ":").toList (entryText (title, bracketed names) ++ rest) =
      some (' ' :: '[' :: (commaText names ++ ']' :: rest)) := by
    rw [Attribute.dropStart?_eq_some, entryText, bracketed, commaText]
    simp [String.toList_append]
  have hblank : (' ' :: '[' :: (commaText names ++ ']' :: rest)).dropWhile isBlank =
      '[' :: (commaText names ++ ']' :: rest) := by
    simp [isBlank]
  have hopen : dropStart? ['['] ('[' :: (commaText names ++ ']' :: rest)) =
      some (commaText names ++ ']' :: rest) := Attribute.dropStart?_eq_some.2 rfl
  rw [Attribute.columnsAt?, hstart]
  simp only [Option.bind_eq_bind, Option.bind_some, hblank, hopen]
  cases names with
  | nil => rfl
  | cons name names =>
    rw [upTo?_append hbracket (h.commaText_ne_nil (List.cons_ne_nil _ _))]
    rfl

theorem wordAt?_entryText {title : String} (a : ReferentialAction) {rest : List Char}
    (hrest : rest.head? = some ',' ∨ rest.head? = some ')') :
    Attribute.wordAt? title (entryText (title, a.name.toList) ++ rest) = some a.name.toList := by
  have hstart : dropStart? (title ++ ":").toList (entryText (title, a.name.toList) ++ rest) =
      some (' ' :: (a.name.toList ++ rest)) := by
    rw [Attribute.dropStart?_eq_some, entryText]
    simp [String.toList_append]
  have hblank : (' ' :: (a.name.toList ++ rest)).dropWhile isBlank = a.name.toList ++ rest := by
    cases a <;> simp [ReferentialAction.name, isBlank]
  have hend : rest.takeWhile isWordChar = [] := by
    cases rest with
    | nil => rfl
    | cons c cs =>
      have hc : isWordChar c = false := by
        rcases hrest with h | h
        · cases h
          exact isWordChar_eq_false (by decide)
        · cases h
          exact isWordChar_eq_false (by decide)
      rw [List.takeWhile_cons, hc]
      rfl
  have hempty : a.name.toList.isEmpty = false := by cases a <;> rfl
  rw [Attribute.wordAt?, hstart]
  simp only [Option.bind_eq_bind, Option.bind_some, hblank,
    List.takeWhile_append_of_pos (wordy_name a), hend, List.append_nil, hempty, Bool.false_eq_true,
    if_false]

theorem ofName?_name (a : ReferentialAction) :
    ReferentialAction.ofName? (String.ofList a.name.toList) = some a := by
  cases a <;> decide

/-- What the entries with the title say of columns: these, and there is an entry unless there are no
columns. -/
structure TellsColumns (es : List (String × List Char)) (title : String) (names : List String) :
    Prop where
  /-- Entries with the title have these columns. -/
  eq : ∀ v, (title, v) ∈ es → v = bracketed names
  /-- Columns are given in an entry. -/
  exists_mem : names ≠ [] → ∃ v, (title, v) ∈ es

/-- What the entries with the title say of an action. -/
def TellsAction (es : List (String × List Char)) (title : String)
    (action : Option ReferentialAction) : Prop :=
  ∀ v, (title, v) ∈ es ↔ ∃ a, action = some a ∧ v = a.name.toList

/-- The entries say what the relation holds apart from its name. -/
structure Tells (es : List (String × List Char)) (r : Relation) : Prop where
  /-- Columns of this table. -/
  fields : TellsColumns es "fields" r.fields
  /-- Columns of the other table. -/
  references : TellsColumns es "references" r.references
  /-- What happens to the row when the other row is deleted. -/
  onDelete : TellsAction es "onDelete" r.onDelete
  /-- What happens to the row when the key of the other row changes. -/
  onUpdate : TellsAction es "onUpdate" r.onUpdate

section Lists

variable {cs : List Char} {es : List (String × List Char)} {title : String}

/-- The columns behind a title are read as they are listed. -/
theorem Lists.columns (h : Lists cs es) (ht : title ∈ titles) {names : List String}
    (hnames : AllWords names) (htells : TellsColumns es title names) :
    (match findFirst (Attribute.columnsAt? title) cs with
      | some inner => Attribute.names inner
      | none => []) = names := by
  rw [h.findFirst_eq (fun _ => columnsText? names) ht fun _ _ => prefix_of_columnsAt?]
  · cases hfind : es.findSome? (entryValue? title fun _ => columnsText? names) with
    | some inner =>
      obtain ⟨e, -, hvalue⟩ := List.exists_of_findSome?_eq_some hfind
      rw [entryValue?, Option.ite_none_right_eq_some, columnsText?,
        Option.ite_none_left_eq_some] at hvalue
      obtain ⟨-, -, hinner⟩ := hvalue
      cases hinner
      exact names_commaText hnames
    | none =>
      -- without an entry there are no columns
      by_contra hne
      obtain ⟨v, hv⟩ := htells.exists_mem fun hnil => hne hnil.symm
      have hnone := List.findSome?_eq_none_iff.1 hfind _ hv
      have hnames' : names.isEmpty = false := by simpa using fun hnil => hne hnil.symm
      simp [entryValue?, columnsText?, hnames'] at hnone
  · rintro ⟨_, v⟩ he rfl rest -
    rw [htells.eq v he]
    exact columnsAt?_entryText hnames rest

/-- The action behind a title is read as it is listed. -/
theorem Lists.action (h : Lists cs es) (ht : title ∈ titles) {action : Option ReferentialAction}
    (htells : TellsAction es title action) :
    (findFirst (Attribute.wordAt? title) cs).bind
      (fun w => ReferentialAction.ofName? (String.ofList w)) = action := by
  rw [h.findFirst_eq (fun e => some e.2) ht fun _ _ => prefix_of_wordAt?]
  · cases hfind : es.findSome? (entryValue? title fun e => some e.2) with
    | some word =>
      obtain ⟨⟨t, v⟩, he, hvalue⟩ := List.exists_of_findSome?_eq_some hfind
      rw [entryValue?, Option.ite_none_right_eq_some, beq_iff_eq] at hvalue
      obtain ⟨rfl, hword⟩ := hvalue
      obtain ⟨a, rfl, rfl⟩ := (htells v).1 he
      cases hword
      exact ofName?_name a
    | none =>
      cases action with
      | none => rfl
      | some a =>
        have hnone := List.findSome?_eq_none_iff.1 hfind _ ((htells _).2 ⟨a, rfl, rfl⟩)
        simp [entryValue?] at hnone
  · rintro ⟨_, v⟩ he rfl rest hrest
    obtain ⟨a, -, rfl⟩ := (htells v).1 he
    exact wordAt?_entryText a hrest

/-- An attribute that lists what a relation holds is read as this relation, but for the name. -/
theorem Lists.relation (h : Lists cs es) (htells : Tells es r) (hfields : AllWords r.fields)
    (hreferences : AllWords r.references) : { Attribute.relation cs with name := r.name } = r := by
  have hfields' := h.columns (by decide) hfields htells.fields
  have hreferences' := h.columns (by decide) hreferences htells.references
  have honDelete := h.action (by decide) htells.onDelete
  have honUpdate := h.action (by decide) htells.onUpdate
  calc { Attribute.relation cs with name := r.name }
      = (⟨r.name, r.fields, r.references, r.onDelete, r.onUpdate⟩ : Relation) := by
        unfold Attribute.relation
        rw [Relation.mk.injEq]
        exact ⟨rfl, hfields', hreferences', honDelete, honUpdate⟩
    _ = r := rfl

end Lists

/-- A name is looked for at the start of the attribute. -/
theorem relationName?_start {c : Char} (hblank : isBlank c = false) (hn : 'n' ≠ c)
    (rest : List Char) : Attribute.relationName? ("@relation(".toList ++ c :: rest) =
      (Attribute.quotedAt? (c :: rest)).map Prod.fst := by
  have hstart : dropStart? "@relation(".toList ("@relation(".toList ++ c :: rest) =
      some (c :: rest) := Attribute.dropStart?_eq_some.2 rfl
  have htitle : dropStart? "name:".toList (c :: rest) = none := by simp [dropStart?, hn]
  have hdrop : (c :: rest).dropWhile isBlank = c :: rest := by simp [hblank]
  rw [Attribute.relationName?, hstart]
  simp only [Option.bind_eq_bind, Option.bind_some, hdrop, htitle]
  cases Attribute.quotedAt? (c :: rest) <;> rfl

theorem quotedAt?_append {part rest : List Char} (hpart : '"' ∉ part) (hne : part ≠ []) :
    Attribute.quotedAt? ('"' :: (part ++ '"' :: rest)) = some (part, rest) := by
  have hopen : dropStart? ['"'] ('"' :: (part ++ '"' :: rest)) = some (part ++ '"' :: rest) :=
    Attribute.dropStart?_eq_some.2 rfl
  rw [Attribute.quotedAt?, hopen]
  exact upTo?_append hpart hne

theorem quotedAt?_eq_none {c : Char} (hc : '"' ≠ c) (rest : List Char) :
    Attribute.quotedAt? (c :: rest) = none := by
  have hopen : dropStart? ['"'] (c :: rest) = none := by simp [dropStart?, hc]
  rw [Attribute.quotedAt?, hopen]
  rfl

/-- Entries begin with the title of the first one, or end the attribute. -/
theorem exists_head_entriesText {es : List (String × List Char)}
    (h : ∀ e ∈ es.head?, e.1 ∈ titles) :
    ∃ c rest, entriesText es = c :: rest ∧ c ∈ ['f', 'r', 'o', ')'] := by
  cases es with
  | nil => exact ⟨')', [], rfl, by decide⟩
  | cons e es =>
    have hfirst : ∀ t ∈ titles, t.toList ≠ [] ∧ t.toList.head? ∈ ['f', 'r', 'o'].map some := by
      decide
    obtain ⟨hne, hhead⟩ := hfirst e.1 (h e rfl)
    obtain ⟨c, cs, hcs⟩ := List.exists_cons_of_ne_nil hne
    refine ⟨c, cs ++ ':' :: ' ' :: e.2 ++ moreEntries es, ?_, ?_⟩
    · rw [entriesText, entryText, hcs]
      rfl
    · rw [hcs, List.head?_cons] at hhead
      obtain ⟨d, hd, heq⟩ := List.mem_map.1 hhead
      cases heq
      exact List.mem_append_left [')'] hd

/-- No name is read where the first entry has another title. -/
theorem relationName?_entriesText_eq_none {es : List (String × List Char)}
    (h : ∀ e ∈ es.head?, e.1 ∈ titles) :
    Attribute.relationName? ("@relation(".toList ++ entriesText es) = none := by
  obtain ⟨c, rest, hrest, hc⟩ := exists_head_entriesText h
  have hall : ∀ d ∈ ['f', 'r', 'o', ')'], isBlank d = false ∧ 'n' ≠ d ∧ '"' ≠ d := by decide
  obtain ⟨hblank, hn, hquote⟩ := hall c hc
  rw [hrest, relationName?_start hblank hn, quotedAt?_eq_none hquote]
  rfl

theorem relationName?_print (h : r.Plain) :
    (Attribute.relationName? r.print).map String.ofList = r.name := by
  rw [print_eq]
  rcases h.nameText_cases with ⟨hnone, hname⟩ | ⟨n, hsome, hne, hplain, hname⟩
  · rw [hname, hnone]
    dsimp only
    rw [relationName?_entriesText_eq_none fun e he => title_mem_titles (List.mem_of_mem_head? he)]
    rfl
  · have hquote : '"' ∉ n.toList :=
      not_mem_of_plain hplain (isWordChar_eq_false (by decide)) (by decide)
    have hne' : n.toList ≠ [] := by simpa using hne
    have htext : '"' :: n.toList ++ ['"'] ++ moreEntries r.entries =
        '"' :: (n.toList ++ '"' :: moreEntries r.entries) := by simp
    rw [hname, hsome]
    dsimp only
    rw [htext, relationName?_start (by decide) (by decide), quotedAt?_append hquote hne']
    simp

/-- The entries of a relation say what it holds. -/
theorem tells_entries (r : Relation) : Tells r.entries r where
  fields := by
    refine ⟨fun v hv => ?_, fun hne => ⟨_, mem_entries_iff.2 (Or.inl ⟨rfl, hne⟩)⟩⟩
    have hv' : v = bracketed r.fields ∧ r.fields ≠ [] := by simpa using mem_entries_iff.1 hv
    exact hv'.1
  references := by
    refine ⟨fun v hv => ?_, fun hne => ⟨_, mem_entries_iff.2 (Or.inr (Or.inl ⟨rfl, hne⟩))⟩⟩
    have hv' : v = bracketed r.references ∧ r.references ≠ [] := by
      simpa using mem_entries_iff.1 hv
    exact hv'.1
  onDelete v := by simp [mem_entries_iff]
  onUpdate v := by simp [mem_entries_iff]

/-- A plain relation is read as it was written. -/
theorem relation_print (h : r.Plain) : Attribute.relation r.print = r := by
  have hothers := h.lists_print.relation r.tells_entries h.fields h.references
  calc Attribute.relation r.print
      = { Attribute.relation r.print with
          name := (Attribute.relationName? r.print).map String.ofList } := rfl
    _ = r := by rw [relationName?_print h, hothers]

end Relation

end ContentSchema
