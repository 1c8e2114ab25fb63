import ContentSchema.Proofs.Naming.Stems

/-!
# Patterns for names

The physical name of a translation table is a pattern with the name of its owner, written in
`snake_case`, in place of each placeholder.

* `Text.replaceFrom_eq_joinWith`: a text with replacements is made of the pieces between the places
  that are replaced, joined by what is put in.
* `Text.replaceAll_injective`: so what is put in can be told from the text if there is such a place.
* `Naming.translationTableName_eq_iff`: so a pattern with a placeholder tells names apart as far as
  `snake_case` does, and any other pattern is the name of all tables
  (`Naming.translationTableName_eq_self`).
* `Naming.translationTableName_ne`: names that begin with a capital letter and have only letters and
  digits are kept apart.
-/

namespace ContentSchema

open Text

namespace Text

variable {old cs : List Char} {ts : List (List Char)}

/-! ### Joining -/

theorem joinWith_modifyHead (h : ts ≠ []) (sep : List Char) (c : Char) :
    joinWith sep (ts.modifyHead (c :: ·)) = c :: joinWith sep ts := by
  cases ts with
  | nil => exact absurd rfl h
  | cons t ts => simp [joinWith_cons]

theorem length_joinWith (sep t : List Char) (ts : List (List Char)) :
    (joinWith sep (t :: ts)).length = (t :: ts).flatten.length + ts.length * sep.length := by
  rw [joinWith_cons, List.flatten_cons, List.length_append, List.length_append]
  induction ts with
  | nil => simp
  | cons u us ih =>
    simp only [List.flatMap_cons, List.flatten_cons, List.length_append, List.length_cons,
      Nat.add_mul, Nat.one_mul]
    omega

/-- Two joined texts are told apart by what joins them. -/
theorem joinWith_injective (h : 1 < ts.length) : Function.Injective fun sep => joinWith sep ts := by
  intro sep sep' heq
  match ts, h with
  | t :: u :: us, _ =>
    have hjoined : joinWith sep (t :: u :: us) = joinWith sep' (t :: u :: us) := heq
    -- the separator stands there equally often, so its length can be told from that of the text
    have hlength : sep.length = sep'.length := by
      have htotal := congrArg List.length hjoined
      rw [length_joinWith, length_joinWith, Nat.add_left_cancel_iff] at htotal
      exact Nat.eq_of_mul_eq_mul_left (Nat.succ_pos us.length) htotal
    rw [joinWith_cons, joinWith_cons, List.append_cancel_left_eq, List.flatMap_cons,
      List.flatMap_cons, List.append_assoc, List.append_assoc] at hjoined
    exact List.append_inj_left hjoined hlength

/-! ### Replacing -/

/-- The pieces of a text between the places where `old` is replaced, with the counter of
`replaceFrom`. -/
def piecesFrom (old : List Char) : Nat → List Char → List (List Char)
  | _, [] => [[]]
  | skip + 1, _ :: cs => piecesFrom old skip cs
  | 0, c :: cs =>
    if old.isPrefixOf (c :: cs) then [] :: piecesFrom old (old.length - 1) cs
    else (piecesFrom old 0 cs).modifyHead (c :: ·)

theorem piecesFrom_ne_nil (old : List Char) (skip : Nat) (cs : List Char) :
    piecesFrom old skip cs ≠ [] := by
  fun_induction piecesFrom old skip cs with
  | case1 => simp
  | case2 skip c cs ih => exact ih
  | case3 c cs hprefix ih => simp
  | case4 c cs hprefix ih => simpa using ih

/-- A text with replacements is made of the pieces between them. -/
theorem replaceFrom_eq_joinWith (old new : List Char) (skip : Nat) (cs : List Char) :
    replaceFrom old new skip cs = joinWith new (piecesFrom old skip cs) := by
  fun_induction piecesFrom old skip cs with
  | case1 => rw [replaceFrom, joinWith]
  | case2 skip c cs ih => rw [replaceFrom, ih]
  | case3 c cs hprefix ih =>
    rw [replaceFrom, if_pos hprefix, ih, joinWith, List.nil_append]
    exact piecesFrom_ne_nil old _ cs
  | case4 c cs hprefix ih =>
    rw [replaceFrom, if_neg hprefix, ih, joinWith_modifyHead (piecesFrom_ne_nil old 0 cs)]

/-- An occurrence is a place between two pieces. -/
theorem one_lt_length_piecesFrom (hold : old ≠ []) (h : old <:+: cs) :
    1 < (piecesFrom old 0 cs).length := by
  induction cs with
  | nil => exact absurd (List.infix_nil.1 h) hold
  | cons c cs ih =>
    unfold piecesFrom
    by_cases hhere : old <+: c :: cs
    · have hpos := List.length_pos_of_ne_nil (piecesFrom_ne_nil old (old.length - 1) cs)
      rw [if_pos (List.isPrefixOf_iff_prefix.2 hhere), List.length_cons]
      omega
    · have hcs : old <:+: cs := (List.infix_cons_iff.1 h).resolve_left hhere
      simpa [hhere] using ih hcs

/-- What is put in place of a text that occurs can be told from the result. -/
theorem replaceAll_injective (hold : old ≠ []) (h : old <:+: cs) :
    Function.Injective fun new => replaceAll old new cs := by
  intro new new' heq
  simp only [replaceAll, replaceFrom_eq_joinWith] at heq
  exact joinWith_injective (one_lt_length_piecesFrom hold h) heq

/-- A text in which nothing is to be replaced stays. -/
theorem replaceAll_eq_self (h : ¬ old <:+: cs) (new : List Char) : replaceAll old new cs = cs := by
  unfold replaceAll
  induction cs with
  | nil => rfl
  | cons c cs ih =>
    rw [List.infix_cons_iff, not_or] at h
    simp [replaceFrom, h.1, ih h.2]

end Text

namespace Naming

variable {s t pattern : String}

/-! ### Names in `PascalCase` -/

/-- The name begins with a capital letter and consists of ASCII letters and digits. -/
def IsPascal (s : String) : Prop :=
  s.toList.head?.any Char.isUpper = true ∧ ∀ c ∈ s.toList, c.isAlphanum = true

instance : DecidablePred IsPascal := fun s =>
  inferInstanceAs (Decidable
    (s.toList.head?.any Char.isUpper = true ∧ ∀ c ∈ s.toList, c.isAlphanum = true))

theorem IsPascal.exists_cons (h : IsPascal s) : ∃ c cs, s.toList = c :: cs ∧ c.isUpper = true := by
  obtain ⟨c, hhead, hc⟩ := (Option.any_eq_true _ _).1 h.1
  obtain ⟨cs, hcs⟩ := List.head?_eq_some_iff.1 hhead
  exact ⟨c, cs, hcs, hc⟩

/-- The first letter of the name loses its underscore in `snake_case`, and the others keep theirs. -/
theorem IsPascal.cons_snakeChars (h : IsPascal s) :
    '_' :: snakeChars s.toList = s.toList.flatMap snakeChar := by
  obtain ⟨c, cs, hcs, hc⟩ := h.exists_cons
  simp [hcs, snakeChars, snakeChar, hc, dropUnderscore]

theorem IsPascal.underscore_not_mem (h : IsPascal s) : '_' ∉ s.toList :=
  fun hmem => absurd (h.2 '_' hmem) (by decide)

/-- Names in `PascalCase` are told apart in `snake_case`. -/
theorem IsPascal.snakeCase_eq_iff (hs : IsPascal s) (ht : IsPascal t) :
    snakeCase s = snakeCase t ↔ s = t := by
  refine ⟨fun h => ?_, congrArg _⟩
  have hchars : snakeChars s.toList = snakeChars t.toList := String.ofList_inj.1 h
  have hflat : s.toList.flatMap snakeChar = t.toList.flatMap snakeChar := by
    rw [← hs.cons_snakeChars, ← ht.cons_snakeChars, hchars]
  exact String.toList_inj.1
    (flatMap_snakeChar_injOn hs.underscore_not_mem ht.underscore_not_mem hflat)

/-- Slugs have names in `PascalCase`. -/
theorem isPascal_pascalCase (h : Reader.isSlug s = true) : IsPascal (pascalCase s) := by
  constructor
  · obtain ⟨c, cs, hcs, hc, hsmall⟩ := isSlug_iff_minuscule.1 h
    rw [pascalCase, String.toList_ofList, hcs, pascalChars_cons hc hsmall, List.head?_cons]
    exact isUpper_toUpper hc
  · rw [pascalCase, String.toList_ofList]
    exact isAlphanum_pascalChars (handle_of_isSlug h)

theorem IsPascal.append (hs : IsPascal s) (ht : IsPascal t) : IsPascal (s ++ t) := by
  obtain ⟨c, cs, hcs, hc⟩ := hs.exists_cons
  constructor
  · simp [String.toList_append, hcs, hc]
  · simpa only [String.toList_append] using List.forall_mem_append.2 ⟨hs.2, ht.2⟩

/-! ### Names made by a pattern -/

/-- A pattern with a placeholder tells names apart as far as `snake_case` does. -/
theorem translationTableName_eq_iff (h : placeholder.toList <:+: pattern.toList) :
    translationTableName s pattern = translationTableName t pattern ↔
      snakeCase s = snakeCase t := by
  have hne : placeholder.toList ≠ [] := by decide
  rw [translationTableName, translationTableName, String.ofList_inj, ← String.toList_inj]
  exact (replaceAll_injective hne h).eq_iff

/-- A pattern without a placeholder is the name of all tables. -/
theorem translationTableName_eq_self (h : ¬ placeholder.toList <:+: pattern.toList) (s : String) :
    translationTableName s pattern = pattern := by
  rw [translationTableName, replaceAll_eq_self h, String.ofList_toList]

/-- A pattern with a placeholder, wherever and however often it stands there, gives different
physical names to the translation tables of two tables whose names begin with a capital letter and
have only letters and digits. -/
theorem translationTableName_ne (h : placeholder.toList <:+: pattern.toList) (hs : IsPascal s)
    (ht : IsPascal t) (hne : s ≠ t) :
    translationTableName s pattern ≠ translationTableName t pattern := by
  intro heq
  have hsnake : snakeCase s = snakeCase t := (translationTableName_eq_iff h).1 heq
  exact hne ((hs.snakeCase_eq_iff ht).1 hsnake)

/-- The placeholder stands twice in the pattern, and one name is the other one repeated. -/
theorem translationTableName_tagTag :
    placeholder.toList <:+: (placeholder ++ "_of_" ++ placeholder).toList ∧
    IsPascal "Tag" ∧ IsPascal "TagTag" ∧ "Tag" ≠ "TagTag" ∧
    translationTableName "Tag" (placeholder ++ "_of_" ++ placeholder) ≠
      translationTableName "TagTag" (placeholder ++ "_of_" ++ placeholder) ∧
    translationTableName "TagTag" (placeholder ++ "_of_" ++ placeholder) =
      "tag_tag_of_tag_tag" := by
  have hplace : placeholder.toList <:+: (placeholder ++ "_of_" ++ placeholder).toList := by decide
  have htag : IsPascal "Tag" := by decide
  have htags : IsPascal "TagTag" := by decide
  have hne : "Tag" ≠ "TagTag" := by decide
  exact ⟨hplace, htag, htags, hne, translationTableName_ne hplace htag htags hne, by decide⟩

end Naming

namespace BuildSettings

variable {settings : BuildSettings} {s t : String}

/-- In `PascalCase`, models share a physical translation table only if they share their table. -/
theorem translationTableName_tableName_eq_iff (hconvention : settings.convention = .pascalCase)
    (hlead : settings.lead.getD "" = "" ∨ Naming.IsPascal (settings.lead.getD ""))
    (hpattern : Naming.placeholder.toList <:+: settings.pattern.toList)
    (hs : Reader.isSlug s = true) (ht : Reader.isSlug t = true) :
    Naming.translationTableName (settings.tableName s) settings.pattern =
        Naming.translationTableName (settings.tableName t) settings.pattern ↔
      settings.tableName s = settings.tableName t := by
  have hpascal : ∀ {slug : String}, Reader.isSlug slug = true →
      Naming.IsPascal (settings.tableName slug) := by
    intro slug hslug
    have hname := Naming.isPascal_pascalCase hslug
    rw [tableName, Naming.tableName.eq_def, hconvention]
    dsimp only
    rcases hlead with hlead | hlead
    · rw [hlead, String.empty_append]
      exact hname
    · exact hlead.append hname
  rw [Naming.translationTableName_eq_iff hpattern, (hpascal hs).snakeCase_eq_iff (hpascal ht)]

end BuildSettings

end ContentSchema
