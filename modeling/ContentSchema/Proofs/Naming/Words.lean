import ContentSchema.Naming.Table
import ContentSchema.Proofs.Text.Lines
import ContentSchema.Reading.Scalar

/-!
# Characters of names

Slugs and keys are handles: they consist of ASCII letters, digits, underscores and hyphens
(`Naming.Handle`).  Tables that are named after slugs have words for names in every convention.  So
have those of components in `PascalCase` and `camelCase`, which cut a key at its hyphens.
-/

namespace ContentSchema

open Text

namespace Naming

/-- The text consists of ASCII letters, digits, underscores and hyphens. -/
def Handle (cs : List Char) : Prop := ∀ c ∈ cs, c.isAlphanum = true ∨ c = '_' ∨ c = '-'

instance (cs : List Char) : Decidable (Handle cs) :=
  inferInstanceAs (Decidable (∀ c ∈ cs, c.isAlphanum = true ∨ c = '_' ∨ c = '-'))

variable {cs ds : List Char} {c : Char}

/-! ### Characters -/

theorem isAlphanum_eq (c : Char) : c.isAlphanum = (c.isUpper || c.isLower || c.isDigit) := rfl

theorem toNat_lt_of_isAlphanum (h : c.isAlphanum = true) : c.toNat < 128 := by
  have hle : ∀ d : Char, c.val ≤ d.val → c.toNat ≤ d.toNat := fun d hd =>
    UInt32.le_iff_toNat_le.1 hd
  have hbound : c.toNat ≤ 'Z'.toNat ∨ c.toNat ≤ 'z'.toNat ∨ c.toNat ≤ '9'.toNat := by
    rw [isAlphanum_eq, Bool.or_eq_true, Bool.or_eq_true] at h
    rcases h with (hupper | hlower) | hdigit
    · exact Or.inl (hle 'Z' (of_decide_eq_true hupper).2)
    · exact Or.inr (Or.inl (hle 'z' (of_decide_eq_true (Bool.and_eq_true_iff.1 hlower).2)))
    · exact Or.inr (Or.inr (hle '9' (of_decide_eq_true (Bool.and_eq_true_iff.1 hdigit).2)))
  have hbig : 'Z'.toNat = 90 := rfl
  have hsmall : 'z'.toNat = 122 := rfl
  have hdigit : '9'.toNat = 57 := rfl
  omega

/-- What holds of all ASCII characters can be checked one by one. -/
theorem of_toNat_lt {p : Char → Prop} (hp : ∀ n < 128, p (Char.ofNat n)) (hc : c.toNat < 128) :
    p c := by
  have h := hp c.toNat hc
  rwa [Char.ofNat_toNat] at h

theorem isAlphanum_toUpper (h : c.isAlphanum = true) : c.toUpper.isAlphanum = true := by
  have hall : ∀ n < 128, (Char.ofNat n).isAlphanum = true →
      (Char.ofNat n).toUpper.isAlphanum = true := by decide
  exact of_toNat_lt (p := fun c => c.isAlphanum = true → c.toUpper.isAlphanum = true) hall
    (toNat_lt_of_isAlphanum h) h

theorem isAlphanum_toLower (h : c.isAlphanum = true) : c.toLower.isAlphanum = true := by
  have hall : ∀ n < 128, (Char.ofNat n).isAlphanum = true →
      (Char.ofNat n).toLower.isAlphanum = true := by decide
  exact of_toNat_lt (p := fun c => c.isAlphanum = true → c.toLower.isAlphanum = true) hall
    (toNat_lt_of_isAlphanum h) h

theorem handle_of_isSlug {s : String} (h : Reader.isSlug s = true) : Handle s.toList := by
  rw [Reader.isSlug] at h
  have halnum : ∀ c : Char, c.isLower = true → c.isAlphanum = true := fun c hc => by
    simp [isAlphanum_eq, hc]
  have hdigit : ∀ c : Char, c.isDigit = true → c.isAlphanum = true := fun c hc => by
    simp [isAlphanum_eq, hc]
  split at h
  · rename_i c cs hcs
    rw [Bool.and_eq_true, List.all_eq_true] at h
    rw [hcs]
    intro d hd
    rcases List.mem_cons.1 hd with rfl | hd
    · exact Or.inl (halnum d h.1)
    · have hd' := h.2 d hd
      simp only [Bool.or_eq_true, beq_iff_eq] at hd'
      rcases hd' with ((hlow | hdig) | hunderscore) | hhyphen
      · exact Or.inl (halnum d hlow)
      · exact Or.inl (hdigit d hdig)
      · exact Or.inr (Or.inl hunderscore)
      · exact Or.inr (Or.inr hhyphen)
  · cases h

/-! ### Cases -/

theorem wordy_of_isAlphanum (h : ∀ c ∈ cs, c.isAlphanum = true) : Wordy cs :=
  fun c hc => isWordChar_of_isAlphanum (h c hc)

theorem isAlphanum_lowerAfter (h : ∀ c ∈ cs, c.isAlphanum = true) (before : List Char) :
    ∀ d ∈ lowerAfter before cs, d.isAlphanum = true := by
  induction cs generalizing before with
  | nil =>
    rintro d ⟨⟩
  | cons c cs ih =>
    have hc := h c List.mem_cons_self
    have hlt := toNat_lt_of_isAlphanum hc
    have hsigma : ¬ c.toNat = 931 := by omega
    intro d hd
    rw [lowerAfter, if_neg hsigma, lowerChar, if_pos hlt, List.singleton_append] at hd
    rcases List.mem_cons.1 hd with rfl | hd
    · exact isAlphanum_toLower hc
    · exact ih (fun e he => h e (List.mem_cons_of_mem _ he)) _ d hd

theorem isAlphanum_capitalize (h : ∀ c ∈ cs, c.isAlphanum = true) :
    ∀ d ∈ capitalize cs, d.isAlphanum = true := by
  cases cs with
  | nil =>
    rintro d ⟨⟩
  | cons c cs =>
    have hc := h c List.mem_cons_self
    intro d hd
    rw [capitalize, upperChar, if_pos (toNat_lt_of_isAlphanum hc), List.singleton_append] at hd
    rcases List.mem_cons.1 hd with rfl | hd
    · exact isAlphanum_toUpper hc
    · exact isAlphanum_lowerAfter (fun e he => h e (List.mem_cons_of_mem _ he)) _ d hd

/-- Cutting a handle at its boundaries leaves letters and digits only. -/
theorem isAlphanum_pascalChars (h : Handle cs) : ∀ d ∈ pascalChars cs, d.isAlphanum = true := by
  intro d hd
  obtain ⟨w, hw, hdw⟩ := List.mem_flatMap.1 hd
  -- the words between boundaries hold neither underscores nor hyphens
  refine isAlphanum_capitalize (fun c hc => ?_) d hdw
  obtain ⟨hinside, hsub⟩ := of_mem_splitOnP hw
  have hboundary := hinside c hc
  rcases h c (hsub.subset hc) with halnum | rfl | rfl
  · exact halnum
  · cases hboundary
  · cases hboundary

theorem isAlphanum_camelChars (h : Handle cs) : ∀ d ∈ camelChars cs, d.isAlphanum = true := by
  have hpascal := isAlphanum_pascalChars h
  intro d hd
  rw [camelChars] at hd
  cases hcs : pascalChars cs with
  | nil =>
    rw [hcs] at hd
    cases hd
  | cons c ds =>
    rw [hcs] at hd hpascal
    rcases List.mem_append.1 hd with hd | hd
    · refine @isAlphanum_lowerAfter [c] (fun e he => ?_) [] d hd
      exact hpascal e (by simpa using Or.inl (List.mem_singleton.1 he))
    · exact hpascal d (List.mem_cons_of_mem _ hd)

theorem mem_dropUnderscore (h : c ∈ cs) (hc : c ≠ '_') : c ∈ dropUnderscore cs := by
  rw [dropUnderscore.eq_def]
  split
  · exact (List.mem_cons.1 h).resolve_left hc
  · exact h

theorem wordy_snakeChars (h : Wordy cs) : Wordy (snakeChars cs) := by
  have hall : Wordy (cs.flatMap snakeChar) := by
    refine wordy_flatMap fun c hc => ?_
    rw [snakeChar]
    split
    · rename_i hupper
      have halnum : c.isAlphanum = true := by simp [isAlphanum_eq, hupper]
      rw [wordy_cons]
      refine ⟨isWordChar_underscore, wordy_of_isAlphanum fun d hd => ?_⟩
      rw [List.mem_singleton.1 hd]
      exact isAlphanum_toLower halnum
    · rw [wordy_cons]
      exact ⟨h c hc, wordy_nil⟩
  rw [snakeChars, dropUnderscore.eq_def]
  split
  · rename_i heq
    rw [heq, wordy_cons] at hall
    exact hall.2
  · exact hall

theorem wordy_snakeCase {s : String} (h : Wordy s.toList) : Wordy (snakeCase s).toList := by
  rw [snakeCase, String.toList_ofList]
  exact wordy_snakeChars h

/-- Writing a text in `snake_case` neither makes a word of it nor keeps it from being one. -/
theorem wordy_snakeCase_iff {s : String} : Wordy (snakeCase s).toList ↔ Wordy s.toList := by
  refine ⟨fun h c hc => ?_, wordy_snakeCase⟩
  by_cases hupper : c.isUpper = true
  · exact isWordChar_of_isAlphanum (by simp [isAlphanum_eq, hupper])
  · by_cases hne : c = '_'
    · rw [hne]
      exact isWordChar_underscore
    · refine h c ?_
      rw [snakeCase, String.toList_ofList, snakeChars]
      refine mem_dropUnderscore (List.mem_flatMap.2 ⟨c, hc, ?_⟩) hne
      rw [snakeChar, if_neg hupper]
      exact List.mem_singleton_self c

theorem wordy_pascalCase {s : String} (h : Handle s.toList) : Wordy (pascalCase s).toList := by
  rw [pascalCase, String.toList_ofList]
  exact wordy_of_isAlphanum (isAlphanum_pascalChars h)

theorem wordy_camelCase {s : String} (h : Handle s.toList) : Wordy (camelCase s).toList := by
  rw [camelCase, String.toList_ofList]
  exact wordy_of_isAlphanum (isAlphanum_camelChars h)

theorem handle_singular {key : String} (h : Handle key.toList) : Handle (singular key).toList := by
  rw [singular]
  split
  · rw [String.toList_ofList]
    exact fun c hc => h c (List.dropLast_subset _ hc)
  · exact h

/-! ### Underscores for hyphens -/

/-- An underscore in place of a hyphen. -/
def unhyphen (c : Char) : Char := if c = '-' then '_' else c

theorem replaceAll_hyphen (cs : List Char) : replaceAll ['-'] ['_'] cs = cs.map unhyphen := by
  induction cs with
  | nil => rfl
  | cons c cs ih =>
    rw [replaceAll] at ih ⊢
    rw [replaceFrom, List.map_cons, ← ih, unhyphen]
    by_cases hc : c = '-'
    · rw [hc]
      rfl
    · rw [if_neg hc, if_neg (by simpa using Ne.symm hc)]

/-- A hyphen is the only character of a handle that is in no word. -/
theorem Handle.wordy_iff (h : Handle cs) : Wordy cs ↔ '-' ∉ cs := by
  constructor
  · exact fun hwordy => hwordy.not_mem (isWordChar_eq_false (by decide))
  · intro hhyphen c hc
    rcases h c hc with halnum | rfl | rfl
    · exact isWordChar_of_isAlphanum halnum
    · exact isWordChar_underscore
    · exact absurd hc hhyphen

theorem Handle.wordy_replaceAll_hyphen (h : Handle cs) : Wordy (replaceAll ['-'] ['_'] cs) := by
  rw [replaceAll_hyphen]
  intro d hd
  obtain ⟨c, hc, rfl⟩ := List.mem_map.1 hd
  rw [unhyphen]
  split
  · exact isWordChar_underscore
  · rename_i hne
    rcases h c hc with halnum | rfl | rfl
    · exact isWordChar_of_isAlphanum halnum
    · exact isWordChar_underscore
    · exact absurd rfl hne

/-! ### Names of tables and columns -/

variable {table : String}

theorem wordy_translationModelName_iff :
    Wordy (translationModelName table).toList ↔ Wordy table.toList := by
  have hsuffix : Wordy "Translation".toList := by decide
  rw [translationModelName, String.toList_append, wordy_append, and_iff_left hsuffix]

theorem wordy_foreignKeyName (h : Wordy table.toList) : Wordy (foreignKeyName table).toList := by
  rw [foreignKeyName, String.toList_append, wordy_append]
  exact ⟨wordy_snakeCase h, by decide⟩

/-- A key loses no character but an `s`. -/
theorem mem_singular_iff {key : String} (hc : c ≠ 's') :
    c ∈ (singular key).toList ↔ c ∈ key.toList := by
  rw [singular]
  split
  · rename_i hs
    obtain ⟨ds, hds⟩ := List.getLast?_eq_some_iff.1 hs
    simp [hds, hc]
  · rfl

/-- In `snake_case` a hyphen in the key is kept. -/
theorem wordy_componentTableName_iff {key : String} {convention : Convention}
    (hkey : Handle key.toList) : Wordy (componentTableName table key convention).toList ↔
      Wordy table.toList ∧ (convention = .snakeCase → '-' ∉ key.toList) := by
  have hsingular := handle_singular hkey
  cases convention with
  | snakeCase =>
    have hjoin : Wordy "_".toList := by decide
    rw [componentTableName, String.toList_append, String.toList_append, wordy_append, wordy_append,
      wordy_snakeCase_iff, and_iff_left hjoin, hsingular.wordy_iff, mem_singular_iff (by decide)]
    simp
  | camelCase | pascalCase =>
    rw [componentTableName, String.toList_append, wordy_append]
    · simp [wordy_pascalCase hsingular]
    · simp

theorem wordy_junctionTableName_iff {target : String} {convention : Convention} :
    Wordy (junctionTableName table target convention).toList ↔
      Wordy table.toList ∧ Wordy target.toList := by
  cases convention with
  | snakeCase =>
    have hjoin : Wordy "_".toList := by decide
    rw [junctionTableName, String.toList_append, String.toList_append, wordy_append, wordy_append,
      wordy_snakeCase_iff, wordy_snakeCase_iff, and_iff_left hjoin]
  | camelCase | pascalCase =>
    rw [junctionTableName, String.toList_append, wordy_append]
    · simp

/-- Each character of a text with replacements is one of the text or of what was put in. -/
theorem mem_replaceFrom {old new : List Char} {skip : Nat} (h : c ∈ replaceFrom old new skip cs) :
    c ∈ new ∨ c ∈ cs := by
  fun_induction replaceFrom old new skip cs with
  | case1 => cases h
  | case2 skip d cs ih =>
    rcases ih h with h | h
    · exact Or.inl h
    · exact Or.inr (List.mem_cons_of_mem _ h)
  | case3 d cs hprefix ih =>
    rcases List.mem_append.1 h with h | h
    · exact Or.inl h
    rcases ih h with h | h
    · exact Or.inl h
    · exact Or.inr (List.mem_cons_of_mem _ h)
  | case4 d cs hprefix ih =>
    rcases List.mem_cons.1 h with rfl | h
    · exact Or.inr List.mem_cons_self
    rcases ih h with h | h
    · exact Or.inl h
    · exact Or.inr (List.mem_cons_of_mem _ h)

theorem unbroken_translationTableName {pattern : String} (h : Wordy table.toList)
    (hpattern : Unbroken pattern.toList) :
    Unbroken (translationTableName table pattern).toList := by
  rw [translationTableName, String.toList_ofList]
  intro c hc
  rcases mem_replaceFrom hc with hc | hc
  · exact (wordy_snakeCase h).solid.unbroken c hc
  · exact hpattern c hc

end Naming

namespace BuildSettings

variable {settings : BuildSettings} {slug : String}

/-- Names of slugs are words, as what stands in front of them is one. -/
theorem wordy_tableName (hlead : ∀ lead ∈ settings.lead, Wordy lead.toList)
    (hslug : Reader.isSlug slug = true) : Wordy (settings.tableName slug).toList := by
  have hhandle := Naming.handle_of_isSlug hslug
  have hfront : Wordy (settings.lead.getD "").toList := by
    cases hl : settings.lead with
    | none => decide
    | some lead => exact hlead lead hl
  have hname : ∀ name : String, Wordy name.toList →
      Wordy (settings.lead.getD "" ++ name).toList := by
    intro name hname
    rw [String.toList_append, wordy_append]
    exact ⟨hfront, hname⟩
  rw [tableName]
  cases settings.convention with
  | snakeCase =>
    refine hname _ ?_
    rw [String.toList_ofList]
    exact hhandle.wordy_replaceAll_hyphen
  | camelCase => exact hname _ (Naming.wordy_camelCase hhandle)
  | pascalCase => exact hname _ (Naming.wordy_pascalCase hhandle)

/-- The table that a relation points at has a word for its name, if the target is a slug or an
external table named by a word. -/
theorem wordy_targetName {target : String} (hlead : ∀ lead ∈ settings.lead, Wordy lead.toList)
    (hexternal : ∀ name ∈ settings.externalNames, Wordy name.toList)
    (htarget : Reader.isSlug target = true ∨ target ∈ settings.externalNames) :
    Wordy (settings.targetName target).toList := by
  rw [targetName]
  split
  · rename_i hmem
    exact hexternal target hmem
  · rename_i hmem
    exact wordy_tableName hlead (htarget.resolve_right hmem)

end BuildSettings

/-! ### Names that are not empty -/

namespace Naming

/-- The text has a letter or a digit. -/
def Telling (s : String) : Prop := ∃ c ∈ s.toList, c.isAlphanum = true

variable {s t : String} {cs : List Char} {c : Char}

theorem dropUnderscore_eq_nil_iff : dropUnderscore cs = [] ↔ cs = [] ∨ cs = ['_'] := by
  rw [dropUnderscore.eq_def]
  split
  · simp
  · rename_i hne
    simp only [iff_self_or]
    rintro rfl
    exact absurd rfl (hne [])

theorem snakeChar_ne_nil (c : Char) : snakeChar c ≠ [] := by
  rw [snakeChar]
  split <;> simp

theorem snakeChars_eq_nil_iff : snakeChars cs = [] ↔ cs = [] ∨ cs = ['_'] := by
  have hnil : ∀ cs : List Char, cs.flatMap snakeChar = [] ↔ cs = [] := by
    intro cs
    rw [List.flatMap_eq_nil_iff, List.eq_nil_iff_forall_not_mem]
    exact forall₂_congr fun c _ => iff_false_intro (snakeChar_ne_nil c)
  rw [snakeChars, dropUnderscore_eq_nil_iff, hnil]
  refine or_congr_right ?_
  cases cs with
  | nil => simp
  | cons c cs =>
    rw [List.flatMap_cons, snakeChar]
    split
    · -- a capital letter leaves its small letter behind
      rename_i hupper
      refine iff_of_false (by simp) ?_
      rintro ⟨⟩
      cases hupper
    · rw [List.singleton_append, List.cons.injEq, List.cons.injEq, hnil]

/-- Only an underscore has no name in `snake_case`. -/
theorem snakeCase_eq_empty_iff : snakeCase s = "" ↔ s = "" ∨ s = "_" := by
  have hlist : ∀ t : String, s = t ↔ s.toList = t.toList := fun t => String.toList_inj.symm
  rw [snakeCase, hlist "", hlist "_", String.ofList_eq_empty_iff]
  exact snakeChars_eq_nil_iff

theorem Telling.ne_empty (h : Telling s) : s ≠ "" := by
  rintro rfl
  obtain ⟨c, hc, -⟩ := h
  cases hc

theorem Telling.snakeCase_ne_empty (h : Telling s) : snakeCase s ≠ "" := by
  intro hempty
  rcases snakeCase_eq_empty_iff.1 hempty with rfl | rfl
  · exact h.ne_empty rfl
  · obtain ⟨c, hc, halnum⟩ := h
    rw [List.mem_singleton.1 hc] at halnum
    cases halnum

theorem Telling.append_right (h : Telling s) (t : String) : Telling (s ++ t) := by
  obtain ⟨c, hc, halnum⟩ := h
  exact ⟨c, by rw [String.toList_append]; exact List.mem_append_left _ hc, halnum⟩

theorem Telling.append_left (h : Telling t) (s : String) : Telling (s ++ t) := by
  obtain ⟨c, hc, halnum⟩ := h
  exact ⟨c, by rw [String.toList_append]; exact List.mem_append_right _ hc, halnum⟩

theorem Telling.snakeCase (h : Telling s) : Telling (snakeCase s) := by
  obtain ⟨c, hc, halnum⟩ := h
  have hne : ∀ d : Char, d.isAlphanum = true → d ≠ '_' := by
    rintro d hd rfl
    cases hd
  have hmem : ∀ d ∈ snakeChar c, d ≠ '_' → d ∈ (Naming.snakeCase s).toList := by
    intro d hd hdne
    rw [Naming.snakeCase, String.toList_ofList, snakeChars]
    exact mem_dropUnderscore (List.mem_flatMap.2 ⟨c, hc, hd⟩) hdne
  by_cases hupper : c.isUpper = true
  · have hlower := isAlphanum_toLower halnum
    exact ⟨c.toLower, hmem _ (by simp [snakeChar, hupper]) (hne _ hlower), hlower⟩
  · exact ⟨c, hmem _ (by simp [snakeChar, hupper]) (hne _ halnum), halnum⟩

/-- A text has no letters in `PascalCase` exactly if it only has boundaries. -/
theorem pascalChars_eq_nil_iff : pascalChars cs = [] ↔ ∀ c ∈ cs, isWordBoundary c = true := by
  have hupper : ∀ c, upperChar c ≠ [] := by
    have hspecial : ∀ entry ∈ upperSpecial, entry.2 ≠ [] := by decide
    intro c
    rw [upperChar]
    split
    · simp
    · split
      · rename_i image hlookup
        obtain ⟨l₁, l₂, heq, -⟩ := List.lookup_eq_some_iff.1 hlookup
        simpa using hspecial (c.toNat, image) (by simp [heq])
      · simp
  induction cs with
  | nil => simp [pascalChars, capitalize]
  | cons c cs ih =>
    rw [pascalChars] at ih ⊢
    rw [List.splitOnP_cons_eq_if_modifyHead, List.forall_mem_cons]
    cases hc : isWordBoundary c with
    | true => simpa [capitalize] using ih
    | false =>
      -- the first word has a letter
      obtain ⟨w, ws, hwords⟩ := List.exists_cons_of_ne_nil (List.splitOnP_ne_nil isWordBoundary cs)
      rw [if_neg Bool.false_ne_true, hwords]
      simp [capitalize, hupper]

theorem camelChars_eq_nil_iff : camelChars cs = [] ↔ pascalChars cs = [] := by
  have hlower : ∀ c, lower [c] ≠ [] := by
    intro c
    rw [lower, lowerAfter, lowerChar]
    split
    · simp
    · split
      · simp
      · split <;> simp
  rw [camelChars]
  cases pascalChars cs with
  | nil => simp [lowerFirst]
  | cons c cs => simp [lowerFirst, hlower]

/-- Every name that has the letter of a slug in front. -/
theorem telling_tableName {slug : String} (h : Reader.isSlug slug = true) (convention : Convention)
    (lead : Option String) : Telling (tableName slug convention lead) := by
  have hhandle := handle_of_isSlug h
  obtain ⟨c, cs, hcs, hlower⟩ : ∃ c cs, slug.toList = c :: cs ∧ c.isLower = true := by
    rw [Reader.isSlug] at h
    split at h
    · rename_i c cs hcs
      exact ⟨c, cs, hcs, (Bool.and_eq_true_iff.1 h).1⟩
    · cases h
  have hboundary : isWordBoundary c = false := by
    rw [isWordBoundary, Bool.or_eq_false_iff, beq_eq_false_iff_ne, beq_eq_false_iff_ne]
    constructor <;> (rintro rfl; cases hlower)
  have hpascal : pascalChars slug.toList ≠ [] := by
    rw [Ne, pascalChars_eq_nil_iff, hcs]
    intro hall
    rw [hall c List.mem_cons_self] at hboundary
    cases hboundary
  have hname : ∀ name : List Char, name ≠ [] → (∀ d ∈ name, d.isAlphanum = true) →
      Telling (lead.getD "" ++ String.ofList name) := by
    intro name hne halnum
    obtain ⟨d, ds, rfl⟩ := List.exists_cons_of_ne_nil hne
    refine Telling.append_left ⟨d, ?_, halnum d List.mem_cons_self⟩ _
    simp
  cases convention with
  | snakeCase =>
    refine @Telling.append_left (String.ofList _) ⟨c, ?_, by simp [isAlphanum_eq, hlower]⟩ _
    have hne : '-' ≠ c := by
      rintro rfl
      cases hlower
    simp [hcs, replaceAll, replaceFrom, hne]
  | camelCase =>
    exact hname _ (mt camelChars_eq_nil_iff.1 hpascal) (isAlphanum_camelChars hhandle)
  | pascalCase => exact hname _ hpascal (isAlphanum_pascalChars hhandle)

theorem Telling.componentTableName {parent : String} (h : Telling parent) (key : String)
    (convention : Convention) : Telling (componentTableName parent key convention) := by
  cases convention with
  | snakeCase => exact (h.snakeCase.append_right _).append_right _
  | camelCase | pascalCase => exact h.append_right _

theorem Telling.junctionTableName {owner : String} (h : Telling owner) (target : String)
    (convention : Convention) : Telling (junctionTableName owner target convention) := by
  cases convention with
  | snakeCase => exact (h.snakeCase.append_right _).append_right _
  | camelCase | pascalCase => exact h.append_right _

end Naming

namespace BuildSettings

variable {settings : BuildSettings} {slug : String}

theorem telling_tableName (hslug : Reader.isSlug slug = true) :
    Naming.Telling (settings.tableName slug) :=
  Naming.telling_tableName hslug settings.convention settings.lead

/-- The target of a relation has no name exactly if it consists of boundaries of words, nothing
stands in front of names and the convention cuts names into words. -/
theorem targetName_eq_empty_iff {target : String} (hne : target ≠ "") :
    settings.targetName target = "" ↔ target ∉ settings.externalNames ∧
      settings.lead.getD "" = "" ∧ settings.convention ≠ .snakeCase ∧
      ∀ c ∈ target.toList, Naming.isWordBoundary c = true := by
  rw [targetName]
  split
  · rename_i hmem
    simp [hne, hmem]
  · rename_i hmem
    rw [tableName, Naming.tableName.eq_def, String.append_eq_empty_iff, and_iff_right hmem]
    refine and_congr_right fun _ => ?_
    cases settings.convention with
    | snakeCase =>
      have hreplace : replaceAll ['-'] ['_'] target.toList ≠ [] := by
        intro hnil
        refine hne (String.toList_eq_nil_iff.1 ?_)
        cases hcs : target.toList with
        | nil => rfl
        | cons c cs =>
          rw [hcs, replaceAll, replaceFrom] at hnil
          split at hnil <;> cases hnil
      simpa using hreplace
    | camelCase =>
      simp [Naming.camelCase, Naming.camelChars_eq_nil_iff, Naming.pascalChars_eq_nil_iff]
    | pascalCase => simp [Naming.pascalCase, Naming.pascalChars_eq_nil_iff]

end BuildSettings

end ContentSchema
