import ContentSchema.Proofs.Naming.Words

/-!
# What names tell of slugs

`PascalCase` and `camelCase` forget which slug a name was made of: they drop the boundaries of words,
and a capital letter tells only of those that a small letter follows.  What is left is the stem of
the slug (`Naming.stem`): two slugs have one name exactly if they have one stem
(`Naming.pascalCase_eq_iff`, `Naming.camelCase_eq_iff`).

The stem is read back off a name by writing it in `snake_case`, which tells all texts without
underscores apart (`Naming.flatMap_snakeChar_injOn`).
-/

namespace ContentSchema

open Text

namespace Naming

variable {cs ds : List Char} {c d : Char} {s t : String}

/-! ### Small texts -/

/-- The text consists of small ASCII letters, digits, underscores and hyphens. -/
def Minuscule (cs : List Char) : Prop :=
  ∀ c ∈ cs, c.isLower = true ∨ c.isDigit = true ∨ isWordBoundary c = true

instance (cs : List Char) : Decidable (Minuscule cs) :=
  inferInstanceAs (Decidable (∀ c ∈ cs,
    c.isLower = true ∨ c.isDigit = true ∨ isWordBoundary c = true))

theorem minuscule_append : Minuscule (cs ++ ds) ↔ Minuscule cs ∧ Minuscule ds :=
  List.forall_mem_append

theorem isWordBoundary_iff : isWordBoundary c = true ↔ c = '-' ∨ c = '_' := by
  rw [isWordBoundary, Bool.or_eq_true, beq_iff_eq, beq_iff_eq]

theorem isWordBoundary_of_isLower (h : c.isLower = true) : isWordBoundary c = false := by
  rw [Bool.eq_false_iff, Ne, isWordBoundary_iff]
  rintro (rfl | rfl) <;> cases h

/-- A slug is a small letter and a small text. -/
theorem isSlug_iff_minuscule :
    Reader.isSlug s = true ↔ ∃ c cs, s.toList = c :: cs ∧ c.isLower = true ∧ Minuscule cs := by
  have hchar : ∀ d : Char, (d.isLower || d.isDigit || d == '_' || d == '-') = true ↔
      d.isLower = true ∨ d.isDigit = true ∨ isWordBoundary d = true := fun d => by
    simp only [Bool.or_eq_true, beq_iff_eq, isWordBoundary_iff]
    tauto
  rw [Reader.isSlug]
  cases s.toList with
  | nil => simp
  | cons c cs =>
    simp only [Bool.and_eq_true, List.all_eq_true, hchar, List.cons.injEq]
    constructor
    · rintro ⟨hc, hcs⟩
      exact ⟨c, cs, ⟨rfl, rfl⟩, hc, hcs⟩
    · rintro ⟨_, _, ⟨rfl, rfl⟩, hc, hcs⟩
      exact ⟨hc, hcs⟩

theorem minuscule_of_isSlug (h : Reader.isSlug s = true) : Minuscule s.toList := by
  obtain ⟨c, cs, hs, hc, hcs⟩ := isSlug_iff_minuscule.1 h
  rw [hs]
  exact List.forall_mem_cons.2 ⟨Or.inl hc, hcs⟩

/-- What stands behind a slug makes it a longer one. -/
theorem isSlug_append (h : Reader.isSlug s = true) (ht : Minuscule t.toList) :
    Reader.isSlug (s ++ t) = true := by
  obtain ⟨c, cs, hs, hc, hcs⟩ := isSlug_iff_minuscule.1 h
  exact isSlug_iff_minuscule.2
    ⟨c, cs ++ t.toList, by rw [String.toList_append, hs, List.cons_append], hc,
      minuscule_append.2 ⟨hcs, ht⟩⟩

theorem toNat_lt_of_minuscule (h : Minuscule cs) (hc : c ∈ cs) : c.toNat < 128 := by
  rcases h c hc with hlower | hdigit | hboundary
  · exact toNat_lt_of_isAlphanum (by simp [isAlphanum_eq, hlower])
  · exact toNat_lt_of_isAlphanum (by simp [isAlphanum_eq, hdigit])
  · rcases isWordBoundary_iff.1 hboundary with rfl | rfl <;> decide

theorem isUpper_eq_false_of_minuscule (h : Minuscule cs) (hc : c ∈ cs) : c.isUpper = false := by
  have hall : ∀ n < 128, (Char.ofNat n).isLower = true ∨ (Char.ofNat n).isDigit = true ∨
      isWordBoundary (Char.ofNat n) = true → (Char.ofNat n).isUpper = false := by decide
  exact of_toNat_lt
    (p := fun c => c.isLower = true ∨ c.isDigit = true ∨ isWordBoundary c = true →
      c.isUpper = false) hall (toNat_lt_of_minuscule h hc) (h c hc)

theorem toLower_eq_self_of_isUpper_eq_false (h : c.isUpper = false) : c.toLower = c := by
  have hupper : ¬ ('A'.val ≤ c.val ∧ c.val ≤ 'Z'.val) := of_decide_eq_false h
  exact dif_neg hupper

theorem lowerAfter_minuscule (h : Minuscule cs) (before : List Char) :
    lowerAfter before cs = cs := by
  induction cs generalizing before with
  | nil => rfl
  | cons c cs ih =>
    have hlt := toNat_lt_of_minuscule h List.mem_cons_self
    have hsigma : ¬ c.toNat = 931 := by omega
    rw [lowerAfter, if_neg hsigma, lowerChar, if_pos hlt, toLower_eq_self_of_isUpper_eq_false
        (isUpper_eq_false_of_minuscule h List.mem_cons_self),
      ih (fun d hd => h d (List.mem_cons_of_mem _ hd))]
    rfl

/-! ### `PascalCase` one character at a time -/

/-- A small text in `PascalCase`, where `start` tells whether a word begins. -/
def pascalFrom (start : Bool) : List Char → List Char
  | [] => []
  | c :: cs =>
    if isWordBoundary c then pascalFrom true cs
    else (if start then c.toUpper else c) :: pascalFrom false cs

/-- The words of a small text, against its characters. -/
theorem exists_words_pascalFrom (h : Minuscule cs) :
    ∃ w ws, cs.splitOnP isWordBoundary = w :: ws ∧
      pascalFrom true cs = capitalize w ++ ws.flatMap capitalize ∧
      pascalFrom false cs = w ++ ws.flatMap capitalize ∧ Minuscule w := by
  induction cs with
  | nil => exact ⟨[], [], rfl, rfl, rfl, fun c hc => nomatch hc⟩
  | cons c cs ih =>
    obtain ⟨hc, hcs⟩ := List.forall_mem_cons.1 h
    obtain ⟨w, ws, hsplit, htrue, hfalse, hw⟩ := ih hcs
    rw [List.splitOnP_cons_eq_if_modifyHead, hsplit]
    by_cases hboundary : isWordBoundary c = true
    · refine ⟨[], w :: ws, if_pos hboundary, ?_, ?_, fun c hc => nomatch hc⟩
      · rw [pascalFrom, if_pos hboundary, htrue]
        rfl
      · rw [pascalFrom, if_pos hboundary, htrue]
        rfl
    · have hlt := toNat_lt_of_minuscule h List.mem_cons_self
      refine ⟨c :: w, ws, if_neg hboundary, ?_, ?_, List.forall_mem_cons.2 ⟨hc, hw⟩⟩
      · rw [pascalFrom, if_neg hboundary, hfalse, capitalize, upperChar, if_pos hlt, lower,
          lowerAfter_minuscule hw]
        rfl
      · rw [pascalFrom, if_neg hboundary, hfalse]
        rfl

theorem pascalChars_eq_pascalFrom (h : Minuscule cs) : pascalChars cs = pascalFrom true cs := by
  obtain ⟨w, ws, hsplit, htrue, -, -⟩ := exists_words_pascalFrom h
  rw [pascalChars, hsplit, htrue, List.flatMap_cons]

/-- A boundary cuts the name, too. -/
theorem pascalFrom_append (start : Bool) (cs ds : List Char) :
    pascalFrom start (cs ++ '_' :: ds) = pascalFrom start cs ++ pascalFrom true ds := by
  induction cs generalizing start with
  | nil => rfl
  | cons c cs ih =>
    rw [List.cons_append, pascalFrom, pascalFrom, ih, ih]
    split <;> rfl

theorem pascalChars_cons (hc : c.isLower = true) (hcs : Minuscule cs) :
    pascalChars (c :: cs) = c.toUpper :: pascalFrom false cs := by
  rw [pascalChars_eq_pascalFrom (List.forall_mem_cons.2 ⟨Or.inl hc, hcs⟩), pascalFrom,
    isWordBoundary_of_isLower hc]
  rfl

theorem isUpper_toUpper (h : c.isLower = true) : c.toUpper.isUpper = true := by
  have hall : ∀ n < 128, (Char.ofNat n).isLower = true → (Char.ofNat n).toUpper.isUpper = true := by
    decide
  exact of_toNat_lt (p := fun c => c.isLower = true → c.toUpper.isUpper = true) hall
    (toNat_lt_of_isAlphanum (by simp [isAlphanum_eq, h])) h

theorem toLower_toUpper (h : c.isLower = true) : c.toUpper.toLower = c := by
  have hall : ∀ n < 128, (Char.ofNat n).isLower = true →
      (Char.ofNat n).toUpper.toLower = Char.ofNat n := by decide
  exact of_toNat_lt (p := fun c => c.isLower = true → c.toUpper.toLower = c) hall
    (toNat_lt_of_isAlphanum (by simp [isAlphanum_eq, h])) h

theorem camelChars_cons (hc : c.isLower = true) (hcs : Minuscule cs) :
    camelChars (c :: cs) = c :: pascalFrom false cs := by
  have hupper : c.toUpper.toNat < 128 :=
    toNat_lt_of_isAlphanum (isAlphanum_toUpper (by simp [isAlphanum_eq, hc]))
  have hsigma : ¬ c.toUpper.toNat = 931 := by omega
  rw [camelChars, pascalChars_cons hc hcs, lowerFirst, lower, lowerAfter, if_neg hsigma, lowerChar,
    if_pos hupper, toLower_toUpper hc]
  rfl

/-! ### Stems -/

/-- A text without the boundaries that no small letter follows, and with underscores for the other
ones. -/
def stemChars : List Char → List Char
  | [] => []
  | c :: cs =>
    if isWordBoundary c then
      if cs.head?.any (·.isLower) then '_' :: stemChars cs else stemChars cs
    else c :: stemChars cs

/-- What `PascalCase` and `camelCase` tell of a slug. -/
def stem (s : String) : String := .ofList (stemChars s.toList)

/-- A name tells the stem of the text that it was made of. -/
theorem flatMap_snakeChar_pascalFrom (h : Minuscule cs) (start : Bool) :
    (pascalFrom start cs).flatMap snakeChar =
      if start && cs.head?.any (·.isLower) then '_' :: stemChars cs else stemChars cs := by
  induction cs generalizing start with
  | nil => cases start <;> rfl
  | cons c cs ih =>
    obtain ⟨hc, hcs⟩ := List.forall_mem_cons.1 h
    have hupper := isUpper_eq_false_of_minuscule h List.mem_cons_self
    rw [pascalFrom, stemChars]
    by_cases hboundary : isWordBoundary c = true
    · have hlower : c.isLower = false := by
        rw [Bool.eq_false_iff]
        intro hlower
        rw [isWordBoundary_of_isLower hlower] at hboundary
        cases hboundary
      simp [hboundary, ih hcs, hlower]
    · have hkeep : snakeChar c = [c] := by rw [snakeChar, hupper]; rfl
      rw [if_neg hboundary, if_neg hboundary, List.flatMap_cons, ih hcs, Bool.false_and,
        if_neg Bool.false_ne_true]
      cases start with
      | false => simp [hkeep]
      | true =>
        rcases hc with hlower | hdigit | hboundary'
        · -- the letter that begins a word was capitalised
          have hcap : snakeChar c.toUpper = ['_', c] := by
            rw [snakeChar, if_pos (isUpper_toUpper hlower), toLower_toUpper hlower]
          simp [hcap, hlower]
        · have hall : ∀ n < 128, (Char.ofNat n).isDigit = true →
              (Char.ofNat n).toUpper = Char.ofNat n ∧ (Char.ofNat n).isLower = false := by decide
          obtain ⟨hsame, hlower⟩ :=
            of_toNat_lt (p := fun c => c.isDigit = true → c.toUpper = c ∧ c.isLower = false) hall
              (toNat_lt_of_minuscule h List.mem_cons_self) hdigit
          simp [hsame, hkeep, hlower]
        · exact absurd hboundary' hboundary

theorem underscore_not_mem_pascalFrom (h : Minuscule cs) (start : Bool) :
    '_' ∉ pascalFrom start cs := by
  induction cs generalizing start with
  | nil => exact List.not_mem_nil
  | cons c cs ih =>
    obtain ⟨hc, hcs⟩ := List.forall_mem_cons.1 h
    rw [pascalFrom]
    split
    · exact ih hcs true
    · rename_i hboundary
      have halnum : c.isAlphanum = true := by
        rcases hc with hc | hc | hc
        · simp [isAlphanum_eq, hc]
        · simp [isAlphanum_eq, hc]
        · exact absurd hc hboundary
      have hne : ∀ d : Char, d.isAlphanum = true → '_' ≠ d := by
        rintro _ hd rfl
        cases hd
      rw [List.mem_cons, not_or]
      refine ⟨?_, ih hcs false⟩
      split
      · exact hne _ (isAlphanum_toUpper halnum)
      · exact hne _ halnum

theorem eq_of_toLower_eq (hc : c.isUpper = true) (hd : d.isUpper = true)
    (h : c.toLower = d.toLower) : c = d := by
  have hall : ∀ n < 128, (Char.ofNat n).isUpper = true →
      (Char.ofNat n).toLower.toUpper = Char.ofNat n := by decide
  have hback : ∀ e : Char, e.isUpper = true → e.toLower.toUpper = e := fun e he =>
    of_toNat_lt (p := fun e => e.isUpper = true → e.toLower.toUpper = e) hall
      (toNat_lt_of_isAlphanum (by simp [isAlphanum_eq, he])) he
  rw [← hback c hc, ← hback d hd, h]

/-- Texts without underscores are told apart in `snake_case`. -/
theorem flatMap_snakeChar_injOn (hcs : '_' ∉ cs) (hds : '_' ∉ ds)
    (h : cs.flatMap snakeChar = ds.flatMap snakeChar) : cs = ds := by
  induction cs generalizing ds with
  | nil =>
    cases ds with
    | nil => rfl
    | cons d ds =>
      rw [List.flatMap_cons, List.flatMap_nil] at h
      exact absurd (List.append_eq_nil_iff.1 h.symm).1 (snakeChar_ne_nil d)
  | cons c cs ih =>
    cases ds with
    | nil =>
      rw [List.flatMap_cons, List.flatMap_nil] at h
      exact absurd (List.append_eq_nil_iff.1 h).1 (snakeChar_ne_nil c)
    | cons d ds =>
      rw [List.mem_cons, not_or] at hcs hds
      obtain ⟨hc, hcs⟩ := hcs
      obtain ⟨hd, hds⟩ := hds
      rw [List.flatMap_cons, List.flatMap_cons, snakeChar, snakeChar] at h
      -- a capital letter begins with an underscore, and no other character does
      split at h <;> split at h
      · rename_i hcupper hdupper
        obtain ⟨-, hlower, hrest⟩ : True ∧ c.toLower = d.toLower ∧
            cs.flatMap snakeChar = ds.flatMap snakeChar := by simpa using h
        rw [eq_of_toLower_eq hcupper hdupper hlower, ih hcs hds hrest]
      · exact absurd (List.cons.inj h).1 hd
      · exact absurd (List.cons.inj h).1.symm hc
      · obtain ⟨rfl, hrest⟩ := List.cons.inj h
        rw [ih hcs hds hrest]

theorem pascalFrom_false_eq_iff (hcs : Minuscule cs) (hds : Minuscule ds) :
    pascalFrom false cs = pascalFrom false ds ↔ stemChars cs = stemChars ds := by
  have hback : ∀ {es : List Char}, Minuscule es →
      (pascalFrom false es).flatMap snakeChar = stemChars es := fun hes =>
    flatMap_snakeChar_pascalFrom hes false
  rw [← hback hcs, ← hback hds]
  exact ⟨congrArg _, flatMap_snakeChar_injOn (underscore_not_mem_pascalFrom hcs false)
    (underscore_not_mem_pascalFrom hds false)⟩

theorem stemChars_cons (hc : c.isLower = true) : stemChars (c :: cs) = c :: stemChars cs := by
  rw [stemChars, isWordBoundary_of_isLower hc]
  rfl

theorem stem_eq_iff : stem s = stem t ↔ stemChars s.toList = stemChars t.toList :=
  String.ofList_inj

/-- Two slugs have one name in `PascalCase` exactly if they have one stem. -/
theorem pascalCase_eq_iff (hs : Reader.isSlug s = true) (ht : Reader.isSlug t = true) :
    pascalCase s = pascalCase t ↔ stem s = stem t := by
  obtain ⟨c, cs, hcs, hc, hsmall⟩ := isSlug_iff_minuscule.1 hs
  obtain ⟨d, ds, hds, hd, htsmall⟩ := isSlug_iff_minuscule.1 ht
  have hfirst : c.toUpper = d.toUpper ↔ c = d :=
    ⟨fun h => by rw [← toLower_toUpper hc, ← toLower_toUpper hd, h], congrArg _⟩
  rw [stem_eq_iff, pascalCase, pascalCase, String.ofList_inj, hcs, hds, pascalChars_cons hc hsmall,
    pascalChars_cons hd htsmall, stemChars_cons hc, stemChars_cons hd, List.cons.injEq,
    List.cons.injEq, hfirst, pascalFrom_false_eq_iff hsmall htsmall]

/-- Two slugs have one name in `camelCase` exactly if they have one stem. -/
theorem camelCase_eq_iff (hs : Reader.isSlug s = true) (ht : Reader.isSlug t = true) :
    camelCase s = camelCase t ↔ stem s = stem t := by
  obtain ⟨c, cs, hcs, hc, hsmall⟩ := isSlug_iff_minuscule.1 hs
  obtain ⟨d, ds, hds, hd, htsmall⟩ := isSlug_iff_minuscule.1 ht
  rw [stem_eq_iff, camelCase, camelCase, String.ofList_inj, hcs, hds, camelChars_cons hc hsmall,
    camelChars_cons hd htsmall, stemChars_cons hc, stemChars_cons hd, List.cons.injEq,
    List.cons.injEq, pascalFrom_false_eq_iff hsmall htsmall]

/-! ### Names of several parts -/

theorem pascalCase_append (hs : Minuscule s.toList) (ht : Minuscule t.toList) :
    pascalCase (s ++ "_" ++ t) = pascalCase s ++ pascalCase t := by
  have hlist : (s ++ "_" ++ t).toList = s.toList ++ '_' :: t.toList := by simp
  have hboth : Minuscule (s.toList ++ '_' :: t.toList) :=
    minuscule_append.2 ⟨hs, List.forall_mem_cons.2 ⟨Or.inr (Or.inr rfl), ht⟩⟩
  rw [pascalCase, pascalCase, pascalCase, ← String.ofList_append, hlist,
    pascalChars_eq_pascalFrom hs, pascalChars_eq_pascalFrom ht, pascalChars_eq_pascalFrom hboth,
    pascalFrom_append]

theorem camelCase_append (hs : Reader.isSlug s = true) (ht : Minuscule t.toList) :
    camelCase (s ++ "_" ++ t) = camelCase s ++ pascalCase t := by
  obtain ⟨c, cs, hcs, hc, hsmall⟩ := isSlug_iff_minuscule.1 hs
  have hlist : (s ++ "_" ++ t).toList = c :: (cs ++ '_' :: t.toList) := by simp [hcs]
  have hboth : Minuscule (cs ++ '_' :: t.toList) :=
    minuscule_append.2 ⟨hsmall, List.forall_mem_cons.2 ⟨Or.inr (Or.inr rfl), ht⟩⟩
  rw [camelCase, camelCase, pascalCase, ← String.ofList_append, hlist, hcs,
    camelChars_cons hc hboth, camelChars_cons hc hsmall, pascalChars_eq_pascalFrom ht,
    pascalFrom_append, List.cons_append]

theorem pascalCase_translation : pascalCase "translation" = "Translation" := by
  decide +kernel

theorem minuscule_singular {key : String} (h : Minuscule key.toList) :
    Minuscule (singular key).toList := by
  rw [singular]
  split
  · rw [String.toList_ofList]
    exact fun c hc => h c (List.dropLast_subset _ hc)
  · exact h

end Naming

end ContentSchema
