import ContentSchema.Proofs.Schema.Defaults
import Mathlib.Data.List.TakeDrop

/-!
# What attributes spell

Where a name, a relation or a default is read from an attribute, the attribute has its form: what is
read stands in it, between the marks that belong there.
-/

namespace ContentSchema.Attribute

open Text

variable {cs part rest attr value : List Char}

theorem upTo?_eq_some {stop : Char} (h : upTo? stop cs = some (part, rest)) :
    part ≠ [] ∧ stop ∉ part ∧ cs = part ++ stop :: rest := by
  rw [upTo?, List.span_eq_takeWhile_dropWhile] at h
  simp only at h
  split at h
  · cases h
  · cases h
  · rename_i c after hrest hne
    cases h
    refine ⟨hne, fun hmem => ?_, ?_⟩
    · simpa using List.mem_takeWhile_imp hmem
    · have hstop : c = stop := by
        have := List.head?_dropWhile_not (· ≠ stop) cs
        rw [hrest] at this
        simpa using this
      subst hstop
      rw [← hrest, List.takeWhile_append_dropWhile]

theorem quotedAt?_eq_some (h : quotedAt? cs = some (part, rest)) :
    part ≠ [] ∧ '"' ∉ part ∧ cs = '"' :: (part ++ '"' :: rest) := by
  obtain ⟨ds, hds, h⟩ := Option.bind_eq_some_iff.1 h
  obtain ⟨hne, hquote, rfl⟩ := upTo?_eq_some h
  exact ⟨hne, hquote, dropStart?_eq_some.1 hds⟩

theorem mapNameAt?_eq_some {title n : String} (h : mapNameAt? title attr = some n) :
    '"' ∉ n.toList ∧ ∃ rest, attr = title.toList ++ '"' :: (n.toList ++ '"' :: (')' :: rest)) := by
  obtain ⟨ds, hds, h⟩ := Option.bind_eq_some_iff.1 h
  obtain ⟨⟨name, after⟩, hname, h⟩ := Option.bind_eq_some_iff.1 h
  obtain ⟨rest, hclose, h⟩ := Option.bind_eq_some_iff.1 h
  cases h
  rw [String.toList_ofList]
  obtain ⟨-, hquote, rfl⟩ := quotedAt?_eq_some hname
  obtain rfl : after = ')' :: rest := dropStart?_eq_some.1 hclose
  exact ⟨hquote, rest, dropStart?_eq_some.1 hds⟩

/-- The name of a relation stands behind blanks and the title of a name. -/
theorem relationName?_eq_some (h : relationName? attr = some part) : '"' ∉ part ∧
    ∃ mid rest, attr = "@relation(".toList ++ mid ++ '"' :: (part ++ '"' :: rest) ∧
      ∀ c ∈ mid, isBlank c = true ∨ c ∈ "name:".toList := by
  obtain ⟨ds, hds, h⟩ := Option.bind_eq_some_iff.1 h
  obtain ⟨⟨name, after⟩, hname, h⟩ := Option.bind_eq_some_iff.1 h
  cases h
  obtain ⟨-, hquote, htext⟩ := quotedAt?_eq_some hname
  rw [dropStart?_eq_some] at hds
  have hblanks := List.takeWhile_append_dropWhile (p := isBlank) (l := ds)
  refine ⟨hquote, ?_⟩
  split at htext
  · rename_i es hes
    rw [dropStart?_eq_some] at hes
    have hblanks' := List.takeWhile_append_dropWhile (p := isBlank) (l := es)
    refine ⟨ds.takeWhile isBlank ++ ("name:".toList ++ es.takeWhile isBlank), after, ?_, ?_⟩
    · rw [htext] at hblanks'
      rw [hes, ← hblanks'] at hblanks
      rw [hds]
      conv_lhs => rw [← hblanks]
      simp
    · intro c hc
      rcases List.mem_append.1 hc with hc | hc
      · exact Or.inl (List.mem_takeWhile_imp hc)
      · rcases List.mem_append.1 hc with hc | hc
        · exact Or.inr hc
        · exact Or.inl (List.mem_takeWhile_imp hc)
  · refine ⟨ds.takeWhile isBlank, after, ?_, fun c hc => Or.inl (List.mem_takeWhile_imp hc)⟩
    rw [htext] at hblanks
    rw [hds, List.append_assoc, hblanks]

theorem defaultBody?_eq_some (h : defaultBody? attr = some part) :
    ∃ final, attr = "@default(".toList ++ (part ++ ')' :: final) ∧
      (final = [] ∨ final = ['\n']) := by
  obtain ⟨ds, hds, h⟩ := Option.bind_eq_some_iff.1 h
  rw [dropStart?_eq_some] at hds
  rw [hds, ← List.reverse_reverse ds]
  simp only [Option.bind_eq_bind, Option.bind_some, Option.bind_none] at h
  split at h
  · rename_i r hr
    split at h
    · cases h
    · cases h
      exact ⟨[], by simp [hr], Or.inl rfl⟩
  · rename_i r hr
    split at h
    · cases h
    · cases h
      exact ⟨['\n'], by simp [hr], Or.inr rfl⟩
  · cases h

theorem literalValue_eq_text {s : String} (h : literalValue value = .ok (.text s)) :
    s.toList = (unquoted? value).getD value := by
  rw [literalValue] at h
  split at h
  · cases h
  split at h
  · cases h
  obtain ⟨negative, digits⟩ := takeMinus value
  dsimp only at h
  split at h
  · split at h <;> cases h
  · split at h
    · cases h
    · cases h
      exact String.toList_ofList

theorem unquoted?_eq_some (h : unquoted? value = some part) :
    ∃ q, (q = '"' ∨ q = '\'') ∧ value = q :: (part ++ [q]) := by
  match value with
  | [] | [_] => cases h
  | q :: c :: ds =>
    rw [unquoted?] at h
    split at h
    · rename_i hquote
      cases h
      refine ⟨q, hquote.1, ?_⟩
      rw [List.dropLast_append_getLast? q hquote.2]
    · cases h

theorem count_unquoted {m : Char} (hm : m ∈ ['@', '(', ')']) (value : List Char) :
    ((unquoted? value).getD value).count m = value.count m := by
  cases h : unquoted? value with
  | none => rfl
  | some part =>
    obtain ⟨q, hq, rfl⟩ := unquoted?_eq_some h
    have hne : ∀ m ∈ ['@', '(', ')'], '"' ≠ m ∧ '\'' ≠ m := by decide
    have hqm : q ≠ m := by
      rcases hq with rfl | rfl
      · exact (hne m hm).1
      · exact (hne m hm).2
    simp [hqm]

theorem count_strip {m : Char} (hm : isBlank m = false) (cs : List Char) :
    (strip cs).count m = cs.count m := by
  have hblanks : ∀ bs : List Char, (∀ b ∈ bs, isBlank b = true) → bs.count m = 0 := by
    refine fun bs hbs => List.count_eq_zero.2 fun hmem => ?_
    rw [hbs m hmem] at hm
    cases hm
  obtain ⟨bs, hdrop, hbs⟩ := exists_eq_stripEnd_append (cs.dropWhile isBlank)
  have hsplit := List.takeWhile_append_dropWhile (p := isBlank) (l := cs)
  conv_rhs => rw [← hsplit, hdrop]
  rw [List.count_append, List.count_append, hblanks bs hbs,
    hblanks _ fun b hb => List.mem_takeWhile_imp hb, Nat.zero_add, Nat.add_zero]
  rfl

theorem strip_quotes (cs : List Char) : strip ('"' :: (cs ++ ['"'])) = '"' :: (cs ++ ['"']) := by
  have hstart := @strip_append [] '"' (by simp) (by decide) (cs ++ ['"'])
  rw [List.nil_append] at hstart
  rw [hstart, stripEnd_append_solid (by decide)]
  rfl

/-- What spells neither a truth value nor a number is read as a text. -/
theorem literalValue_of_text (htrue : value ≠ "true".toList) (hfalse : value ≠ "false".toList)
    (hdigits : isDigits (takeMinus value).2 = false)
    (hplaces : isDigits ((takeMinus value).2.takeWhile (· ≠ '.')) = false ∨
      isDigits ((takeMinus value).2.dropWhile (· ≠ '.')).tail = false) :
    literalValue value = .ok (.text (String.ofList ((unquoted? value).getD value))) := by
  rw [← Bool.and_eq_false_iff] at hplaces
  rw [literalValue, if_neg htrue, if_neg hfalse]
  generalize takeMinus value = split at hdigits hplaces ⊢
  obtain ⟨negative, digits⟩ := split
  simp only [List.span_eq_takeWhile_dropWhile] at hdigits hplaces ⊢
  rw [hdigits, hplaces]
  rfl

/-- A text in quotes is read as what stands between them. -/
theorem literalValue_quotes (cs : List Char) :
    literalValue ('"' :: (cs ++ ['"'])) = .ok (.text (String.ofList cs)) := by
  have hunquoted : unquoted? ('"' :: (cs ++ ['"'])) = some cs := by
    obtain ⟨c, ds, hcs⟩ := List.exists_cons_of_ne_nil (l := cs ++ ['"']) (by simp)
    have hlast : (c :: ds).getLast? = some '"' := by rw [← hcs, List.getLast?_concat]
    rw [hcs, unquoted?, if_pos ⟨Or.inl rfl, hlast⟩, ← hcs, List.dropLast_concat]
  have htext := @literalValue_of_text ('"' :: (cs ++ ['"'])) nofun nofun rfl (Or.inl rfl)
  rw [hunquoted] at htext
  exact htext

end ContentSchema.Attribute
