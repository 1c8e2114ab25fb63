import Mathlib.Data.List.Nodup

/-!
# Lists by key

Putting an item in the place of those with its key, or at the end if there are none.  Tables by
name, components by slug and the entries of an object are put in like this; here is what it keeps,
one item at a time and for a list of them.
-/

namespace ContentSchema

variable {α κ : Type} [BEq κ] [LawfulBEq κ] {key : α → κ} {l more : List α} {a b : α} {k : κ}

/-- Puts an item in the place of those with its key, or at the end if there are none. -/
def putBy (key : α → κ) (l : List α) (a : α) : List α :=
  if l.any (key · == key a) then l.map fun b => if key b == key a then a else b else l ++ [a]

omit [LawfulBEq κ] in
theorem mem_putBy (h : b ∈ putBy key l a) : b ∈ l ∨ b = a := by
  rw [putBy] at h
  split at h
  · obtain ⟨c, hc, rfl⟩ := List.mem_map.1 h
    split
    · exact Or.inr rfl
    · exact Or.inl hc
  · simpa using h

theorem putBy_of_not_mem (h : key a ∉ l.map key) : putBy key l a = l ++ [a] := by
  refine if_neg fun hany => h ?_
  obtain ⟨b, hb, hkey⟩ := List.any_eq_true.1 hany
  exact List.mem_map.2 ⟨b, hb, by simpa using hkey⟩

/-- An item takes the place of one with its key. -/
theorem putBy_of_mem (h : key a ∈ l.map key) :
    putBy key l a = l.map fun b => if key b == key a then a else b := by
  obtain ⟨b, hb, hkey⟩ := List.mem_map.1 h
  exact if_pos (List.any_eq_true.2 ⟨b, hb, by simpa using hkey⟩)

theorem keys_putBy_of_mem (h : key a ∈ l.map key) : (putBy key l a).map key = l.map key := by
  rw [putBy_of_mem h, List.map_map]
  refine List.map_congr_left fun b _ => ?_
  by_cases hb : key b = key a <;> simp [hb]

/-- Putting an item in adds its key and keeps all others. -/
theorem mem_keys_putBy : k ∈ (putBy key l a).map key ↔ k ∈ l.map key ∨ k = key a := by
  by_cases hmem : key a ∈ l.map key
  · rw [keys_putBy_of_mem hmem]
    refine ⟨Or.inl, ?_⟩
    rintro (h | rfl)
    · exact h
    · exact hmem
  · simp [putBy_of_not_mem hmem]

theorem nodup_keys_putBy (h : (l.map key).Nodup) : ((putBy key l a).map key).Nodup := by
  by_cases hmem : key a ∈ l.map key
  · rw [keys_putBy_of_mem hmem]
    exact h
  · rw [putBy_of_not_mem hmem, List.map_append]
    exact List.nodup_append.2 ⟨h, List.nodup_singleton _, fun k hk k' hk' =>
      ne_of_mem_of_not_mem hk (List.mem_singleton.1 hk' ▸ hmem)⟩

/-- An item is found under its key. -/
theorem find?_putBy_self : (putBy key l a).find? (key · == key a) = some a := by
  have hmap : key a ∈ l.map key →
      (l.map fun b => if key b == key a then a else b).find? (key · == key a) = some a := by
    induction l with
    | nil => exact fun h => nomatch h
    | cons b l ih =>
      intro hmem
      rw [List.map_cons, List.find?_cons]
      by_cases hb : key b = key a
      · simp [hb]
      · rw [if_neg (by simpa using hb), beq_false_of_ne hb]
        exact ih ((List.mem_cons.1 hmem).resolve_left (Ne.symm hb))
  by_cases hmem : key a ∈ l.map key
  · rw [putBy_of_mem hmem]
    exact hmap hmem
  · have hnone : l.find? (key · == key a) = none :=
      List.find?_eq_none.2 fun b hb hkey =>
        hmem (List.mem_map.2 ⟨b, hb, by simpa using hkey⟩)
    rw [putBy_of_not_mem hmem, List.find?_append, hnone]
    simp

/-- What is found under another key stays. -/
theorem find?_putBy_of_ne (h : k ≠ key a) :
    (putBy key l a).find? (key · == k) = l.find? (key · == k) := by
  have ha : (key a == k) = false := by simpa using h.symm
  have hmap : (l.map fun b => if key b == key a then a else b).find? (key · == k) =
      l.find? (key · == k) := by
    induction l with
    | nil => rfl
    | cons b l ih =>
      rw [List.map_cons, List.find?_cons, List.find?_cons]
      by_cases hb : key b = key a
      · simpa [hb, ha] using ih
      · cases hfound : key b == k with
        | true => simp [hb, hfound]
        | false => simpa [hb, hfound] using ih
  rw [putBy]
  split
  · exact hmap
  · simp [ha]

/-! ### Many items -/

omit [LawfulBEq κ] in
theorem mem_foldl_putBy (h : b ∈ more.foldl (putBy key) l) : b ∈ l ∨ b ∈ more := by
  induction more generalizing l with
  | nil => exact Or.inl h
  | cons a more ih =>
    rcases ih h with h | h
    · rcases mem_putBy h with h | rfl
      · exact Or.inl h
      · exact Or.inr List.mem_cons_self
    · exact Or.inr (List.mem_cons_of_mem _ h)

/-- No key is lost and none is made up. -/
theorem mem_keys_foldl_putBy :
    k ∈ (more.foldl (putBy key) l).map key ↔ k ∈ l.map key ∨ k ∈ more.map key := by
  induction more generalizing l with
  | nil => simp
  | cons a more ih =>
    rw [List.foldl_cons, ih, mem_keys_putBy, List.map_cons, List.mem_cons, or_assoc]

theorem nodup_keys_foldl_putBy (h : (l.map key).Nodup) :
    ((more.foldl (putBy key) l).map key).Nodup := by
  induction more generalizing l with
  | nil => exact h
  | cons a more ih => exact ih (nodup_keys_putBy h)

/-- Under each key the last item that was put in is found. -/
theorem find?_foldl_putBy : (more.foldl (putBy key) l).find? (key · == k) =
    (more.reverse.find? (key · == k)).or (l.find? (key · == k)) := by
  induction more generalizing l with
  | nil => rfl
  | cons a more ih =>
    rw [List.foldl_cons, ih, List.reverse_cons, List.find?_append, Option.or_assoc]
    congr 1
    by_cases hk : k = key a
    · rw [hk, find?_putBy_self]
      simp
    · rw [find?_putBy_of_ne hk, List.find?_singleton, if_neg (by simpa using Ne.symm hk)]
      rfl

/-- Of a list, the last item of each key is kept. -/
theorem mem_foldl_putBy_iff :
    a ∈ l.foldl (putBy key) [] ↔ l.reverse.find? (key · == key a) = some a := by
  have hfind : (l.foldl (putBy key) []).find? (key · == key a) =
      l.reverse.find? (key · == key a) := by
    rw [find?_foldl_putBy, List.find?_nil, Option.or_none]
  have hnodup : ((l.foldl (putBy key) []).map key).Nodup :=
    nodup_keys_foldl_putBy List.nodup_nil
  rw [← hfind]
  refine ⟨fun h => ?_, List.mem_of_find?_eq_some⟩
  cases hb : (l.foldl (putBy key) []).find? (key · == key a) with
  | none => exact absurd (beq_self_eq_true _) (List.find?_eq_none.1 hb a h)
  | some b =>
    have hkey : key b = key a := by simpa using List.find?_some hb
    rw [List.inj_on_of_nodup_map hnodup (List.mem_of_find?_eq_some hb) h hkey]

/-- Items with keys of their own are put at the end, one after the other. -/
theorem foldl_putBy_of_nodup (h : ((l ++ more).map key).Nodup) :
    more.foldl (putBy key) l = l ++ more := by
  induction more generalizing l with
  | nil => exact (List.append_nil l).symm
  | cons a more ih =>
    have hmem : key a ∉ l.map key := fun hmem => by
      rw [List.map_append, List.map_cons] at h
      exact (List.nodup_append.1 h).2.2 _ hmem _ List.mem_cons_self rfl
    rw [List.foldl_cons, putBy_of_not_mem hmem, ih (by simpa using h), List.append_assoc]
    rfl

/-! ### Changed items -/

section Map

variable {β : Type} {key' : β → κ} {g : α → β}

omit [LawfulBEq κ] in
/-- Items may be changed before or after they are put in, as long as they keep their keys. -/
theorem putBy_map (hg : ∀ a, key' (g a) = key a) (l : List α) (a : α) :
    putBy key' (l.map g) (g a) = (putBy key l a).map g := by
  rw [putBy, putBy, List.any_map]
  simp only [Function.comp_def, hg]
  split
  · rw [List.map_map, List.map_map]
    refine List.map_congr_left fun b _ => ?_
    simp only [Function.comp_apply, hg]
    exact (apply_ite g _ _ _).symm
  · rw [List.map_append]
    rfl

omit [LawfulBEq κ] in
theorem foldl_putBy_map (hg : ∀ a, key' (g a) = key a) (more l : List α) :
    (more.map g).foldl (putBy key') (l.map g) = (more.foldl (putBy key) l).map g := by
  induction more generalizing l with
  | nil => rfl
  | cons a more ih =>
    rw [List.map_cons, List.foldl_cons, List.foldl_cons, putBy_map hg, ih]

end Map

end ContentSchema
