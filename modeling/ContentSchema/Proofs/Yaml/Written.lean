import ContentSchema.Yaml.Writer
import Mathlib.Data.List.SplitBy

/-!
# What a document is written with

A pen only adds to what it has written.  For texts and truth values, and for objects of them, it
adds no carriage return, since texts with one are written with escapes.

* `Pen.extends_value`: what is added for a value.
* `exists_write_eq_append`: how the document of an object begins.
-/

namespace ContentSchema.Yaml

/-! ### Values without numbers -/

/-- Texts and truth values, and objects of them. -/
inductive Worded : Value → Prop where
  | text (s : String) : Worded (.text s)
  | bool (b : Bool) : Worded (.bool b)
  | object {entries : Entries} (h : ∀ e ∈ entries, Worded e.2) : Worded (.object entries)

@[simp] theorem worded_text (s : String) : Worded (.text s) := .text s

@[simp] theorem worded_bool (b : Bool) : Worded (.bool b) := .bool b

@[simp] theorem worded_object {entries : Entries} :
    Worded (.object entries) ↔ ∀ e ∈ entries, Worded e.2 := by
  refine ⟨fun h => ?_, .object⟩
  cases h with
  | object h => exact h

/-! ### Pens that have written more -/

namespace Pen

/-- Another pen has written what this one has and more, and no carriage return in it. -/
def Extends (p q : Pen) : Prop := ∃ added, q.written = added ++ p.written ∧ '\r' ∉ added

variable {p q r : Pen} {cs : List Char}

theorem Extends.refl (p : Pen) : Extends p p := ⟨[], rfl, List.not_mem_nil⟩

theorem Extends.trans (h : Extends p q) (h' : Extends q r) : Extends p r := by
  obtain ⟨first, hfirst, hnone⟩ := h
  obtain ⟨second, hsecond, hnone'⟩ := h'
  exact ⟨second ++ first, by rw [hsecond, hfirst, List.append_assoc], by simp [hnone, hnone']⟩

/-- Only what is written counts. -/
theorem Extends.of_written (h : Extends p q) (hsame : r.written = q.written) : Extends p r := by
  rw [Extends, hsame]
  exact h

theorem extends_write (p : Pen) (h : '\r' ∉ cs) : Extends p (p.write cs) :=
  ⟨cs.reverse, rfl, by simpa using h⟩

theorem extends_breakLine (p : Pen) {c : Char} (h : c ≠ '\r') : Extends p (p.breakLine c) :=
  ⟨[c], rfl, by simpa using h.symm⟩

/-- Many steps add what each of them adds. -/
theorem extends_foldl {α : Type} {step : Pen → α → Pen} {l : List α}
    (h : ∀ a ∈ l, ∀ p, Extends p (step p a)) (p : Pen) : Extends p (l.foldl step p) := by
  induction l generalizing p with
  | nil => exact .refl p
  | cons a l ih =>
    exact (h a List.mem_cons_self p).trans (ih (fun b hb => h b (List.mem_cons_of_mem a hb)) _)

theorem extends_indent (p : Pen) (width : Nat) : Extends p (p.indent width) := by
  have hspaces : ∀ n, '\r' ∉ List.replicate n ' ' := by
    intro n hmem
    cases List.eq_of_mem_replicate hmem
  rw [indent]
  generalize hbroken : (if !p.isIndented || width < p.column || (p.column == width && !p.isApart)
    then p.breakLine '\n' else p) = broken
  have hbreak : Extends p broken := by
    rw [← hbroken]
    split
    · exact p.extends_breakLine (by decide)
    · exact .refl p
  refine hbreak.trans ?_
  dsimp only
  split
  · exact (broken.extends_write (hspaces _)).of_written rfl
  · exact .refl broken

theorem extends_fold (p : Pen) (width : Nat) : Extends p (p.fold width) :=
  (p.extends_indent width).of_written rfl

theorem extends_mark (p : Pen) (h : '\r' ∉ cs) (needsSpace opensLine : Bool) :
    Extends p (p.mark cs needsSpace opensLine) := by
  have hspaced : '\r' ∉ if p.isApart || !needsSpace then cs else ' ' :: cs := by
    split
    · exact h
    · simpa using h
  exact (p.extends_write hspaced).of_written rfl

end Pen

/-! ### Scalars -/

/-- The runs of a text hold nothing else. -/
theorem mem_of_mem_runs {cs run : List Char} {c : Char} (hrun : run ∈ runs cs) (hc : c ∈ run) :
    c ∈ cs := by
  rw [← List.flatten_splitBy (fun c d => (c == ' ') == (d == ' ') && isKeptBreak c == isKeptBreak d)
    cs]
  exact List.mem_flatten.2 ⟨run, hrun, hc⟩

/-- A text that may stand without escapes holds no carriage return. -/
theorem not_mem_of_shape {cs : List Char}
    (h : (Shape.of cs).allowsPlain = true ∨ (Shape.of cs).allowsSingle = true) : '\r' ∉ cs := by
  intro hmem
  have hescape : cs.any needsEscape = true := List.any_eq_true.2 ⟨'\r', hmem, by decide⟩
  rcases h with h | h <;> simp [Shape.of, hescape] at h

theorem not_mem_escapeOf (c : Char) : '\r' ∉ escapeOf c := by
  have hdigits : ∀ width n, '\r' ∉ (Text.hexDigits width n).map Char.toUpper := by
    have hall : ∀ k < 16, '\r' ≠ (Text.hexDigit k).toUpper := by decide
    intro width
    induction width with
    | zero => exact fun _ => List.not_mem_nil
    | succ width ih =>
      intro n
      rw [Text.hexDigits, List.map_append, List.mem_append, not_or]
      exact ⟨ih _, by simpa using hall _ (Nat.mod_lt n (by decide))⟩
  have hletters : ∀ e ∈ Lex.escapes, '\r' ≠ e.1 := by decide
  rw [escapeOf]
  dsimp only
  split
  · rename_i letter d hfind
    have hmem := (List.mem_filter.1 (List.mem_of_find?_eq_some hfind)).1
    simpa using hletters _ hmem
  · split
    · simpa using hdigits 2 c.toNat
    · split
      · simpa using hdigits 4 c.toNat
      · simpa using hdigits 8 c.toNat

namespace Pen

theorem extends_plain (p : Pen) (width : Nat) (folds : Bool) {cs : List Char} (h : '\r' ∉ cs) :
    Extends p (p.plain width folds cs) := by
  have happart : Extends p (if p.isApart then p else p.write [' ']) := by
    split
    · exact .refl p
    · exact p.extends_write (by decide)
  rw [plain]
  refine (happart.of_written rfl).trans (extends_foldl (fun run hrun q => ?_) _)
  split
  · exact q.extends_fold width
  · exact q.extends_write fun hc => h (mem_of_mem_runs hrun hc)

theorem extends_singleRuns (width : Nat) (folds : Bool) {runs : List (List Char)}
    (h : ∀ run ∈ runs, '\r' ∉ run) (isFirst : Bool) (p : Pen) :
    Extends p (p.singleRuns width folds isFirst runs) := by
  induction runs generalizing isFirst p with
  | nil => exact .refl p
  | cons run runs ih =>
    have hrun := h run List.mem_cons_self
    rw [singleRuns]
    refine Extends.trans ?_ (ih (fun r hr => h r (List.mem_cons_of_mem run hr)) false _)
    split
    · exact p.extends_indent width
    split
    · have hstart : Extends p (if run.head? = some '\n' then p.breakLine '\n' else p) := by
        split
        · exact p.extends_breakLine (by decide)
        · exact .refl p
      have hbreaks : ∀ q, Extends q (run.foldl breakLine q) :=
        extends_foldl fun c hc q => q.extends_breakLine fun heq => hrun (heq ▸ hc)
      exact (hstart.trans (hbreaks _)).trans (extends_indent _ width)
    · refine p.extends_write fun hmem => ?_
      obtain ⟨c, hc, hquoted⟩ := List.mem_flatMap.1 hmem
      split at hquoted
      · simp at hquoted
      · exact hrun (List.mem_singleton.1 hquoted ▸ hc)

/-- A backslash in front of a space keeps it at the start of a line. -/
theorem extends_backslash (p : Pen) (b : Prop) [Decidable b] :
    Extends p (if b then p.write ['\\'] else p) := by
  split
  · exact p.extends_write (by decide)
  · exact .refl p

theorem extends_doubleChars (width : Nat) (folds : Bool) (total : Nat) (cs : List Char) (p : Pen)
    (i : Nat) {pending : List Char} (hpending : '\r' ∉ pending) :
    Extends p (p.doubleChars width folds total i pending cs) := by
  induction cs generalizing p i pending with
  | nil => exact p.extends_write (by simpa using hpending)
  | cons c cs ih =>
    have hreverse : '\r' ∉ pending.reverse := by simpa using hpending
    rw [doubleChars]
    dsimp only
    split
    · have hescape := (p.extends_write hreverse).trans (extends_write _ (not_mem_escapeOf c))
      refine hescape.trans (.trans ?_ (ih _ _ List.not_mem_nil))
      split
      · exact ((extends_write _ (by decide)).trans (extends_fold _ width)).trans
          (extends_backslash _ _)
      · exact .refl _
    · rename_i hplain
      have hc : '\r' ≠ c := by
        rintro rfl
        exact hplain (by decide)
      split
      · have hline : '\r' ∉ pending.reverse ++ ['\\'] := by simp [hreverse]
        have hwritten := (p.extends_write hline).trans (extends_fold _ width)
        exact hwritten.trans ((extends_backslash _ _).trans (ih _ _ (by simpa using hc)))
      · exact ih p _ (by simp [hc, hpending])

theorem extends_scalar (p : Pen) (width : Nat) (isKey : Bool) (s : String) :
    Extends p (p.scalar width isKey s) := by
  rw [scalar]
  cases hquoting : quotingOf s isKey with
  | plain =>
    refine p.extends_plain width _ (not_mem_of_shape (.inl ?_))
    rw [quotingOf] at hquoting
    split at hquoting
    · simp_all
    · split at hquoting <;> cases hquoting
  | single =>
    have hruns : ∀ run ∈ runs s.toList, '\r' ∉ run := by
      intro run hrun hc
      refine not_mem_of_shape (.inr ?_) (mem_of_mem_runs hrun hc)
      rw [quotingOf] at hquoting
      split at hquoting
      · cases hquoting
      · split at hquoting
        · simp_all
        · cases hquoting
    exact ((p.extends_mark (by decide) true false).trans
      (extends_singleRuns width _ hruns true _)).trans (extends_mark _ (by decide) false false)
  | double =>
    exact ((p.extends_mark (by decide) true false).trans
      (extends_doubleChars width _ _ _ _ 0 List.not_mem_nil)).trans
      (extends_mark _ (by decide) false false)

/-- The entries of an object add what their keys and values add. -/
theorem extends_entries (width : Nat) {entries : Entries}
    (h : ∀ e ∈ entries, ∀ p width behindKey, Extends p (p.value width behindKey e.2)) (p : Pen) :
    Extends p (p.entries width entries) := by
  induction entries generalizing p with
  | nil =>
    rw [Pen.entries]
    exact .refl p
  | cons e entries ih =>
    obtain ⟨k, v⟩ := e
    rw [Pen.entries]
    refine (p.extends_indent width).trans (.trans (.trans ?_ (h _ List.mem_cons_self _ _ _))
      (ih (fun e he => h e (List.mem_cons_of_mem _ he)) _))
    split
    · exact (extends_scalar _ _ _ k).trans (extends_mark _ (by decide) false false)
    · exact (((extends_mark _ (by decide) true true).trans (extends_scalar _ _ _ k)).trans
        (extends_indent _ width)).trans (extends_mark _ (by decide) true true)

theorem extends_value {v : Value} (h : Worded v) (p : Pen) (width : Option Nat) (behindKey : Bool) :
    Extends p (p.value width behindKey v) := by
  induction h generalizing p width behindKey with
  | text s =>
    rw [value]
    exact p.extends_scalar _ false s
  | bool b =>
    rw [value]
    exact p.extends_plain _ true (by cases b <;> decide)
  | @object entries _ ih =>
    cases entries with
    | nil =>
      rw [value]
      exact p.extends_mark (by decide) true false
    | cons e entries =>
      rw [value]
      · exact extends_entries _ ih p
      · nofun

end Pen

/-! ### Documents -/

/-- The document of an object begins with its first key, if the key needs no quotes, and holds no
carriage return. -/
theorem exists_write_eq_append (key : String) {v : Value} {entries : Entries}
    (hsimple : isSimpleKey key = true)
    (hkey : (Pen.fresh.scalar 2 true key).written = key.toList.reverse)
    (hv : Worded v) (hentries : ∀ e ∈ entries, Worded e.2) :
    ∃ rest, write (.object ((key, v) :: entries)) = key.toList ++ rest ∧ '\r' ∉ rest := by
  have hcolon : '\r' ∉ [':'] := by decide
  have hmark := (Pen.fresh.scalar 2 true key).extends_mark hcolon false false
  have hvalue := hmark.trans (Pen.extends_value hv _ (some 0) true)
  have hrest := hvalue.trans (Pen.extends_entries 0
    (fun e he p width behindKey => Pen.extends_value (hentries e he) p width behindKey) _)
  obtain ⟨added, hadded, hnone⟩ := hrest.trans (Pen.extends_indent _ 0)
  refine ⟨added.reverse, ?_, by simpa using hnone⟩
  have hpen : Pen.fresh.value none false (.object ((key, v) :: entries)) =
      ((((Pen.fresh.scalar 2 true key).mark [':'] false false).value (some 0) true v).entries 0
        entries) := by
    rw [Pen.value, Pen.entries, if_pos hsimple]
    · rfl
    · nofun
  rw [write, hpen, if_neg Bool.false_ne_true, Pen.text, hadded, hkey, List.reverse_append,
    List.reverse_reverse]

end ContentSchema.Yaml
