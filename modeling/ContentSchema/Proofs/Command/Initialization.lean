import ContentSchema.Proofs.Command.Ending
import ContentSchema.Proofs.Files.Writing
import ContentSchema.Proofs.Text.Utf8
import ContentSchema.Proofs.Yaml.Written

/-!
# New configurations

A new configuration is written as YAML, whatever its file is called.  It is loaded again from its
path unless a directory stands there, into which the file was moved, or the name of the file ends in
`.json`.

* `FileSystem.readText_of_file`: a file is read as the text that was written.
* `FileSystem.FitsConfiguration`: which paths a new configuration can be loaded from.
* `Command.load_runInit`: a new configuration is loaded from these paths, and from no other one.
-/

namespace ContentSchema

/-! ### The text of a new configuration -/

/-- Answers are texts, but for one truth value. -/
theorem Answers.worded_toEntries (a : Answers) : ∀ e ∈ a.toEntries, Yaml.Worded e.2 := by
  by_cases hnone : a.components = "" <;> simp [toEntries, hnone]

/-- The text of a new configuration begins with the first letter of its first key, and its lines end
in line feeds. -/
theorem Answers.exists_write_toEntries (a : Answers) :
    ∃ rest, Yaml.write (.object a.toEntries) = 'c' :: rest ∧
      '\r' ∉ Yaml.write (.object a.toEntries) := by
  have hworded := a.worded_toEntries
  rw [toEntries, List.forall_mem_cons] at hworded
  obtain ⟨rest, hwrite, hnone⟩ := Yaml.exists_write_eq_append "connection"
    (by decide +kernel) (by decide +kernel) hworded.1 hworded.2
  refine ⟨"onnection".toList ++ rest, hwrite, ?_⟩
  rw [toEntries, hwrite, List.mem_append, not_or]
  exact ⟨by decide, hnone⟩

/-- No JSON document begins with this letter. -/
theorem Json.read_eq_error (rest : List Char) :
    Json.read ('c' :: rest) = .error (.fault .expectingValue (rest.length + 1)) := by
  have hvalue : ∀ fuel, readValue (fuel + 1) ('c' :: rest) =
      .error (.fault .expectingValue (rest.length + 1)) := by
    intro fuel
    rw [readValue]
    · rfl
    all_goals simp
  rw [read, if_neg (by simp)]
  -- no blank is skipped in front of the letter
  show readValue (2 * (rest.length + 1) + 1 + 1) ('c' :: rest) >>= _ = _
  rw [hvalue]
  rfl

/-! ### Files that were written -/

namespace FileSystem

variable {fs : FileSystem} {p : Path} {place : Location} {cs : List Char}

theorem find_eq_of_node? {node : Node} (hlocate : fs.locate p = .ok place)
    (hnode : fs.node? place = some node) : fs.find p = .ok node := by
  simp [find, hlocate, hnode, bind, Except.bind]

/-- A file is read as the text that was written, if no carriage return is in it. -/
theorem readText_of_file (hnull : p.holdsNull = false)
    (hfile : fs.find p = .ok (.file (String.ofList cs).toUTF8.data.toList)) (hlines : '\r' ∉ cs) :
    fs.readText p = .ok cs := by
  have hbytes : fs.readBytes p = .ok (String.ofList cs).toUTF8.data.toList := by
    rw [readBytes, hnull, if_neg Bool.false_ne_true, hfile]
  rw [readText, hbytes]
  show (Text.decode (String.ofList cs).toUTF8.data.toList).mapError _ >>= _ = _
  rw [Text.decode_toUTF8]
  exact congrArg Except.ok (Text.withLineFeeds_eq_self hlines)

/-- A text with a fault is no JSON document. -/
theorem readJsonObject_of_fault {cause : Json.Cause} {remaining : Nat}
    (htext : fs.documentText p = .ok cs) (hread : Json.read cs = .error (.fault cause remaining)) :
    fs.readJsonObject p =
      .error (.invalidJson p ((Json.Error.fault cause remaining).message cs)) :=
  bind_eq_error.2 (.inr ⟨cs, htext, by simp only [hread]⟩)

/-- A path from which a new configuration can be loaded: no directory stands there once those on the
way are made, and the name does not end in `.json`. -/
structure FitsConfiguration (fs : FileSystem) (p : Path) : Prop where
  /-- No directory stands at the path. -/
  free : (fs.withWay p).hasDirectory p = false
  /-- The name does not end in `.json`. -/
  suffix : String.ofList (Text.lower p.suffix.toList) ≠ ".json"

/-- A new configuration is in a file. -/
structure HasAnswers (fs : FileSystem) (p : Path) (a : Answers) : Prop where
  /-- The path can be the path of a file. -/
  noNull : p.holdsNull = false
  /-- The file has the text of the configuration. -/
  file : fs.find p = .ok (.file a.document.toUTF8.data.toList)

namespace HasAnswers

variable {a : Answers}

theorem has (h : fs.HasAnswers p a) : fs.has p = true := by
  rw [FileSystem.has, h.file]
  rfl

theorem hasFile (h : fs.HasAnswers p a) : fs.hasFile p = true := by
  rw [FileSystem.hasFile, h.file]

theorem documentText (h : fs.HasAnswers p a) :
    fs.documentText p = .ok (Yaml.write (.object a.toEntries)) := by
  obtain ⟨rest, -, hlines⟩ := a.exists_write_toEntries
  rw [FileSystem.documentText, readText_of_file h.noNull h.file hlines]
  rfl

/-- The text of the configuration is no JSON document. -/
theorem readJsonObject (h : fs.HasAnswers p a) :
    ∃ reason, fs.readJsonObject p = .error (.invalidJson p reason) := by
  obtain ⟨rest, hwrite, -⟩ := a.exists_write_toEntries
  have htext := h.documentText
  rw [hwrite] at htext
  exact ⟨_, readJsonObject_of_fault htext (Json.read_eq_error rest)⟩

theorem readYamlObject (h : fs.HasAnswers p a)
    (hyaml : Yaml.read (Yaml.write (.object a.toEntries)) = .ok (.object a.toEntries)) :
    fs.readYamlObject p = .ok a.toEntries :=
  bind_eq_ok.2 ⟨_, h.documentText, by simp only [hyaml]⟩

/-- The configuration is read as YAML, unless its name ends in `.json`. -/
theorem readObject (h : fs.HasAnswers p a)
    (hsuffix : String.ofList (Text.lower p.suffix.toList) ≠ ".json")
    (hyaml : Yaml.read (Yaml.write (.object a.toEntries)) = .ok (.object a.toEntries)) :
    fs.readObject p = .ok a.toEntries := by
  obtain ⟨reason, hjson⟩ := h.readJsonObject
  rw [FileSystem.readObject, h.has, h.hasFile, if_neg (by simp), if_neg (by simp)]
  dsimp only
  -- a name with no known end has the text tried as JSON first, which is in vain
  rw [if_neg hsuffix, hjson]
  dsimp only
  rw [ite_self, h.readYamlObject hyaml]

/-- A name that ends in `.json` keeps the configuration from being read. -/
theorem readObject_of_json (h : fs.HasAnswers p a)
    (hsuffix : String.ofList (Text.lower p.suffix.toList) = ".json") :
    ∃ reason, fs.readObject p = .error (.invalidJson p reason) := by
  obtain ⟨reason, hjson⟩ := h.readJsonObject
  refine ⟨reason, ?_⟩
  rw [FileSystem.readObject, h.has, h.hasFile, if_neg (by simp), if_neg (by simp)]
  dsimp only
  rw [if_neg (by simp [hsuffix]), if_pos hsuffix, hjson]

end HasAnswers

/-- No object is read from a directory. -/
theorem readObject_of_directory (h : fs.find p = .ok .directory) :
    fs.readObject p = .error (.notFile p) := by
  have hhas : fs.has p = true := by
    rw [has, h]
    rfl
  have hfile : fs.hasFile p = false := by rw [hasFile, h]
  rw [readObject, hhas, hfile, if_neg (by simp), if_pos (by simp)]

/-- Where a new configuration was written, there is its file, or a directory stands there. -/
theorem hasAnswers_or_directory (hhere : fs.node? fs.here = some .directory) {a : Answers}
    (hok : (fs.write p a.document).1.isOk = true) :
    (fs.withWay p).hasDirectory p = false ∧ (fs.write p a.document).2.HasAnswers p a ∨
      (fs.withWay p).hasDirectory p = true ∧
        (fs.write p a.document).2.find p = .ok .directory := by
  -- what is written has a path without null characters, which reading asks for, too
  have hpassable : fs.Passable p := by
    by_contra hnot
    obtain ⟨fault, hwrite⟩ := exists_write_of_not_passable hnot a.document
    rw [hwrite] at hok
    cases hok
  have hwritten := (written_write hhere p a.document).1
  generalize fs.write p a.document = written at hok hwritten
  cases hwritten with
  | refused kept => cases hok
  | replaced free found filled kept =>
    exact .inl ⟨free, hpassable.noNull, find_eq_of_node? found filled⟩
  | enclosed stands found directory fresh filled kept =>
    exact .inr ⟨stands, find_eq_of_node? found directory⟩

end FileSystem

/-! ### Writing and loading -/

namespace Command

variable {library : Library} {s : Surroundings} {input : List Char} {output complaint : String}
  {assumeYes force : Bool}

theorem ne_finished_of_endingOf (f : Failure) : endingOf f ≠ .finished 0 complaint := by
  rw [endingOf]
  split <;> simp

theorem files_writeConfig {p : Path} {shown : String} {a : Answers} {c : Config}
    (hc : Config.ofEntries library a.toEntries = .ok c) :
    (writeConfig library s p shown a).files = (s.files.write p a.document).2 := by
  unfold writeConfig
  rw [hc]
  dsimp only
  rw [Answers.document]
  split <;> rename_i hwrite <;> rw [hwrite]

/-- A new configuration is written once its answers are accepted. -/
theorem exists_of_writeConfig {p : Path} {shown : String} {a : Answers}
    (h : (writeConfig library s p shown a).ending = .finished 0 complaint) :
    ∃ c, Config.ofEntries library a.toEntries = .ok c ∧
      (s.files.write p a.document).1.isOk = true ∧
      (writeConfig library s p shown a).files = (s.files.write p a.document).2 := by
  rw [ending_writeConfig] at h
  cases hc : Config.ofEntries library a.toEntries with
  | error f =>
    rw [hc] at h
    exact absurd h (ne_finished_of_endingOf f)
  | ok c =>
    rw [hc] at h
    refine ⟨c, rfl, ?_, files_writeConfig hc⟩
    cases hwrite : (s.files.write p a.document).1 with
    | error fault =>
      rw [hwrite] at h
      exact absurd h (ne_finished_of_endingOf _)
    | ok n => rfl

/-- What a new configuration is made of that was written. -/
theorem exists_of_runInit
    (h : (runInit library s input output assumeYes force).ending = .finished 0 complaint) :
    ∃ a c, answers? input assumeYes = some a ∧ Config.ofEntries library a.toEntries = .ok c ∧
      (s.files.write (.ofText output) a.document).1.isOk = true ∧
      (runInit library s input output assumeYes force).files =
        (s.files.write (.ofText output) a.document).2 := by
  rw [runInit] at h ⊢
  dsimp only at h ⊢
  split at h
  · cases h
  rename_i hmay
  rw [if_neg hmay]
  split at h
  · rename_i hyes
    obtain ⟨c, hc⟩ := exists_of_writeConfig h
    rw [if_pos hyes]
    exact ⟨.standard, c, by rw [answers?, if_pos hyes], hc⟩
  · rename_i hno
    rw [if_neg hno, answers?, if_neg hno]
    generalize Answers.ask ⟨"", input⟩ = asked at h ⊢
    obtain ⟨_ | a, talk⟩ := asked
    · cases h
    · obtain ⟨c, hc⟩ := exists_of_writeConfig h
      exact ⟨a, c, rfl, hc⟩

/-- A new configuration that was written is loaded from its path if the path fits it, provided that
reading YAML undoes writing it.  It is not loaded from a path at which a directory stands or whose
name ends in `.json`. -/
theorem load_runInit (hhere : s.files.node? s.files.here = some .directory)
    (h : (runInit library s input output assumeYes force).ending = .finished 0 complaint) :
    ∃ a c, answers? input assumeYes = some a ∧ Config.ofEntries library a.toEntries = .ok c ∧
      (s.files.FitsConfiguration (.ofText output) →
        Yaml.read (Yaml.write (.object a.toEntries)) = .ok (.object a.toEntries) →
        Config.load library (runInit library s input output assumeYes force).files output =
          .ok c) ∧
      (¬ s.files.FitsConfiguration (.ofText output) → ∃ fault,
        Config.load library (runInit library s input output assumeYes force).files output =
          .error (.config (.unreadable fault))) := by
  obtain ⟨a, c, ha, hc, hok, hfiles⟩ := exists_of_runInit h
  refine ⟨a, c, ha, hc, ?_, ?_⟩
  · intro hfits hyaml
    rcases FileSystem.hasAnswers_or_directory hhere hok with ⟨-, hanswers⟩ | ⟨hstands, -⟩
    · rw [hfiles, Config.load, hanswers.readObject hfits.suffix hyaml]
      exact hc
    · rw [hfits.free] at hstands
      cases hstands
  · intro hnot
    rw [hfiles, Config.load]
    rcases FileSystem.hasAnswers_or_directory hhere hok with ⟨hfree, hanswers⟩ | ⟨-, hdirectory⟩
    · have hsuffix : String.ofList (Text.lower (Path.ofText output).suffix.toList) = ".json" := by
        by_contra hne
        exact hnot ⟨hfree, hne⟩
      obtain ⟨reason, hread⟩ := hanswers.readObject_of_json hsuffix
      rw [hread]
      exact ⟨_, rfl⟩
    · rw [FileSystem.readObject_of_directory hdirectory]
      exact ⟨_, rfl⟩

/-- Nothing but an empty directory is around a command. -/
def emptyDirectory : Surroundings := { nothing with files := .empty ["work"] }

/-- A new configuration with all defaults is loaded from `c.yaml`, and not from `c.json`. -/
theorem load_runInit_json :
    emptyDirectory.files.node? emptyDirectory.files.here = some .directory ∧
      (Config.load [] (runInit [] emptyDirectory [] "c.yaml" true false).files
        "c.yaml").isOk = true ∧
      (runInit [] emptyDirectory [] "c.json" true false).ending = .finished 0 "" ∧
      ∃ fault, Config.load [] (runInit [] emptyDirectory [] "c.json" true false).files "c.json" =
        .error (.config (.unreadable fault)) := by
  have hhere : emptyDirectory.files.node? emptyDirectory.files.here = some .directory := by decide
  have hend : (runInit [] emptyDirectory [] "c.json" true false).ending = .finished 0 "" := rfl
  refine ⟨hhere, by decide +kernel, hend, ?_⟩
  obtain ⟨a, c, -, -, -, hfails⟩ := load_runInit hhere hend
  exact hfails fun hfits => hfits.suffix (by decide +kernel)

end Command

end ContentSchema
