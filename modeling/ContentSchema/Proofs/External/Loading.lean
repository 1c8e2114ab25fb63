import ContentSchema.External.Load
import ContentSchema.Proofs.Files.Access
import ContentSchema.Proofs.Schema.Refusals

/-!
# Loading external tables

Each path is loaded on its own: its file declares tables, or it fails for one of a few reasons and
has one warning (`FileSystem.LoadsApart`).  So a path that fails takes nothing from the others.

* `readTables_eq_ok_iff`, `readTables_eq_error_iff`: which files declare tables, and which fail.
* `loadsApart_externalTables`: paths are loaded apart, with a filter of names or without one.
-/

namespace ContentSchema

namespace FileSystem

/-- The file at a path declares tables: its bytes are a schema text. -/
def Declares (fs : FileSystem) (path : String) (tables : List Table) : Prop :=
  ∃ bytes text, fs.readBytes (.ofText path) = .ok bytes ∧ Text.decode bytes = .ok text ∧
    parseTables (Text.withLineFeeds text) = .ok tables

/-- Why no tables can be loaded from a path, with the message about it. -/
inductive Fails (fs : FileSystem) (path : String) : String → Prop where
  /-- No path holds a null character. -/
  | nullByte (h : (Path.ofText path).holdsNull = true) :
    Fails fs path (FileFault.message ⟨.nullByte, .ofText path⟩)
  /-- The way to the path breaks off, or nothing stands there. -/
  | absent {cause : FileCause} (hnull : (Path.ofText path).holdsNull = false)
      (h : fs.find (.ofText path) = .error cause) :
    Fails fs path (FileFault.message ⟨cause, .ofText path⟩)
  /-- A directory stands there. -/
  | directory (hnull : (Path.ofText path).holdsNull = false)
      (h : fs.find (.ofText path) = .ok .directory) :
    Fails fs path (FileFault.message ⟨.isDirectory, .ofText path⟩)
  /-- The bytes of the file are no text. -/
  | noText {bytes : List UInt8} {fault : Text.ByteFault}
      (hbytes : fs.readBytes (.ofText path) = .ok bytes) (h : Text.decode bytes = .error fault) :
    Fails fs path fault.message
  /-- A default in the text of the file has too many digits; the first such one is told. -/
  | refused {bytes : List UInt8} {text : List Char} {e : SchemaError}
      (hbytes : fs.readBytes (.ofText path) = .ok bytes) (htext : Text.decode bytes = .ok text)
      (h : (schemaAttributes (Text.withLineFeeds text)).findSome? Attribute.refusal? = some e) :
    Fails fs path e.message

variable {fs : FileSystem} {p : Path} {path reason : String} {tables : List Table}

/-! ### Files that declare tables, and files that fail -/

theorem readBytes_eq_error_iff {fault : FileFault} :
    fs.readBytes p = .error fault ↔
      p.holdsNull = true ∧ fault = ⟨.nullByte, p⟩ ∨
      p.holdsNull = false ∧ fs.find p = .ok .directory ∧ fault = ⟨.isDirectory, p⟩ ∨
      p.holdsNull = false ∧ ∃ cause, fs.find p = .error cause ∧ fault = ⟨cause, p⟩ := by
  rw [readBytes]
  cases p.holdsNull with
  | true => simp [eq_comm]
  | false => cases fs.find p with
    | error cause => simp [eq_comm]
    | ok node => cases node <;> simp [eq_comm]

theorem readText_eq_ok {text : List Char} : fs.readText p = .ok text ↔
    ∃ bytes decoded, fs.readBytes p = .ok bytes ∧ Text.decode bytes = .ok decoded ∧
      Text.withLineFeeds decoded = text := by
  rw [readText]
  simp only [bind_eq_ok, mapError_eq_ok, pure_eq_ok]
  constructor
  · rintro ⟨bytes, hbytes, decoded, hdecoded, htext⟩
    exact ⟨bytes, decoded, hbytes, hdecoded, htext⟩
  · rintro ⟨bytes, decoded, hbytes, hdecoded, htext⟩
    exact ⟨bytes, hbytes, decoded, hdecoded, htext⟩

theorem readText_eq_error {fault : TextFault} : fs.readText p = .error fault ↔
    (∃ f, fs.readBytes p = .error f ∧ .file f = fault) ∨
    ∃ bytes f, fs.readBytes p = .ok bytes ∧ Text.decode bytes = .error f ∧ .bytes f = fault := by
  rw [readText]
  simp only [bind_eq_error, mapError_eq_ok, mapError_eq_error]
  constructor
  · rintro (hfile | ⟨bytes, hbytes, ⟨f, hf, hfault⟩ | ⟨decoded, -, hnone⟩⟩)
    · exact .inl hfile
    · exact .inr ⟨bytes, f, hbytes, hf, hfault⟩
    · cases hnone
  · rintro (hfile | ⟨bytes, f, hbytes, hf, hfault⟩)
    · exact .inl hfile
    · exact .inr ⟨bytes, hbytes, .inl ⟨f, hf, hfault⟩⟩

theorem readTables_eq_ok_iff : fs.readTables path = .ok tables ↔ fs.Declares path tables := by
  rw [readTables, bind_eq_ok]
  simp only [mapError_eq_ok, readText_eq_ok]
  constructor
  · rintro ⟨_, ⟨bytes, text, hbytes, htext, rfl⟩, htables⟩
    exact ⟨bytes, text, hbytes, htext, htables⟩
  · rintro ⟨bytes, text, hbytes, htext, htables⟩
    exact ⟨_, ⟨bytes, text, hbytes, htext, rfl⟩, htables⟩

theorem readTables_eq_error_iff : fs.readTables path = .error reason ↔ fs.Fails path reason := by
  rw [readTables, bind_eq_error]
  simp only [mapError_eq_error, mapError_eq_ok, readText_eq_ok, readText_eq_error]
  constructor
  · rintro (⟨_, ⟨f, hf, rfl⟩ | ⟨bytes, f, hbytes, hf, rfl⟩, rfl⟩ |
      ⟨_, ⟨bytes, text, hbytes, htext, rfl⟩, e, he, rfl⟩)
    · rcases readBytes_eq_error_iff.1 hf with ⟨hnull, rfl⟩ | ⟨hnull, hfind, rfl⟩ |
        ⟨hnull, cause, hfind, rfl⟩
      · exact .nullByte hnull
      · exact .directory hnull hfind
      · exact .absent hnull hfind
    · exact .noText hbytes hf
    · rw [← errorOf?_eq_some, errorOf?_parseTables] at he
      exact .refused hbytes htext he
  · rintro (hnull | ⟨hnull, hfind⟩ | ⟨hnull, hfind⟩ | ⟨hbytes, hf⟩ | ⟨hbytes, htext, he⟩)
    · have hbytes : fs.readBytes (.ofText path) = .error _ :=
        readBytes_eq_error_iff.2 (.inl ⟨hnull, rfl⟩)
      exact .inl ⟨_, .inl ⟨_, hbytes, rfl⟩, rfl⟩
    · have hbytes : fs.readBytes (.ofText path) = .error _ :=
        readBytes_eq_error_iff.2 (.inr (.inr ⟨hnull, _, hfind, rfl⟩))
      exact .inl ⟨_, .inl ⟨_, hbytes, rfl⟩, rfl⟩
    · have hbytes : fs.readBytes (.ofText path) = .error _ :=
        readBytes_eq_error_iff.2 (.inr (.inl ⟨hnull, hfind, rfl⟩))
      exact .inl ⟨_, .inl ⟨_, hbytes, rfl⟩, rfl⟩
    · exact .inl ⟨_, .inr ⟨_, _, hbytes, hf, rfl⟩, rfl⟩
    · rw [← errorOf?_parseTables, errorOf?_eq_some] at he
      exact .inr ⟨_, ⟨_, _, hbytes, htext, rfl⟩, _, he, rfl⟩

/-- Each path either declares tables or fails. -/
theorem declares_or_fails (fs : FileSystem) (path : String) :
    (∃ tables, fs.Declares path tables) ∨ ∃ reason, fs.Fails path reason := by
  cases h : fs.readTables path with
  | ok tables => exact .inl ⟨tables, readTables_eq_ok_iff.1 h⟩
  | error reason => exact .inr ⟨reason, readTables_eq_error_iff.1 h⟩

/-! ### Loading a list of paths -/

/-- Paths are loaded apart by `load`, which takes the tables that the lists of names leave. -/
structure LoadsApart (fs : FileSystem) (taken leftOut : Option (List String))
    (load : List String → List Table × List Warning) : Prop where
  /-- The tables are those of each path alone, in order. -/
  tables : ∀ paths, (load paths).1 = paths.flatMap fun path => (load [path]).1
  /-- The warnings are those of each path alone, in order. -/
  warnings : ∀ paths, (load paths).2 = paths.flatMap fun path => (load [path]).2
  /-- Each path declares tables or fails. -/
  total : ∀ path, (∃ tables, fs.Declares path tables) ∨ ∃ reason, fs.Fails path reason
  /-- A path that declares tables has no warning. -/
  declared : ∀ path tables, fs.Declares path tables →
    load [path] = (filterTables tables taken leftOut, [])
  /-- A path that fails has no tables and one warning. -/
  failed : ∀ path reason, fs.Fails path reason →
    load [path] = ([], [.externalUnreadable path reason])
  /-- A path that fails takes nothing from the others. -/
  isolated : ∀ path reason, fs.Fails path reason → ∀ before after,
    load (before ++ path :: after) = ((load (before ++ after)).1,
      (load before).2 ++ .externalUnreadable path reason :: (load after).2)

theorem loadsApart_of_flatMap {taken leftOut : Option (List String)}
    {load : List String → List Table × List Warning}
    (h : ∀ paths, load paths = (paths.flatMap fun path => (fs.loadTables taken leftOut path).1,
      paths.flatMap fun path => (fs.loadTables taken leftOut path).2)) :
    fs.LoadsApart taken leftOut load := by
  have halone : ∀ path, load [path] = fs.loadTables taken leftOut path := by
    intro path
    rw [h, List.flatMap_singleton, List.flatMap_singleton]
  have hfailed : ∀ path reason, fs.Fails path reason →
      fs.loadTables taken leftOut path = ([], [.externalUnreadable path reason]) := by
    intro path reason hfails
    rw [loadTables, readTables_eq_error_iff.2 hfails]
  refine ⟨fun paths => ?_, fun paths => ?_, fs.declares_or_fails, ?_, ?_, ?_⟩
  · simp only [halone]
    rw [h]
  · simp only [halone]
    rw [h]
  · intro path tables hdeclares
    rw [halone, loadTables, readTables_eq_ok_iff.2 hdeclares]
  · intro path reason hfails
    rw [halone, hfailed path reason hfails]
  · intro path reason hfails before after
    simp only [h, List.flatMap_append, List.flatMap_cons, hfailed path reason hfails,
      List.nil_append, List.cons_append]

/-- Files of external tables are loaded apart, with names to take and to leave out or without. -/
theorem loadsApart_externalTables (fs : FileSystem) :
    (∀ taken leftOut, fs.LoadsApart taken leftOut fun paths =>
      fs.externalTables (some (.filtered (.many paths) taken leftOut))) ∧
    fs.LoadsApart none none fun paths => fs.externalTables (some (.all (.many paths))) := by
  constructor
  · intro taken leftOut
    refine loadsApart_of_flatMap fun paths => ?_
    rw [externalTables]
    simp only [ExternalTables.isNothing, Bool.false_eq_true, if_false, List.flatMap_map]
    rfl
  · refine loadsApart_of_flatMap fun paths => ?_
    rw [externalTables]
    cases paths with
    | nil => rfl
    | cons path paths =>
      simp only [ExternalTables.isNothing, List.isEmpty_cons, Bool.false_eq_true, if_false,
        List.flatMap_map]
      rfl

end FileSystem

end ContentSchema
