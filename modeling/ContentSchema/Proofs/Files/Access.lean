import ContentSchema.Files.Document
import ContentSchema.Proofs.Outcomes

/-!
# Files that are read and written

* `FileSystem.readObject_of_json`: a file with a JSON text that spells an object is read as this
  object.
* `FileSystem.holdsNull_of_write`: writing a file fails for a null character only if there is one in
  the path, as no step but the first ones looks for it.
-/

namespace ContentSchema

namespace FileSystem

variable {fs : FileSystem} {p q : Path}

/-! ### Reading -/

theorem find_eq_of_readBytes {bytes : List UInt8}
    (h : fs.readBytes p = .ok bytes) : fs.find p = .ok (.file bytes) := by
  unfold readBytes at h
  split at h
  · cases h
  · cases hfind : fs.find p with
    | error cause => simp [hfind] at h
    | ok node => cases node <;> simp_all

/-- A file that has a text and a name that ends in `.json` is read as JSON. -/
theorem readObject_of_json {text : List Char} {entries : Entries}
    (hsuffix : String.ofList (Text.lower p.suffix.toList) = ".json")
    (htext : fs.readText p = .ok text) (hread : Json.read text = .ok (.object entries)) :
    fs.readObject p = .ok entries := by
  have hdocument : fs.documentText p = .ok text := by
    rw [documentText, htext]
    rfl
  have hjson : fs.readJsonObject p = .ok entries :=
    bind_eq_ok.2 ⟨text, hdocument, by simp only [hread]⟩
  obtain ⟨bytes, hbytes, -⟩ := bind_eq_ok.1 htext
  have hfind := find_eq_of_readBytes (mapError_eq_ok.1 hbytes)
  simpa [readObject, hsuffix, has, hasFile, hfind, Except.isOk, Except.toBool] using hjson

/-! ### Writing -/

theorem cause_ne_nullByte_of_follow {place : Location} {names : List String} {cause : FileCause}
    (h : fs.follow place names = .error cause) : cause ≠ .nullByte := by
  induction names generalizing place with
  | nil => cases h
  | cons name rest ih =>
    unfold follow at h
    split at h
    · split at h
      · exact ih h
      · cases h
        nofun
    · cases h
      nofun
    · cases h
      nofun

theorem cause_ne_nullByte_of_locate {cause : FileCause} (h : fs.locate p = .error cause) :
    cause ≠ .nullByte :=
  cause_ne_nullByte_of_follow h

theorem cause_ne_nullByte_of_makeDirectory {fault : FileFault}
    (h : fs.makeDirectory p = .error fault) : fault.cause ≠ .nullByte := by
  unfold makeDirectory at h
  split at h
  · rename_i hlocate
    cases h
    exact cause_ne_nullByte_of_locate hlocate
  · split at h
    · split at h
      · cases h
        nofun
      · cases h
    · cases h
      nofun

/-- A directory that is made on the way never fails for a null character. -/
theorem cause_ne_nullByte_of_makeWay {root : String} {names : List String} {fault : FileFault}
    (h : (makeWay root names fs).1 = .error fault) : fault.cause ≠ .nullByte := by
  induction names generalizing fs with
  | nil => cases h
  | cons name up ih =>
    unfold makeWay at h
    dsimp only at h
    split at h
    · cases h
    · rename_i hmade
      split at h
      · cases h
      · split at h
        · split at h
          · split at h
            · cases h
            · rename_i hagain
              split at h
              · cases h
              · cases h
                exact cause_ne_nullByte_of_makeDirectory hagain
          · exact ih h
        · cases h
          exact cause_ne_nullByte_of_makeDirectory hmade

theorem cause_ne_nullByte_of_move {source : Location} {bytes : List UInt8} {name : String}
    {fault : FileFault} (h : fs.move source bytes name p = .error fault) :
    fault.cause ≠ .nullByte := by
  unfold move at h
  split at h
  · rename_i hlocate
    cases h
    exact cause_ne_nullByte_of_locate hlocate
  · split at h
    · split at h
      · split at h
        · cases h
          nofun
        · cases h
      · cases h
    · cases h

/-- A file is refused for a null character only if there is one in the path. -/
theorem holdsNull_of_write {content : String} (h : (fs.write p content).1 = .error ⟨.nullByte, q⟩) :
    q.holdsNull = true := by
  unfold write at h
  split at h
  · rename_i hdirectories
    cases h
    unfold makeDirectories at hdirectories
    split at hdirectories
    · cases hdirectories
      assumption
    · exact absurd rfl (cause_ne_nullByte_of_makeWay (congrArg Prod.fst hdirectories))
  · split at h
    · cases h
      assumption
    · split at h
      · rename_i hlocate
        cases h
        exact absurd rfl (cause_ne_nullByte_of_locate hlocate)
      · dsimp only at h
        split at h
        · cases h
        · rename_i hmove
          cases h
          exact absurd rfl (cause_ne_nullByte_of_move hmove)

end FileSystem

end ContentSchema
