import ContentSchema.Files.System
import ContentSchema.Proofs.Outcomes
import Mathlib.Data.List.Nodup
import Mathlib.Data.List.Perm.Subperm

/-!
# Writing files

A file is written all or nothing: it is filled beside its target and then moved into place.  The
move goes into the directory that stands at the target, if there is one, so that the file is then
not where it was to be written.

* `FileSystem.grown_makeDirectories`: making directories on the way to a path adds just these.
* `FileSystem.node?_freshName`: the temporary file takes the place of no other one.
* `FileSystem.written_write`: what a file system holds after a file is written, exactly when it is
  where it was to be, and when it is written at all.
-/

namespace ContentSchema

namespace FileSystem

variable {fs made filled after : FileSystem} {p : Path} {place q : Location} {node : Node}

/-! ### What stands where -/

theorem lookup_filter_ne {α : Type} (place q : Location) (l : List (Location × α)) :
    (l.filter fun e => e.1 ≠ place).lookup q = if q = place then none else l.lookup q := by
  induction l with
  | nil => simp
  | cons e l ih =>
    obtain ⟨k, a⟩ := e
    by_cases hk : k = place
    · subst hk
      rw [List.filter_cons_of_neg (by simp), ih]
      by_cases hq : q = k
      · simp [hq]
      · rw [if_neg hq, if_neg hq, List.lookup_cons, beq_eq_false_iff_ne.2 hq]
    · rw [List.filter_cons_of_pos (by simpa using hk), List.lookup_cons, List.lookup_cons, ih]
      by_cases hq : q = k
      · simp [hq, hk]
      · rw [beq_eq_false_iff_ne.2 hq]

/-- A node that is put somewhere stands there; nothing else changes. -/
theorem node?_put (hplace : place ≠ []) (q : Location) :
    (fs.put place node).node? q = if q = place then some node else fs.node? q := by
  rw [node?, node?, put, List.lookup_cons, lookup_filter_ne]
  by_cases hq : q = place
  · simp [hq, hplace]
  · rw [beq_eq_false_iff_ne.2 hq, if_neg hq, if_neg hq]

/-- Nothing stands where something was removed; nothing else changes. -/
theorem node?_remove (hplace : place ≠ []) (q : Location) :
    (fs.remove place).node? q = if q = place then none else fs.node? q := by
  rw [node?, node?, remove, lookup_filter_ne]
  by_cases hroot : q = []
  · rw [if_pos hroot, if_pos hroot, if_neg (hroot ▸ hplace.symm)]
  · rw [if_neg hroot, if_neg hroot]

/-- The root is a directory, so that any place where nothing stands lies below it. -/
theorem ne_nil_of_node?_eq_none (h : fs.node? q = none) : q ≠ [] := by
  rintro rfl
  cases h

/-! ### Following names -/

theorem follow_append (fs : FileSystem) (place : Location) (names more : List String) :
    fs.follow place (names ++ more) =
      fs.follow place names >>= fun there => fs.follow there more := by
  induction names generalizing place with
  | nil => rfl
  | cons name names ih =>
    rw [List.cons_append, follow, follow]
    cases fs.node? place with
    | none => rfl
    | some node =>
      cases node with
      | file bytes => rfl
      | directory =>
        dsimp only
        cases fs.node? (step place name) with
        | none => rfl
        | some _ => exact ih _

/-- From a directory a name leads to what stands behind it. -/
theorem follow_singleton {name : String} (h : fs.node? place = some .directory) :
    fs.follow place [name] =
      if (fs.node? (step place name)).isSome then .ok (step place name) else .error .missing := by
  rw [follow, h]
  dsimp only
  cases fs.node? (step place name) <;> rfl

/-- The location of a path with a name is the one that the name leads to from its parent. -/
theorem locate_eq_bind (fs : FileSystem) (hnames : p.names ≠ []) :
    fs.locate p = fs.locate p.parent >>= fun place => fs.follow place [p.name] := by
  have hsplit : p.names = p.parent.names ++ [p.name] := by
    rw [Path.parent, Path.name, List.getLast?_eq_some_getLast hnames, Option.getD_some,
      List.dropLast_append_getLast]
  rw [locate, hsplit, follow_append]
  rfl

/-- A file system holds another one: the directories are there, and wherever something was, there is
something. -/
structure Holds (fs after : FileSystem) : Prop where
  /-- Relative paths begin at the same place. -/
  here : after.here = fs.here
  /-- Directories are kept. -/
  directory : ∀ q, fs.node? q = some .directory → after.node? q = some .directory
  /-- Nothing is lost. -/
  isSome : ∀ q, (fs.node? q).isSome → (after.node? q).isSome

/-- Where names lead they lead in a file system that holds more, too. -/
theorem Holds.follow (h : Holds fs after) {names : List String} {there : Location}
    (hfollow : fs.follow place names = .ok there) : after.follow place names = .ok there := by
  induction names generalizing place with
  | nil => exact hfollow
  | cons name names ih =>
    rw [FileSystem.follow] at hfollow ⊢
    split at hfollow
    · rename_i hplace
      rw [h.directory _ hplace]
      split at hfollow
      · rename_i hstep
        obtain ⟨node, hnode⟩ :=
          Option.isSome_iff_exists.1 (h.isSome _ (Option.isSome_of_eq_some hstep))
        rw [hnode]
        exact ih hfollow
      · cases hfollow
    · cases hfollow
    · cases hfollow

theorem Holds.locate (h : Holds fs after) (hlocate : fs.locate p = .ok q) :
    after.locate p = .ok q := by
  have hstart : after.start p = fs.start p := by rw [start, start, h.here]
  rw [FileSystem.locate, hstart]
  exact h.follow hlocate

theorem hasDirectory_iff : fs.hasDirectory p = true ↔
    ∃ place, fs.locate p = .ok place ∧ fs.node? place = some .directory := by
  rw [hasDirectory, find]
  cases hlocate : fs.locate p with
  | error cause => simp [bind, Except.bind]
  | ok place =>
    cases hnode : fs.node? place with
    | none => simp [bind, Except.bind, hnode]
    | some node => cases node <;> simp [bind, Except.bind, hnode]

/-! ### Directories on the way -/

/-- At a place there is what was there, or a directory on the way to a path where nothing was. -/
def Kept (fs after : FileSystem) (p : Path) (q : Location) : Prop :=
  after.node? q = fs.node? q ∨
    fs.node? q = none ∧ after.node? q = some .directory ∧
      ∃ names, names <+: p.names ∧ after.locate ⟨p.root, names⟩ = .ok q

/-- A file system has become another one by directories on the way to a path. -/
structure Grown (fs after : FileSystem) (p : Path) : Prop where
  /-- Relative paths begin at the same place. -/
  here : after.here = fs.here
  /-- No place holds anything else than before, but for these directories. -/
  kept : ∀ q, Kept fs after p q

namespace Grown

theorem refl (fs : FileSystem) (p : Path) : Grown fs fs p := ⟨rfl, fun _ => .inl rfl⟩

theorem holds (h : Grown fs after p) : Holds fs after where
  here := h.here
  directory q hq := by
    rcases h.kept q with hsame | ⟨hnone, -⟩
    · rw [hsame, hq]
    · rw [hnone] at hq
      cases hq
  isSome q hq := by
    rcases h.kept q with hsame | ⟨hnone, -⟩
    · rw [hsame, hq]
    · rw [hnone] at hq
      cases hq

theorem trans (h : Grown fs made p) (h' : Grown made after p) : Grown fs after p where
  here := h'.here.trans h.here
  kept q := by
    rcases h.kept q with hsame | ⟨hnone, hdirectory, names, hnames, hlocate⟩
    · rw [Kept, ← hsame]
      exact h'.kept q
    · exact .inr ⟨hnone, h'.holds.directory q hdirectory, names, hnames, h'.holds.locate hlocate⟩

/-- Directories on the way to a part of a path are on the way to the path. -/
theorem mono {names more : List String} {root : String} (h : Grown fs after ⟨root, names⟩)
    (hmore : names <+: more) : Grown fs after ⟨root, more⟩ where
  here := h.here
  kept q := by
    rcases h.kept q with hsame | ⟨hnone, hdirectory, names, hnames, hlocate⟩
    · exact .inl hsame
    · exact .inr ⟨hnone, hdirectory, names, hnames.trans hmore, hlocate⟩

end Grown

/-- A directory that is made is new, and the path leads to it. -/
theorem grown_of_makeDirectory (hnames : p.names ≠ []) (h : fs.makeDirectory p = .ok after) :
    Grown fs after p ∧ after.hasDirectory p = true := by
  unfold makeDirectory at h
  split at h
  · cases h
  · rename_i place hlocate
    split at h
    · rename_i hplace
      split at h
      · cases h
      · rename_i hfree
        cases h
        have hne := ne_nil_of_node?_eq_none hfree
        have hnew : (fs.put (step place p.name) .directory).node? (step place p.name) =
            some .directory := by rw [node?_put hne, if_pos rfl]
        have hold : ∀ q, q ≠ step place p.name →
            (fs.put (step place p.name) .directory).node? q = fs.node? q :=
          fun q hq => by rw [node?_put hne, if_neg hq]
        have hholds : Holds fs (fs.put (step place p.name) .directory) := {
          here := rfl
          directory := fun q hq => by
            by_cases hat : q = step place p.name
            · rw [hat, hnew]
            · rw [hold q hat, hq]
          isSome := fun q hq => by
            by_cases hat : q = step place p.name
            · rw [hat, hnew]
              rfl
            · rw [hold q hat, hq] }
        have hthere : (fs.put (step place p.name) .directory).locate p =
            .ok (step place p.name) := by
          rw [locate_eq_bind _ hnames, hholds.locate hlocate]
          show FileSystem.follow _ _ _ = _
          rw [follow_singleton (hholds.directory _ hplace), hnew]
          rfl
        refine ⟨⟨rfl, fun q => ?_⟩, hasDirectory_iff.2 ⟨_, hthere, hnew⟩⟩
        by_cases hat : q = step place p.name
        · subst hat
          exact .inr ⟨hfree, hnew, p.names, List.prefix_rfl, hthere⟩
        · exact .inl (hold q hat)
    · cases h

/-- Making a way adds the directories on it, and there is a directory at its end if all were
made. -/
theorem grown_makeWay (root : String) (names : List String) (fs : FileSystem) :
    Grown fs (makeWay root names fs).2 ⟨root, names.reverse⟩ ∧
      ((makeWay root names fs).1 = .ok () → names ≠ [] →
        (makeWay root names fs).2.hasDirectory ⟨root, names.reverse⟩ = true) := by
  induction names generalizing fs with
  | nil => exact ⟨.refl _ _, fun _ h => absurd rfl h⟩
  | cons name up ih =>
    have hnames : (⟨root, (name :: up).reverse⟩ : Path).names ≠ [] := by simp
    have hup : up.reverse <+: (name :: up).reverse := by
      rw [List.reverse_cons]
      exact List.prefix_append _ _
    unfold makeWay
    dsimp only
    cases hmake : fs.makeDirectory ⟨root, (name :: up).reverse⟩ with
    | ok made =>
      obtain ⟨hgrown, hdirectory⟩ := grown_of_makeDirectory hnames hmake
      exact ⟨hgrown, fun _ _ => hdirectory⟩
    | error fault =>
      dsimp only
      split
      · rename_i hdirectory
        exact ⟨.refl _ _, fun _ _ => hdirectory⟩
      · split
        · obtain ⟨hfirst, -⟩ := ih fs
          have hfirst := hfirst.mono hup
          split
          · rename_i made hway
            rw [hway] at hfirst
            split
            · rename_i after hagain
              obtain ⟨hgrown, hdirectory⟩ := grown_of_makeDirectory hnames hagain
              exact ⟨hfirst.trans hgrown, fun _ _ => hdirectory⟩
            · split
              · rename_i hdirectory
                exact ⟨hfirst, fun _ _ => hdirectory⟩
              · exact ⟨hfirst, nofun⟩
          · rename_i hfailed
            refine ⟨hfirst, fun hok => absurd ?_ (hfailed (makeWay root up fs).2)⟩
            exact Prod.ext hok rfl
        · exact ⟨.refl _ _, nofun⟩

theorem grown_makeDirectories (fs : FileSystem) (p : Path) :
    Grown fs (fs.makeDirectories p).2 p := by
  rw [makeDirectories]
  split
  · exact .refl _ _
  · have h := (grown_makeWay p.root p.names.reverse fs).1
    rwa [List.reverse_reverse] at h

/-- A path whose directories were made leads to a directory, if relative paths begin at one. -/
theorem exists_locate_of_makeDirectories (hhere : fs.node? fs.here = some .directory)
    (h : (fs.makeDirectories p).1 = .ok ()) :
    ∃ place, (fs.makeDirectories p).2.locate p = .ok place ∧
      (fs.makeDirectories p).2.node? place = some .directory := by
  by_cases hnames : p.names = []
  · refine ⟨(fs.makeDirectories p).2.start p, by rw [locate, hnames, follow], ?_⟩
    have hgrown := grown_makeDirectories fs p
    rw [start, hgrown.here]
    split
    · exact hgrown.holds.directory _ hhere
    · rfl
  · have hway := (grown_makeWay p.root p.names.reverse fs).2
    rw [List.reverse_reverse] at hway
    rw [makeDirectories] at h ⊢
    split at h
    · cases h
    · rename_i hnull
      rw [if_neg hnull]
      exact hasDirectory_iff.1 (hway h (by simpa using hnames))

/-! ### The temporary file -/

theorem temporaryName_injective (target : String) : (temporaryName target).Injective := by
  intro m n h
  rw [temporaryName, temporaryName, String.append_left_inj, String.append_right_inj] at h
  have hdigits : Nat.toDigits 10 m = Nat.toDigits 10 n := String.ofList_injective h
  rw [← Nat.ofDigitChars_ten_toDigits (n := m), hdigits, Nat.ofDigitChars_ten_toDigits]

/-- There are more names for a temporary file than nodes, so that one of them is free. -/
theorem node?_freshName (fs : FileSystem) (place : Location) (target : String) :
    fs.node? (place ++ [fs.freshName place target]) = none := by
  let names := (List.range (fs.nodes.length + 1)).map (temporaryName target)
  have hfree : ∃ name ∈ names, fs.node? (place ++ [name]) = none := by
    by_contra hnone
    have htaken : names.map (place ++ [·]) ⊆ fs.nodes.map Prod.fst := by
      intro q hq
      obtain ⟨name, hname, rfl⟩ := List.mem_map.1 hq
      by_contra hmem
      refine hnone ⟨name, hname, ?_⟩
      rw [node?, if_neg (by simp), List.lookup_eq_none_iff]
      intro e he
      exact bne_iff_ne.2 fun heq => hmem (List.mem_map.2 ⟨e, he, heq.symm⟩)
    have hnodup : (names.map (place ++ [·])).Nodup :=
      .map (fun _ _ h => by simpa using h) (.map (temporaryName_injective target) List.nodup_range)
    have hlength := (List.subperm_of_subset hnodup htaken).length_le
    simp only [names, List.length_map, List.length_range] at hlength
    omega
  obtain ⟨name, hname, hnode⟩ := hfree
  rw [freshName]
  cases hfind : names.find? fun name => (fs.node? (place ++ [name])).isNone with
  | none =>
    have hall := List.find?_eq_none.1 hfind name hname
    rw [hnode] at hall
    exact absurd rfl hall
  | some found =>
    have hfound := List.find?_some hfind
    simpa using hfound

theorem exists_freshName (fs : FileSystem) (place : Location) (target : String) :
    ∃ n, fs.freshName place target = temporaryName target n := by
  rw [freshName]
  cases hfind : ((List.range (fs.nodes.length + 1)).map (temporaryName target)).find? fun name =>
    (fs.node? (place ++ [name])).isNone with
  | none => exact ⟨0, rfl⟩
  | some found =>
    obtain ⟨n, -, hn⟩ := List.mem_map.1 (List.mem_of_find?_eq_some hfind)
    exact ⟨n, hn.symm⟩

/-- Once the temporary file is removed, all is as it was before. -/
theorem node?_remove_put {source : Location} (hfree : fs.node? source = none) (q : Location) :
    ((fs.put source node).remove source).node? q = fs.node? q := by
  have hsource := ne_nil_of_node?_eq_none hfree
  rw [node?_remove hsource, node?_put hsource]
  by_cases hq : q = source
  · rw [if_pos hq, hq, hfree]
  · rw [if_neg hq, if_neg hq]

/-! ### Moving into place -/

/-- A file that moves onto a directory moves into it, where its name must be free. -/
theorem move_of_directory {source there : Location} {bytes : List UInt8} {name : String}
    (hparent : fs.locate p.parent = .ok place) (hlocate : fs.locate p = .ok there)
    (hthere : fs.node? there = some .directory) :
    fs.move source bytes name p =
      if (fs.node? (there ++ [name])).isSome then .error ⟨.taken, p.join name⟩
      else .ok ((fs.remove source).put (there ++ [name]) (.file bytes)) := by
  rw [move, hparent, hlocate]
  dsimp only
  rw [if_pos hthere]

/-- A file that moves to a place where no directory stands takes this place. -/
theorem move_of_ne_directory {source : Location} {bytes : List UInt8} {name : String}
    (hnames : p.names ≠ []) (hparent : fs.locate p.parent = .ok place)
    (hplace : fs.node? place = some .directory)
    (hthere : fs.node? (step place p.name) ≠ some .directory) :
    fs.move source bytes name p =
      .ok ((fs.remove source).put (step place p.name) (.file bytes)) := by
  have hlocate : fs.locate p = if (fs.node? (step place p.name)).isSome then
      .ok (step place p.name) else .error .missing := by
    rw [locate_eq_bind _ hnames, hparent]
    exact follow_singleton hplace
  rw [move, hparent, hlocate]
  by_cases hsome : (fs.node? (step place p.name)).isSome = true
  · rw [if_pos hsome]
    dsimp only
    rw [if_neg hthere]
  · rw [if_neg hsome]

/-! ### What is written -/

/-- The file system with the directories on the way to a file. -/
def withWay (fs : FileSystem) (p : Path) : FileSystem := (fs.makeDirectories p.parent).2

theorem grown_withWay (fs : FileSystem) (p : Path) : Grown fs (fs.withWay p) p :=
  (grown_makeDirectories fs p.parent).mono (List.dropLast_prefix _)

/-- What has become of the file system with the way, but for one place where no directory was. -/
structure Changed (made after : FileSystem) (place : Location) (node : Node) : Prop where
  /-- Relative paths begin at the same place. -/
  here : after.here = made.here
  /-- There is no directory at the place. -/
  free : made.node? place ≠ some .directory
  /-- The node stands there. -/
  node : after.node? place = some node
  /-- All else is the same. -/
  same : ∀ q, q ≠ place → after.node? q = made.node? q

theorem Changed.holds (h : Changed made after place node) : Holds made after where
  here := h.here
  directory q hq := by
    by_cases hat : q = place
    · exact absurd (hat ▸ hq) h.free
    · rw [h.same q hat, hq]
  isSome q hq := by
    by_cases hat : q = place
    · rw [hat, h.node]
      rfl
    · rw [h.same q hat, hq]

theorem Changed.kept (h : Changed made after place node) (hgrown : Grown fs made p) :
    ∀ q, q ≠ place → Kept fs after p q := by
  intro q hq
  rcases hgrown.kept q with hsame | ⟨hnone, hdirectory, names, hnames, hlocate⟩
  · exact .inl ((h.same q hq).trans hsame)
  · exact .inr ⟨hnone, h.holds.directory q hdirectory, names, hnames, h.holds.locate hlocate⟩

/-- A temporary file is a change at a place where nothing was. -/
theorem changed_put {source : Location} (hfree : fs.node? source = none) (node : Node) :
    Changed fs (fs.put source node) source node where
  here := rfl
  free := by simp [hfree]
  node := by rw [node?_put (ne_nil_of_node?_eq_none hfree), if_pos rfl]
  same q hq := by rw [node?_put (ne_nil_of_node?_eq_none hfree), if_neg hq]

/-- A temporary file that moves changes nothing but its new place. -/
theorem changed_move {source there : Location} (hfree : fs.node? source = none)
    (hthere : fs.node? there ≠ some .directory) (node : Node) :
    Changed fs (((fs.put source node).remove source).put there node) there node := by
  have hroot : there ≠ [] := by
    rintro rfl
    exact hthere rfl
  exact {
    here := rfl
    free := hthere
    node := by rw [node?_put hroot, if_pos rfl]
    same := fun q hq => by rw [node?_put hroot, if_neg hq, node?_remove_put hfree] }

/-- What writing a file gives and leaves behind, where `bytes` are the bytes to be written. -/
inductive Written (fs : FileSystem) (p : Path) (bytes : List UInt8) :
    Except FileFault Nat × FileSystem → Prop where
  /-- It fails, and no file is there that was not there before. -/
  | refused {fault : FileFault} {after : FileSystem} (kept : ∀ q, Kept fs after p q) :
    Written fs p bytes (.error fault, after)
  /-- The file is at its path, and no other one has changed. -/
  | replaced {after : FileSystem} {place : Location}
    (free : (fs.withWay p).hasDirectory p = false)
    (found : after.locate p = .ok place) (filled : after.node? place = some (.file bytes))
    (kept : ∀ q, q ≠ place → Kept fs after p q) : Written fs p bytes (.ok bytes.length, after)
  /-- A directory stays at the path, and the file is a new one in it that has a temporary name. -/
  | enclosed {after : FileSystem} {place : Location} {n : Nat}
    (stands : (fs.withWay p).hasDirectory p = true)
    (found : after.locate p = .ok place) (directory : after.node? place = some .directory)
    (fresh : fs.node? (place ++ [temporaryName p.name n]) = none)
    (filled : after.node? (place ++ [temporaryName p.name n]) = some (.file bytes))
    (kept : ∀ q, q ≠ place ++ [temporaryName p.name n] → Kept fs after p q) :
    Written fs p bytes (.ok bytes.length, after)

/-- The way is there, and the path can be the path of a file. -/
structure Passable (fs : FileSystem) (p : Path) : Prop where
  /-- All directories on the way can be made. -/
  made : (fs.makeDirectories p.parent).1 = .ok ()
  /-- No null character stands in the path. -/
  noNull : p.holdsNull = false

/-- Where the way ends in a directory, the file is filled there under a free name and moved. -/
theorem write_eq_of_passable (h : fs.Passable p)
    (hparent : (fs.withWay p).locate p.parent = .ok place) (content : String) :
    let bytes := content.toUTF8.data.toList
    let name := (fs.withWay p).freshName place p.name
    let filled := (fs.withWay p).put (place ++ [name]) (.file bytes)
    fs.write p content = match filled.move (place ++ [name]) bytes name p with
      | .ok after => (.ok bytes.length, after)
      | .error fault => (.error fault, filled.remove (place ++ [name])) := by
  have hway : fs.makeDirectories p.parent = (.ok (), fs.withWay p) := Prod.ext h.made rfl
  rw [write, hway]
  dsimp only
  rw [if_neg (by simp [h.noNull])]
  exact hparent ▸ rfl

/-- A file that cannot be written for its path leaves nothing but directories on the way. -/
theorem exists_write_of_not_passable (h : ¬ fs.Passable p) (content : String) :
    ∃ fault, fs.write p content = (.error fault, fs.withWay p) := by
  rw [write, withWay]
  cases hway : fs.makeDirectories p.parent with
  | mk made after =>
    cases made with
    | error fault => exact ⟨fault, rfl⟩
    | ok =>
      dsimp only
      cases hnull : p.holdsNull with
      | true => exact ⟨_, rfl⟩
      | false => exact absurd ⟨by rw [hway], hnull⟩ h

/-- Where a directory stands at the path, the file moves into it, or is removed if its name is taken
there. -/
theorem written_of_directory (hpassable : fs.Passable p)
    (hparent : (fs.withWay p).locate p.parent = .ok place)
    (hstands : (fs.withWay p).hasDirectory p = true) (content : String) :
    Written fs p content.toUTF8.data.toList (fs.write p content) := by
  have hgrown := grown_withWay fs p
  obtain ⟨there, hlocate, hthere⟩ := hasDirectory_iff.1 hstands
  obtain ⟨n, hname⟩ := exists_freshName (fs.withWay p) place p.name
  have hfree := node?_freshName (fs.withWay p) place p.name
  rw [write_eq_of_passable hpassable hparent]
  rw [hname] at hfree ⊢
  have hholds := (changed_put hfree (.file content.toUTF8.data.toList)).holds
  rw [move_of_directory (hholds.locate hparent) (hholds.locate hlocate)
    (hholds.directory there hthere)]
  split
  · rename_i after hafter
    split at hafter
    · cases hafter
    · rename_i htaken
      cases hafter
      have hnone : (fs.withWay p).node? (there ++ [temporaryName p.name n]) = none := by
        by_contra hsome
        exact htaken (hholds.isSome _ (Option.isSome_iff_ne_none.2 hsome))
      have hinside : (fs.withWay p).node? (there ++ [temporaryName p.name n]) ≠
          some .directory := by simp [hnone]
      have hchanged := changed_move hfree hinside (.file content.toUTF8.data.toList)
      refine .enclosed hstands (hchanged.holds.locate hlocate)
        (hchanged.holds.directory there hthere) ?_ hchanged.node (hchanged.kept hgrown)
      by_contra hsome
      have := hgrown.holds.isSome _ (Option.isSome_iff_ne_none.2 hsome)
      simp [hnone] at this
  · have hremoved : Grown (fs.withWay p)
        (((fs.withWay p).put (place ++ [temporaryName p.name n])
          (.file content.toUTF8.data.toList)).remove (place ++ [temporaryName p.name n])) p :=
      ⟨rfl, fun q => .inl (node?_remove_put hfree q)⟩
    exact .refused (hgrown.trans hremoved).kept

/-- Where no directory stands at the path, the file takes its place there. -/
theorem written_of_not_directory (hpassable : fs.Passable p)
    (hparent : (fs.withWay p).locate p.parent = .ok place)
    (hplace : (fs.withWay p).node? place = some .directory)
    (hstands : (fs.withWay p).hasDirectory p = false) (content : String) :
    Written fs p content.toUTF8.data.toList (fs.write p content) ∧
      (fs.write p content).1.isOk = true := by
  have hnames : p.names ≠ [] := by
    intro hempty
    have hself : p.parent = p := by rw [Path.parent, hempty, List.dropLast_nil, ← hempty]
    rw [hself] at hparent
    rw [hasDirectory_iff.2 ⟨place, hparent, hplace⟩] at hstands
    cases hstands
  have hthere : (fs.withWay p).node? (step place p.name) ≠ some .directory := by
    intro hdirectory
    have hlocate : (fs.withWay p).locate p = .ok (step place p.name) := by
      rw [locate_eq_bind _ hnames, hparent]
      show FileSystem.follow _ _ _ = _
      rw [follow_singleton hplace, hdirectory]
      rfl
    rw [hasDirectory_iff.2 ⟨_, hlocate, hdirectory⟩] at hstands
    cases hstands
  have hfree := node?_freshName (fs.withWay p) place p.name
  have hfilled := changed_put hfree (.file content.toUTF8.data.toList)
  have hfilledThere : ((fs.withWay p).put (place ++ [(fs.withWay p).freshName place p.name])
      (.file content.toUTF8.data.toList)).node? (step place p.name) ≠ some .directory := by
    by_cases hat : step place p.name = place ++ [(fs.withWay p).freshName place p.name]
    · rw [hat, hfilled.node]
      nofun
    · rwa [hfilled.same _ hat]
  rw [write_eq_of_passable hpassable hparent, move_of_ne_directory hnames
    (hfilled.holds.locate hparent) (hfilled.holds.directory place hplace) hfilledThere]
  have hchanged := changed_move hfree hthere (.file content.toUTF8.data.toList)
  refine ⟨.replaced hstands ?_ hchanged.node (hchanged.kept (grown_withWay fs p)), rfl⟩
  rw [locate_eq_bind _ hnames, hchanged.holds.locate hparent]
  show FileSystem.follow _ _ _ = _
  rw [follow_singleton (hchanged.holds.directory place hplace), hchanged.node]
  rfl

/-- Writing has one of these results, and where no directory stands at the path, it succeeds exactly
if the path is passable. -/
theorem written_write (hhere : fs.node? fs.here = some .directory) (p : Path) (content : String) :
    Written fs p content.toUTF8.data.toList (fs.write p content) ∧
      ((fs.withWay p).hasDirectory p = false →
        ((fs.write p content).1.isOk = true ↔ fs.Passable p)) := by
  by_cases hpassable : fs.Passable p
  · obtain ⟨place, hparent, hplace⟩ := exists_locate_of_makeDirectories hhere hpassable.made
    cases hstands : (fs.withWay p).hasDirectory p with
    | true => exact ⟨written_of_directory hpassable hparent hstands content, nofun⟩
    | false =>
      obtain ⟨hwritten, hok⟩ := written_of_not_directory hpassable hparent hplace hstands content
      exact ⟨hwritten, fun _ => ⟨fun _ => hpassable, fun _ => hok⟩⟩
  · obtain ⟨fault, hwrite⟩ := exists_write_of_not_passable hpassable content
    rw [hwrite]
    exact ⟨.refused (grown_withWay fs p).kept, fun _ => ⟨nofun, fun h => absurd h hpassable⟩⟩

/-- Writing is all or nothing: a file that is written is at its path, and no other one has changed;
and one that cannot be written leaves nothing but directories on the way. -/
def AllOrNothing (fs : FileSystem) (p : Path) (content : String) : Prop :=
  match fs.write p content with
  | (.ok n, after) => n = content.utf8ByteSize ∧
      ∃ place, after.locate p = .ok place ∧
        after.node? place = some (.file content.toUTF8.data.toList) ∧
        ∀ q, q ≠ place → Kept fs after p q
  | (.error _, after) => ∀ q, Kept fs after p q

/-- Writing a file has one of three results.  It is all or nothing unless it succeeds at a path
where a directory stands once those on the way are made; and at any other path it succeeds exactly
if the directories can be made and no null character is in the path. -/
theorem allOrNothing_write_iff (hhere : fs.node? fs.here = some .directory) (p : Path)
    (content : String) :
    Written fs p content.toUTF8.data.toList (fs.write p content) ∧
      (fs.AllOrNothing p content ↔
        ((fs.write p content).1.isOk = true → (fs.withWay p).hasDirectory p = false)) ∧
      ((fs.withWay p).hasDirectory p = false →
        ((fs.write p content).1.isOk = true ↔ fs.Passable p)) := by
  obtain ⟨hwritten, hok⟩ := written_write hhere p content
  refine ⟨hwritten, ?_, hok⟩
  rw [AllOrNothing]
  generalize fs.write p content = written at hwritten
  cases hwritten with
  | refused kept => exact ⟨fun _ => nofun, fun _ => kept⟩
  | @replaced after place free found filled kept =>
    exact ⟨fun _ _ => free, fun _ => ⟨rfl, place, found, filled, kept⟩⟩
  | @enclosed after place n stands found directory fresh filled kept =>
    constructor
    · rintro ⟨-, there, hthere, hfile, -⟩
      obtain rfl : place = there := Except.ok.inj (found.symm.trans hthere)
      rw [directory] at hfile
      cases hfile
    · intro hnone
      rw [hnone rfl] at stands
      cases stands

/-- A file that is written to the parent of an empty directory is written, but not all or nothing:
it is in the parent under a temporary name. -/
theorem not_allOrNothing_parent :
    (empty ["work"]).node? (empty ["work"]).here = some .directory ∧
      ((empty ["work"]).write (.ofText "..") "x").1.isOk = true ∧
      ¬ (empty ["work"]).AllOrNothing (.ofText "..") "x" ∧
      ((empty ["work"]).write (.ofText "..") "x").2.nodes =
        [(["....0.tmp"], .file [120]), (["work"], .directory)] := by
  have hhere : (empty ["work"]).node? (empty ["work"]).here = some .directory := by decide
  have hok : ((empty ["work"]).write (.ofText "..") "x").1.isOk = true := by decide +kernel
  refine ⟨hhere, hok, fun h => ?_, by decide +kernel⟩
  have hfree := (allOrNothing_write_iff hhere (.ofText "..") "x").2.1.1 h hok
  have hstands : ((empty ["work"]).withWay (.ofText "..")).hasDirectory (.ofText "..") = true := by
    decide +kernel
  rw [hstands] at hfree
  cases hfree

end FileSystem

end ContentSchema
