import Carver.Disk.FileTree

/-!
# Places in a file tree

A tree has no links, so the place that a path denotes depends on the names in it alone:
`FileTree.place` reads it off, and whoever finds a path at all finds it there (`locate_eq_place`).

`FileTree.Change` bounds what an operation does to a tree: files are written at the listed places
only, directories are made at the listed places only and where nothing was, and a directory stays
one. So a path that could be followed before can be followed afterwards, and leads to the same
bytes unless its place was written.
-/

namespace Carver

/-- The bytes of a text. -/
def Text.encode (text : Text) : ByteArray :=
  (String.ofList text).toUTF8

namespace FileTree

/-! ## What is where -/

theorem lookup_filter_ne {location other : Location} (h : other ≠ location)
    (entries : List (Location × Entry)) :
    (entries.filter (·.1 != location)).lookup other = entries.lookup other := by
  induction entries with
  | nil => rfl
  | cons entry rest ih =>
    by_cases hentry : entry.1 = location
    · have hother : (other == entry.1) = false := by
        rw [beq_eq_false_iff_ne, hentry]
        exact h
      rw [List.filter_cons_of_neg (by simp [hentry]), ih, List.lookup_cons, hother]
    · rw [List.filter_cons_of_pos (by simp [hentry]), List.lookup_cons, List.lookup_cons, ih]

theorem get?_put_self {location : Location} (h : location ≠ []) (tree : FileTree) (entry : Entry) :
    (tree.put location entry).get? location = some entry := by
  rw [get?, if_neg h, put, List.lookup_cons, beq_self_eq_true]

theorem get?_put_of_ne {location other : Location} (h : other ≠ location) (tree : FileTree)
    (entry : Entry) : (tree.put location entry).get? other = tree.get? other := by
  by_cases hroot : other = []
  · rw [get?, get?, if_pos hroot, if_pos hroot]
  · have hother : (other == location) = false := beq_eq_false_iff_ne.2 h
    rw [get?, get?, if_neg hroot, if_neg hroot, put, List.lookup_cons, hother, lookup_filter_ne h]

theorem ne_root_of_get? {tree : FileTree} {location : Location}
    (h : tree.get? location ≠ some .directory) : location ≠ [] := by
  rintro rfl
  exact h rfl

/-! ## Where paths lead -/

/-- Where names lead from a location on. -/
def resolve (location : Location) : List String → Location
  | [] => location
  | step :: rest =>
    if step = "." then resolve location rest
    else if step = ".." then resolve location.dropLast rest
    else resolve (location ++ [step]) rest

/-- The place that a path denotes from a location on, whether or not it can be followed. -/
def placeFrom (home : Location) (path : Path) : Location :=
  resolve (if path.isAbsolute then [] else home) path.trail.steps ++ path.trail.last.toList

/-- The place that a path denotes. -/
def place (tree : FileTree) (path : Path) : Location :=
  placeFrom tree.home path

theorem child_eq_ok {location next : Location} {name : String}
    (h : child location name = .ok next) : next = location ++ [name] := by
  rw [child] at h
  split at h
  · cases h
  · cases h
    rfl

theorem walk_eq_resolve {tree : FileTree} {steps : List String} {location last : Location}
    (h : tree.walk location steps = .ok last) : last = resolve location steps := by
  induction steps generalizing location with
  | nil =>
    cases h
    rfl
  | cons step rest ih =>
    rw [walk] at h
    rw [resolve]
    split at h
    · rw [if_pos ‹_›]
      exact ih h
    · rw [if_neg ‹_›]
      split at h
      · rw [if_pos ‹_›]
        exact ih h
      · rw [if_neg ‹_›]
        split at h
        · cases h
        · rename_i next hnext
          split at h
          · cases h
          · cases h
          · rw [← child_eq_ok hnext]
            exact ih h

theorem holderOf_eq_ok {tree : FileTree} {path : Path} {holder : Location}
    (h : tree.holderOf path = .ok holder) :
    checkPath path = .ok () ∧
      tree.walk (if path.isAbsolute then [] else tree.home) path.trail.steps = .ok holder := by
  rw [holderOf] at h
  split at h
  · cases h
  · rename_i hcheck
    exact ⟨hcheck, h⟩

theorem place_eq_of_holderOf {tree : FileTree} {path : Path} {holder : Location}
    (h : tree.holderOf path = .ok holder) :
    tree.place path = holder ++ path.trail.last.toList := by
  rw [place, placeFrom, walk_eq_resolve (holderOf_eq_ok h).2]

/-- A path that leads somewhere leads to its place. -/
theorem locate_eq_place {tree : FileTree} {path : Path} {location : Location}
    (h : tree.locate path = .ok location) : location = tree.place path := by
  rw [locate] at h
  split at h
  · cases h
  · rename_i holder hholder
    rw [place_eq_of_holderOf hholder]
    split at h
    · rename_i hlast
      cases h
      simp [hlast]
    · rename_i name hlast
      rw [child_eq_ok h, hlast]
      rfl

theorem placeForFile_eq_ok {tree : FileTree} {path : Path} {location : Location}
    (h : tree.placeForFile path = .ok location) :
    tree.locate path = .ok location ∧ path.trail.slash = false ∧
      tree.get? location ≠ some .directory := by
  rw [placeForFile] at h
  split at h
  · cases h
  · rename_i holder hholder
    split at h
    · cases h
    · rename_i name hlast
      split at h
      · cases h
      · rename_i hslash
        split at h
        · cases h
        · rename_i found hchild
          split at h
          · cases h
          · rename_i hdirectory
            cases h
            refine ⟨?_, by simpa using hslash, hdirectory⟩
            rw [locate, hholder]
            simp only [hlast, hchild]

theorem readBytes_eq_ok_iff {tree : FileTree} {path : Path} {bytes : ByteArray} :
    tree.readBytes path = .ok bytes ↔
      tree.locate path = .ok (tree.place path) ∧ path.trail.slash = false ∧
        tree.get? (tree.place path) = some (.file bytes) := by
  rw [readBytes, entryAt]
  constructor
  · intro h
    cases hlocate : tree.locate path with
    | error fault => simp [hlocate] at h
    | ok location =>
      have hplace := locate_eq_place hlocate
      subst hplace
      cases hget : tree.get? (tree.place path) with
      | none => simp [hlocate, hget] at h
      | some entry =>
        cases entry with
        | directory => simp [hlocate, hget] at h
        | file found =>
          cases hslash : path.trail.slash with
          | true => simp [hlocate, hget, hslash] at h
          | false =>
            simp only [hlocate, hget, hslash] at h
            cases h
            exact ⟨rfl, rfl, rfl⟩
  · rintro ⟨hlocate, hslash, hget⟩
    simp [hlocate, hslash, hget]

/-- A file with the bytes of a text has the text. -/
theorem readText_of_encode {tree : FileTree} {path : Path} {text : Text}
    (h : tree.readBytes path = .ok text.encode) : tree.readText path = .ok text := by
  have hdecode : String.fromUTF8? text.encode = some (String.ofList text) := by
    rw [Text.encode, String.toUTF8_eq_toByteArray, String.fromUTF8?,
      dif_pos (String.ofList text).isValidUTF8]
    rfl
  rw [readText, h]
  simp only [hdecode, String.toList_ofList]

/-- Trees with the same bytes at a path have the same text there. -/
theorem readText_congr {tree other : FileTree} {path : Path}
    (h : tree.readBytes path = other.readBytes path) :
    tree.readText path = other.readText path := by
  rw [readText, readText, h]

/-! ## Changes -/

/-- What may have become of a tree: files are written at places of `files` only, directories are
made at places of `directories` only, and only where nothing was. -/
structure Change (directories files : List Location) (tree changed : FileTree) : Prop where
  home_eq : changed.home = tree.home
  stays : ∀ location, tree.get? location = some .directory →
    changed.get? location = some .directory
  elsewhere : ∀ location, location ∉ files → changed.get? location = tree.get? location ∨
    location ∈ directories ∧ tree.get? location = none ∧
      changed.get? location = some .directory

namespace Change

variable {directories directories' files files' : List Location} {tree mid changed : FileTree}

theorem refl (tree : FileTree) : Change directories files tree tree :=
  ⟨rfl, fun _ h => h, fun _ _ => .inl rfl⟩

theorem mono (h : Change directories files tree changed)
    (hdirectories : ∀ location ∈ directories, location ∈ directories')
    (hfiles : ∀ location ∈ files, location ∈ files') :
    Change directories' files' tree changed := by
  refine ⟨h.home_eq, h.stays, ?_⟩
  intro location hlocation
  rcases h.elsewhere location (fun hmem => hlocation (hfiles location hmem)) with hsame | hmade
  · exact .inl hsame
  · exact .inr ⟨hdirectories location hmade.1, hmade.2⟩

theorem trans (h : Change directories files tree mid)
    (hlater : Change directories files mid changed) : Change directories files tree changed := by
  refine ⟨hlater.home_eq.trans h.home_eq, ?_, ?_⟩
  · intro location hdirectory
    exact hlater.stays location (h.stays location hdirectory)
  · intro location hlocation
    rcases h.elsewhere location hlocation with hsame | ⟨hmem, hnone, hmade⟩
    · rcases hlater.elsewhere location hlocation with hsame' | ⟨hmem, hnone, hmade⟩
      · exact .inl (hsame'.trans hsame)
      · exact .inr ⟨hmem, hsame ▸ hnone, hmade⟩
    · exact .inr ⟨hmem, hnone, hlater.stays location hmade⟩

/-- The change of one step after another. -/
theorem append (h : Change directories files tree mid)
    (hlater : Change directories' files' mid changed) :
    Change (directories ++ directories') (files ++ files') tree changed :=
  (h.mono (by simp +contextual) (by simp +contextual)).trans
    (hlater.mono (by simp +contextual) (by simp +contextual))

theorem place_eq (h : Change directories files tree changed) (path : Path) :
    changed.place path = tree.place path := by
  rw [place, place, h.home_eq]

/-- A file that is not written stays as it is. -/
theorem get?_file (h : Change directories files tree changed) {location : Location}
    (hlocation : location ∉ files) {bytes : ByteArray}
    (hfile : tree.get? location = some (.file bytes)) :
    changed.get? location = some (.file bytes) := by
  rcases h.elsewhere location hlocation with hsame | ⟨_, hnone, _⟩
  · rw [hsame, hfile]
  · rw [hfile] at hnone
    cases hnone

theorem walk (h : Change directories files tree changed) {steps : List String}
    {location last : Location} (hwalk : tree.walk location steps = .ok last) :
    changed.walk location steps = .ok last := by
  induction steps generalizing location with
  | nil => exact hwalk
  | cons step rest ih =>
    rw [FileTree.walk] at hwalk ⊢
    split at hwalk
    · rw [if_pos ‹_›]
      exact ih hwalk
    · rw [if_neg ‹_›]
      split at hwalk
      · rw [if_pos ‹_›]
        exact ih hwalk
      · rw [if_neg ‹_›]
        split at hwalk
        · cases hwalk
        · rename_i next hnext
          split at hwalk
          · cases hwalk
          · cases hwalk
          · rename_i hdirectory
            simp only [h.stays next hdirectory]
            exact ih hwalk

/-- A path that leads somewhere still leads there. -/
theorem locate (h : Change directories files tree changed) {path : Path} {location : Location}
    (hlocate : tree.locate path = .ok location) : changed.locate path = .ok location := by
  rw [FileTree.locate] at hlocate ⊢
  split at hlocate
  · cases hlocate
  · rename_i holder hholder
    obtain ⟨hcheck, hwalk⟩ := holderOf_eq_ok hholder
    have hholder' : changed.holderOf path = .ok holder := by
      rw [holderOf, hcheck, h.home_eq]
      exact h.walk hwalk
    rw [hholder']
    exact hlocate

/-- What is read at a path whose place is not written stays the same. -/
theorem readBytes (h : Change directories files tree changed) {path : Path}
    (hplace : tree.place path ∉ files) {bytes : ByteArray}
    (hread : tree.readBytes path = .ok bytes) : changed.readBytes path = .ok bytes := by
  obtain ⟨hlocate, hslash, hfile⟩ := readBytes_eq_ok_iff.1 hread
  rw [readBytes_eq_ok_iff, h.place_eq path]
  exact ⟨h.locate hlocate, hslash, h.get?_file hplace hfile⟩

end Change

/-! ## Operations -/

theorem change_put {tree : FileTree} {location : Location}
    (h : tree.get? location ≠ some .directory) (bytes : ByteArray) :
    Change [] [location] tree (tree.put location (.file bytes)) := by
  refine ⟨rfl, ?_, ?_⟩
  · intro other hdirectory
    have hne : other ≠ location := by
      rintro rfl
      exact h hdirectory
    rw [get?_put_of_ne hne, hdirectory]
  · intro other hother
    exact .inl (get?_put_of_ne (by simpa using hother) tree _)

/-- A file that was written is read back, and nothing else changes. -/
theorem writeBytes_eq_ok {tree changed : FileTree} {path : Path} {bytes : ByteArray}
    (h : tree.writeBytes path bytes = .ok changed) :
    Change [] [tree.place path] tree changed ∧ changed.readBytes path = .ok bytes := by
  rw [writeBytes] at h
  cases hplace : tree.placeForFile path with
  | error fault => simp [hplace, Except.map] at h
  | ok location =>
    obtain ⟨hlocate, hslash, hdirectory⟩ := placeForFile_eq_ok hplace
    have hlocation := locate_eq_place hlocate
    subst hlocation
    rw [hplace] at h
    cases h
    have hchange := change_put hdirectory bytes
    refine ⟨hchange, readBytes_eq_ok_iff.2 ?_⟩
    rw [hchange.place_eq path]
    exact ⟨hchange.locate hlocate, hslash, get?_put_self (ne_root_of_get? hdirectory) tree _⟩

theorem makeDirectory_eq_ok {tree changed : FileTree} {path : Path}
    (h : tree.makeDirectory path = .ok changed) : Change [tree.place path] [] tree changed := by
  rw [makeDirectory] at h
  split at h
  · cases h
  · rename_i holder hholder
    have hplace := place_eq_of_holderOf hholder
    split at h
    · cases h
    · rename_i name hlast
      split at h
      · cases h
      · rename_i location hchild
        split at h
        · cases h
        · rename_i hnone
          cases h
          have hlocation : location = tree.place path := by
            rw [child_eq_ok hchild, hplace, hlast]
            rfl
          have hfree : tree.get? location = none := by simpa using hnone
          have hroot : location ≠ [] := by
            rintro rfl
            cases hfree
          subst hlocation
          refine ⟨rfl, ?_, ?_⟩
          · intro other hdirectory
            have hne : other ≠ tree.place path := by
              rintro rfl
              rw [hfree] at hdirectory
              cases hdirectory
            rw [get?_put_of_ne hne, hdirectory]
          · intro other _
            by_cases hne : other = tree.place path
            · subst hne
              exact .inr ⟨by simp, hfree, get?_put_self hroot tree _⟩
            · exact .inl (get?_put_of_ne hne tree _)

/-- A copy of a file that lies elsewhere has its bytes. -/
theorem copyFile_eq_ok {tree changed : FileTree} {source target : Path}
    (hapart : tree.place source ≠ tree.place target)
    (h : tree.copyFile source target = .ok changed) :
    ∃ bytes, tree.readBytes source = .ok bytes ∧ changed.readBytes target = .ok bytes ∧
      Change [] [tree.place target] tree changed := by
  rw [copyFile] at h
  split at h
  · cases h
  · rename_i bytes hread
    split at h
    · cases h
    · rename_i emptied hempty
      obtain ⟨hemptied, _⟩ := writeBytes_eq_ok hempty
      have hread' := hemptied.readBytes (by simpa using hapart) hread
      rw [hread'] at h
      obtain ⟨hwritten, htarget⟩ := writeBytes_eq_ok h
      rw [hemptied.place_eq target] at hwritten
      exact ⟨bytes, hread, htarget, hemptied.trans hwritten⟩

/-! ## Operations in sequence -/

/-- On any disk with a state, each step is made on the state that the step before has left. -/
theorem run_bind {α β σ : Type} (first : StateM σ α) (next : α → StateM σ β) (state : σ) :
    (first >>= next).run state = (next (first.run state).1).run (first.run state).2 :=
  rfl

theorem run_map {α β : Type} (f : α → β) (action : StateM FileTree α) (tree : FileTree) :
    (f <$> action).run tree = (f (action.run tree).1, (action.run tree).2) :=
  rfl

theorem run_kindAt (path : Path) (tree : FileTree) :
    (Disk.kindAt path : StateM FileTree (Option EntryKind)).run tree =
      (match tree.entryAt path with
        | .error _ => none
        | .ok entry => some entry.kind, tree) :=
  rfl

theorem run_readText (path : Path) (tree : FileTree) :
    (Disk.readText path : StateM FileTree (Except Fault Text)).run tree
      = (tree.readText path, tree) :=
  rfl

theorem run_copyFile (source target : Path) (tree : FileTree) :
    (Disk.copyFile source target : StateM FileTree (Except Fault Unit)).run tree =
      match tree.copyFile source target with
      | .error fault => (Except.error fault, tree)
      | .ok copied => (Except.ok (), copied) :=
  rfl

theorem run_apply (operation : FileTree → Except Fault FileTree) (tree : FileTree) :
    (apply operation).run tree = match operation tree with
      | .error fault => (Except.error fault, tree)
      | .ok changed => (Except.ok (), changed) :=
  rfl

/-- Making a directory makes it at its place or changes nothing. -/
theorem change_makeDirectory (path : Path) (tree : FileTree) :
    Change [tree.place path] [] tree
      ((Disk.makeDirectory path : StateM FileTree (Except Fault Unit)).run tree).2 := by
  show Change _ _ tree ((apply (·.makeDirectory path)).run tree).2
  rw [run_apply]
  split
  · exact .refl tree
  · rename_i hmade
    exact makeDirectory_eq_ok hmade

theorem run_unlessDirectory_snd (path : Path) (fault : Fault) (tree : FileTree) :
    ((Disk.unlessDirectory path fault : StateM FileTree (Except Fault Unit)).run tree).2
      = tree := by
  rw [Disk.unlessDirectory, run_bind]
  split <;> rfl

/-- Making a directory and those above it makes directories at their places only. -/
theorem change_makeChain (paths : List Path) (tree : FileTree) :
    Change (paths.map tree.place) [] tree
      ((Disk.makeChain paths : StateM FileTree (Except Fault Unit)).run tree).2 := by
  induction paths generalizing tree with
  | nil => exact .refl tree
  | cons path above ih =>
    rw [Disk.makeChain]
    split
    · exact .refl tree
    · have hmade := change_makeDirectory path tree
      have hfirst : Change ((path :: above).map tree.place) [] tree _ :=
        hmade.mono (by simp) (by simp)
      rw [run_bind]
      split
      · exact hfirst
      -- the directory above was missing: it is made, and then this one is tried again
      · generalize ((Disk.makeDirectory path : StateM FileTree _).run tree).2 = mid
          at hfirst hmade ⊢
        have habove := ih mid
        have hplaces : above.map mid.place = above.map tree.place := by
          exact List.map_congr_left fun other _ => hmade.place_eq other
        rw [run_bind]
        rw [hplaces] at habove
        have hsecond : Change ((path :: above).map tree.place) [] tree _ :=
          hfirst.trans (habove.mono (by simp +contextual) (by simp))
        split
        · exact hsecond
        · generalize ((Disk.makeChain above : StateM FileTree _).run mid).2 = high
            at hsecond habove ⊢
          have hretry := change_makeDirectory path high
          rw [habove.place_eq, hmade.place_eq] at hretry
          have hthird : Change ((path :: above).map tree.place) [] tree _ :=
            hsecond.trans (hretry.mono (by simp) (by simp))
          rw [run_bind]
          split
          · exact hthird
          · rw [run_unlessDirectory_snd]
            exact hthird
      · rw [run_unlessDirectory_snd]
        exact hfirst

/-- The directories that are made, where they are missing, before a file is written at the path. -/
def directoriesFor (path : Path) : List Path :=
  ((Disk.holder? path).map Path.ancestors).getD []

theorem writeText_eq_ok {tree changed : FileTree} {path : Path} {text : Text}
    (h : tree.writeText path text = .ok changed) :
    Change [] [tree.place path] tree changed ∧
      changed.readBytes path = .ok text.encode :=
  writeBytes_eq_ok h

theorem run_writeText (path : Path) (text : Text) (tree : FileTree) :
    (Disk.writeText path text : StateM FileTree (Except Fault Unit)).run tree =
      match tree.writeText path text with
      | .error fault => (Except.error fault, tree)
      | .ok changed => (Except.ok (), changed) :=
  rfl

/-- A text that is stored is read back; one that is not leaves directories at most. -/
theorem change_storeText (path : Path) (text : Text) (tree : FileTree) :
    match (Disk.storeText path text : StateM FileTree (Except Fault Unit)).run tree with
    | (.ok (), changed) =>
      Change ((directoriesFor path).map tree.place) [tree.place path] tree changed ∧
        changed.readBytes path = .ok text.encode
    | (.error _, changed) => Change ((directoriesFor path).map tree.place) [] tree changed := by
  rw [Disk.storeText, directoriesFor]
  cases hholder : Disk.holder? path with
  | none =>
    simp only [run_writeText, Option.map_none, Option.getD_none, List.map_nil]
    cases hwrite : tree.writeText path text with
    | error fault => exact .refl tree
    | ok changed => exact writeText_eq_ok hwrite
  | some directory =>
    simp only [run_bind, Option.map_some, Option.getD_some]
    have hmade := change_makeChain directory.ancestors tree
    change Change _ [] tree
      ((Disk.makeDirectories directory : StateM FileTree (Except Fault Unit)).run tree).2 at hmade
    generalize (Disk.makeDirectories directory : StateM FileTree (Except Fault Unit)).run tree
      = made at hmade ⊢
    obtain ⟨answer, mid⟩ := made
    cases answer with
    | error fault => exact hmade
    | ok =>
      simp only [run_writeText]
      cases hwrite : mid.writeText path text with
      | error fault => exact hmade
      | ok changed =>
        obtain ⟨hchange, hread⟩ := writeText_eq_ok hwrite
        rw [hmade.place_eq path] at hchange
        refine ⟨?_, hread⟩
        exact (hmade.mono (by simp) (by simp)).trans (hchange.mono (by simp) (by simp))

end FileTree

end Carver
