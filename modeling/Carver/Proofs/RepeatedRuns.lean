import Carver.Proofs.JoinedPaths
import Carver.Proofs.RunEffect

/-!
# Runs one after the other

Each run of a job writes the copy, the source and the files of the modules that receive something,
over what is there. So the file of a module keeps what a run put into it until a later run puts
something into a module of the same name (`holdsAt_of_runs`); then it is gone, and the copy, which
is written anew by each run, does not hold it either (`not_forall_holds_of_runs`).
-/

namespace Carver

namespace Text

/-- The bytes of the text stand somewhere in the bytes. -/
def StandsIn (text : Text) (bytes : ByteArray) : Prop :=
  text.encode.data.toList <:+: bytes.data.toList

instance (text : Text) (bytes : ByteArray) : Decidable (text.StandsIn bytes) :=
  inferInstanceAs (Decidable (_ <:+: _))

theorem encode_append (a b : Text) : encode (a ++ b) = encode a ++ encode b := by
  simp [encode]

/-- A stretch of a text stands in its bytes. -/
theorem standsIn_encode {piece text : Text} (h : piece <:+: text) : piece.StandsIn text.encode := by
  obtain ⟨before, after, rfl⟩ := h
  refine ⟨(encode before).data.toList, (encode after).data.toList, ?_⟩
  rw [encode_append, encode_append, ByteArray.data_append, ByteArray.data_append,
    Array.toList_append, Array.toList_append]

end Text

/-- A module file holds the texts that moved into it. -/
theorem isInfix_content {item : Text} {items : List Text} (h : item ∈ items) (name : String)
    (table : ImportTable) (extra : List String) :
    item <:+: Module.content name items table extra := by
  have hitems : item <:+: items.flatMap (· ++ ['\n', '\n']) := by
    obtain ⟨before, after, rfl⟩ := List.append_of_mem h
    rw [List.flatMap_append, List.flatMap_cons, List.append_assoc]
    exact ⟨_, _, List.append_assoc _ _ _⟩
  exact hitems.trans (List.suffix_append _ _).isInfix

namespace FileTree

/-- The file at the path holds the text. -/
def HoldsAt (tree : FileTree) (path : Path) (text : Text) : Prop :=
  ∃ bytes, tree.readBytes path = .ok bytes ∧ text.StandsIn bytes

/-- Some file of the tree holds the text. -/
def Holds (tree : FileTree) (text : Text) : Prop :=
  ∃ location bytes, tree.get? location = some (.file bytes) ∧ text.StandsIn bytes

theorem HoldsAt.holds {tree : FileTree} {path : Path} {text : Text} (h : tree.HoldsAt path text) :
    tree.Holds text := by
  obtain ⟨bytes, hread, hstands⟩ := h
  exact ⟨tree.place path, bytes, (readBytes_eq_ok_iff.1 hread).2.2, hstands⟩

/-- Whether the entry is a file that holds the text. -/
def entryHolds (text : Text) : Option Entry → Bool
  | some (.file bytes) => decide (text.StandsIn bytes)
  | _ => false

theorem any_entryHolds_iff {tree : FileTree} {text : Text} :
    tree.entries.any (fun pair => entryHolds text (tree.get? pair.1)) = true ↔ tree.Holds text := by
  rw [List.any_eq_true]
  constructor
  · rintro ⟨pair, _, hpair⟩
    cases hentry : tree.get? pair.1 with
    | none => simp [hentry, entryHolds] at hpair
    | some entry =>
      cases entry with
      | directory => simp [hentry, entryHolds] at hpair
      | file bytes => exact ⟨pair.1, bytes, hentry, by simpa [hentry, entryHolds] using hpair⟩
  · rintro ⟨location, bytes, hentry, hstands⟩
    have hroot : location ≠ [] := by
      rintro rfl
      cases hentry
    have hlookup := hentry
    rw [get?, if_neg hroot, List.lookup_eq_some_iff] at hlookup
    obtain ⟨before, after, hentries, _⟩ := hlookup
    refine ⟨(location, .file bytes), by simp [hentries], ?_⟩
    simpa [hentry, entryHolds] using hstands

instance (tree : FileTree) (text : Text) : Decidable (tree.Holds text) :=
  decidable_of_iff _ any_entryHolds_iff

end FileTree

namespace Job

open FileTree

theorem exists_mem_zip_split {text : Text} {plan : Plan} {share : ModuleShare}
    (hshare : share ∈ (split text plan).modules) :
    ∃ entry, (entry, share) ∈ plan.zip (split text plan).modules := by
  rw [← map_snd_zip_split] at hshare
  obtain ⟨⟨entry, _⟩, hpair, heq⟩ := List.mem_map.1 hshare
  subst heq
  exact ⟨entry, hpair⟩

/-- A run: what it was asked for and what it did. -/
structure Round where
  imports : ImportTable
  plan : Plan
  done : Completion

/-- The round takes the tree to the next one and reports success; its modules have usable names,
and its files are different files. -/
structure Turn (job : Job) (tree : FileTree) (round : Round) (next : FileTree) : Prop where
  names : ∀ entry ∈ round.plan, Identifier.isUsable entry.name = true
  apart : job.Apart round.plan tree
  run_eq : job.runOn round.imports round.plan tree = (.ok round.done, next)
  success : (round.done.report job).isSuccess = true

/-- Rounds one after the other, with nothing else done to the tree. -/
inductive Runs (job : Job) : FileTree → List Round → FileTree → Prop
  | nil (tree : FileTree) : Runs job tree [] tree
  | cons {tree next last : FileTree} {round : Round} {rounds : List Round} :
      Turn job tree round next → Runs job next rounds last → Runs job tree (round :: rounds) last

theorem Runs.split_append {job : Job} {tree last : FileTree} {earlier later : List Round}
    (h : Runs job tree (earlier ++ later) last) :
    ∃ mid, Runs job tree earlier mid ∧ Runs job mid later last := by
  induction earlier generalizing tree with
  | nil => exact ⟨tree, .nil tree, h⟩
  | cons round earlier ih =>
    cases h with
    | cons hturn hruns =>
      obtain ⟨mid, hearlier, hlater⟩ := ih hruns
      exact ⟨mid, .cons hturn hearlier, hlater⟩

namespace Turn

variable {job : Job} {tree next : FileTree} {round : Round}

theorem exists_course (h : Turn job tree round next) (hdry : job.dryRun = false) :
    ∃ text copied written,
      Course job round.imports round.plan text round.done tree copied written next :=
  Job.exists_course hdry h.apart.source_ne_backup h.run_eq

/-- The names of the modules of the split are those of the plan. -/
theorem isUsable_name (h : Turn job tree round next) (hdry : job.dryRun = false)
    {share : ModuleShare} (hshare : share ∈ round.done.split.modules) :
    Identifier.isUsable share.name = true := by
  obtain ⟨text, copied, written, hcourse⟩ := h.exists_course hdry
  rw [hcourse.split_eq] at hshare
  obtain ⟨entry, hentry, hname⟩ := exists_entry_of_share hshare
  rw [← hname]
  exact h.names entry hentry

/-- A round that reports success has written the file of every module that received something. -/
theorem mem_files (h : Turn job tree round next) (hdry : job.dryRun = false) {share : ModuleShare}
    (hshare : share ∈ round.done.split.takers) :
    ⟨job.modulePath share.name, .module, .written⟩ ∈ (round.done.report job).files := by
  obtain ⟨text, copied, written, hcourse⟩ := h.exists_course hdry
  have hpath : job.modulePath share.name ∈ (filesOf round.done.modules).map (·.path) := by
    rw [hcourse.modules.path_eq, map_snd_zip_split]
    rw [hcourse.split_eq] at hshare
    exact List.mem_map_of_mem hshare
  obtain ⟨file, hfile, hpath⟩ := List.mem_map.1 hpath
  have hmem : file ∈ (round.done.report job).files := by
    rw [← hcourse.filter_module_files] at hfile
    exact (List.mem_filter.1 hfile).1
  have hdone := List.all_eq_true.1 h.success file hmem
  obtain ⟨hrole, hstatus | ⟨error, hfailed⟩⟩ := hcourse.modules.status_cases file hfile
  · obtain ⟨path, role, status⟩ := file
    subst hpath hrole hstatus
    exact hmem
  · rw [hfailed] at hdone
    cases hdone

/-- A fragment that a round takes stands in the file of its module afterwards. -/
theorem holdsAt (h : Turn job tree round next) (hdry : job.dryRun = false) {share : ModuleShare}
    (hshare : share ∈ round.done.split.modules) {fragment : Text}
    (hfragment : fragment ∈ share.fragments) :
    next.HoldsAt (job.modulePath share.name) fragment := by
  obtain ⟨text, copied, written, hcourse⟩ := h.exists_course hdry
  have htaker : share ∈ round.done.split.takers := by
    refine List.mem_filter.2 ⟨hshare, ?_⟩
    rw [Bool.not_eq_true', List.isEmpty_eq_false_iff]
    exact List.ne_nil_of_mem hfragment
  have hfile := h.mem_files hdry htaker
  rw [hcourse.split_eq] at hshare
  obtain ⟨entry, hpair⟩ := exists_mem_zip_split hshare
  have hread := hcourse.module_eq h.apart hpair hfile
  have hinfix := isInfix_content hfragment share.name round.imports entry.imports
  exact ⟨_, hread, Text.standsIn_encode hinfix⟩

/-- A round keeps the file of a module that receives nothing. -/
theorem readBytes_modulePath (h : Turn job tree round next) (hdry : job.dryRun = false)
    {name : String} (hname : Identifier.isUsable name = true)
    (hsource : tree.place job.source ≠ tree.place (job.modulePath name))
    (hbackup : tree.place job.backup ≠ tree.place (job.modulePath name))
    (hkept : ∀ taker ∈ round.done.split.takers, taker.name ≠ name) {bytes : ByteArray}
    (hread : tree.readBytes (job.modulePath name) = .ok bytes) :
    next.readBytes (job.modulePath name) = .ok bytes := by
  obtain ⟨text, copied, written, hcourse⟩ := h.exists_course hdry
  -- first the copy is written, then files of modules with a fragment, and last the source
  have hread' := hcourse.copy.readBytes (by simpa using hbackup.symm) hread
  refine hcourse.change_after_copy.readBytes ?_ hread'
  rw [hcourse.copy.place_eq]
  intro hmem
  rcases hcourse.mem_of_mem_writtenPlaces hmem with heq | ⟨taker, htaker, heq⟩
  · exact hsource heq.symm
  · rw [← hcourse.split_eq] at htaker
    have husable := h.isUsable_name hdry (List.mem_filter.1 htaker).1
    exact hkept taker htaker (place_modulePath_injective job tree hname husable heq).symm

theorem place_eq (h : Turn job tree round next) (hdry : job.dryRun = false) (path : Path) :
    next.place path = tree.place path := by
  obtain ⟨text, copied, written, hcourse⟩ := h.exists_course hdry
  exact hcourse.change.place_eq path

end Turn

/-- Rounds in which a module receives nothing keep its file. -/
theorem Runs.readBytes_modulePath {job : Job} (hdry : job.dryRun = false) {tree last : FileTree}
    {rounds : List Round} (h : Runs job tree rounds last) {name : String}
    (hname : Identifier.isUsable name = true)
    (hsource : tree.place job.source ≠ tree.place (job.modulePath name))
    (hbackup : tree.place job.backup ≠ tree.place (job.modulePath name))
    (hkept : ∀ round ∈ rounds, ∀ taker ∈ round.done.split.takers, taker.name ≠ name)
    {bytes : ByteArray} (hread : tree.readBytes (job.modulePath name) = .ok bytes) :
    last.readBytes (job.modulePath name) = .ok bytes := by
  induction h with
  | nil => exact hread
  | cons hturn _ ih =>
    rw [List.forall_mem_cons] at hkept
    have hnext := hturn.readBytes_modulePath hdry hname hsource hbackup hkept.1 hread
    rw [← hturn.place_eq hdry, ← hturn.place_eq hdry (job.modulePath name)] at hsource hbackup
    exact ih hsource hbackup hkept.2 hnext

/-- A fragment that one of several rounds takes stands in the file of its module in the end, unless
a later round puts something into a module of that name. -/
theorem holdsAt_of_runs {job : Job} (hdry : job.dryRun = false) {tree last : FileTree}
    {earlier later : List Round} {round : Round}
    (hruns : job.Runs tree (earlier ++ round :: later) last) {share : ModuleShare}
    (hshare : share ∈ round.done.split.modules) {fragment : Text}
    (hfragment : fragment ∈ share.fragments)
    (hkept : ∀ other ∈ later, ∀ taker ∈ other.done.split.takers, taker.name ≠ share.name) :
    last.HoldsAt (job.modulePath share.name) fragment ∧ last.Holds fragment := by
  obtain ⟨before, _, hrest⟩ := hruns.split_append
  cases hrest with
  | cons hturn hlater =>
    obtain ⟨bytes, hread, hstands⟩ := hturn.holdsAt hdry hshare hfragment
    have hname := hturn.isUsable_name hdry hshare
    obtain ⟨text, copied, written, hcourse⟩ := hturn.exists_course hdry
    rw [hcourse.split_eq] at hshare
    have hsource := hturn.apart.source_ne_module hshare
    have hbackup := hturn.apart.backup_ne_module hshare
    rw [← hturn.place_eq hdry, ← hturn.place_eq hdry (job.modulePath share.name)]
      at hsource hbackup
    -- the later rounds start where the round has written the file
    have hlast := hlater.readBytes_modulePath hdry hname hsource hbackup hkept hread
    have hholds : last.HoldsAt (job.modulePath share.name) fragment := ⟨bytes, hlast, hstands⟩
    exact ⟨hholds, hholds.holds⟩

/-- The round and the next tree, if the answer of a run makes it a turn. -/
def turn? (job : Job) (imports : ImportTable) (plan : Plan) (tree : FileTree) :
    Except Failure Completion × FileTree → Option (Round × FileTree)
  | (.error _, _) => none
  | (.ok done, next) =>
    if (∀ entry ∈ plan, Identifier.isUsable entry.name = true) ∧ job.Apart plan tree ∧
        (done.report job).isSuccess = true then
      some (⟨imports, plan, done⟩, next)
    else none

theorem turn_of_turn? {job : Job} {imports : ImportTable} {plan : Plan} {tree next : FileTree}
    {round : Round}
    (h : job.turn? imports plan tree (job.runOn imports plan tree) = some (round, next)) :
    job.Turn tree round next := by
  generalize hrun : job.runOn imports plan tree = answer at h
  obtain ⟨_ | done, last⟩ := answer
  · cases h
  · rw [turn?] at h
    split at h
    · rename_i hturn
      cases h
      exact ⟨hturn.1, hturn.2.1, hrun, hturn.2.2⟩
    · cases h

/-- Runs the plans one after the other; gives the rounds and the last tree if all are turns. -/
def play (job : Job) (imports : ImportTable) (tree : FileTree) :
    List Plan → Option (List Round × FileTree)
  | [] => some ([], tree)
  | plan :: plans =>
    (job.turn? imports plan tree (job.runOn imports plan tree)).bind fun (round, next) =>
      (job.play imports next plans).map fun (rounds, last) => (round :: rounds, last)

theorem runs_of_play {job : Job} {imports : ImportTable} {plans : List Plan}
    {tree last : FileTree} {rounds : List Round}
    (h : job.play imports tree plans = some (rounds, last)) : job.Runs tree rounds last := by
  induction plans generalizing tree rounds with
  | nil =>
    cases h
    exact .nil _
  | cons plan plans ih =>
    obtain ⟨⟨round, next⟩, hturn, h⟩ := Option.bind_eq_some_iff.1 h
    obtain ⟨⟨later, final⟩, hlater, heq⟩ := Option.map_eq_some_iff.1 h
    cases heq
    exact .cons (turn_of_turn? hturn) (ih hlater)

/-- Whether the second of two rounds spares a module that has the fragment from the first. -/
def spares (fragment : Text) : List Round → Bool
  | [first, second] => first.done.split.modules.any fun share =>
      share.fragments.contains fragment && second.done.split.takers.all (·.name != share.name)
  | _ => false

/-- A later run that fills another module keeps what the first one took. -/
theorem holdsAt_of_runs_sample : ∃ first second last,
    sampleJob.Runs sampleTree [first, second] last ∧
      ∃ share ∈ first.done.split.modules, "fn a() {}".toList ∈ share.fragments ∧
        last.HoldsAt (sampleJob.modulePath share.name) "fn a() {}".toList ∧
        last.Holds "fn a() {}".toList := by
  have hplay : (sampleJob.play .empty sampleTree
      [[⟨"first", ["a"], [], []⟩], [⟨"second", ["b"], [], []⟩]]).any
        (fun played => spares "fn a() {}".toList played.1) = true := by
    decide +kernel
  obtain ⟨⟨rounds, last⟩, hrounds, hfacts⟩ := (Option.any_eq_true _ _).1 hplay
  have hruns := runs_of_play hrounds
  obtain _ | ⟨first, _ | ⟨second, _ | ⟨third, later⟩⟩⟩ := rounds
  · cases hfacts
  · cases hfacts
  · obtain ⟨share, hshare, hfacts⟩ := List.any_eq_true.1 hfacts
    obtain ⟨hcontains, hothers⟩ := Bool.and_eq_true_iff.1 hfacts
    have hfragment := List.contains_iff_mem.1 hcontains
    have hholds := @holdsAt_of_runs sampleJob rfl sampleTree last [] [second] first hruns share
      hshare _ hfragment (by simpa using hothers)
    exact ⟨first, second, last, hruns, share, hshare, hfragment, hholds⟩
  · cases hfacts

/-- Not every fragment is kept: the second run writes the same module, and copies a source that has
lost the fragment already. -/
theorem not_forall_holds_of_runs :
    ¬ ∀ (job : Job) (tree last : FileTree) (rounds : List Round),
      job.dryRun = false → job.backupSuffix ≠ "" → job.Runs tree rounds last →
      ∀ round ∈ rounds, ∀ share ∈ round.done.split.modules, ∀ fragment ∈ share.fragments,
        last.Holds fragment := by
  intro hall
  have hplay : (sampleJob.play .empty sampleTree
      [[⟨"m", ["a"], [], []⟩], [⟨"m", ["b"], [], []⟩]]).any (fun (rounds, last) =>
        rounds.any fun round => round.done.split.modules.any fun share =>
          share.fragments.any fun fragment => !decide (last.Holds fragment)) = true := by
    decide +kernel
  obtain ⟨⟨rounds, last⟩, hrounds, hlost⟩ := (Option.any_eq_true _ _).1 hplay
  obtain ⟨round, hround, hlost⟩ := List.any_eq_true.1 hlost
  obtain ⟨share, hshare, hlost⟩ := List.any_eq_true.1 hlost
  obtain ⟨fragment, hfragment, hlost⟩ := List.any_eq_true.1 hlost
  have hholds := hall sampleJob sampleTree last rounds rfl (by decide) (runs_of_play hrounds)
    round hround share hshare fragment hfragment
  simp [hholds] at hlost

end Job

end Carver
