import Traceability.Proofs.Project.History

/-!
The order in which a history reads its documents. A document that a refresh leaves
alone keeps its place before all that this refresh reads, and of these the new ones
come before the modified ones, each by document. The first document to declare a tag
in this order registers it, whatever the order of the documents is.
-/

namespace Traceability.Project

/-- The folders that the refreshes of a history find, the latest first. The last refresh
follows the edits. -/
def snapshots : List Folder → Folder → List Edit → List Folder
  | earlier, folder, [] => folder :: earlier
  | earlier, folder, .write path content :: edits =>
      snapshots earlier (folder.write path content) edits
  | earlier, folder, .delete path :: edits => snapshots earlier (folder.delete path) edits
  | earlier, folder, .refresh :: edits => snapshots (folder :: earlier) folder edits

def latest (seen : List Folder) : Folder := seen.headD .empty

/-- The digests as of the latest refresh. -/
def recorded : List Folder → SortedMap String String
  | [] => ∅
  | now :: _ => (Classification.ofFiles ∅ now.sources).digests

/-- The source files in the order in which they were read, each as it was read last. -/
def readings : List Folder → List SourceFile
  | [] => []
  | now :: earlier =>
      let c := Classification.ofFiles (recorded earlier) now.sources
      let withdrawn := Classification.withdrawn (recorded earlier) now.sources
      ((readings earlier).filter fun f => decide (f.document ∉ withdrawn)) ++
        (c.added ++ c.modified)

/-- The project remembers the latest refresh, and the session follows what was read. -/
structure AsRead (p : Project) (s : Session) (seen : List Folder) : Prop where
  known_eq : p.known = recorded seen
  follows : s.Follows ((readings seen).flatMap declaredItems)

theorem asRead_empty (index : Relationship.Index) (capacity : Nat) :
    AsRead .empty (.empty index capacity) [] where
  known_eq := rfl
  follows := Session.follows_empty index capacity

theorem AsRead.refresh {p : Project} {s : Session} {seen : List Folder} (h : AsRead p s seen)
    (folder : Folder) :
    AsRead (p.refresh folder s).1 (p.refresh folder s).2.1 (folder :: seen) := by
  refine ⟨rfl, ?_⟩
  rw [readings, List.flatMap_append, ← filter_declaredItems, ← h.known_eq]
  exact p.follows_refresh folder h.follows

theorem asRead_run (edits : List Edit) (w : Workspace) (earlier : List Folder)
    (h : AsRead w.project w.session earlier) :
    AsRead (w.run edits).refresh.project (w.run edits).refresh.session
      (snapshots earlier w.folder edits) := by
  induction edits generalizing w earlier with
  | nil => exact h.refresh w.folder
  | cons e edits ih =>
    cases e with
    | write path content => exact ih (w.after (.write path content)) earlier h
    | delete path => exact ih (w.after (.delete path)) earlier h
    | refresh => exact ih w.refresh (w.folder :: earlier) (h.refresh w.folder)

/-- A file replaces another content of its document. -/
def Replaces (old : Folder) (f : SourceFile) : Prop :=
  f.document ∈ old.sources.map SourceFile.document

/-- The order in which files were read last, given what the refreshes found. Files that
the latest refresh leaves alone keep their order and come before those that it reads. Of
these, new documents come before modified ones, and otherwise the documents decide. -/
def ReadBefore : List Folder → SourceFile → SourceFile → Prop
  | [], _, _ => False
  | _ :: earlier, f, g =>
      let old := latest earlier
      (f ∈ old.sources ∧ g ∈ old.sources ∧ ReadBefore earlier f g) ∨
      (f ∈ old.sources ∧ g ∉ old.sources) ∨
      (f ∉ old.sources ∧ g ∉ old.sources ∧
        ((¬ Replaces old f ∧ Replaces old g) ∨
          ((Replaces old f ↔ Replaces old g) ∧ Rank.before f.document g.document = true)))

theorem ReadBefore.asymm {seen : List Folder} {f g : SourceFile} (h : ReadBefore seen f g) :
    ¬ ReadBefore seen g f := by
  induction seen with
  | nil => exact h.elim
  | cons now earlier ih =>
    rcases h with ⟨hf, hg, h⟩ | ⟨hf, hg⟩ | ⟨hf, hg, h⟩
    · rintro (⟨-, -, h'⟩ | ⟨-, hf'⟩ | ⟨hg', -, -⟩)
      · exact ih h h'
      · exact hf' hf
      · exact hg' hg
    · rintro (⟨hg', -, -⟩ | ⟨hg', -⟩ | ⟨-, hf', -⟩)
      · exact hg hg'
      · exact hg hg'
      · exact hf' hf
    · rintro (⟨hg', -, -⟩ | ⟨hg', -⟩ | ⟨-, -, h'⟩)
      · exact hg hg'
      · exact hg hg'
      · rcases h with ⟨hnew, hold⟩ | ⟨hsame, hbefore⟩
        · rcases h' with ⟨hnew', -⟩ | ⟨hsame', -⟩
          · exact hnew' hold
          · exact hnew (hsame'.mp hold)
        · rcases h' with ⟨hnew', hold'⟩ | ⟨-, hbefore'⟩
          · exact hnew' (hsame.mp hold')
          · rw [Rank.asymm hbefore] at hbefore'
            contradiction

/-- Every refresh finds plain names, and no other content under the digest of the last. -/
def Told : List Folder → Prop
  | [] => True
  | now :: earlier => now.Plain ∧ (latest earlier).Distinguishes now ∧ Told earlier

theorem told_snapshots (edits : List Edit) (earlier : List Folder) (folder : Folder)
    (hearlier : Told earlier) (hfolder : folder.Plain) (hedits : ∀ e ∈ edits, e.Plain)
    (hdigests : DigestsTell (latest earlier) folder edits) :
    Told (snapshots earlier folder edits) := by
  induction edits generalizing earlier folder with
  | nil => exact ⟨hfolder, hdigests, hearlier⟩
  | cons e edits ih =>
    rw [List.forall_mem_cons] at hedits
    obtain ⟨hplain, hrest⟩ := hedits
    cases e with
    | write path content =>
      exact ih earlier _ hearlier (Folder.plain_write hfolder hplain content) hrest hdigests
    | delete path => exact ih earlier _ hearlier (Folder.plain_delete hfolder path) hrest hdigests
    | refresh =>
      obtain ⟨hseen, hlater⟩ := hdigests
      exact ih (folder :: earlier) folder ⟨hfolder, hseen, hearlier⟩ hfolder hrest hlater

theorem latest_snapshots (edits : List Edit) (w : Workspace) (earlier : List Folder) :
    latest (snapshots earlier w.folder edits) = (w.run edits).refresh.folder := by
  induction edits generalizing w earlier with
  | nil => rfl
  | cons e edits ih =>
    cases e with
    | write path content => exact ih (w.after (.write path content)) earlier
    | delete path => exact ih (w.after (.delete path)) earlier
    | refresh => exact ih w.refresh (w.folder :: earlier)

section Told

variable {seen : List Folder}

theorem Told.plain_latest (h : Told seen) : (latest seen).Plain := by
  cases seen with
  | nil => exact Folder.plain_empty
  | cons now earlier => exact h.1

theorem Told.recorded_latest (h : Told seen) : (latest seen).Recorded (recorded seen) := by
  cases seen with
  | nil =>
    intro document digest
    have hnone : (recorded []).get? document = none := rfl
    rw [hnone, latest, List.headD_nil, Folder.sources_empty]
    simp
  | cons now earlier => exact Classification.recorded_digests ∅ h.1

theorem Told.perm_readings (h : Told seen) : (readings seen).Perm (latest seen).sources := by
  induction seen with
  | nil =>
    rw [latest, List.headD_nil, Folder.sources_empty]
    exact List.Perm.nil
  | cons now earlier ih =>
    obtain ⟨hplain, hdigests, hearlier⟩ := h
    rw [readings]
    have hkept := ((ih hearlier).filter _).trans (Classification.perm_unchanged
      hearlier.plain_latest hplain hearlier.recorded_latest hdigests)
    exact (hkept.append_right _).trans (Classification.perm_ofFiles _ now.sources)

/-- A file is known by its digest if the refresh before found it just so. -/
theorem Told.mem_latest_of_known (h : Told seen) {f : SourceFile}
    (hne : (recorded seen).get? f.document ≠ some f.digest) : f ∉ (latest seen).sources := by
  intro hf
  exact hne (Classification.get?_document h.recorded_latest hf)

theorem Told.replaces_iff (h : Told seen) (f : SourceFile) :
    Replaces (latest seen) f ↔ ((recorded seen).get? f.document).isSome = true := by
  rw [Replaces, List.mem_map, Option.isSome_iff_exists]
  constructor
  · rintro ⟨g, hg, hdocument⟩
    exact ⟨g.digest, (h.recorded_latest _ _).mpr ⟨g, hg, hdocument, rfl⟩⟩
  · rintro ⟨digest, hget⟩
    obtain ⟨g, hg, hdocument, -⟩ := (h.recorded_latest _ _).mp hget
    exact ⟨g, hg, hdocument⟩

theorem Told.of_mem_added (h : Told seen) {files : List SourceFile} {f : SourceFile}
    (hf : f ∈ (Classification.ofFiles (recorded seen) files).added) :
    f ∉ (latest seen).sources ∧ ¬ Replaces (latest seen) f := by
  rw [Classification.added_ofFiles, List.mem_filter, Option.isNone_iff_eq_none] at hf
  rw [h.replaces_iff, hf.2]
  exact ⟨h.mem_latest_of_known (by simp [hf.2]), by simp⟩

theorem Told.of_mem_modified (h : Told seen) {files : List SourceFile} {f : SourceFile}
    (hf : f ∈ (Classification.ofFiles (recorded seen) files).modified) :
    f ∉ (latest seen).sources ∧ Replaces (latest seen) f := by
  rw [Classification.modified_ofFiles, List.mem_filter, Bool.and_eq_true, bne_iff_ne] at hf
  obtain ⟨-, hsome, hne⟩ := hf
  exact ⟨h.mem_latest_of_known hne, (h.replaces_iff f).mpr hsome⟩

/-- The readings are in the order of reading. -/
theorem Told.pairwise_readings (h : Told seen) :
    (readings seen).Pairwise (ReadBefore seen) := by
  induction seen with
  | nil => exact List.Pairwise.nil
  | cons now earlier ih =>
    obtain ⟨hplain, -, hearlier⟩ := h
    have hmem : ∀ f ∈ readings earlier, f ∈ (latest earlier).sources :=
      fun f hf => hearlier.perm_readings.mem_iff.mp hf
    have hincreasing := Folder.increasing_documents hplain
    rw [readings, List.pairwise_append, List.pairwise_append]
    refine ⟨?_, ⟨?_, ?_, ?_⟩, ?_⟩
    · -- what is left alone
      refine ((ih hearlier).filter _).imp_of_mem ?_
      intro f g hf hg hfg
      exact Or.inl ⟨hmem f (List.mem_filter.mp hf).1, hmem g (List.mem_filter.mp hg).1, hfg⟩
    · -- the new documents
      have hsorted := hincreasing.filter fun f => ((recorded earlier).get? f.document).isNone
      rw [← Classification.added_ofFiles] at hsorted
      refine hsorted.imp_of_mem ?_
      intro f g hf hg hbefore
      obtain ⟨hf, hnew⟩ := hearlier.of_mem_added hf
      obtain ⟨hg, hnew'⟩ := hearlier.of_mem_added hg
      exact Or.inr (Or.inr ⟨hf, hg, Or.inr ⟨iff_of_false hnew hnew', hbefore⟩⟩)
    · -- the modified documents
      have hsorted := hincreasing.filter fun f =>
        ((recorded earlier).get? f.document).isSome &&
          (recorded earlier).get? f.document != some f.digest
      rw [← Classification.modified_ofFiles] at hsorted
      refine hsorted.imp_of_mem ?_
      intro f g hf hg hbefore
      obtain ⟨hf, hold⟩ := hearlier.of_mem_modified hf
      obtain ⟨hg, hold'⟩ := hearlier.of_mem_modified hg
      exact Or.inr (Or.inr ⟨hf, hg, Or.inr ⟨iff_of_true hold hold', hbefore⟩⟩)
    · intro f hf g hg
      obtain ⟨hf, hnew⟩ := hearlier.of_mem_added hf
      obtain ⟨hg, hold⟩ := hearlier.of_mem_modified hg
      exact Or.inr (Or.inr ⟨hf, hg, Or.inl ⟨hnew, hold⟩⟩)
    · intro f hf g hg
      refine Or.inr (Or.inl ⟨hmem f (List.mem_filter.mp hf).1, ?_⟩)
      rcases List.mem_append.mp hg with hg | hg
      · exact (hearlier.of_mem_added hg).1
      · exact (hearlier.of_mem_modified hg).1

end Told

/-- Some declaration of the file has the tag. -/
def Declares (f : SourceFile) (tag : String) : Prop := ∃ item ∈ declaredItems f, item.tag = tag

instance (f : SourceFile) (tag : String) : Decidable (Declares f tag) :=
  inferInstanceAs (Decidable (∃ item ∈ declaredItems f, item.tag = tag))

theorem withoutRelatives_of_mem_declaredItems {f : SourceFile} {item : Item}
    (h : item ∈ declaredItems f) : item.withoutRelatives = item := by
  obtain ⟨d, -, hitem⟩ := List.mem_flatMap.mp h
  unfold Session.declaredItems at hitem
  split at hitem
  · contradiction
  · rw [List.mem_singleton.mp hitem]
    rfl

theorem first?_declaredItems_eq_none_iff (f : SourceFile) (tag : String) :
    Registry.Log.first? (declaredItems f) tag = none ↔ ¬ Declares f tag := by
  rw [Registry.Log.first?_eq_none_iff, Declares]
  simp

/-- The first declaration of a tag is the first one in the first file that declares it. -/
theorem first?_flatMap_iff {R : SourceFile → SourceFile → Prop} {files : List SourceFile}
    (hasymm : ∀ f g, R f g → ¬ R g f) (hfiles : files.Pairwise R) (tag : String) (item : Item) :
    Registry.Log.first? (files.flatMap declaredItems) tag = some item ↔
      ∃ f ∈ files, Registry.Log.first? (declaredItems f) tag = some item ∧
        ∀ g ∈ files, g ≠ f → Declares g tag → R f g := by
  rw [Registry.Log.first?, List.find?_flatMap, List.findSome?_eq_some_iff]
  constructor
  · rintro ⟨before, f, behind, rfl, hfirst, hnone⟩
    refine ⟨f, by simp, hfirst, fun g hg hne hdeclares => ?_⟩
    rw [List.pairwise_append] at hfiles
    rcases List.mem_append.mp hg with hg | hg
    · exact absurd hdeclares ((first?_declaredItems_eq_none_iff g tag).mp (hnone g hg))
    · rcases List.mem_cons.mp hg with rfl | hg
      · exact absurd rfl hne
      · exact List.rel_of_pairwise_cons hfiles.2.1 hg
  · rintro ⟨f, hf, hfirst, hothers⟩
    obtain ⟨before, behind, rfl⟩ := List.append_of_mem hf
    refine ⟨before, f, behind, rfl, hfirst, fun g hg => ?_⟩
    have hgf : R g f := (List.pairwise_append.mp hfiles).2.2 g hg f (by simp)
    refine (first?_declaredItems_eq_none_iff g tag).mpr fun hdeclares => ?_
    have hne : g ≠ f := by
      rintro rfl
      exact hasymm g g hgf hgf
    exact hasymm g f hgf (hothers g (by simp [hg]) hne hdeclares)

/-- The tag is registered by the first declaration that was read. -/
theorem AsRead.registered_eq {p : Project} {s : Session} {seen : List Folder}
    (h : AsRead p s seen) (tag : String) :
    s.registry.unresolved.get? tag =
      Registry.Log.first? ((readings seen).flatMap declaredItems) tag := by
  rw [h.follows.keeps.holds_first, Registry.Log.head?_claims]
  cases hfirst : Registry.Log.first? ((readings seen).flatMap declaredItems) tag with
  | none => rfl
  | some item =>
    obtain ⟨f, -, hitem⟩ := List.mem_flatMap.mp (List.mem_of_find?_eq_some hfirst)
    exact congrArg some (withoutRelatives_of_mem_declaredItems hitem)

theorem readings_singleton (folder : Folder) : readings [folder] = folder.sources := by
  rw [readings, Classification.added_ofFiles, Classification.modified_ofFiles]
  simp [readings, recorded]

theorem registered_load (index : Relationship.Index) (capacity : Nat) (folder : Folder)
    (tag : String) :
    (load folder (.empty index capacity)).2.1.registry.unresolved.get? tag =
      folder.declared.first? tag := by
  rw [load, ((asRead_empty index capacity).refresh folder).registered_eq, readings_singleton,
    Folder.declared]

section Winner

variable {p : Project} {s : Session} {seen : List Folder}

theorem AsRead.registered_iff (h : AsRead p s seen) (htold : Told seen) (tag : String)
    (item : Item) :
    s.registry.unresolved.get? tag = some item ↔
      ∃ f ∈ (latest seen).sources, Registry.Log.first? (declaredItems f) tag = some item ∧
        ∀ g ∈ (latest seen).sources, g ≠ f → Declares g tag → ReadBefore seen f g := by
  rw [h.registered_eq,
    first?_flatMap_iff (fun _ _ => ReadBefore.asymm) htold.pairwise_readings]
  simp only [htold.perm_readings.mem_iff]

theorem AsRead.registered_eq_none_iff (h : AsRead p s seen) (htold : Told seen) (tag : String) :
    s.registry.unresolved.get? tag = none ↔ ∀ f ∈ (latest seen).sources, ¬ Declares f tag := by
  rw [h.registered_eq, Registry.Log.first?, List.find?_flatMap, List.findSome?_eq_none_iff]
  simp only [htold.perm_readings.mem_iff]
  exact forall₂_congr fun f _ => first?_declaredItems_eq_none_iff f tag

theorem registered_load_iff (index : Relationship.Index) (capacity : Nat) {folder : Folder}
    (hplain : folder.Plain) (tag : String) (item : Item) :
    (load folder (.empty index capacity)).2.1.registry.unresolved.get? tag = some item ↔
      ∃ f ∈ folder.sources, Registry.Log.first? (declaredItems f) tag = some item ∧
        ∀ g ∈ folder.sources, g ≠ f → Declares g tag →
          Rank.before f.document g.document = true := by
  rw [registered_load, Folder.declared,
    first?_flatMap_iff ?_ (Folder.increasing_documents hplain)]
  intro f g hfg hgf
  rw [Rank.asymm hfg] at hgf
  contradiction

/-- The history does not matter for a tag exactly if the first document to declare it is
also the one that was read first. -/
theorem AsRead.registered_eq_load_iff (h : AsRead p s seen) (htold : Told seen)
    (index : Relationship.Index) (capacity : Nat) (tag : String) :
    s.registry.unresolved.get? tag =
        (load (latest seen) (.empty index capacity)).2.1.registry.unresolved.get? tag ↔
      ∀ f ∈ (latest seen).sources, Declares f tag →
        (∀ g ∈ (latest seen).sources, g ≠ f → Declares g tag →
          Rank.before f.document g.document = true) →
        ∀ g ∈ (latest seen).sources, g ≠ f → Declares g tag → ReadBefore seen f g := by
  constructor
  · intro hsame f hf hdeclares hleast
    have hsome : Registry.Log.first? (declaredItems f) tag ≠ none := by
      rw [Ne, first?_declaredItems_eq_none_iff, not_not]
      exact hdeclares
    obtain ⟨item, hitem⟩ := Option.ne_none_iff_exists'.mp hsome
    rw [(registered_load_iff index capacity htold.plain_latest tag item).mpr
      ⟨f, hf, hitem, hleast⟩, h.registered_iff htold] at hsame
    obtain ⟨f', hf', hitem', hothers⟩ := hsame
    have hdocument := isFrom_of_mem_declaredItems f f.document item
      (List.mem_of_find?_eq_some hitem)
    rw [isFrom_of_mem_declaredItems f' f.document item (List.mem_of_find?_eq_some hitem'),
      beq_self_eq_true, beq_iff_eq] at hdocument
    rwa [Folder.eq_of_document htold.plain_latest hf' hf hdocument] at hothers
  · intro hread
    cases hfresh : (load (latest seen)
        (.empty index capacity)).2.1.registry.unresolved.get? tag with
    | none =>
      rw [h.registered_eq_none_iff htold]
      rw [registered_load, Folder.declared, Registry.Log.first?, List.find?_flatMap,
        List.findSome?_eq_none_iff] at hfresh
      exact fun f hf => (first?_declaredItems_eq_none_iff f tag).mp (hfresh f hf)
    | some item =>
      obtain ⟨f, hf, hitem, hleast⟩ :=
        (registered_load_iff index capacity htold.plain_latest tag item).mp hfresh
      have hdeclares : Declares f tag :=
        ⟨item, List.mem_of_find?_eq_some hitem, Registry.Log.tag_of_first? hitem⟩
      exact (h.registered_iff htold tag item).mpr ⟨f, hf, hitem, hread f hf hdeclares hleast⟩

end Winner

/-- After every history a tag is registered by the first of its declarations that was read,
and by a load into a new session by the first one in the order of documents. -/
theorem registered_by_reading (index : Relationship.Index) (capacity capacity' : Nat)
    (folder : Folder) (edits : List Edit) :
    let w := ((Workspace.opened folder index capacity).run edits).refresh
    let fresh := (load w.folder (.empty index capacity')).2.1
    let seen := snapshots [] folder edits
    (∀ tag, w.session.registry.unresolved.get? tag =
      Registry.Log.first? ((readings seen).flatMap declaredItems) tag) ∧
    (∀ tag, fresh.registry.unresolved.get? tag = w.folder.declared.first? tag) ∧
    (folder.Plain → (∀ e ∈ edits, e.Plain) → DigestsTell .empty folder edits →
      (∀ tag, w.session.registry.unresolved.get? tag = none ↔
        ∀ f ∈ w.folder.sources, ¬ Declares f tag) ∧
      (∀ tag item, w.session.registry.unresolved.get? tag = some item ↔
        ∃ f ∈ w.folder.sources, Registry.Log.first? (declaredItems f) tag = some item ∧
          ∀ g ∈ w.folder.sources, g ≠ f → Declares g tag → ReadBefore seen f g) ∧
      ∀ tag, w.session.registry.unresolved.get? tag = fresh.registry.unresolved.get? tag ↔
        ∀ f ∈ w.folder.sources, Declares f tag →
          (∀ g ∈ w.folder.sources, g ≠ f → Declares g tag →
            Rank.before f.document g.document = true) →
          ∀ g ∈ w.folder.sources, g ≠ f → Declares g tag → ReadBefore seen f g) := by
  intro w fresh seen
  have hread : AsRead w.project w.session seen :=
    asRead_run edits (Workspace.opened folder index capacity) [] (asRead_empty index capacity)
  have hlatest : latest seen = w.folder :=
    latest_snapshots edits (Workspace.opened folder index capacity) []
  refine ⟨hread.registered_eq, registered_load index capacity' w.folder, ?_⟩
  intro hfolder hedits hdigests
  have htold : Told seen := told_snapshots edits [] folder trivial hfolder hedits hdigests
  have hfresh := hread.registered_eq_load_iff htold index capacity'
  have hnone := hread.registered_eq_none_iff htold
  have hsome := hread.registered_iff htold
  rw [hlatest] at hfresh hnone hsome
  exact ⟨hnone, hsome, hfresh⟩

/-- Two documents declare a tag, and the first one is changed after the load. -/
def overtaking : List Edit :=
  [.write ["a.rst"] ".. traceable:: X\n".toUTF8, .write ["b.rst"] ".. traceable:: X\n".toUTF8,
    .refresh, .write ["a.rst"] ".. traceable:: X\n    :title: Changed\n".toUTF8]

/-- The folder as the load finds it, with the text of the first document. -/
def overtakingFolder (text : String) : Folder :=
  .ofList [(["a.rst"], text.toUTF8), (["b.rst"], ".. traceable:: X\n".toUTF8)]

theorem snapshots_overtaking :
    snapshots [] .empty overtaking =
      [overtakingFolder ".. traceable:: X\n    :title: Changed\n",
        overtakingFolder ".. traceable:: X\n"] := rfl

theorem sources_overtakingFolder (text : String) :
    (overtakingFolder text).sources =
      [⟨"a.rst", "rst", text.toUTF8⟩, ⟨"b.rst", "rst", ".. traceable:: X\n".toUTF8⟩] := by
  have hplain : (overtakingFolder text).Plain :=
    Folder.plain_write (Folder.plain_write Folder.plain_empty (by decide) _) (by decide) _
  have hbefore : Rank.before "a.rst" "b.rst" = true := by decide
  exact Folder.sources_eq_of_perm hplain (List.pairwise_pair.mpr hbefore) (List.Perm.of_eq rfl)

theorem digestsTell_overtaking : DigestsTell .empty .empty overtaking := by decide +kernel

/-- The document that is left alone was read before the changed one. -/
theorem registered_by_reading_of_overtaking :
    let w := ((Workspace.opened .empty .empty 1).run overtaking).refresh
    w.session.registry.unresolved.get? "X" = some (.declared "X" ∅ ⟨"b.rst", 1⟩) := by
  intro w
  obtain ⟨-, hregistered, -⟩ := (registered_by_reading .empty 1 1 .empty overtaking).2.2
    Folder.plain_empty (by decide) digestsTell_overtaking
  have hfolder : ((Workspace.opened .empty .empty 1).run overtaking).refresh.folder =
      overtakingFolder ".. traceable:: X\n    :title: Changed\n" := rfl
  rw [hregistered, hfolder, sources_overtakingFolder, snapshots_overtaking]
  refine ⟨_, List.mem_cons_of_mem _ List.mem_cons_self, by decide +kernel, ?_⟩
  intro g hg hne _
  refine Or.inr (Or.inl ⟨?_, ?_⟩)
  · rw [latest, List.headD_cons, sources_overtakingFolder]
    exact List.mem_cons_of_mem _ List.mem_cons_self
  · rw [latest, List.headD_cons, sources_overtakingFolder]
    rcases List.mem_cons.mp hg with rfl | hg
    · have hchanged : ".. traceable:: X\n    :title: Changed\n".toUTF8 ≠
          ".. traceable:: X\n".toUTF8 := by decide
      have hdocument : "a.rst" ≠ "b.rst" := by decide
      rw [List.mem_pair, SourceFile.mk.injEq, SourceFile.mk.injEq]
      exact fun h => h.elim (fun h => hchanged h.2.2) fun h => hdocument h.1
    · exact absurd (List.mem_singleton.mp hg) hne

/-- What claims a tag on disk does not decide which claim registers it. -/
theorem history_decides :
    ¬ ∀ (index : Relationship.Index) (capacity capacity' : Nat) (folder : Folder)
      (edits : List Edit) (tag : String),
      folder.Plain → (∀ e ∈ edits, e.Plain) → DigestsTell .empty folder edits →
      let w := ((Workspace.opened folder index capacity).run edits).refresh
      let fresh := (load w.folder (.empty index capacity')).2.1
      (∃ f ∈ w.folder.sources, ∃ g ∈ w.folder.sources, f.document ≠ g.document ∧
        Declares f tag ∧ Declares g tag) →
      w.session.registry.unresolved.get? tag = fresh.registry.unresolved.get? tag := by
  intro h
  have hread := asRead_run overtaking (Workspace.opened .empty .empty 1) []
    (asRead_empty .empty 1)
  have hfolder : ((Workspace.opened .empty .empty 1).run overtaking).refresh.folder =
      overtakingFolder ".. traceable:: X\n    :title: Changed\n" := rfl
  have hsame := h .empty 1 1 .empty overtaking "X" Folder.plain_empty (by decide)
    digestsTell_overtaking
  simp only [hread.registered_eq, registered_load, hfolder, Folder.declared,
    sources_overtakingFolder] at hsame
  have hdiffer := hsame ⟨_, List.mem_cons_self, _, List.mem_cons_of_mem _ List.mem_cons_self,
    by decide, by decide +kernel, by decide +kernel⟩
  have hopened : (Workspace.opened .empty .empty 1).folder = .empty := rfl
  rw [hopened, snapshots_overtaking] at hdiffer
  simp only [readings, recorded, sources_overtakingFolder] at hdiffer
  exact absurd hdiffer (by decide +kernel)

end Traceability.Project
