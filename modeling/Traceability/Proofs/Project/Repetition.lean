import Traceability.Proofs.Project.Refresh

/-!
A refresh of a folder in which nothing has changed since the last one. It finds no document
added and none gone. A document that is read again is one that two files share, because
only one digest is remembered for it: that of its last file.
-/

namespace Traceability

namespace Folder

/-- The last source file of a document. -/
def last? (f : Folder) (document : String) : Option SourceFile :=
  (f.sources.filter fun s => s.document == document).getLast?

/-- The source files whose document has a last file with another digest. -/
def overtaken (f : Folder) : List SourceFile :=
  f.sources.filter fun s => (f.last? s.document).map SourceFile.digest != some s.digest

/-- Two source files of one document have different digests. -/
def Ambiguous (f : Folder) : Prop :=
  ∃ a ∈ f.sources, ∃ b ∈ f.sources, a.document = b.document ∧ a.digest ≠ b.digest

/-- Two files are source files of one document. -/
def Share (f : Folder) (path path' : List String) : Prop :=
  ∃ content content' a b, f.files.get? path = some content ∧ f.files.get? path' = some content' ∧
    SourceFile.ofFile path content = some a ∧ SourceFile.ofFile path' content' = some b ∧
    a.document = b.document

variable {f : Folder}

theorem exists_last {s : SourceFile} (hs : s ∈ f.sources) :
    ∃ last ∈ f.sources, f.last? s.document = some last ∧ last.document = s.document := by
  have hmem : s ∈ f.sources.filter fun other => other.document == s.document := by
    simp [List.mem_filter, hs]
  have hlast := List.getLast?_eq_some_getLast (List.ne_nil_of_mem hmem)
  have hparts := List.mem_filter.mp (List.mem_of_getLast? hlast)
  exact ⟨_, hparts.1, hlast, beq_iff_eq.mp hparts.2⟩

theorem ambiguous_iff : f.Ambiguous ↔ f.overtaken ≠ [] := by
  constructor
  · intro hambiguous
    obtain ⟨a, ha, b, hb, hdocument, hdigest⟩ := hambiguous
    obtain ⟨last, -, hlast, -⟩ := exists_last ha
    by_cases hsame : last.digest = a.digest
    · have hmem : b ∈ f.overtaken := by
        rw [overtaken, List.mem_filter, ← hdocument, hlast]
        simpa [hsame] using ⟨hb, hdigest⟩
      exact List.ne_nil_of_mem hmem
    · have hmem : a ∈ f.overtaken := by
        rw [overtaken, List.mem_filter, hlast]
        simpa using ⟨ha, hsame⟩
      exact List.ne_nil_of_mem hmem
  · intro hne
    obtain ⟨a, ha⟩ := List.exists_mem_of_ne_nil _ hne
    obtain ⟨hmem, hother⟩ := List.mem_filter.mp ha
    obtain ⟨last, hlast, heq, hdocument⟩ := exists_last hmem
    rw [heq] at hother
    exact ⟨last, hlast, a, hmem, hdocument, by simpa using hother⟩

/-- Files under plain paths share no document. -/
theorem eq_of_share {path path' : List String} (h : f.Share path path') (hpath : Path.Plain path)
    (hpath' : Path.Plain path') : path = path' := by
  obtain ⟨_, _, _, _, -, -, ha, hb, hdocument⟩ := h
  exact SourceFile.eq_of_document hpath hpath' ha hb hdocument

/-- Only documents that two files share are ambiguous. -/
theorem exists_share (h : f.Ambiguous) : ∃ path path', path ≠ path' ∧ f.Share path path' := by
  obtain ⟨a, ha, b, hb, hdocument, hdigest⟩ := h
  obtain ⟨path, content, hget, hfile⟩ := (mem_sources f a).mp ha
  obtain ⟨path', content', hget', hfile'⟩ := (mem_sources f b).mp hb
  refine ⟨path, path', ?_, content, content', a, b, hget, hget', hfile, hfile', hdocument⟩
  intro hpath
  subst hpath
  rw [hget] at hget'
  obtain rfl := Option.some.inj hget'
  rw [hfile] at hfile'
  exact hdigest (congrArg SourceFile.digest (Option.some.inj hfile'))

end Folder

namespace Classification

variable (known : SortedMap String String) (files : List SourceFile)

/-- The digest that is remembered for a document is that of its last file. -/
theorem get?_digests_eq (document : String) :
    (ofFiles known files).digests.get? document =
      (files.filter fun f => f.document == document).getLast?.map SourceFile.digest := by
  have hdigests (files : List SourceFile) : (ofFiles known files).digests =
      .ofList (files.map fun f => (f.document, f.digest)) := by
    rw [ofFiles, List.map_map]
    rfl
  rw [hdigests]
  induction files using List.reverseRecOn with
  | nil => rfl
  | append_singleton files f ih =>
    rw [List.map_append, List.map_singleton, SortedMap.get?_ofList_append, List.filter_append]
    by_cases hdocument : document = f.document
    · simp [hdocument]
    · have hother : (f.document == document) = false := by simpa using Ne.symm hdocument
      rw [if_neg hdocument, ih]
      simp [hother]

end Classification

namespace Project

section Repeated

variable (p : Project) (folder : Folder) (s : Session)

theorem get?_refresh (document : String) :
    (p.refresh folder s).1.known.get? document =
      (folder.last? document).map SourceFile.digest := by
  rw [known_refresh, Classification.get?_digests_eq]
  rfl

theorem isSome_known_refresh (document : String) :
    ((p.refresh folder s).1.known.get? document).isSome = true ↔
      document ∈ folder.sources.map SourceFile.document := by
  rw [get?_refresh, Option.isSome_map, List.mem_map]
  constructor
  · intro hsome
    obtain ⟨last, hlast⟩ := Option.isSome_iff_exists.mp hsome
    have hparts := List.mem_filter.mp (List.mem_of_getLast? hlast)
    exact ⟨last, hparts.1, beq_iff_eq.mp hparts.2⟩
  · intro hmem
    obtain ⟨f, hf, rfl⟩ := hmem
    obtain ⟨last, -, hlast, -⟩ := Folder.exists_last hf
    rw [hlast]
    rfl

/-- The files of a folder as a further refresh sorts them. -/
abbrev sorted : Classification :=
  Classification.ofFiles (p.refresh folder s).1.known folder.sources

theorem added_sorted : (p.sorted folder s).added = [] := by
  rw [Classification.added_ofFiles, List.filter_eq_nil_iff]
  intro f hf
  have hsome := (p.isSome_known_refresh folder s f.document).mpr (List.mem_map_of_mem hf)
  rw [Option.isNone_iff_eq_none, ← Option.not_isSome_iff_eq_none, not_not]
  exact hsome

theorem modified_sorted : (p.sorted folder s).modified = folder.overtaken := by
  rw [Classification.modified_ofFiles, Folder.overtaken]
  apply List.filter_congr
  intro f hf
  rw [(p.isSome_known_refresh folder s f.document).mpr (List.mem_map_of_mem hf), Bool.true_and,
    get?_refresh]

theorem deleted_sorted : Classification.deleted (p.refresh folder s).1.known
    (folder.sources.map SourceFile.document) = [] := by
  rw [List.eq_nil_iff_forall_not_mem]
  intro document hdeleted
  rw [Classification.mem_deleted, isSome_known_refresh] at hdeleted
  exact hdeleted.2 hdeleted.1

theorem length_unchanged_sorted :
    (p.sorted folder s).unchanged.length + folder.overtaken.length = folder.sources.length := by
  have hperm := Classification.perm_ofFiles (p.refresh folder s).1.known folder.sources
  have hlength := hperm.length_eq
  rw [added_sorted, modified_sorted, List.nil_append, List.length_append] at hlength
  exact hlength

/-- What is read again takes the place of all that its documents declared. -/
theorem follows_refresh_again {log : Registry.Log} (h : (p.refresh folder s).2.1.Follows log) :
    ((p.refresh folder s).1.refresh folder (p.refresh folder s).2.1).2.1.Follows
      ((log.filter fun item => folder.overtaken.all fun f => !item.isFrom f.document) ++
        folder.overtaken.flatMap declaredItems) := by
  have hfollows := (p.refresh folder s).1.follows_refresh folder h
  have hwithdrawn : Classification.withdrawn (p.refresh folder s).1.known folder.sources =
      folder.overtaken.map SourceFile.document := by
    rw [Classification.withdrawn, deleted_sorted, modified_sorted, List.nil_append]
  have hread : (p.sorted folder s).added ++ (p.sorted folder s).modified = folder.overtaken := by
    rw [added_sorted, modified_sorted, List.nil_append]
  simp only [hwithdrawn, hread, List.all_map] at hfollows
  exact hfollows

/-- Where nothing has changed, nothing is read. -/
theorem refresh_of_none {p : Project} {folder : Folder}
    (hadded : (Classification.ofFiles p.known folder.sources).added = [])
    (hmodified : (Classification.ofFiles p.known folder.sources).modified = [])
    (hdeleted : Classification.deleted p.known (folder.sources.map SourceFile.document) = []) :
    (p.refresh folder s).2.1 = s ∧ (p.refresh folder s).2.2.declarations = 0 := by
  unfold refresh
  simp only [hadded, hmodified, hdeleted]
  exact ⟨rfl, rfl⟩

end Repeated

/-- A refresh that follows another one, with no change between them, remembers the same and
finds nothing added and nothing gone. It reads again what is not the last file of its
document, where the last one has another digest, and this alone is then declared in the
document. If there is no such file then the session stays as it is. If there is one then two
files share a document, and the name of a file or of a folder around it is not plain. -/
theorem refresh_again (p : Project) (folder : Folder) (s : Session) :
    let first := p.refresh folder s
    let second := first.1.refresh folder first.2.1
    let summary := second.2.2
    (second.1 = first.1 ∧ summary.added = 0 ∧ summary.removed = 0 ∧
      summary.modified = folder.overtaken.length ∧
      summary.unchanged + summary.modified = folder.sources.length) ∧
    (summary.hasChanges = true ↔ folder.Ambiguous) ∧
    (¬ folder.Ambiguous → summary.declarations = 0 ∧ second.2.1 = first.2.1) ∧
    (∀ log, first.2.1.Follows log → second.2.1.Follows
      ((log.filter fun item => folder.overtaken.all fun f => !item.isFrom f.document) ++
        folder.overtaken.flatMap declaredItems)) ∧
    (folder.Ambiguous → ∃ path path', path ≠ path' ∧ folder.Share path path') ∧
    ∀ path path', path ≠ path' → folder.Share path path' →
      ¬ (Path.Plain path ∧ Path.Plain path') := by
  intro first second summary
  have hadded : summary.added = 0 := congrArg List.length (p.added_sorted folder s)
  have hremoved : summary.removed = 0 := congrArg List.length (p.deleted_sorted folder s)
  have hmodified : summary.modified = folder.overtaken.length :=
    congrArg List.length (p.modified_sorted folder s)
  have hunchanged : summary.unchanged + summary.modified = folder.sources.length := by
    rw [hmodified]
    exact p.length_unchanged_sorted folder s
  have hchanges : summary.hasChanges = true ↔ folder.Ambiguous := by
    rw [Summary.hasChanges, decide_eq_true_eq, hadded, hremoved, hmodified, Folder.ambiguous_iff,
      Nat.zero_add, Nat.add_zero, List.length_pos_iff]
  have hfollows (log : Registry.Log) (h : first.2.1.Follows log) :=
    p.follows_refresh_again folder s h
  refine ⟨⟨rfl, hadded, hremoved, hmodified, hunchanged⟩, hchanges, ?_, hfollows,
    Folder.exists_share, ?_⟩
  · intro hclear
    have hnone : folder.overtaken = [] := by
      rwa [Folder.ambiguous_iff, not_not] at hclear
    obtain ⟨hsession, hcount⟩ := refresh_of_none first.2.1 (p.added_sorted folder s)
      ((p.modified_sorted folder s).trans hnone) (p.deleted_sorted folder s)
    exact ⟨hcount, hsession⟩
  · intro path path' hne hshare hplain
    exact hne (Folder.eq_of_share hshare hplain.1 hplain.2)

/-- A file in a folder, and one beside it whose name has a backslash for the slash. -/
def sharing : Folder :=
  .ofList [(["a", "b.rst"], ".. traceable:: X\n".toUTF8),
    (["a\\b.rst"], ".. traceable:: X\n\n".toUTF8)]

theorem sources_sharing :
    sharing.sources = [⟨"a/b.rst", "rst", ".. traceable:: X\n".toUTF8⟩,
      ⟨"a/b.rst", "rst", ".. traceable:: X\n\n".toUTF8⟩] := by
  have hfiles : sharing.sources = List.mergeSort [⟨"a/b.rst", "rst", ".. traceable:: X\n".toUTF8⟩,
      ⟨"a/b.rst", "rst", ".. traceable:: X\n\n".toUTF8⟩]
        fun a b => !Rank.before b.document a.document := rfl
  rw [hfiles]
  apply List.mergeSort_of_pairwise
  exact List.pairwise_pair.mpr (by decide)

/-- The duplicate is gone when its document is read again, though nothing has changed. -/
theorem shared_document_read_again :
    let first := load sharing (Session.empty .empty 1)
    let second := first.1.refresh sharing first.2.1
    sharing.Share ["a", "b.rst"] ["a\\b.rst"] ∧ second.2.2 = ⟨0, 1, 0, 1, 1⟩ ∧
      first.2.1.diagnostics.size = 1 ∧ second.2.1.diagnostics.size = 0 := by
  intro first second
  have hshare : sharing.Share ["a", "b.rst"] ["a\\b.rst"] := by
    refine ⟨".. traceable:: X\n".toUTF8, ".. traceable:: X\n\n".toUTF8,
      ⟨"a/b.rst", "rst", ".. traceable:: X\n".toUTF8⟩,
      ⟨"a/b.rst", "rst", ".. traceable:: X\n\n".toUTF8⟩, ?_, ?_, ?_, ?_, ?_⟩
    · rfl
    · rfl
    · rfl
    · rfl
    · rfl
  refine ⟨hshare, ?_⟩
  simp only [first, second, load, refresh, sources_sharing]
  decide +kernel

end Project

end Traceability
