import Traceability.Proofs.Project.Refresh

/-!
What becomes of every document in a refresh. The source files are divided into those that are
added, modified and unchanged, and the documents that were known into those that are modified,
unchanged and gone. Where no two files share a document nothing falls between these classes,
and nothing has changed exactly if the digests are the ones that were known.
-/

namespace Traceability

namespace Classification

variable {known : SortedMap String String} {files : List SourceFile} {f : SourceFile}

theorem mem_added :
    f ∈ (ofFiles known files).added ↔ f ∈ files ∧ known.get? f.document = none := by
  rw [added_ofFiles, List.mem_filter, Option.isNone_iff_eq_none]

theorem mem_modified :
    f ∈ (ofFiles known files).modified ↔
      f ∈ files ∧ ∃ digest, known.get? f.document = some digest ∧ digest ≠ f.digest := by
  rw [modified_ofFiles, List.mem_filter]
  cases known.get? f.document <;> simp

theorem mem_unchanged :
    f ∈ (ofFiles known files).unchanged ↔
      f ∈ files ∧ known.get? f.document = some f.digest := by
  rw [unchanged_ofFiles, List.mem_filter, beq_iff_eq]

theorem known_of_unchanged_only (hadded : (ofFiles known files).added = [])
    (hmodified : (ofFiles known files).modified = []) (hf : f ∈ files) :
    known.get? f.document = some f.digest := by
  have hmem := (perm_ofFiles known files).mem_iff.mpr hf
  rw [hadded, hmodified, List.append_nil, List.append_nil, mem_unchanged] at hmem
  exact hmem.2

/-- The files that are not added are those whose document was known. -/
theorem perm_modified_unchanged (known : SortedMap String String) (files : List SourceFile) :
    ((ofFiles known files).modified ++ (ofFiles known files).unchanged).Perm
      (files.filter fun f => (known.get? f.document).isSome) := by
  refine List.Perm.trans ?_ (List.filter_append_perm
    (fun f => known.get? f.document != some f.digest) _)
  rw [List.filter_filter, List.filter_filter, modified_ofFiles, unchanged_ofFiles]
  refine List.Perm.append (List.Perm.of_eq ?_) (List.Perm.of_eq ?_)
  · apply List.filter_congr
    intro f _
    rw [Bool.and_comm]
  · apply List.filter_congr
    intro f _
    cases known.get? f.document <;> simp [bne]

theorem increasing_deleted (known : SortedMap String String) (onDisk : List String) :
    (deleted known onDisk).Pairwise fun a b => Rank.before a b = true :=
  known.increasing_keys.filter _

/-- The known documents that are still on disk are those of the files that are not added. -/
theorem perm_kept (hdistinct : (files.map SourceFile.document).Nodup) :
    ((files.filter fun f => (known.get? f.document).isSome).map SourceFile.document).Perm
      (known.keys.filter fun document => decide (document ∈ files.map SourceFile.document)) := by
  have hkept : ((files.filter fun f => (known.get? f.document).isSome).map
      SourceFile.document).Nodup := hdistinct.sublist (List.filter_sublist.map _)
  rw [List.perm_ext_iff_of_nodup hkept (known.nodup_keys.filter _)]
  intro document
  rw [List.mem_filter, SortedMap.mem_keys, decide_eq_true_eq, List.mem_map, List.mem_map]
  constructor
  · intro hmem
    obtain ⟨f, hf, rfl⟩ := hmem
    rw [List.mem_filter] at hf
    exact ⟨hf.2, f, hf.1, rfl⟩
  · intro hmem
    obtain ⟨hknown, f, hf, rfl⟩ := hmem
    exact ⟨f, List.mem_filter.mpr ⟨hf, hknown⟩, rfl⟩

/-- Every known document is modified, unchanged or gone, and only one of these. -/
theorem perm_known (hdistinct : (files.map SourceFile.document).Nodup) :
    ((ofFiles known files).modified.map SourceFile.document ++
      ((ofFiles known files).unchanged.map SourceFile.document ++
        deleted known (files.map SourceFile.document))).Perm known.keys := by
  rw [← List.append_assoc, ← List.map_append]
  have hkept := ((perm_modified_unchanged known files).map SourceFile.document).trans
    (perm_kept hdistinct)
  exact (hkept.append_right _).trans (List.filter_append_perm _ known.keys)

/-- Nothing has changed exactly if the digests are the ones that were known. -/
theorem nothing_changed_iff (hdistinct : (files.map SourceFile.document).Nodup) :
    (ofFiles known files).added = [] ∧ (ofFiles known files).modified = [] ∧
        deleted known (files.map SourceFile.document) = [] ↔
      known = (ofFiles known files).digests := by
  constructor
  · intro hnothing
    obtain ⟨hadded, hmodified, hgone⟩ := hnothing
    apply SortedMap.ext_get?
    intro document
    apply Option.ext
    intro digest
    rw [get?_digests known files hdistinct]
    constructor
    · intro hget
      have hdisk : document ∈ files.map SourceFile.document := by
        by_contra hnot
        have hmem := (mem_deleted known _ document).mpr ⟨Option.isSome_of_mem hget, hnot⟩
        rw [hgone] at hmem
        contradiction
      obtain ⟨f, hf, rfl⟩ := List.mem_map.mp hdisk
      rw [known_of_unchanged_only hadded hmodified hf] at hget
      exact ⟨f, hf, rfl, Option.some.inj hget⟩
    · intro hfile
      obtain ⟨f, hf, rfl, rfl⟩ := hfile
      exact known_of_unchanged_only hadded hmodified hf
  · intro hsame
    have hknown {f : SourceFile} (hf : f ∈ files) : known.get? f.document = some f.digest := by
      rw [hsame, get?_digests known files hdistinct]
      exact ⟨f, hf, rfl, rfl⟩
    refine ⟨?_, ?_, ?_⟩
    · rw [List.eq_nil_iff_forall_not_mem]
      intro f hf
      rw [mem_added] at hf
      simp [hknown hf.1] at hf
    · rw [List.eq_nil_iff_forall_not_mem]
      intro f hf
      rw [mem_modified] at hf
      simp [hknown hf.1] at hf
    · rw [List.eq_nil_iff_forall_not_mem]
      intro document hgone
      rw [mem_deleted, Option.isSome_iff_exists] at hgone
      obtain ⟨⟨digest, hget⟩, hnot⟩ := hgone
      rw [hsame, get?_digests known files hdistinct] at hget
      obtain ⟨f, hf, rfl, -⟩ := hget
      exact hnot (List.mem_map_of_mem hf)

end Classification

namespace Project

theorem hasChanges_refresh_eq_false_iff (p : Project) (folder : Folder) (s : Session) :
    (p.refresh folder s).2.2.hasChanges = false ↔
      (Classification.ofFiles p.known folder.sources).added = [] ∧
        (Classification.ofFiles p.known folder.sources).modified = [] ∧
        Classification.deleted p.known (folder.sources.map SourceFile.document) = [] := by
  have hcounts : (p.refresh folder s).2.2.hasChanges = decide (0 <
      (Classification.ofFiles p.known folder.sources).added.length +
        (Classification.ofFiles p.known folder.sources).modified.length +
        (Classification.deleted p.known (folder.sources.map SourceFile.document)).length) := rfl
  rw [hcounts, decide_eq_false_iff_not, ← List.length_eq_zero_iff, ← List.length_eq_zero_iff,
    ← List.length_eq_zero_iff]
  omega

end Project

namespace Classification

/-- Files of different documents, compared with the digests that were known. Each file is in one
of three classes, which keep the order of the files; each known document is modified, unchanged
or gone; the digests are those of the files. So the classes add up to the files and to the known
documents, and a refresh that finds the files has changes unless the digests stay the same. -/
theorem documents_accounted (known : SortedMap String String) (files : List SourceFile)
    (hdistinct : (files.map SourceFile.document).Nodup) :
    let c := ofFiles known files
    let gone := deleted known (files.map SourceFile.document)
    ((c.unchanged ++ (c.added ++ c.modified)).Perm files ∧
      (c.unchanged ++ (c.added ++ c.modified)).Nodup ∧
      c.added.Sublist files ∧ c.modified.Sublist files ∧ c.unchanged.Sublist files) ∧
    (∀ f, (f ∈ c.added ↔ f ∈ files ∧ known.get? f.document = none) ∧
      (f ∈ c.modified ↔
        f ∈ files ∧ ∃ digest, known.get? f.document = some digest ∧ digest ≠ f.digest) ∧
      (f ∈ c.unchanged ↔ f ∈ files ∧ known.get? f.document = some f.digest)) ∧
    ((c.modified.map SourceFile.document ++
        (c.unchanged.map SourceFile.document ++ gone)).Perm known.keys ∧
      known.keys.Nodup ∧ gone.Pairwise fun a b => Rank.before a b = true) ∧
    (∀ document digest, c.digests.get? document = some digest ↔
      ∃ f ∈ files, f.document = document ∧ f.digest = digest) ∧
    (c.added.length + c.modified.length + c.unchanged.length = files.length ∧
      c.modified.length + c.unchanged.length + gone.length = known.size) ∧
    (c.added = [] ∧ c.modified = [] ∧ gone = [] ↔ known = c.digests) ∧
    ∀ folder s, folder.sources = files →
      ((Project.refresh ⟨known⟩ folder s).2.2.hasChanges = false ↔
        known = (Project.refresh ⟨known⟩ folder s).1.known) := by
  intro c gone
  have hfiles : files.Nodup := hdistinct.of_map _
  have hperm : (c.unchanged ++ (c.added ++ c.modified)).Perm files := perm_ofFiles known files
  have hknown : (c.modified.map SourceFile.document ++
      (c.unchanged.map SourceFile.document ++ gone)).Perm known.keys := perm_known hdistinct
  refine ⟨⟨hperm, hperm.nodup_iff.mpr hfiles, ?_, ?_, ?_⟩,
    fun f => ⟨mem_added, mem_modified, mem_unchanged⟩,
    ⟨hknown, known.nodup_keys, increasing_deleted known _⟩,
    get?_digests known files hdistinct, ⟨?_, ?_⟩, nothing_changed_iff hdistinct, ?_⟩
  · rw [added_ofFiles]
    exact List.filter_sublist
  · rw [modified_ofFiles]
    exact List.filter_sublist
  · rw [unchanged_ofFiles]
    exact List.filter_sublist
  · have hlength := hperm.length_eq
    simp only [List.length_append] at hlength
    omega
  · have hlength := hknown.length_eq
    simp only [List.length_append, List.length_map] at hlength
    rw [SortedMap.size_eq_length_keys]
    omega
  · intro folder s hsources
    rw [Project.hasChanges_refresh_eq_false_iff, hsources, nothing_changed_iff hdistinct,
      Project.known_refresh, hsources]

/-- A folder with three documents. -/
def shelf : Folder :=
  .ofList [(["a.rst"], "A\n".toUTF8), (["b.rst"], "B\n".toUTF8), (["c.rst"], "C\n".toUTF8)]

theorem sources_shelf :
    shelf.sources = [⟨"a.rst", "rst", "A\n".toUTF8⟩, ⟨"b.rst", "rst", "B\n".toUTF8⟩,
      ⟨"c.rst", "rst", "C\n".toUTF8⟩] := by
  have hfiles : shelf.sources = List.mergeSort [⟨"a.rst", "rst", "A\n".toUTF8⟩,
      ⟨"b.rst", "rst", "B\n".toUTF8⟩, ⟨"c.rst", "rst", "C\n".toUTF8⟩]
        fun a b => !Rank.before b.document a.document := rfl
  rw [hfiles]
  apply List.mergeSort_of_pairwise
  decide

/-- One document is added, one is unchanged, one is modified and one is gone. -/
theorem documents_accounted_of_each :
    let unchanged : SourceFile := ⟨"b.rst", "rst", "B\n".toUTF8⟩
    let known : SortedMap String String :=
      .ofList [("b.rst", unchanged.digest), ("c.rst", "C"), ("d.rst", "D")]
    let c := ofFiles known shelf.sources
    (shelf.sources.map SourceFile.document).Nodup ∧
      c.added.map SourceFile.document = ["a.rst"] ∧
      (c.modified.map SourceFile.document ++ (c.unchanged.map SourceFile.document ++
        deleted known (shelf.sources.map SourceFile.document))).Perm ["b.rst", "c.rst", "d.rst"] ∧
      ∀ s, (Project.refresh ⟨known⟩ shelf s).2.2.hasChanges = true := by
  intro unchanged known c
  have hdistinct : (shelf.sources.map SourceFile.document).Nodup := by
    rw [sources_shelf]
    decide
  have hadded : c.added.map SourceFile.document = ["a.rst"] := by
    simp only [c, sources_shelf]
    decide +kernel
  obtain ⟨-, -, ⟨hknown, -⟩, -, -, hsame, hrefresh⟩ :=
    documents_accounted known shelf.sources hdistinct
  refine ⟨hdistinct, hadded, hknown, fun s => ?_⟩
  rw [← Bool.not_eq_false, hrefresh shelf s rfl]
  intro hdigests
  have hnone := (hsame.mpr hdigests).1
  rw [hnone] at hadded
  contradiction

end Classification

end Traceability
