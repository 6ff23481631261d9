import Traceability.Project
import Traceability.Proofs.Folder.Sources

/-!
What a refresh finds on disk. Every source file is added, modified or unchanged. The
unchanged ones are exactly those of the folder as it was seen before that are not
withdrawn, provided that no two contents of one file share a digest.
-/

namespace Traceability

/-- The known digests are those of the source files. -/
def Folder.Recorded (f : Folder) (known : SortedMap String String) : Prop :=
  ∀ document digest, known.get? document = some digest ↔
    ∃ s ∈ f.sources, s.document = document ∧ s.digest = digest

namespace Classification

variable (known : SortedMap String String) (files : List SourceFile)

theorem filter_digested (test : Option String → String → Bool) :
    ((files.map fun f => (f, f.digest)).filter fun (f, digest) =>
        test (known.get? f.document) digest).map Prod.fst =
      files.filter fun f => test (known.get? f.document) f.digest := by
  rw [List.filter_map, List.map_map]
  exact List.map_id _

theorem added_ofFiles :
    (ofFiles known files).added = files.filter fun f => (known.get? f.document).isNone :=
  filter_digested known files fun before _ => before.isNone

theorem modified_ofFiles :
    (ofFiles known files).modified = files.filter fun f =>
      (known.get? f.document).isSome && known.get? f.document != some f.digest :=
  filter_digested known files fun before digest => before.isSome && before != some digest

theorem unchanged_ofFiles :
    (ofFiles known files).unchanged =
      files.filter fun f => known.get? f.document == some f.digest :=
  filter_digested known files fun before digest => before == some digest

/-- Each file is sorted into exactly one class. -/
theorem perm_ofFiles :
    let c := ofFiles known files
    (c.unchanged ++ (c.added ++ c.modified)).Perm files := by
  intro c
  have hrest : (c.added ++ c.modified).Perm
      (files.filter fun f => !(known.get? f.document == some f.digest)) := by
    refine List.Perm.trans ?_ (List.filter_append_perm
      (fun f => (known.get? f.document).isNone) _)
    rw [List.filter_filter, List.filter_filter, added_ofFiles, modified_ofFiles]
    refine List.Perm.append (List.Perm.of_eq ?_) (List.Perm.of_eq ?_)
    · apply List.filter_congr
      intro f _
      cases known.get? f.document <;> rfl
    · apply List.filter_congr
      intro f _
      cases known.get? f.document <;> rfl
  rw [unchanged_ofFiles]
  exact (hrest.append_left _).trans (List.filter_append_perm _ files)

theorem get?_digests (h : (files.map SourceFile.document).Nodup) (document digest : String) :
    (ofFiles known files).digests.get? document = some digest ↔
      ∃ f ∈ files, f.document = document ∧ f.digest = digest := by
  have hkeys : ((((files.map fun f => (f, f.digest)).map fun (f, digest) =>
      (f.document, digest)).map Prod.fst)).Nodup := by
    rw [List.map_map, List.map_map]
    exact h
  rw [ofFiles, SortedMap.get?_ofList_of_nodup hkeys]
  simp

theorem mem_deleted (onDisk : List String) (document : String) :
    document ∈ deleted known onDisk ↔
      (known.get? document).isSome = true ∧ document ∉ onDisk := by
  simp [deleted, SortedMap.mem_keys]

theorem recorded_digests {f : Folder} (h : f.Plain) :
    f.Recorded (ofFiles known f.sources).digests :=
  get?_digests known f.sources (Folder.nodup_documents h)

/-- The documents that a refresh withdraws. -/
def withdrawn : List String :=
  deleted known (files.map SourceFile.document) ++
    (ofFiles known files).modified.map SourceFile.document

theorem mem_withdrawn (document : String) :
    document ∈ withdrawn known files ↔ (known.get? document).isSome = true ∧
      (document ∉ files.map SourceFile.document ∨
        ∃ f ∈ files, f.document = document ∧ known.get? document ≠ some f.digest) := by
  have hmodified : document ∈ (ofFiles known files).modified.map SourceFile.document ↔
      (known.get? document).isSome = true ∧
        ∃ f ∈ files, f.document = document ∧ known.get? document ≠ some f.digest := by
    rw [modified_ofFiles]
    simp only [List.mem_map, List.mem_filter, Bool.and_eq_true, bne_iff_ne]
    constructor
    · intro hparts
      obtain ⟨f, ⟨hf, hsome, hne⟩, rfl⟩ := hparts
      exact ⟨hsome, f, hf, rfl, hne⟩
    · intro hparts
      obtain ⟨hsome, f, hf, rfl, hne⟩ := hparts
      exact ⟨f, ⟨hf, hsome, hne⟩, rfl⟩
  rw [withdrawn, List.mem_append, mem_deleted, hmodified, ← and_or_left]

variable {known}

theorem get?_document {old : Folder} (hknown : old.Recorded known) {s : SourceFile}
    (hs : s ∈ old.sources) : known.get? s.document = some s.digest :=
  (hknown s.document s.digest).mpr ⟨s, hs, rfl, rfl⟩

theorem mem_unchanged_iff {old new : Folder} (hold : old.Plain) (hnew : new.Plain)
    (hknown : old.Recorded known) (hdigests : old.Distinguishes new) (s : SourceFile) :
    s ∈ (ofFiles known new.sources).unchanged ↔
      s ∈ old.sources ∧ s.document ∉ withdrawn known new.sources := by
  rw [unchanged_ofFiles, List.mem_filter, beq_iff_eq, mem_withdrawn]
  constructor
  · intro h
    obtain ⟨hs, hget⟩ := h
    obtain ⟨earlier, hearlier, hdocument, hdigest⟩ := (hknown _ _).mp hget
    have hsame : earlier = s :=
      Folder.eq_of_digest hold hnew hdigests hearlier hs hdocument hdigest
    refine ⟨hsame ▸ hearlier, ?_⟩
    intro hwithdrawn
    rcases hwithdrawn.2 with hgone | ⟨f, hf, hdocument', hne⟩
    · exact hgone (List.mem_map_of_mem hs)
    · rw [Folder.eq_of_document hnew hf hs hdocument'] at hne
      exact hne hget
  · intro h
    obtain ⟨hs, hstays⟩ := h
    have hget := get?_document hknown hs
    have hsome : (known.get? s.document).isSome = true := by
      rw [hget]
      rfl
    have hdisk : s.document ∈ new.sources.map SourceFile.document := by
      by_contra hgone
      exact hstays ⟨hsome, Or.inl hgone⟩
    obtain ⟨f, hf, hdocument⟩ := List.mem_map.mp hdisk
    have hdigest : known.get? s.document = some f.digest := by
      by_contra hne
      exact hstays ⟨hsome, Or.inr ⟨f, hf, hdocument, hne⟩⟩
    rw [hget] at hdigest
    have hsame : s = f :=
      Folder.eq_of_digest hold hnew hdigests hs hf hdocument.symm (Option.some.inj hdigest)
    exact ⟨hsame ▸ hf, hget⟩

/-- The unchanged files are the files seen before less those withdrawn. -/
theorem perm_unchanged {old new : Folder} (hold : old.Plain) (hnew : new.Plain)
    (hknown : old.Recorded known) (hdigests : old.Distinguishes new) :
    (old.sources.filter fun s => decide (s.document ∉ withdrawn known new.sources)).Perm
      (ofFiles known new.sources).unchanged := by
  refine (List.perm_ext_iff_of_nodup ((Folder.nodup_sources hold).filter _) ?_).mpr ?_
  · rw [unchanged_ofFiles]
    exact (Folder.nodup_sources hnew).filter _
  · intro s
    rw [mem_unchanged_iff hold hnew hknown hdigests, List.mem_filter, decide_eq_true_eq]

end Classification

end Traceability
