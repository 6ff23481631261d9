import Mathlib.Data.List.Nodup
import Traceability.Folder
import Traceability.Proofs.Sorted.Lookup
import Traceability.Proofs.Text.Joined

/-!
The source files of a folder. Where no name contains a slash or a backslash, a
document is known by one path only, and so no two source files share a document.
-/

namespace Traceability

namespace Path

/-- A name without a slash or a backslash. -/
def PlainName (name : String) : Prop := ∀ c ∈ name.toList, c ≠ '/' ∧ c ≠ '\\'

def Plain (path : List String) : Prop := ∀ name ∈ path, PlainName name

instance : DecidablePred PlainName := fun name => List.decidableBAll _ name.toList

instance (path : List String) : Decidable (Plain path) := List.decidableBAll PlainName path

end Path

namespace SourceFile

theorem ofFile_eq_some_iff (path : List String) (content : ByteArray) (f : SourceFile) :
    ofFile path content = some f ↔ ∃ name, path.getLast? = some name ∧
      extension? name.toList = some f.extension ∧ f.document = documentOf path ∧
      f.content = content := by
  unfold ofFile
  cases path.getLast? with
  | none => simp
  | some name =>
    obtain ⟨document, extension, content'⟩ := f
    simp only [Option.map_eq_some_iff, SourceFile.mk.injEq, Option.some.injEq, exists_eq_left']
    constructor
    · intro hparts
      obtain ⟨e, he, rfl, rfl, rfl⟩ := hparts
      exact ⟨he, rfl, rfl⟩
    · intro hparts
      obtain ⟨he, rfl, rfl⟩ := hparts
      exact ⟨extension, he, rfl, rfl, rfl⟩

theorem documentOf_of_plain {path : List String} (h : Path.Plain path) :
    documentOf path = Text.joined "/" path := by
  have hmap : (Text.joined "/" path).toList.map (fun c => if c == '\\' then '/' else c) =
      (Text.joined "/" path).toList := by
    refine (List.map_congr_left ?_).trans (List.map_id _)
    intro c hc
    have hne : c ≠ '\\' := by
      rw [Text.joined, String.toList_ofList] at hc
      rcases Text.mem_join hc with hslash | ⟨piece, hpiece, hmem⟩
      · have hc' : c = '/' := by simpa using hslash
        rw [hc']
        decide
      · obtain ⟨name, hname, rfl⟩ := List.mem_map.mp hpiece
        exact (h name hname c hmem).2
    simp [hne]
  rw [documentOf, hmap, String.ofList_toList]

/-- A document has one path with plain names. -/
theorem eq_of_documentOf {path path' : List String} (h : Path.Plain path)
    (h' : Path.Plain path') (hne : path ≠ []) (hne' : path' ≠ [])
    (heq : documentOf path = documentOf path') : path = path' := by
  have pieces {path : List String} (h : Path.Plain path) (hne : path ≠ []) :
      Text.split (· == '/') (documentOf path).toList = path.map String.toList := by
    rw [documentOf_of_plain h, Text.joined, String.toList_ofList]
    apply Text.split_join (by decide) (by simpa using hne)
    intro piece hpiece c hc
    obtain ⟨name, hname, rfl⟩ := List.mem_map.mp hpiece
    simpa using (h name hname c hc).1
  have hmap : path.map String.toList = path'.map String.toList := by
    rw [← pieces h hne, heq, pieces h' hne']
  exact List.map_injective_iff.mpr (fun _ _ hlist => String.toList_injective hlist) hmap

theorem eq_of_document {path path' : List String} (h : Path.Plain path) (h' : Path.Plain path')
    {content content' : ByteArray} {s s' : SourceFile} (hs : ofFile path content = some s)
    (hs' : ofFile path' content' = some s') (heq : s.document = s'.document) : path = path' := by
  obtain ⟨name, hlast, -, hdocument, -⟩ := (ofFile_eq_some_iff ..).mp hs
  obtain ⟨name', hlast', -, hdocument', -⟩ := (ofFile_eq_some_iff ..).mp hs'
  apply eq_of_documentOf h h'
  · intro hnil
    simp [hnil] at hlast
  · intro hnil
    simp [hnil] at hlast'
  · rw [← hdocument, heq, hdocument']

end SourceFile

namespace Folder

/-- All paths in the folder have plain names. -/
def Plain (f : Folder) : Prop := ∀ path, (f.files.get? path).isSome = true → Path.Plain path

theorem plain_empty : empty.Plain := by
  intro path h
  contradiction

theorem plain_write {f : Folder} (h : f.Plain) {path : List String} (hpath : Path.Plain path)
    (content : ByteArray) : (f.write path content).Plain := by
  intro other hother
  rw [write, SortedMap.get?_insert] at hother
  by_cases he : other = path
  · rw [he]
    exact hpath
  · rw [if_neg he] at hother
    exact h other hother

theorem plain_delete {f : Folder} (h : f.Plain) (path : List String) : (f.delete path).Plain := by
  intro other hother
  rw [delete, SortedMap.get?_erase] at hother
  by_cases he : other = path
  · rw [if_pos he] at hother
    contradiction
  · rw [if_neg he] at hother
    exact h other hother

theorem perm_sources (f : Folder) :
    f.sources.Perm
      (f.files.entries.filterMap fun (path, content) => SourceFile.ofFile path content) :=
  List.mergeSort_perm ..

theorem sources_empty : empty.sources = [] := List.mergeSort_nil

theorem mem_sources (f : Folder) (s : SourceFile) :
    s ∈ f.sources ↔
      ∃ path content, f.files.get? path = some content ∧ SourceFile.ofFile path content = some s := by
  rw [f.perm_sources.mem_iff]
  simp only [List.mem_filterMap, Prod.exists, SortedMap.mem_entries]

/-- In two folders, files of one document stand under one path, so that only their
contents can differ. -/
theorem exists_path {f f' : Folder} (h : f.Plain) (h' : f'.Plain) {s s' : SourceFile}
    (hs : s ∈ f.sources) (hs' : s' ∈ f'.sources) (heq : s.document = s'.document) :
    ∃ path, f.files.get? path = some s.content ∧ f'.files.get? path = some s'.content ∧
      (s.content = s'.content → s = s') := by
  obtain ⟨path, content, hget, hfile⟩ := (mem_sources f s).mp hs
  obtain ⟨path', content', hget', hfile'⟩ := (mem_sources f' s').mp hs'
  have hpath : path = path' :=
    SourceFile.eq_of_document (h path (by simp [hget])) (h' path' (by simp [hget'])) hfile hfile'
      heq
  subst hpath
  obtain ⟨-, -, -, -, hcontent⟩ := (SourceFile.ofFile_eq_some_iff ..).mp hfile
  obtain ⟨-, -, -, -, hcontent'⟩ := (SourceFile.ofFile_eq_some_iff ..).mp hfile'
  refine ⟨path, ?_, ?_, ?_⟩
  · rw [hget, hcontent]
  · rw [hget', hcontent']
  · intro hsame
    rw [← hcontent, hsame, hcontent', hfile'] at hfile
    exact (Option.some.inj hfile).symm

theorem eq_of_document {f : Folder} (h : f.Plain) {s s' : SourceFile} (hs : s ∈ f.sources)
    (hs' : s' ∈ f.sources) (heq : s.document = s'.document) : s = s' := by
  obtain ⟨path, hget, hget', hsame⟩ := exists_path h h hs hs' heq
  rw [hget] at hget'
  exact hsame (Option.some.inj hget')

theorem nodup_documents {f : Folder} (h : f.Plain) :
    (f.sources.map SourceFile.document).Nodup := by
  rw [(f.perm_sources.map _).nodup_iff, List.Nodup, List.pairwise_map, List.pairwise_filterMap]
  refine f.files.increasing.imp_of_mem ?_
  intro p q hp hq hbefore s hs s' hs' heq
  have plain {p : List String × ByteArray} (hp : p ∈ f.files.entries) : Path.Plain p.1 := by
    apply h
    rw [SortedMap.mem_entries.mp hp]
    rfl
  exact Rank.ne_of_before hbefore (SourceFile.eq_of_document (plain hp) (plain hq) hs hs' heq)

theorem nodup_sources {f : Folder} (h : f.Plain) : f.sources.Nodup :=
  List.Nodup.of_map _ (nodup_documents h)

/-- Source files stand in the strict order of their documents. -/
theorem increasing_documents {f : Folder} (h : f.Plain) :
    f.sources.Pairwise fun a b => Rank.before a.document b.document = true := by
  have hsorted : f.sources.Pairwise fun a b => (!Rank.before b.document a.document) = true := by
    refine List.pairwise_mergeSort ?_ ?_ _
    · intro a b c hab hbc
      rw [Bool.not_eq_true'] at hab hbc ⊢
      exact Rank.not_before_trans hab hbc
    · intro a b
      cases hba : Rank.before b.document a.document with
      | false => rfl
      | true => simp [Rank.asymm hba]
  have hdistinct := List.pairwise_map.mp (nodup_documents h)
  refine (hsorted.and hdistinct).imp ?_
  rintro a b ⟨hnot, hne⟩
  rw [Bool.not_eq_true'] at hnot
  by_contra hbefore
  exact hne (Rank.connected (Bool.eq_false_iff.mpr hbefore) hnot)

/-- Source files in the order of their documents are the sources. -/
theorem sources_eq_of_perm {f : Folder} (h : f.Plain) {l : List SourceFile}
    (hl : l.Pairwise fun a b => Rank.before a.document b.document = true)
    (hperm : (f.files.entries.filterMap fun (path, content) =>
      SourceFile.ofFile path content).Perm l) : f.sources = l := by
  refine (f.perm_sources.trans hperm).eq_of_pairwise ?_ (increasing_documents h) hl
  intro a b _ _ hab hba
  rw [Rank.asymm hab] at hba
  contradiction

/-- No two contents of one file, the one in the old folder and the other in the new one,
have the same digest. -/
def Distinguishes (old new : Folder) : Prop :=
  ∀ path before later, old.files.get? path = some before → new.files.get? path = some later →
    Digest.ofBytes before.toList = Digest.ofBytes later.toList → before = later

/-- Two files under one path that share a digest share their content. -/
def Agree (p q : List String × ByteArray) : Prop :=
  p.1 = q.1 → Digest.ofBytes p.2.toList = Digest.ofBytes q.2.toList → p.2 = q.2

instance (p q : List String × ByteArray) : Decidable (Agree p q) :=
  inferInstanceAs (Decidable (p.1 = q.1 →
    Digest.ofBytes p.2.toList = Digest.ofBytes q.2.toList → p.2 = q.2))

theorem distinguishes_iff (old new : Folder) :
    (∀ p ∈ old.files.entries, ∀ q ∈ new.files.entries, Agree p q) ↔ old.Distinguishes new := by
  constructor
  · intro h path before later hbefore hlater
    exact h (path, before) (SortedMap.mem_entries.mpr hbefore) (path, later)
      (SortedMap.mem_entries.mpr hlater) rfl
  · intro h p hp q hq hpath
    exact h p.1 p.2 q.2 (SortedMap.mem_entries.mp hp) (hpath ▸ SortedMap.mem_entries.mp hq)

instance (old new : Folder) : Decidable (old.Distinguishes new) :=
  have (p : List String × ByteArray) : Decidable (∀ q ∈ new.files.entries, Agree p q) :=
    List.decidableBAll (Agree p) new.files.entries
  have := List.decidableBAll (fun p => ∀ q ∈ new.files.entries, Agree p q) old.files.entries
  decidable_of_iff _ (distinguishes_iff old new)

theorem eq_of_digest {old new : Folder} (hold : old.Plain) (hnew : new.Plain)
    (h : old.Distinguishes new) {s s' : SourceFile} (hs : s ∈ old.sources)
    (hs' : s' ∈ new.sources) (hdocument : s.document = s'.document)
    (hdigest : s.digest = s'.digest) : s = s' := by
  obtain ⟨path, hget, hget', hsame⟩ := exists_path hold hnew hs hs' hdocument
  exact hsame (h path _ _ hget hget' hdigest)

end Folder

end Traceability
