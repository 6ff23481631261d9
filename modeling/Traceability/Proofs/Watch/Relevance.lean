import Traceability.Watch
import Traceability.Proofs.Project.Repetition

/-!
Which removals a watch notices. A path is judged by its last name alone, so the removal of a
source file is always noticed. That of a folder is noticed if the folder is called like a
source file, and missed otherwise, whatever lies below it. After a removal that is noticed
nothing is left of the documents that are gone.
-/

namespace Traceability

namespace Path

/-- A name on the way to a file. -/
structure IsName (name : String) : Prop where
  nonempty : name ≠ ""
  no_slash : '/' ∉ name.toList
  ne_dot : name ≠ "."
  ne_dots : name ≠ ".."

instance : DecidablePred IsName := fun name =>
  decidable_of_iff (name ≠ "" ∧ '/' ∉ name.toList ∧ name ≠ "." ∧ name ≠ "..")
    ⟨fun h => ⟨h.1, h.2.1, h.2.2.1, h.2.2.2⟩, fun h => ⟨h.1, h.2, h.3, h.4⟩⟩

/-- The path leads strictly below a root, by names. -/
structure Leads (root : List Char) (way : List String) (path : List Char) : Prop where
  nonempty : way ≠ []
  names : ∀ name ∈ way, IsName name
  components_eq : components path = components root ++ way.map String.toList

variable {root path : List Char} {way : List String}

/-- The name at the end of the way. -/
def Leads.last (h : Leads root way path) : String := way.getLast h.nonempty

theorem Leads.isBelow (h : Leads root way path) : isBelow path root = true := by
  rw [Path.isBelow, h.components_eq, List.isPrefixOf_iff_prefix]
  exact List.prefix_append ..

theorem Leads.fileName?_eq (h : Leads root way path) : fileName? path = some h.last.toList := by
  have hlast : (components path).getLast? = some h.last.toList := by
    rw [h.components_eq, List.getLast?_append, List.getLast?_map,
      List.getLast?_eq_some_getLast h.nonempty]
    rfl
  have hname : IsName h.last := h.names _ (List.getLast_mem h.nonempty)
  have hslash : h.last.toList ≠ ['/'] := by
    intro heq
    have hmem := hname.no_slash
    rw [heq] at hmem
    exact hmem List.mem_cons_self
  have hdot : h.last.toList ≠ ['.'] := fun heq => hname.ne_dot (String.toList_injective heq)
  have hdots : h.last.toList ≠ ['.', '.'] := fun heq => hname.ne_dots (String.toList_injective heq)
  unfold fileName?
  rw [hlast]
  simp [hslash, hdot, hdots]

end Path

namespace Folder

/-- The folder without what is at the end of a way: a file, or a folder and all below it. -/
def remove (f : Folder) (way : List String) : Folder :=
  ⟨f.files.filter fun path _ => !way.isPrefixOf path⟩

/-- There is a source file under the path. -/
def HasSource (f : Folder) (path : List String) : Prop :=
  ∃ content s, f.files.get? path = some content ∧ SourceFile.ofFile path content = some s

variable {f : Folder} {way : List String}

theorem isFolder_of_hasSource {rest : List String} (h : f.HasSource (way ++ rest))
    (hrest : rest ≠ []) : f.isFolder way = true := by
  obtain ⟨content, s, hget, -⟩ := h
  have hkey : way ++ rest ∈ f.files.keys := by
    rw [SortedMap.mem_keys, hget]
    rfl
  have hlength := List.length_pos_iff.mpr hrest
  rw [isFolder, Bool.or_eq_true, List.any_eq_true]
  refine Or.inr ⟨_, hkey, ?_⟩
  rw [Bool.and_eq_true, List.isPrefixOf_iff_prefix, decide_eq_true_eq, List.length_append]
  exact ⟨List.prefix_append .., by omega⟩

/-- The source files at the end of a way and below. -/
def sourcesAt (f : Folder) (way : List String) : List SourceFile :=
  (f.files.entries.filter fun (path, _) => way.isPrefixOf path).filterMap
    fun (path, content) => SourceFile.ofFile path content

theorem sourcesAt_ne_nil_iff : f.sourcesAt way ≠ [] ↔ ∃ rest, f.HasSource (way ++ rest) := by
  constructor
  · intro hne
    obtain ⟨s, hs⟩ := List.exists_mem_of_ne_nil _ hne
    obtain ⟨⟨path, content⟩, hmem, hfile⟩ := List.mem_filterMap.mp hs
    obtain ⟨hentry, hbegins⟩ := List.mem_filter.mp hmem
    obtain ⟨rest, rfl⟩ := List.isPrefixOf_iff_prefix.mp hbegins
    exact ⟨rest, content, s, SortedMap.mem_entries.mp hentry, hfile⟩
  · intro hparts
    obtain ⟨rest, content, s, hget, hfile⟩ := hparts
    have hbegins : way.isPrefixOf (way ++ rest) = true :=
      List.isPrefixOf_iff_prefix.mpr (List.prefix_append ..)
    have hmem : s ∈ f.sourcesAt way := List.mem_filterMap.mpr
      ⟨(way ++ rest, content), List.mem_filter.mpr ⟨SortedMap.mem_entries.mpr hget, hbegins⟩, hfile⟩
    exact List.ne_nil_of_mem hmem

/-- What is left after a removal and what it takes are the source files that there were. -/
theorem perm_sources_remove (f : Folder) (way : List String) :
    ((f.remove way).sources ++ f.sourcesAt way).Perm f.sources := by
  have hleft := (f.remove way).perm_sources.append_right (f.sourcesAt way)
  refine hleft.trans (List.Perm.trans ?_ f.perm_sources.symm)
  rw [sourcesAt, remove, SortedMap.filter, ← List.filterMap_append]
  refine (List.perm_append_comm.trans ?_).filterMap _
  exact List.filter_append_perm (fun entry : List String × ByteArray => way.isPrefixOf entry.1) _

theorem sources_remove_of_nil (h : f.sourcesAt way = []) : (f.remove way).sources = f.sources := by
  have hnone : ∀ entry ∈ f.files.entries, way.isPrefixOf entry.1 = true →
      SourceFile.ofFile entry.1 entry.2 = none := by
    intro entry hentry hbegins
    exact List.filterMap_eq_nil_iff.mp h entry (List.mem_filter.mpr ⟨hentry, hbegins⟩)
  rw [sources, sources, remove, SortedMap.filter, List.filterMap_filter]
  congr 1
  apply List.filterMap_congr
  intro entry hentry
  cases hbegins : way.isPrefixOf entry.1 with
  | false => simp [hbegins]
  | true => simp [hbegins, hnone entry hentry hbegins]

/-- A removal changes the source files if there is one at the end of the way or below. -/
theorem sources_remove_ne_iff :
    (f.remove way).sources ≠ f.sources ↔ ∃ rest, f.HasSource (way ++ rest) := by
  rw [← sourcesAt_ne_nil_iff]
  constructor
  · intro hne hnil
    exact hne (sources_remove_of_nil hnil)
  · intro hne hsame
    have hlength := (f.perm_sources_remove way).length_eq
    rw [hsame, List.length_append] at hlength
    have hpositive := List.length_pos_iff.mpr hne
    omega

end Folder

namespace Watch

variable {root path : List Char} {way : List String}

theorem isRelevant_eq (h : Path.Leads root way path) :
    isRelevant root path = (SourceFile.extension? h.last.toList).isSome := by
  rw [isRelevant, h.isBelow, SourceFile.isNamed, h.fileName?_eq]
  rfl

theorem isRelevant_of_hasSource (h : Path.Leads root way path) {f : Folder}
    (hsource : f.HasSource way) : isRelevant root path = true := by
  obtain ⟨content, s, -, hfile⟩ := hsource
  obtain ⟨name, hlast, hextension, -⟩ := (SourceFile.ofFile_eq_some_iff ..).mp hfile
  have hname : h.last = name := by
    rw [List.getLast?_eq_some_getLast h.nonempty] at hlast
    exact Option.some.inj hlast
  rw [isRelevant_eq h, hname, hextension]
  rfl

theorem handle_of_relevant {paths : List (List Char)} (hpath : path ∈ paths)
    (h : isRelevant root path = true) (folder : Folder) (p : Project) (s : Session) :
    handle root paths folder p s =
      ((p.refresh folder s).1, (p.refresh folder s).2.1, some (p.refresh folder s).2.2) := by
  have hany : paths.any (isRelevant root) = true := List.any_eq_true.mpr ⟨path, hpath, h⟩
  rw [handle, if_pos hany]

/-- The removals that a watch misses are those of folders that are not called like a source
file but have one below them. A batch with any other path that leads to source files is
followed by a refresh, after which nothing is left of the documents that are gone. -/
theorem removal_missed_iff (h : Path.Leads root way path) (f : Folder) :
    ((f.remove way).sources ≠ f.sources ∧ isRelevant root path = false ↔
      SourceFile.extension? h.last.toList = none ∧ ∃ rest, rest ≠ [] ∧ f.HasSource (way ++ rest)) ∧
    (f.isFolder way = false → (f.remove way).sources ≠ f.sources → isRelevant root path = true) ∧
    (isRelevant root path = true → ∀ (paths : List (List Char)) (earlier : Project)
      (s s' : Session), path ∈ paths → s'.Arises →
      let p := (earlier.refresh f s).1
      let after := p.refresh (f.remove way) s'
      handle root paths (f.remove way) p s' = (after.1, after.2.1, some after.2.2) ∧
      ∀ document ∈ f.sources.map SourceFile.document,
        document ∉ (f.remove way).sources.map SourceFile.document →
        ∀ item, item ∈ after.2.1.registry.all ∨ item ∈ after.2.1.registry.shadowed →
          item.isFrom document = false) := by
  have hmissed : (f.remove way).sources ≠ f.sources ∧ isRelevant root path = false ↔
      SourceFile.extension? h.last.toList = none ∧
        ∃ rest, rest ≠ [] ∧ f.HasSource (way ++ rest) := by
    have hname : isRelevant root path = false ↔ SourceFile.extension? h.last.toList = none := by
      rw [isRelevant_eq h, Option.isSome_eq_false_iff, Option.isNone_iff_eq_none]
    rw [Folder.sources_remove_ne_iff, ← hname, and_comm]
    apply and_congr_right
    intro hirrelevant
    constructor
    · intro hparts
      obtain ⟨rest, hsource⟩ := hparts
      refine ⟨rest, ?_, hsource⟩
      intro hrest
      rw [hrest, List.append_nil] at hsource
      rw [isRelevant_of_hasSource h hsource] at hirrelevant
      contradiction
    · intro hparts
      obtain ⟨rest, -, hsource⟩ := hparts
      exact ⟨rest, hsource⟩
  refine ⟨hmissed, ?_, ?_⟩
  · intro hfile hchanged
    by_contra hirrelevant
    rw [Bool.not_eq_true] at hirrelevant
    obtain ⟨-, rest, hrest, hsource⟩ := hmissed.mp ⟨hchanged, hirrelevant⟩
    rw [Folder.isFolder_of_hasSource hsource hrest] at hfile
    contradiction
  · intro hrelevant paths earlier s s' hpath harises p after
    refine ⟨handle_of_relevant hpath hrelevant _ p s', ?_⟩
    intro document hdocument hgone item hitem
    have hknown := (earlier.isSome_known_refresh f s document).mpr hdocument
    exact p.not_isFrom_refresh (f.remove way) harises hknown hgone item hitem

/-- A folder of the name, with a declaration in a file below it. -/
def folderCalled (name : String) : Folder := .ofList [([name, "a.rst"], ".. traceable:: X\n".toUTF8)]

theorem sources_folderCalled (name : String) : (folderCalled name).sources =
    [⟨SourceFile.documentOf [name, "a.rst"], "rst", ".. traceable:: X\n".toUTF8⟩] := by
  have hextension : SourceFile.extension? "a.rst".toList = some "rst" := by decide +kernel
  have hfile (content : ByteArray) : SourceFile.ofFile [name, "a.rst"] content =
      some ⟨SourceFile.documentOf [name, "a.rst"], "rst", content⟩ :=
    (SourceFile.ofFile_eq_some_iff ..).mpr ⟨"a.rst", rfl, hextension, rfl, rfl⟩
  have hentries : (folderCalled name).files.entries =
      [([name, "a.rst"], ".. traceable:: X\n".toUTF8)] := rfl
  simp only [Folder.sources, hentries, List.filterMap_cons, hfile, List.filterMap_nil,
    List.mergeSort_singleton]

/-- The removal of a folder that is called like a source file is noticed, and the declaration
below it goes. -/
theorem removal_missed_iff_of_misnamed :
    let misnamed := folderCalled "old.md"
    let loaded := Project.load misnamed (Session.empty .empty 1)
    let after := handle "docs".toList ["docs/old.md".toList] (misnamed.remove ["old.md"]) loaded.1
      loaded.2.1
    loaded.2.1.registry.holder? "X" = some ⟨"old.md/a.rst", 1⟩ ∧
      (∃ summary, after.2.2 = some summary) ∧
      ∀ item ∈ after.2.1.registry.all, item.isFrom "old.md/a.rst" = false := by
  intro misnamed loaded after
  have hfiles : misnamed.sources = _ := sources_folderCalled "old.md"
  have hholder : loaded.2.1.registry.holder? "X" = some ⟨"old.md/a.rst", 1⟩ := by
    simp only [loaded, Project.load, Project.refresh, hfiles]
    decide +kernel
  have hleads : Path.Leads "docs".toList ["old.md"] "docs/old.md".toList :=
    ⟨by decide, by decide, by decide +kernel⟩
  have hrelevant : isRelevant "docs".toList "docs/old.md".toList = true := by decide +kernel
  have hopened : Session.ofRelationships [] 1 = .ok (Session.empty .empty 1) := rfl
  have harises : loaded.2.1.Arises := Project.arises_refresh .empty misnamed (.opened hopened)
  obtain ⟨hhandle, hgone⟩ := (removal_missed_iff hleads misnamed).2.2 hrelevant
    ["docs/old.md".toList] .empty (.empty .empty 1) loaded.2.1 (by decide) harises
  have hdocument : "old.md/a.rst" ∈ misnamed.sources.map SourceFile.document := by
    rw [hfiles]
    exact List.mem_cons_self
  have hsources : (misnamed.remove ["old.md"]).sources = [] := List.mergeSort_nil
  have habsent : "old.md/a.rst" ∉ (misnamed.remove ["old.md"]).sources.map SourceFile.document := by
    rw [hsources]
    exact List.not_mem_nil
  have hafter : after = _ := hhandle
  rw [hafter]
  refine ⟨hholder, ⟨_, rfl⟩, ?_⟩
  intro item hitem
  exact hgone _ hdocument habsent item (Or.inl hitem)

/-- A folder of another name is moved away, and the declaration below it stays registered. -/
theorem folder_removal_missed :
    let nested := folderCalled "design"
    let loaded := Project.load nested (Session.empty .empty 1)
    let after := handle "docs".toList ["docs/design".toList] (nested.remove ["design"]) loaded.1
      loaded.2.1
    Path.Leads "docs".toList ["design"] "docs/design".toList ∧
      (nested.remove ["design"]).sources ≠ nested.sources ∧
      isRelevant "docs".toList "docs/design".toList = false ∧ after.2.2 = none ∧
      after.2.1.registry.holder? "X" = some ⟨"design/a.rst", 1⟩ := by
  intro nested loaded after
  have hfiles : nested.sources = _ := sources_folderCalled "design"
  have hsources : (nested.remove ["design"]).sources = [] := List.mergeSort_nil
  have hirrelevant : isRelevant "docs".toList "docs/design".toList = false := by decide +kernel
  have hafter : after = (loaded.1, loaded.2.1, none) := by
    have hany : ["docs/design".toList].any (isRelevant "docs".toList) = false := by decide +kernel
    simp only [after, handle, hany]
    rfl
  rw [hafter]
  refine ⟨⟨by decide, by decide, by decide +kernel⟩, ?_, hirrelevant, rfl, ?_⟩
  · rw [hsources, hfiles]
    exact (List.cons_ne_nil _ _).symm
  · simp only [loaded, Project.load, Project.refresh, hfiles]
    decide +kernel

end Watch

end Traceability
