import Traceability.Proofs.Project.Refresh

/-!
Histories of a project: files are written and deleted, and the session is refreshed
from time to time. A refresh at the end of any history leaves what a first reading of
the same files would give, whatever was declared in between.
-/

namespace Traceability.Project

inductive Edit where
  | write (path : List String) (content : ByteArray)
  | delete (path : List String)
  | refresh

/-- A file is written under plain names. -/
def Edit.Plain : Edit → Prop
  | .write path _ => Path.Plain path
  | .delete _ => True
  | .refresh => True

instance : ∀ e : Edit, Decidable e.Plain
  | .write path _ => inferInstanceAs (Decidable (Path.Plain path))
  | .delete _ => inferInstanceAs (Decidable True)
  | .refresh => inferInstanceAs (Decidable True)

/-- A folder, and the project and the session that are kept in step with it. -/
structure Workspace where
  folder : Folder
  project : Project
  session : Session

namespace Workspace

/-- Nothing has been read yet. The first refresh is the load. -/
def opened (folder : Folder) (index : Relationship.Index) (capacity : Nat) : Workspace :=
  ⟨folder, .empty, .empty index capacity⟩

def refresh (w : Workspace) : Workspace :=
  let refreshed := w.project.refresh w.folder w.session
  ⟨w.folder, refreshed.1, refreshed.2.1⟩

def after (w : Workspace) : Edit → Workspace
  | .write path content => { w with folder := w.folder.write path content }
  | .delete path => { w with folder := w.folder.delete path }
  | .refresh => w.refresh

def run (w : Workspace) (edits : List Edit) : Workspace := edits.foldl after w

end Workspace

/-- Where a refresh finds another content in a file than the refresh before it, it finds
another digest. The last refresh follows the edits. -/
def DigestsTell : Folder → Folder → List Edit → Prop
  | seen, folder, [] => seen.Distinguishes folder
  | seen, folder, .write path content :: edits =>
      DigestsTell seen (folder.write path content) edits
  | seen, folder, .delete path :: edits => DigestsTell seen (folder.delete path) edits
  | seen, folder, .refresh :: edits =>
      seen.Distinguishes folder ∧ DigestsTell folder folder edits

instance decidableDigestsTell : ∀ seen folder edits, Decidable (DigestsTell seen folder edits)
  | seen, folder, [] => inferInstanceAs (Decidable (seen.Distinguishes folder))
  | seen, folder, .write path content :: edits =>
      decidableDigestsTell seen (folder.write path content) edits
  | seen, folder, .delete path :: edits => decidableDigestsTell seen (folder.delete path) edits
  | seen, folder, .refresh :: edits =>
      have := decidableDigestsTell folder folder edits
      inferInstanceAs (Decidable (seen.Distinguishes folder ∧ DigestsTell folder folder edits))

theorem distinguishes_empty (folder : Folder) : Folder.empty.Distinguishes folder := by
  intro path before later hbefore
  contradiction

theorem inStep_load (folder : Folder) (hplain : folder.Plain) (index : Relationship.Index)
    (capacity : Nat) :
    (load folder (.empty index capacity)).1.InStep (load folder (.empty index capacity)).2.1 index
      folder :=
  (inStep_empty index capacity).refresh folder hplain (distinguishes_empty folder)

/-- After every history, a last refresh brings the session in step. -/
theorem inStep_run {index : Relationship.Index} (edits : List Edit) (w : Workspace)
    (seen : Folder) (h : w.project.InStep w.session index seen) (hfolder : w.folder.Plain)
    (hedits : ∀ e ∈ edits, e.Plain)
    (hdigests : DigestsTell seen w.folder edits) :
    let last := (w.run edits).refresh
    last.folder.Plain ∧ last.project.InStep last.session index last.folder := by
  induction edits generalizing w seen with
  | nil => exact ⟨hfolder, h.refresh w.folder hfolder hdigests⟩
  | cons e edits ih =>
    rw [List.forall_mem_cons] at hedits
    obtain ⟨hplain, hrest⟩ := hedits
    cases e with
    | write path content =>
      exact ih (w.after (.write path content)) seen h
        (Folder.plain_write hfolder hplain content) hrest hdigests
    | delete path =>
      exact ih (w.after (.delete path)) seen h (Folder.plain_delete hfolder path) hrest hdigests
    | refresh =>
      obtain ⟨hseen, hlater⟩ := hdigests
      exact ih w.refresh w.folder (h.refresh w.folder hfolder hseen) hfolder hrest hlater

/-- A refresh after any history agrees with a first reading of the same files. The same
tags are declared, those of the declarations on disk and by one of them each, and if no tag
is declared twice then nothing else differs but the order of reports. -/
theorem refresh_agrees_with_load (index : Relationship.Index) (capacity capacity' : Nat)
    (folder : Folder) (edits : List Edit) (hfolder : folder.Plain)
    (hedits : ∀ e ∈ edits, e.Plain)
    (hdigests : DigestsTell .empty folder edits) :
    let w := ((Workspace.opened folder index capacity).run edits).refresh
    let fresh := (load w.folder (.empty index capacity')).2.1
    (∀ tag, w.session.registry.declares tag = fresh.registry.declares tag) ∧
    (∀ tag, w.session.registry.declares tag = true ↔ ∃ d ∈ w.folder.declared, d.tag = tag) ∧
    (∀ item ∈ w.session.registry.all, item.isDeclared = true →
      ∃ d ∈ w.folder.declared, d.withoutRelatives = item.withoutRelatives) ∧
    (∀ item ∈ w.session.registry.shadowed, item ∈ w.folder.declared) ∧
    ((w.folder.declared.map Item.tag).Nodup →
      w.session.registry = fresh.registry ∧
        w.session.diagnostics.all.Perm fresh.diagnostics.all) := by
  intro w fresh
  obtain ⟨hplain, hstep⟩ := inStep_run edits (Workspace.opened folder index capacity) .empty
    (inStep_empty index capacity) hfolder hedits hdigests
  have hfresh := inStep_load w.folder hplain index capacity'
  obtain ⟨log, hperm, hfollows⟩ := hstep.follows
  obtain ⟨log', hperm', hfollows'⟩ := hfresh.follows
  have hsame : log.Perm log' := hperm.trans hperm'.symm
  refine ⟨?_, ?_, ?_, ?_, ?_⟩
  · intro tag
    rw [Bool.eq_iff_iff, hfollows.declares_iff, hfollows'.declares_iff]
    simp only [hsame.mem_iff]
  · intro tag
    rw [hfollows.declares_iff]
    exact exists_congr fun item => and_congr_left' hperm.mem_iff
  · intro item hitem hdeclared
    obtain ⟨tag, hget⟩ := SortedMap.mem_values.mp hitem
    obtain ⟨first, hfirst, heq⟩ := hfollows.keeps.first_of_declared tag item hget hdeclared
    exact ⟨first, hperm.mem_iff.mp (List.mem_of_find?_eq_some hfirst), heq⟩
  · intro item hitem
    exact hperm.mem_iff.mp (hfollows.keeps.mem_of_mem_shadowed hitem)
  · intro hnodup
    have hlog : (log.map Item.tag).Nodup := (hperm.map Item.tag).nodup_iff.mpr hnodup
    exact hfollows.eq_of_perm hfollows' hsame hlog
      (hstep.index_eq.trans hfresh.index_eq.symm) hstep.resolved hfresh.resolved

/-- A tag moves through three files. Its declarations are duplicates on the way, and one
of the files breaks. -/
theorem refresh_agrees_after_moves :
    ∃ index, Relationship.Index.ofList [.between "parents" "children"] = .ok index ∧
      let edits : List Edit :=
        [.write ["a.rst"] ".. traceable:: X\n".toUTF8,
          .write ["docs", "b.txt"] ".. traceable:: X\n.. traceable:: X\n".toUTF8, .refresh,
          .write ["a.rst"] ".. traceable::\n".toUTF8, .refresh, .delete ["docs", "b.txt"],
          .write ["c.rst"] ".. traceable:: Y\n    :parents: X, Z\n.. traceable:: X\n".toUTF8]
      let w := ((Workspace.opened .empty index 1).run edits).refresh
      let fresh := (load w.folder (.empty index 2)).2.1
      (w.folder.declared.map Item.tag).Perm ["X", "Y"] ∧
        w.session.registry = fresh.registry ∧
        w.session.diagnostics.all.Perm fresh.diagnostics.all := by
  refine ⟨_, rfl, ?_⟩
  intro edits w fresh
  have hdeclared : (w.folder.declared.map Item.tag).Perm ["X", "Y"] := by
    refine ((w.folder.perm_sources.flatMap_right declaredItems).map Item.tag).trans ?_
    decide +kernel
  refine ⟨hdeclared, (refresh_agrees_with_load _ 1 2 .empty edits Folder.plain_empty (by decide)
    (by decide +kernel)).2.2.2.2 ?_⟩
  exact hdeclared.nodup_iff.mpr (by decide)

end Traceability.Project
