import Traceability.Project

/-!
Changed paths lead to a refresh when one of them names a source file below the root
of the project, whether or not the file still exists.
-/

namespace Traceability.Watch

def isRelevant (root path : List Char) : Bool := Path.isBelow path root && SourceFile.isNamed path

/-- Refreshes after a batch of changes, if one of them is relevant. -/
def handle (root : List Char) (paths : List (List Char)) (folder : Folder) (p : Project)
    (s : Session) : Project × Session × Option Project.Summary :=
  if paths.any (isRelevant root) then
    let (p, s, summary) := p.refresh folder s
    (p, s, some summary)
  else (p, s, none)

end Traceability.Watch
