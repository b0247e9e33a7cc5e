import ExerciseAudit.Path.Basic

/-!
# Relative paths

The way from one directory to a path, found by comparing components and never by looking at the file
system: leave what is only in the directory with `..`, then follow what is only in the path. Where the
directory itself says `..` after the two have parted, no such way is known.
-/

namespace ExerciseAudit.Path

/-- The components that lead from `directory` to `target`. The flag says whether the two have only had
common components so far, in which case a common component is skipped. -/
def route? : (common : Bool) → (target directory : List Component) → Option (List Component)
  | _, [], directory => some (directory.map fun _ => .parent)
  | _, target, [] => some target
  | common, next :: target, leave :: directory =>
    if common ∧ next = leave then route? true target directory
    else if leave = .current then (route? false target directory).map (next :: ·)
    else if leave = .parent then none
    else some (.parent :: directory.map (fun _ => .parent) ++ next :: target)

/-- The path that some components spell. -/
def ofComponents (parts : List Component) : Path :=
  parts.foldl (fun path part => path.join ⟨part.bytes⟩) ⟨[]⟩

/-- The path as it is reached from a directory. When only one of the two is absolute, or the way is not
known, an absolute path stands as it is, and so does a relative one. -/
def relativeTo (path directory : Path) : Path :=
  if path.isAbsolute = directory.isAbsolute then
    ((route? true path.components directory.components).map ofComponents).getD path
  else path

/-- A path for a report: relative to a root if possible, with `/` for every `\`. -/
def shownFrom (path root : Path) : String :=
  String.ofList ((Utf8.lossy (path.relativeTo root).bytes).map fun c => if c = '\\' then '/' else c)

end ExerciseAudit.Path
