import CallForms.Disk.Basic

namespace CallForms

def Path.parent (p : Path) : Path :=
  ⟨p.root, p.names.dropLast⟩

def Disk.observed (entries : List (Path × Except Disk.Obstacle Disk.Entry)) : Disk :=
  let entry path := (entries.lookup path).getD (.error .notFound)
  ⟨entry, fun path =>
    match entry path, entry path.parent with
    | .ok .directory, _ => some .isDirectory
    | .ok (.file _), _ => none
    | .error .notFound, .ok .directory => none
    | .error .notFound, .ok (.file _) => some .notDirectory
    | .error .notFound, .error obstacle => some obstacle
    | .error obstacle, _ => some obstacle⟩

end CallForms
