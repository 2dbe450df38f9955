import CallForms.Diagnostic.Basic

namespace CallForms.Diagnostic

def isError (d : Diagnostic) : Bool :=
  d.severity == .error

def errorCount (ds : List Diagnostic) : Nat :=
  ds.countP isError

def formatAll (ds : List Diagnostic) (showSource : Bool := true) : String :=
  let total := if errorCount ds = 0 then [] else [s!"\n{errorCount ds} error(s)"]
  "\n\n".intercalate (ds.map (·.format showSource) ++ total)

def formatAll? (ds : List Diagnostic) (showSource : Bool := true) : Except Text.Oversize String :=
  match ds.findSome? (·.oversize? showSource) with
  | some oversize => .error oversize
  | none => .ok (formatAll ds showSource)

def collectionJson (ds : List Diagnostic) : Json :=
  .object [("diagnostics", .array (ds.map toJson)), ("error_count", .int (errorCount ds))]

end CallForms.Diagnostic
