import TypeCatalog.Catalogs

/-!
# Collection of declarations

The declarations of one input are recorded in order into catalogs of their own. The first name that
the policy refuses ends the collection.
-/

namespace TypeCatalog

namespace Catalogs

/-- Records a declaration. -/
def record (policy : Policy) (path : String) (c : Catalogs) : Declaration → Report Catalogs
  | .ofClass declaration =>
    let (classes, report) := c.classes.insert policy path declaration.record
    report.map fun _ => { c with classes := classes }
  | .ofEnum declaration =>
    let (enums, report) := c.enums.insert policy path declaration.record
    report.map fun _ => { c with enums := enums }
  | .other kind name => .done c [.passedOver kind name path]

/-- Records declarations in order, up to the first that is refused. -/
def recordAll (policy : Policy) (path : String) (c : Catalogs) : List Declaration → Report Catalogs
  | [] => .done c
  | declaration :: rest =>
    (c.record policy path declaration).andThen fun next => next.recordAll policy path rest

/-- The catalogs of the declarations of one input. -/
def ofDeclarations (policy : Policy) (path : String) (declarations : List Declaration) :
    Report Catalogs :=
  (recordAll policy path {} declarations).andThen fun c =>
    .done c [.collected c.classes.size c.enums.size path]

end Catalogs

end TypeCatalog
