import TypeCatalog.Failure

/-!
# Events

What an extraction reports while it runs. An event is data; its level and its sentence are
functions of it, so that a run can be reasoned about through the events it reported.
-/

namespace TypeCatalog

/-- How urgent an event is. -/
inductive Level where
  | trace
  | debug
  | info
  | warn
  deriving DecidableEq, Repr

namespace Level

/-- The rank of a level among the levels. -/
def rank : Level → Nat
  | trace => 0
  | debug => 1
  | info => 2
  | warn => 3

/-- The label that is printed for a level. -/
def label : Level → String
  | trace => "TRACE"
  | debug => "DEBUG"
  | info => "INFO"
  | warn => "WARN"

end Level

/-- What an extraction reports. -/
inductive Event where
  /-- A name is declared a second time, and the later declaration replaces the earlier one
  (`replacing`) or is left out. -/
  | duplicate (kind : TypeKind) (name path : String) (replacing : Bool)
  /-- The syntax tree of a source holds errors. -/
  | syntaxErrors (path : String)
  /-- An input was merged: the classes and enums it added, and those the session holds now. -/
  | merged (classes enums : Nat) (path : String) (totalClasses totalEnums : Nat)
  /-- A source is about to be read. -/
  | opened (path language : String)
  /-- The declarations of a source were read. -/
  | declared (count : Nat) (language path : String)
  /-- The declarations of a source were collected. -/
  | collected (classes enums : Nat) (path : String)
  /-- The system refused to read a file. -/
  | readFailed (path cause : String)
  /-- An input was skipped. -/
  | skipped (path : String) (defect : Defect)
  /-- A declaration was passed over. -/
  | passedOver (kind : OtherKind) (name : Option String) (path : String)
  deriving DecidableEq, Repr

namespace Event

/-- How urgent an event is. -/
def level : Event → Level
  | duplicate .. => .warn
  | syntaxErrors .. => .warn
  | merged .. => .info
  | opened .. => .debug
  | declared .. => .debug
  | collected .. => .debug
  | readFailed .. => .debug
  | skipped .. => .debug
  | passedOver .. => .trace

/-- The phrase for some classes and enums. -/
def countPhrase (classes enums : Nat) : String := s!"{classes} classes and {enums} enums"

/-- The sentence that reports an event. -/
def message : Event → String
  | duplicate kind name path replacing =>
    "Duplicate " ++ kind.keyword ++ " `" ++ name ++ "` in " ++ path ++ ": " ++
      (if replacing then "replacing" else "keeping") ++ " earlier declaration"
  | syntaxErrors path =>
    path ++ " contains syntax errors; extracting what the parser recovered"
  | merged classes enums path totalClasses totalEnums =>
    "Extracted " ++ countPhrase classes enums ++ " from " ++ path ++
      s!" (session now holds {totalClasses} classes, {totalEnums} enums)"
  | opened path language => "BaseExtractor created for " ++ path ++ " (" ++ language ++ ")"
  | declared count language path =>
    s!"Extracted {count} declarations from {language} file: {path}"
  | collected classes enums path =>
    "Collected " ++ countPhrase classes enums ++ " from " ++ path
  | readFailed path cause => "Failed to read " ++ path ++ ": " ++ cause
  | skipped path defect => "Skipping " ++ path ++ ": " ++ defect.message
  | passedOver kind name path =>
    "Ignoring " ++ kind.keyword ++ " " ++ name.getD "<anonymous>" ++ " in " ++ path

/-- The line that is printed for an event. -/
def line (event : Event) : String := event.level.label ++ " " ++ event.message

/-- The lines of the events that are at least as urgent as a level. -/
def lines (least : Level) (events : List Event) : List String :=
  (events.filter fun event => decide (least.rank ≤ event.level.rank)).map line

end Event

end TypeCatalog
