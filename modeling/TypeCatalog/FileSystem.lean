import TypeCatalog.FilePath
import TypeCatalog.Intake

/-!
# File systems

The objects of a file system under the names that lead to them from the root, and the directory that
a program works in. A path is followed step by step, from the root if it begins with a slash and
from the working directory if not, through links and by way of `.` and `..`. Names and paths have a
greatest length, and a path leads through a limited number of links in all. The system may refuse to
follow, to read or to write an object, and it may run out of room while a file is written.

## Main definitions

- `FileSystem.move` — where one step of a path leads
- `FileSystem.resolve` — the names that a path leads to
- `FileSystem.find` — what a program finds under a path
- `FileSystem.write` — what comes of writing a file, and the file system after it
-/

namespace TypeCatalog

/-- An object of a file system. -/
inductive FileSystem.Object where
  | file (octets : List UInt8)
  | directory
  /-- An object that is neither a file nor a directory nor a link, such as a socket. It may swallow
  what is written to it, as a device does, or else it cannot be opened. -/
  | special (swallows : Bool)
  /-- A link to the path, which is followed from the directory of the link. -/
  | link (target : String)
  deriving DecidableEq, Repr

/-- What the system does not let a program do with an object, and why. -/
structure FileSystem.Limits where
  /-- Why no path leads on from the directory. -/
  search : Option String := none
  /-- Why the file cannot be read. -/
  read : Option String := none
  /-- Why the file can be neither opened to be written nor made. -/
  write : Option String := none
  /-- How many octets the file takes, and why it takes no more. -/
  room : Option (Nat × String) := none
  deriving DecidableEq, Repr

/-- The objects of a file system under the names that lead to them from the root, with the limits of
some of them, and the directory that a program works in. The directories on the way to an object
need not be listed, and what is yet to be made may have limits too. -/
structure FileSystem where
  objects : List (List String × FileSystem.Object) := []
  workingDirectory : List String := []
  limits : List (List String × FileSystem.Limits) := []
  deriving DecidableEq, Repr

namespace FileSystem

/-- Why a path leads nowhere or cannot be written. -/
inductive Obstacle where
  | noSuchObject
  | noDirectory
  | isDirectory
  /-- The object takes no content. -/
  | noDevice
  | nameTooLong
  | tooManyLinks
  /-- The system refuses, and why. -/
  | refused (cause : String)
  deriving DecidableEq, Repr

/-- The sentence that reports an obstacle. -/
def Obstacle.message : Obstacle → String
  | noSuchObject => "No such file or directory (os error 2)"
  | noDirectory => "Not a directory (os error 20)"
  | isDirectory => "Is a directory (os error 21)"
  | noDevice => "No such device or address (os error 6)"
  | nameTooLong => "File name too long (os error 36)"
  | tooManyLinks => "Too many levels of symbolic links (os error 40)"
  | refused cause => cause

/-- The object under some names. The working directory and those it lies in are directories, and so
is what only other objects lie below. -/
def object? (fs : FileSystem) (names : List String) : Option Object :=
  if names <+: fs.workingDirectory then some .directory
  else
    match fs.objects.lookup names with
    | some object => some object
    | none =>
      if fs.objects.any (fun entry => names.isPrefixOf entry.1) then some .directory else none

/-- The limits of the object under some names. -/
def limitsOf (fs : FileSystem) (names : List String) : Limits :=
  (fs.limits.lookup names).getD {}

/-- How many links a path may lead through. -/
def maxLinks : Nat := 40

/-- How many octets a name may have. -/
def maxNameSize : Nat := 255

/-- How many octets a path may have. -/
def maxPathSize : Nat := 4095

/-! ### Following a path -/

/-- What one step of a path asks for. -/
inductive Turn where
  | stay
  | up
  /-- Down to what the step names. -/
  | down
  deriving DecidableEq, Repr

/-- What a step asks for, if the path may go on from the object under some names. -/
def turn (fs : FileSystem) (names : List String) (step : String) : Except Obstacle Turn :=
  if fs.object? names ≠ some .directory then .error .noDirectory
  else if step = "" then .ok .stay
  else
    match (fs.limitsOf names).search with
    | some cause => .error (.refused cause)
    | none =>
      if step = "." then .ok .stay
      else if step = ".." then .ok .up
      else if maxNameSize < step.utf8ByteSize then .error .nameTooLong
      else .ok .down

/-- Where one step of a path leads. -/
inductive Move where
  | reach (names : List String)
  /-- Along a link to the path. -/
  | along (path : String)
  deriving DecidableEq, Repr

/-- Where a step leads from the object under some names. The root is its own parent. -/
def move (fs : FileSystem) (names : List String) (step : String) : Except Obstacle Move :=
  match fs.turn names step with
  | .error obstacle => .error obstacle
  | .ok .stay => .ok (.reach names)
  | .ok .up => .ok (.reach names.dropLast)
  | .ok .down =>
    match fs.object? (names ++ [step]) with
    | none => .error .noSuchObject
    | some (.link path) => .ok (.along path)
    | some _ => .ok (.reach (names ++ [step]))

/-- The names where the steps of a path begin that is met under some names. -/
def origin (names : List String) (path : String) : List String :=
  if path.toList.head? = some '/' then [] else names

/-- Where the steps of a path lead, and how many links may still be followed. -/
structure Arrival where
  names : List String
  links : Nat
  deriving DecidableEq, Repr

/-- Follows steps until one leads to a link. It is told what to do with the path of a link and the
steps behind it, and how many links may still be followed. -/
def followWith (fs : FileSystem) (links : Nat)
    (along : List String → List String → Except Obstacle Arrival) (names : List String) :
    List String → Except Obstacle Arrival
  | [] => .ok ⟨names, links⟩
  | step :: rest =>
    match fs.move names step with
    | .error obstacle => .error obstacle
    | .ok (.reach next) => followWith fs links along next rest
    | .ok (.along path) => along (origin names path) (FilePath.steps path ++ rest)

/-- Follows the steps of a path from the object under some names, through as many links at most. -/
def follow (fs : FileSystem) :
    Nat → List String → List String → Except Obstacle Arrival
  | 0 => fs.followWith 0 fun _ _ => .error .tooManyLinks
  | fewer + 1 => fs.followWith (fewer + 1) (follow fs fewer)

theorem follow_nil (fs : FileSystem) (links : Nat) (names : List String) :
    fs.follow links names [] = .ok ⟨names, links⟩ := by
  cases links <;> rfl

/-- Induction along a path, with a case for all that its first step may lead to. -/
@[elab_as_elim]
theorem follow_induction (fs : FileSystem) {motive : Nat → List String → List String → Prop}
    (nil : ∀ links names, motive links names [])
    (error : ∀ links names step rest obstacle, fs.move names step = .error obstacle →
      motive links names (step :: rest))
    (reach : ∀ links names step rest next, fs.move names step = .ok (.reach next) →
      motive links next rest → motive links names (step :: rest))
    (stuck : ∀ names step rest path, fs.move names step = .ok (.along path) →
      motive 0 names (step :: rest))
    (along : ∀ fewer names step rest path, fs.move names step = .ok (.along path) →
      motive fewer (origin names path) (FilePath.steps path ++ rest) →
        motive (fewer + 1) names (step :: rest))
    (links : Nat) (names steps : List String) : motive links names steps := by
  -- first on the links, for behind a link there may be more steps than before it
  induction links generalizing names steps with
  | zero =>
    induction steps generalizing names with
    | nil => exact nil 0 names
    | cons step rest ih =>
      cases hmove : fs.move names step with
      | error obstacle => exact error 0 names step rest obstacle hmove
      | ok m =>
        cases m with
        | reach next => exact reach 0 names step rest next hmove (ih next)
        | along path => exact stuck names step rest path hmove
  | succ fewer ihfewer =>
    induction steps generalizing names with
    | nil => exact nil (fewer + 1) names
    | cons step rest ih =>
      cases hmove : fs.move names step with
      | error obstacle => exact error (fewer + 1) names step rest obstacle hmove
      | ok m =>
        cases m with
        | reach next => exact reach (fewer + 1) names step rest next hmove (ih next)
        | along path => exact along fewer names step rest path hmove (ihfewer _ _)

section Follow

variable {fs : FileSystem} {links fewer : Nat} {names steps rest : List String} {step : String}

theorem follow_of_error {obstacle : Obstacle} (h : fs.move names step = .error obstacle) :
    fs.follow links names (step :: rest) = .error obstacle := by
  cases links <;> simp only [follow, followWith, h]

/-- A step that leads to an object is taken, and the others go on from there. -/
theorem follow_of_reach {next : List String} (h : fs.move names step = .ok (.reach next)) :
    fs.follow links names (step :: rest) = fs.follow links next rest := by
  cases links <;> simp only [follow, followWith, h]

/-- At a link, a path that may lead through no more of them ends. -/
theorem follow_of_stuck {path : String} (h : fs.move names step = .ok (.along path)) :
    fs.follow 0 names (step :: rest) = .error .tooManyLinks := by
  simp only [follow, followWith, h]

/-- At a link, its path is followed before the other steps. -/
theorem follow_of_along {path : String} (h : fs.move names step = .ok (.along path)) :
    fs.follow (fewer + 1) names (step :: rest) =
      fs.follow fewer (origin names path) (FilePath.steps path ++ rest) := by
  simp only [follow, followWith, h]

/-- No more links may be followed at the end of a path than at its beginning. -/
theorem links_le_of_follow {arrival : Arrival} (h : fs.follow links names steps = .ok arrival) :
    arrival.links ≤ links := by
  induction links, names, steps using fs.follow_induction with
  | nil =>
    rw [follow_nil] at h
    cases h
    exact Nat.le_refl _
  | error _ _ _ _ _ hmove => rw [follow_of_error hmove] at h; cases h
  | reach _ _ _ _ _ hmove ih => rw [follow_of_reach hmove] at h; exact ih h
  | stuck _ _ _ _ hmove => rw [follow_of_stuck hmove] at h; cases h
  | along _ _ _ _ _ hmove ih =>
    rw [follow_of_along hmove] at h
    exact Nat.le_succ_of_le (ih h)

end Follow

/-- Why a path cannot be given to the system at all. -/
def pathObstacle? (path : String) : Option Obstacle :=
  if path = "" ∨ '\x00' ∈ path.toList then some .noSuchObject
  else if maxPathSize < path.utf8ByteSize then some .nameTooLong
  else none

/-- The names that a path leads to. -/
def resolve (fs : FileSystem) (path : String) : Except Obstacle (List String) :=
  match pathObstacle? path with
  | some obstacle => .error obstacle
  | none =>
    (fs.follow maxLinks (origin fs.workingDirectory path) (FilePath.steps path)).map (·.names)

/-- The object that a path leads to. -/
def objectAt? (fs : FileSystem) (path : String) : Option Object :=
  (fs.resolve path).toOption.bind fs.object?

/-- What a program finds under a path. -/
def find (fs : FileSystem) (path : String) : PathState :=
  match fs.resolve path with
  | .error _ => .missing
  | .ok names =>
    match fs.object? names with
    | none => .missing
    | some (.file octets) =>
      match (fs.limitsOf names).read with
      | some cause => .unreadable cause
      | none => .regular octets
    | some _ => .notRegular

/-! ### Writing -/

/-- The names under which the file at the end of some steps is written. There has to be an object
that is no directory or nothing yet; a link to either is followed. A path with a slash at its end
names a directory. -/
def target (fs : FileSystem) (links : Nat) (names steps : List String) :
    Except Obstacle (List String) :=
  let named := (steps.reverse.dropWhile (· == "")).reverse
  match named.getLast? with
  | none => .error .isDirectory
  | some name =>
    match _arrived : fs.follow links names named.dropLast with
    | .error obstacle => .error obstacle
    | .ok parent =>
      match fs.move parent.names (if named = steps then name else ".") with
      | .error .noSuchObject => .ok (parent.names ++ [name])
      | .error obstacle => .error obstacle
      | .ok (.reach next) =>
        if fs.object? next = some .directory then .error .isDirectory else .ok next
      | .ok (.along path) =>
        match _left : parent.links with
        | 0 => .error .tooManyLinks
        | fewer + 1 => target fs fewer (origin parent.names path) (FilePath.steps path)
termination_by links
decreasing_by
  have := links_le_of_follow _arrived
  omega

/-- The names under which the file is written that a path leads to. -/
def targetOf (fs : FileSystem) (path : String) : Except Obstacle (List String) :=
  match pathObstacle? path with
  | some obstacle => .error obstacle
  | none => fs.target maxLinks (origin fs.workingDirectory path) (FilePath.steps path)

/-- What a file holds after some octets were written to it, and why it does not hold all of them. -/
def Limits.take (limits : Limits) (octets : List UInt8) : Except Obstacle Unit × List UInt8 :=
  match limits.room with
  | none => (.ok (), octets)
  | some (room, cause) =>
    if octets.length ≤ room then (.ok (), octets) else (.error (.refused cause), octets.take room)

/-- The file system with a file under some names. -/
def put (fs : FileSystem) (names : List String) (octets : List UInt8) : FileSystem :=
  { fs with objects := (names, .file octets) :: fs.objects.filter (·.1 != names) }

/-- Opens the object under some names, which is emptied if it is a file and made if there is none,
and writes octets to it. -/
def fill (fs : FileSystem) (names : List String) (octets : List UInt8) :
    Except Obstacle Unit × FileSystem :=
  let limits := fs.limitsOf names
  match limits.write with
  | some cause => (.error (.refused cause), fs)
  | none =>
    match fs.object? names with
    | some (.special false) => (.error .noDevice, fs)
    | some (.special true) => ((limits.take octets).1, fs)
    | _ => ((limits.take octets).1, fs.put names (limits.take octets).2)

/-- Writes a file: whether it was written, and the file system that is left behind. -/
def write (fs : FileSystem) (path : String) (octets : List UInt8) :
    Except Obstacle Unit × FileSystem :=
  match fs.targetOf path with
  | .error obstacle => (.error obstacle, fs)
  | .ok names => fs.fill names octets

end FileSystem

end TypeCatalog
