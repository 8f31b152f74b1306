import Mathlib.Data.List.Infix
import TypeCatalog.FileSystem

/-!
# Following a path

A path leads through directories, step by step. Where two file systems differ in one object only,
and no path leads on from it, a path that ends elsewhere leads to the same object in both.

## Main definitions

- `FileSystem.Moves` — where a step leads, told case by case
- `FileSystem.Way` — that the way to an object leads through directories
- `FileSystem.IsLeaf` — that no path leads on from some names
- `FileSystem.SameBut` — that two file systems differ under some names only

## Main statements

- `FileSystem.follow_append` — a path may be followed in two parts
- `FileSystem.way_of_follow` — a path leads through directories
- `FileSystem.follow_of_sameBut` — a path that ends elsewhere is not changed by a new file
-/

namespace TypeCatalog.FileSystem

variable {fs fs' : FileSystem} {links : Nat} {place names steps rest : List String} {step : String}
  {arrival : Arrival} {m : Move}

/-! ### One step -/

/-- A path goes on from directories only. -/
theorem object?_of_turn {turn : Turn} (h : fs.turn place step = .ok turn) :
    fs.object? place = some .directory := by
  by_contra hne
  rw [FileSystem.turn, if_pos hne] at h
  cases h

/-- What a step asks for depends on the place it is taken from and not on what it leads to. -/
theorem turn_congr (hobject : fs'.object? place = fs.object? place)
    (hlimits : fs'.limits = fs.limits) (step : String) :
    fs'.turn place step = fs.turn place step := by
  simp only [turn, limitsOf, hobject, hlimits]

/-- That there is nothing is only known of what a step leads to. -/
theorem turn_ne_noSuchObject : fs.turn place step ≠ .error .noSuchObject := by
  rw [turn]
  split
  · simp
  split
  · simp
  split
  · simp
  split
  · simp
  split
  · simp
  split <;> simp

/-- Where a step leads: nowhere else, to the directory above, down to an object, or to a link, which
is to be followed. -/
inductive Moves (fs : FileSystem) (place : List String) (step : String) : Move → Prop where
  | stay (hturn : fs.turn place step = .ok .stay) : Moves fs place step (.reach place)
  | up (hturn : fs.turn place step = .ok .up) : Moves fs place step (.reach place.dropLast)
  | down (hturn : fs.turn place step = .ok .down) {object : Object}
      (hobject : fs.object? (place ++ [step]) = some object)
      (hlink : ∀ path, object ≠ .link path) : Moves fs place step (.reach (place ++ [step]))
  | along (hturn : fs.turn place step = .ok .down) {path : String}
      (hlink : fs.object? (place ++ [step]) = some (.link path)) : Moves fs place step (.along path)

/-- These are all the moves there are. -/
theorem move_eq_ok_iff : fs.move place step = .ok m ↔ fs.Moves place step m := by
  constructor
  · intro h
    rw [move] at h
    split at h
    · cases h
    · next hturn => cases h; exact .stay hturn
    · next hturn => cases h; exact .up hturn
    · next hturn =>
      split at h
      · cases h
      · next path hlink => cases h; exact .along hturn hlink
      · next object hobject hlink => cases h; exact .down hturn hlink hobject
  · intro h
    cases h with
    | stay hturn => rw [move, hturn]
    | up hturn => rw [move, hturn]
    | down hturn hobject hlink => simp only [move, hturn, hobject]
    | along hturn hlink => simp only [move, hturn, hlink]

/-- A step leads to no object only if it is a name that the directory does not have. -/
theorem move_eq_noSuchObject_iff : fs.move place step = .error .noSuchObject ↔
    fs.turn place step = .ok .down ∧ fs.object? (place ++ [step]) = none := by
  constructor
  · intro h
    rw [move] at h
    split at h
    · next hturn => cases h; exact absurd hturn turn_ne_noSuchObject
    · cases h
    · cases h
    · next hturn =>
      split at h
      · next hnone => exact ⟨hturn, hnone⟩
      · cases h
      · cases h
  · rintro ⟨hturn, hnone⟩
    simp only [move, hturn, hnone]

/-- Only a directory is left by a step. -/
theorem Moves.directory (h : fs.Moves place step m) : fs.object? place = some .directory := by
  cases h <;> exact object?_of_turn ‹_›

/-! ### Following a path -/

/-- A step that leads to an object is taken, and the others go on from there. -/
theorem follow_reach {next : List String} (h : fs.Moves place step (.reach next)) :
    fs.follow links place (step :: rest) = fs.follow links next rest :=
  follow_of_reach (move_eq_ok_iff.2 h)

/-- At a link, its path is followed before the other steps. -/
theorem follow_along {path : String} (h : fs.Moves place step (.along path)) :
    fs.follow (links + 1) place (step :: rest) =
      fs.follow links (origin place path) (FilePath.steps path ++ rest) :=
  follow_of_along (move_eq_ok_iff.2 h)

/-- Steps that follow each other may be followed in two parts. -/
theorem follow_append (fs : FileSystem) (links : Nat) (place steps more : List String) :
    fs.follow links place (steps ++ more) =
      (fs.follow links place steps).bind fun arrival =>
        fs.follow arrival.links arrival.names more := by
  induction links, place, steps using fs.follow_induction with
  | nil links place => rw [follow_nil]; rfl
  | error _ _ _ _ _ hmove =>
    rw [List.cons_append, follow_of_error hmove, follow_of_error hmove]
    rfl
  | reach _ _ _ _ _ hmove ih =>
    rw [List.cons_append, follow_of_reach hmove, follow_of_reach hmove, ih]
  | stuck _ _ _ _ hmove =>
    rw [List.cons_append, follow_of_stuck hmove, follow_of_stuck hmove]
    rfl
  | along _ _ _ _ _ hmove ih =>
    rw [List.cons_append, follow_of_along hmove, follow_of_along hmove, ← ih, List.append_assoc]

/-- No path leads on from what is no directory. -/
theorem names_of_follow (h : fs.follow links place steps = .ok arrival)
    (hplace : fs.object? place ≠ some .directory) : arrival.names = place := by
  cases steps with
  | nil =>
    rw [follow_nil] at h
    cases h
    rfl
  | cons step rest =>
    have hmove : fs.move place step = .error .noDirectory := by
      rw [move, turn, if_pos hplace]
    rw [follow_of_error hmove] at h
    cases h

theorem object?_nil : fs.object? [] = some .directory := if_pos List.nil_prefix

/-- A path that is met in a directory begins in a directory. -/
theorem object?_origin (h : fs.object? names = some .directory) (path : String) :
    fs.object? (origin names path) = some .directory := by
  rw [origin]
  split
  · exact object?_nil
  · exact h

/-! ### The way to an object -/

/-- The names on the way to an object are names of directories. -/
def Way (fs : FileSystem) (names : List String) : Prop :=
  ∀ front, front <+: names → front ≠ names → fs.object? front = some .directory

/-- Nothing is on the way to the root. -/
theorem way_nil : fs.Way [] := fun _ hfront hne => absurd (List.prefix_nil.1 hfront) hne

theorem object?_workingDirectory : fs.object? fs.workingDirectory = some .directory :=
  if_pos (List.prefix_refl _)

/-- The working directory lies in directories. -/
theorem way_workingDirectory : fs.Way fs.workingDirectory := fun _ hfront _ => if_pos hfront

/-- A path begins at the root, or where it is followed from. -/
theorem Way.origin (h : fs.Way names) (path : String) : fs.Way (origin names path) := by
  rw [FileSystem.origin]
  split
  · exact way_nil
  · exact h

/-- The way to the directory above is a part of the way. -/
theorem Way.dropLast (h : fs.Way names) : fs.Way names.dropLast := by
  intro front hfront hne
  have hnames : front <+: names := hfront.trans (List.dropLast_prefix names)
  refine h front hnames ?_
  rintro rfl
  have hlength := hfront.length_le
  rw [List.length_dropLast] at hlength
  have hempty : front = [] := List.length_eq_zero_iff.1 (by omega)
  exact hne (by rw [hempty]; rfl)

/-- The way to an object of a directory leads through that directory. -/
theorem Way.concat (h : fs.Way names) (hnames : fs.object? names = some .directory)
    (name : String) : fs.Way (names ++ [name]) := by
  intro front hfront hne
  obtain hwhole | hfront := List.prefix_concat_iff.1 hfront
  · exact absurd hwhole hne
  · by_cases heq : front = names
    · rw [heq, hnames]
    · exact h front hfront heq

/-- The directory above the object at the end of a way. -/
theorem Way.object?_dropLast (h : fs.Way names) (hnames : fs.object? names = some .directory) :
    fs.object? names.dropLast = some .directory := by
  by_cases heq : names.dropLast = names
  · rw [heq, hnames]
  · exact h _ (List.dropLast_prefix names) heq

/-- A step leads to a place that the way leads through directories to. -/
theorem Moves.way {next : List String} (h : fs.Moves place step (.reach next))
    (hway : fs.Way place) : fs.Way next := by
  have hplace := h.directory
  cases h with
  | stay => exact hway
  | up => exact hway.dropLast
  | down => exact hway.concat hplace step

/-- A path only leads through directories. -/
theorem way_of_follow (h : fs.follow links place steps = .ok arrival) (hway : fs.Way place) :
    fs.Way arrival.names := by
  induction links, place, steps using fs.follow_induction with
  | nil =>
    rw [follow_nil] at h
    cases h
    exact hway
  | error _ _ _ _ _ hmove => rw [follow_of_error hmove] at h; cases h
  | reach _ _ _ _ _ hmove ih =>
    rw [follow_of_reach hmove] at h
    exact ih h ((move_eq_ok_iff.1 hmove).way hway)
  | stuck _ _ _ _ hmove => rw [follow_of_stuck hmove] at h; cases h
  | along _ _ _ _ path hmove ih =>
    rw [follow_of_along hmove] at h
    exact ih h (hway.origin path)

/-! ### File systems that are alike -/

/-- No path leads on from the names: there is neither a directory nor a link. -/
def IsLeaf (fs : FileSystem) (names : List String) : Prop :=
  fs.object? names ≠ some .directory ∧ ∀ path, fs.object? names ≠ some (.link path)

/-- The two file systems differ at most in the object under some names. -/
structure SameBut (fs fs' : FileSystem) (names : List String) : Prop where
  limits : fs'.limits = fs.limits
  workingDirectory : fs'.workingDirectory = fs.workingDirectory
  object : ∀ other, other ≠ names → fs'.object? other = fs.object? other

theorem SameBut.refl (fs : FileSystem) (names : List String) : SameBut fs fs names :=
  ⟨rfl, rfl, fun _ _ => rfl⟩

section Alike

variable (hsame : SameBut fs fs' names) (hleaf : fs.IsLeaf names)

include hsame hleaf

/-- From a directory, a step asks for the same. -/
theorem SameBut.turn_eq (hplace : fs.object? place = some .directory) (step : String) :
    fs'.turn place step = fs.turn place step := by
  refine turn_congr (hsame.object place ?_) hsame.limits step
  rintro rfl
  exact hleaf.1 hplace

/-- A step leads to the same place, unless it leads to what differs. -/
theorem Moves.sameBut (h : fs.Moves place step m) (hm : m ≠ .reach names) :
    fs'.Moves place step m := by
  have hturn := hsame.turn_eq hleaf h.directory step
  cases h with
  | stay hstay => exact .stay (hturn.trans hstay)
  | up hup => exact .up (hturn.trans hup)
  | down hdown hobject hlink =>
    have hne : place ++ [step] ≠ names := fun heq => hm (congrArg Move.reach heq)
    exact .down (hturn.trans hdown) ((hsame.object _ hne).trans hobject) hlink
  | along hdown hlink =>
    have hne : place ++ [step] ≠ names := by
      rintro rfl
      exact hleaf.2 _ hlink
    exact .along (hturn.trans hdown) ((hsame.object _ hne).trans hlink)

/-- A path that ends elsewhere leads to the same object. -/
theorem follow_of_sameBut (h : fs.follow links place steps = .ok arrival)
    (hne : arrival.names ≠ names) : fs'.follow links place steps = .ok arrival := by
  induction links, place, steps using fs.follow_induction with
  | nil => rwa [follow_nil] at h ⊢
  | error _ _ _ _ _ hmove => rw [follow_of_error hmove] at h; cases h
  | reach _ _ _ _ next hmove ih =>
    rw [follow_of_reach hmove] at h
    have hnext : next ≠ names := by
      -- the path would end there
      rintro rfl
      exact hne (names_of_follow h hleaf.1)
    have hmoves := (move_eq_ok_iff.1 hmove).sameBut hsame hleaf fun heq =>
      hnext (Move.reach.inj heq)
    rw [follow_reach hmoves, ih h]
  | stuck _ _ _ _ hmove => rw [follow_of_stuck hmove] at h; cases h
  | along _ _ _ _ _ hmove ih =>
    rw [follow_of_along hmove] at h
    rw [follow_along ((move_eq_ok_iff.1 hmove).sameBut hsame hleaf (by simp)), ih h]

end Alike

end TypeCatalog.FileSystem
