import Mathlib.Data.List.DropRight
import TypeCatalog.Proofs.FileSystem.Following

/-!
# Writing a file

What is written to a path is found under this path, even if the path leads through links, and
nothing else changes: the way to the file leads through directories, and these stay.

## Main definitions

- `FileSystem.Holds` — that a path leads to just some octets, and nothing else is new
- `FileSystem.Writes` — what may come of writing a file

## Main statements

- `FileSystem.follow_of_target` — a path leads to the file that was written to it
- `FileSystem.target_of_follow` — a file that a path leads to is written by this path
- `FileSystem.writes_write` — what comes of writing a file
- `FileSystem.write_eq` — a file without limits is overwritten
-/

namespace TypeCatalog.FileSystem

variable {fs fs' : FileSystem} {links : Nat} {place names steps : List String} {step : String}
  {arrival : Arrival} {octets : List UInt8}

/-! ### The file at the end of a path -/

/-- A step that names no object leads nowhere else. -/
theorem turn_dot {turn : Turn} (h : fs.turn place "." = .ok turn) : turn = .stay := by
  rw [FileSystem.turn, if_neg (not_not.2 (object?_of_turn h)), if_neg (by decide)] at h
  split at h
  · cases h
  · rw [if_pos rfl] at h
    cases h
    rfl

/-- A file is written by a path that ends with a name and not with a slash, in the directory that
the steps before the name lead to. -/
theorem exists_concat_of_target (h : fs.target links place steps = .ok names) :
    ∃ front name parent, steps = front ++ [name] ∧ name ≠ "" ∧
      fs.follow links place front = .ok parent := by
  rw [target] at h
  split at h
  · cases h
  next name hlast =>
  split at h
  · cases h
  next parent hfollow =>
  by_cases hnamed : (steps.reverse.dropWhile (· == "")).reverse = steps
  · rw [hnamed] at hlast hfollow
    refine ⟨steps.dropLast, name, parent, (List.dropLast_append_getLast? name hlast).symm, ?_,
      hfollow⟩
    rintro rfl
    have hne : steps ≠ [] := List.ne_nil_of_mem (List.mem_of_getLast? hlast)
    have hend : steps.getLast hne = "" :=
      Option.some.inj ((List.getLast?_eq_some_getLast hne).symm.trans hlast)
    exact List.rdropWhile_eq_self_iff.1 hnamed hne (by rw [hend]; rfl)
  · -- a slash at the end asks for the directory itself
    rw [if_neg hnamed] at h
    split at h
    · next hmove => cases turn_dot (move_eq_noSuchObject_iff.1 hmove).1
    · cases h
    · next next hmove =>
      cases move_eq_ok_iff.1 hmove with
      | stay hturn =>
        rw [if_pos (object?_of_turn hturn)] at h
        cases h
      | up hturn => cases turn_dot hturn
      | down hturn => cases turn_dot hturn
    · next path hmove =>
      cases move_eq_ok_iff.1 hmove with
      | along hturn => cases turn_dot hturn

/-- A step that asks to go down is not empty. -/
theorem ne_empty_of_turn (h : fs.turn place step = .ok .down) : step ≠ "" := by
  rintro rfl
  rw [turn, if_neg (not_not.2 (object?_of_turn h)), if_pos rfl] at h
  cases h

section Concat

variable {front : List String} {name : String} {parent : Arrival}
  (hfollow : fs.follow links place front = .ok parent)

include hfollow

/-- Where a file is written is up to the last step of its path. -/
theorem target_concat (hempty : name ≠ "") : fs.target links place (front ++ [name]) =
    match fs.move parent.names name with
    | .error .noSuchObject => .ok (parent.names ++ [name])
    | .error obstacle => .error obstacle
    | .ok (.reach next) =>
      if fs.object? next = some .directory then .error .isDirectory else .ok next
    | .ok (.along path) =>
      match parent.links with
      | 0 => .error .tooManyLinks
      | fewer + 1 => fs.target fewer (origin parent.names path) (FilePath.steps path) := by
  have hnamed : ((front ++ [name]).reverse.dropWhile (· == "")).reverse = front ++ [name] := by
    simp [hempty]
  rw [target]
  simp only [hnamed, List.getLast?_concat]
  split
  · next obstacle hother =>
    rw [hnamed, List.dropLast_concat, hfollow] at hother
    cases hother
  next arrival hother =>
  rw [hnamed, List.dropLast_concat] at hother
  cases hfollow.symm.trans hother
  rw [if_pos trivial]
  obtain ⟨dir, left⟩ := parent
  congr 1
  funext path
  cases left <;> rfl

/-- A file is written where there is nothing yet, and in place of a file. -/
theorem target_of_isLeaf (hturn : fs.turn parent.names name = .ok .down)
    (hleaf : fs.IsLeaf (parent.names ++ [name])) :
    fs.target links place (front ++ [name]) = .ok (parent.names ++ [name]) := by
  rw [target_concat hfollow (ne_empty_of_turn hturn)]
  cases hobject : fs.object? (parent.names ++ [name]) with
  | none => rw [move_eq_noSuchObject_iff.2 ⟨hturn, hobject⟩]
  | some object =>
    have hlink : ∀ path, object ≠ .link path := fun path heq => hleaf.2 path (heq ▸ hobject)
    rw [move_eq_ok_iff.2 (.down hturn hobject hlink)]
    simp only
    rw [if_neg hleaf.1]

end Concat

/-- A file is written where its path ends, or, at a link, where the path of the link ends. -/
theorem target_cases (h : fs.target links place steps = .ok names) (hway : fs.Way place) :
    ∃ front name parent, steps = front ++ [name] ∧ fs.follow links place front = .ok parent ∧
      fs.Way parent.names ∧ fs.turn parent.names name = .ok .down ∧
      ((names = parent.names ++ [name] ∧ fs.IsLeaf names) ∨
        ∃ path fewer, fs.Moves parent.names name (.along path) ∧ parent.links = fewer + 1 ∧
          fs.target fewer (origin parent.names path) (FilePath.steps path) = .ok names) := by
  obtain ⟨front, name, parent, hsteps, hempty, hfollow⟩ := exists_concat_of_target h
  have hparent : fs.Way parent.names := way_of_follow hfollow hway
  refine ⟨front, name, parent, hsteps, hfollow, hparent, ?_⟩
  rw [hsteps, target_concat hfollow hempty] at h
  -- the last name leads to nothing yet, to an object, or to a link
  split at h
  · next hmove =>
    obtain ⟨hturn, hnone⟩ := move_eq_noSuchObject_iff.1 hmove
    cases h
    exact ⟨hturn, .inl ⟨rfl, by simp [IsLeaf, hnone]⟩⟩
  · cases h
  · next next hmove =>
    split at h
    · cases h
    next hobject =>
    cases h
    cases move_eq_ok_iff.1 hmove with
    | stay hturn => exact absurd (object?_of_turn hturn) hobject
    | up hturn => exact absurd (hparent.object?_dropLast (object?_of_turn hturn)) hobject
    | down hturn hfound hlink =>
      refine ⟨hturn, .inl ⟨rfl, hobject, fun path hpath => ?_⟩⟩
      exact hlink path (Option.some.inj (hfound.symm.trans hpath))
  · next path hmove =>
    split at h
    · cases h
    next fewer hlinks =>
    have hmoves := move_eq_ok_iff.1 hmove
    cases hmoves with
    | along hturn hlink => exact ⟨hturn, .inr ⟨path, fewer, .along hturn hlink, hlinks, h⟩⟩

/-- A file is written where no path leads on from, at the end of a way through directories. -/
theorem isLeaf_of_target (h : fs.target links place steps = .ok names) (hway : fs.Way place) :
    fs.IsLeaf names ∧ fs.Way names := by
  -- on the links that may be followed: the file is written behind the last of them
  induction links using Nat.strong_induction_on generalizing place steps with
  | _ links ih =>
    obtain ⟨front, name, parent, rfl, hfollow, hparent, hturn, hcases⟩ := target_cases h hway
    obtain ⟨rfl, hleaf⟩ | ⟨path, fewer, -, hlinks, htarget⟩ := hcases
    · exact ⟨hleaf, hparent.concat (object?_of_turn hturn) name⟩
    · have hfewer : fewer < links := by
        have hle := links_le_of_follow hfollow
        omega
      exact ih fewer hfewer htarget (hparent.origin path)

/-- Once there is an object where a file is written, the path leads to it. -/
theorem follow_of_target (h : fs.target links place steps = .ok names) (hway : fs.Way place)
    (hsame : SameBut fs fs' names) {object : Object} (hobject : fs'.object? names = some object)
    (hlink : ∀ path, object ≠ .link path) :
    ∃ left, fs'.follow links place steps = .ok ⟨names, left⟩ := by
  obtain ⟨hleaf, -⟩ := isLeaf_of_target h hway
  induction links using Nat.strong_induction_on generalizing place steps with
  | _ links ih =>
    obtain ⟨front, name, parent, rfl, hfollow, hparent, hturn, hcases⟩ := target_cases h hway
    have hdirectory : fs.object? parent.names = some .directory := object?_of_turn hturn
    -- the way up to the last name is the same in both, since it does not lead to the file
    have hne : parent.names ≠ names := fun heq => hleaf.1 (heq ▸ hdirectory)
    rw [follow_append, follow_of_sameBut hsame hleaf hfollow hne, Except.bind]
    obtain ⟨rfl, -⟩ | ⟨path, fewer, hmoves, hlinks, htarget⟩ := hcases
    · have hturn' := (hsame.turn_eq hleaf hdirectory name).trans hturn
      refine ⟨parent.links, ?_⟩
      rw [follow_reach (.down hturn' hobject hlink), follow_nil]
    · have hfewer : fewer < links := by
        have hle := links_le_of_follow hfollow
        omega
      obtain ⟨left, hleft⟩ := ih fewer hfewer htarget (hparent.origin path)
      refine ⟨left, ?_⟩
      rw [hlinks, follow_along (hmoves.sameBut hsame hleaf (by simp)), List.append_nil, hleft]

/-- A file that a path leads to is written by this path. -/
theorem target_of_follow (h : fs.follow links place steps = .ok arrival) (hway : fs.Way place)
    (hplace : fs.object? place = some .directory) (hleaf : fs.IsLeaf arrival.names) :
    fs.target links place steps = .ok arrival.names := by
  induction links using Nat.strong_induction_on generalizing place steps with
  | _ links ih =>
    -- what the last step leads to tells where the file is; a link may be there instead
    obtain rfl | ⟨front, name, rfl⟩ := List.eq_nil_or_concat' steps
    · rw [follow_nil] at h
      cases h
      exact absurd hplace hleaf.1
    rw [follow_append] at h
    cases hfollow : fs.follow links place front with
    | error obstacle => rw [hfollow] at h; cases h
    | ok parent =>
      rw [hfollow, Except.bind] at h
      have hparent := way_of_follow hfollow hway
      cases hmove : fs.move parent.names name with
      | error obstacle => rw [follow_of_error hmove] at h; cases h
      | ok m =>
        have hmoves := move_eq_ok_iff.1 hmove
        cases m with
        | reach next =>
          rw [follow_reach hmoves, follow_nil] at h
          cases h
          cases hmoves with
          | stay hturn => exact absurd (object?_of_turn hturn) hleaf.1
          | up hturn => exact absurd (hparent.object?_dropLast (object?_of_turn hturn)) hleaf.1
          | down hturn => exact target_of_isLeaf hfollow hturn hleaf
        | along path =>
          obtain ⟨dir, left⟩ := parent
          cases left with
          | zero => rw [follow_of_stuck hmove] at h; cases h
          | succ fewer =>
            rw [follow_along hmoves, List.append_nil] at h
            cases hmoves with
            | along hturn _ =>
              rw [target_concat hfollow (ne_empty_of_turn hturn), hmove]
              have hfewer : fewer < links := links_le_of_follow hfollow
              exact ih fewer hfewer h (hparent.origin path)
                (object?_origin (object?_of_turn hturn) path)

/-! ### A new file -/

/-- A file put under some names is the object there, and the other objects stay. -/
theorem lookup_put (fs : FileSystem) (names : List String) (octets : List UInt8)
    (other : List String) :
    (fs.put names octets).objects.lookup other =
      if other = names then some (.file octets) else fs.objects.lookup other := by
  by_cases hother : other = names
  · simp [put, hother]
  · have hbeq : (other == names) = false := beq_false_of_ne hother
    have hkept : ∀ entries : List (List String × Object),
        (entries.filter (·.1 != names)).lookup other = entries.lookup other := by
      intro entries
      induction entries with
      | nil => rfl
      | cons entry entries ih =>
        obtain ⟨key, old⟩ := entry
        by_cases hkey : key = names
        · simp [hkey, List.lookup_cons, hbeq, ih]
        · simp [hkey, List.lookup_cons, ih]
    simp [put, List.lookup_cons, hbeq, hother, hkept]

/-- A leaf is not on the way to the working directory. -/
theorem IsLeaf.not_prefix (h : fs.IsLeaf names) : ¬names <+: fs.workingDirectory :=
  fun hprefix => h.1 (if_pos hprefix)

/-- Behind names that no path leads on from, the object found is the file put there. -/
theorem object?_put_self (h : fs.IsLeaf names) (octets : List UInt8) :
    (fs.put names octets).object? names = some (.file octets) := by
  have hprefix : ¬names <+: (fs.put names octets).workingDirectory := h.not_prefix
  rw [object?, if_neg hprefix, lookup_put, if_pos rfl]

/-- A new file is all that is new, if the way to it leads through directories. -/
theorem sameBut_put (hleaf : fs.IsLeaf names) (hway : fs.Way names) (octets : List UInt8) :
    SameBut fs (fs.put names octets) names := by
  refine ⟨rfl, rfl, fun other hne => ?_⟩
  have hworking : (fs.put names octets).workingDirectory = fs.workingDirectory := rfl
  rw [object?, object?, lookup_put, if_neg hne, hworking]
  by_cases hprefix : other <+: fs.workingDirectory
  · rw [if_pos hprefix, if_pos hprefix]
  rw [if_neg hprefix, if_neg hprefix]
  cases hlookup : fs.objects.lookup other with
  | some found => rfl
  | none =>
    by_cases hother : other <+: names
    · -- a directory on the way to the file has the file below it now
      have hold := hway other hother hne
      rw [object?, if_neg hprefix, hlookup] at hold
      simp only at hold ⊢
      rw [hold]
      simp [put, hother]
    · have hbelow : (fs.put names octets).objects.any (fun entry => other.isPrefixOf entry.1) =
          fs.objects.any (fun entry => other.isPrefixOf entry.1) := by
        rw [Bool.eq_iff_iff]
        simp only [put, List.any_cons, List.any_filter, List.any_eq_true, Bool.or_eq_true,
          Bool.and_eq_true, List.isPrefixOf_iff_prefix, bne_iff_ne, hother, false_or]
        refine exists_congr fun entry => and_congr_right fun _ => and_iff_right_of_imp ?_
        rintro hentry rfl
        exact hother hentry
      simp only [hbelow]

/-! ### Writing -/

/-- A file takes either all octets or only the first of them. -/
theorem take_cases (limits : Limits) (octets : List UInt8) :
    limits.take octets = (.ok (), octets) ∨
      ∃ n obstacle, n < octets.length ∧ limits.take octets = (.error obstacle, octets.take n) := by
  rw [Limits.take]
  split
  · exact .inl rfl
  · next room cause _ =>
    by_cases hroom : octets.length ≤ room
    · rw [if_pos hroom]
      exact .inl rfl
    · rw [if_neg hroom]
      exact .inr ⟨room, _, Nat.lt_of_not_le hroom, rfl⟩

/-- What may come of opening the object under some names and writing to it: nothing at all, octets
that are swallowed, a file with all of them, or a file with the first of them. -/
inductive Fills (fs : FileSystem) (names : List String) (octets : List UInt8) :
    Except Obstacle Unit × FileSystem → Prop where
  | refused (obstacle : Obstacle) : Fills fs names octets (.error obstacle, fs)
  | swallowed (hobject : fs.object? names = some (.special true)) :
      Fills fs names octets (.ok (), fs)
  | whole : Fills fs names octets (.ok (), fs.put names octets)
  | cut (obstacle : Obstacle) {n : Nat} (hn : n < octets.length) :
      Fills fs names octets (.error obstacle, fs.put names (octets.take n))

/-- These are all the outcomes of opening an object and writing to it. -/
theorem fills_fill (fs : FileSystem) (names : List String) (octets : List UInt8) :
    fs.Fills names octets (fs.fill names octets) := by
  rw [fill]
  split
  · exact .refused _
  obtain htake | ⟨n, obstacle, hn, htake⟩ := take_cases (fs.limitsOf names) octets
  · rw [htake]
    split
    · exact .refused _
    · next hobject => exact .swallowed hobject
    · exact .whole
  · rw [htake]
    split
    · exact .refused _
    · exact .refused _
    · exact .cut obstacle hn

/-- What is written to a file that has no limits is written. -/
theorem fill_eq (hlimits : fs.limitsOf names = {})
    (hobject : ∀ swallows, fs.object? names ≠ some (.special swallows)) (octets : List UInt8) :
    fs.fill names octets = (.ok (), fs.put names octets) := by
  rw [fill, hlimits]
  simp only
  split
  · next hspecial => exact absurd hspecial (hobject false)
  · next hspecial => exact absurd hspecial (hobject true)
  · rfl

/-- The object under the names where a file is written is the one that its path leads to. -/
theorem resolve_of_targetOf {path : String} (h : fs.targetOf path = .ok names)
    (hsame : SameBut fs fs' names) {object : Object} (hobject : fs'.object? names = some object)
    (hlink : ∀ path, object ≠ .link path) : fs'.resolve path = .ok names := by
  rw [targetOf] at h
  rw [resolve]
  split at h
  · cases h
  · obtain ⟨left, hleft⟩ :=
      follow_of_target h (way_workingDirectory.origin path) hsame hobject hlink
    rw [hsame.workingDirectory, hleft]
    rfl

/-- Where a path is to be written, no path leads on, and directories lead there. -/
theorem isLeaf_of_targetOf {path : String} (h : fs.targetOf path = .ok names) :
    fs.IsLeaf names ∧ fs.Way names := by
  rw [targetOf] at h
  split at h
  · cases h
  · exact isLeaf_of_target h (way_workingDirectory.origin path)

/-- A file that a path leads to is written by this path. -/
theorem targetOf_of_resolve {path : String} (h : fs.resolve path = .ok names)
    (hleaf : fs.IsLeaf names) : fs.targetOf path = .ok names := by
  rw [resolve] at h
  rw [targetOf]
  split at h
  · cases h
  · next hpath =>
    cases hfollow :
        fs.follow maxLinks (origin fs.workingDirectory path) (FilePath.steps path) with
    | error obstacle => rw [hfollow] at h; cases h
    | ok arrival =>
      rw [hfollow] at h
      cases h
      exact target_of_follow hfollow (way_workingDirectory.origin path)
        (object?_origin object?_workingDirectory path) hleaf

/-- What a file is in a file system that a file was written in: the path leads to just these octets,
and nothing is new but what the path leads to. -/
structure Holds (fs after : FileSystem) (path : String) (octets : List UInt8) : Prop where
  file : after.objectAt? path = some (.file octets)
  only : ∀ names, after.object? names ≠ fs.object? names → after.resolve path = .ok names

/-- What may come of writing a file: the path leads to all octets, or to an object that swallows
them; or writing fails, and there is what there was before, or a file with the first octets only. -/
inductive Writes (fs : FileSystem) (path : String) (octets : List UInt8) :
    Except Obstacle Unit × FileSystem → Prop where
  | whole {after : FileSystem} (h : Holds fs after path octets) :
      Writes fs path octets (.ok (), after)
  | swallowed (h : fs.objectAt? path = some (.special true)) : Writes fs path octets (.ok (), fs)
  | refused (obstacle : Obstacle) : Writes fs path octets (.error obstacle, fs)
  | cut (obstacle : Obstacle) {after : FileSystem} {n : Nat} (hn : n < octets.length)
      (h : Holds fs after path (octets.take n)) : Writes fs path octets (.error obstacle, after)

/-- A file that was made under the names that a path leads to is what it leads to then, and is all
that is new. -/
theorem holds_put {path : String} (h : fs.targetOf path = .ok names) (octets : List UInt8) :
    Holds fs (fs.put names octets) path octets := by
  obtain ⟨hleaf, hway⟩ := isLeaf_of_targetOf h
  have hsame := sameBut_put hleaf hway octets
  have hself := object?_put_self hleaf octets
  have hresolve := resolve_of_targetOf h hsame hself (by simp)
  refine ⟨?_, fun other hne => ?_⟩
  · rw [objectAt?, hresolve]
    exact hself
  · by_cases heq : other = names
    · rw [hresolve, heq]
    · exact absurd (hsame.object other heq) hne

/-- These are all the outcomes of writing a file. -/
theorem writes_write (fs : FileSystem) (path : String) (octets : List UInt8) :
    fs.Writes path octets (fs.write path octets) := by
  rw [write]
  split
  · exact .refused _
  next names htarget =>
  cases hfill : fs.fill names octets with
  | mk answer after =>
    cases hfill ▸ fs.fills_fill names octets with
    | refused obstacle => exact .refused obstacle
    | swallowed hobject =>
      have hresolve := resolve_of_targetOf htarget (SameBut.refl fs names) hobject (by simp)
      refine .swallowed ?_
      rw [objectAt?, hresolve]
      exact hobject
    | whole => exact .whole (holds_put htarget octets)
    | cut obstacle hn => exact .cut obstacle hn (holds_put htarget _)

/-- What was written in full is found, unless something has swallowed it. -/
theorem Writes.objectAt? {path : String} {written : Except Obstacle Unit × FileSystem}
    (h : fs.Writes path octets written) (hok : written.1 = .ok ())
    (hkept : fs.objectAt? path ≠ some (.special true)) :
    written.2.objectAt? path = some (.file octets) := by
  cases h with
  | whole h => exact h.file
  | swallowed h => exact absurd h hkept
  | refused => cases hok
  | cut => cases hok

/-- A file that a path leads to is overwritten, unless it has limits. -/
theorem write_eq {path : String} (h : fs.resolve path = .ok names)
    {old : List UInt8} (hfile : fs.object? names = some (.file old))
    (hlimits : fs.limitsOf names = {}) (octets : List UInt8) :
    fs.write path octets = (.ok (), fs.put names octets) := by
  have hleaf : fs.IsLeaf names := by simp [IsLeaf, hfile]
  rw [write, targetOf_of_resolve h hleaf]
  exact fill_eq hlimits (by simp [hfile]) octets

end TypeCatalog.FileSystem
