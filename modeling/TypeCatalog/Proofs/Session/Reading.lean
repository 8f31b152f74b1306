import TypeCatalog.Proofs.Session.Batch

/-!
# Files as streams

What a file declares depends neither on a session nor on a policy: the file is read first, and what
it declares is then taken into a session as a stream. So whether a batch of files succeeds, and what
it comes to, can be told from what each of its files holds.

## Main definitions

- `Intake.read`, `Intake.stream` — what a file declares
- `Catalogs.AdmitsFiles` — that nothing ends a batch of files

## Main statements

- `Intake.ofFile_answer` — reading and collecting
- `Session.addFile_of_read_ok` — a file is taken into a session as a stream
- `Session.addFiles_of_admits`, `Session.addFiles_of_not_admits` — what a batch comes to
-/

namespace TypeCatalog

open Text

namespace Intake

variable {env : Environment} {policy : Policy} {path : String} {failure : Failure}

/-- The declarations of what a file holds, or why they cannot be read. -/
def read (env : Environment) (path : String) : Except Failure (List Declaration) :=
  (check env path).bind fun language =>
    match env.find path with
    | .regular octets =>
      match Utf8.decode octets with
      | .error fault =>
        .error (.unparsable path ("source is not valid UTF-8: " ++ fault.message))
      | .ok text => .ok ((Source.ofText path language text).declarations (env.parse text))
    | .unreadable _ => .error (.invalidInput path .unreadable)
    | .missing => .error (.invalidInput path .notFound)
    | .notRegular => .error (.invalidInput path .notAFile)

/-- The declarations of what a file holds; none if they cannot be read. -/
def stream (env : Environment) (path : String) : List Declaration :=
  match read env path with
  | .ok declarations => declarations
  | .error _ => []

/-- Why a file is skipped, if it is. -/
def defect? (env : Environment) (path : String) : Option Defect :=
  match read env path with
  | .ok _ => none
  | .error failure => failure.defect?

/-- A file that can be read or is skipped. -/
def Legible (env : Environment) (path : String) : Prop :=
  ∀ failure, read env path = .error failure → ∃ defect, failure.defect? = some defect

/-- A file is read, and what it declares is collected. -/
theorem ofFile_answer (env : Environment) (policy : Policy) (path : String) :
    (ofFile env policy path).answer =
      (read env path).bind fun declarations =>
        (Catalogs.ofDeclarations policy path declarations).answer := by
  rw [ofFile, read]
  cases check env path with
  | error failure => rfl
  | ok language =>
    simp only [Except.bind]
    cases env.find path with
    | regular octets =>
      simp only [ofOctets]
      cases Utf8.decode octets with
      | error fault => rfl
      | ok text => exact ofText_answer ..
    | _ => rfl

end Intake

namespace Session

variable {env : Environment} {path : String} {paths : List String} {s : Session}
  {failure : Failure} {defect : Defect} {declarations : List Declaration}

/-! ### One file -/

/-- A file that can be read is taken into a session as the stream of what it declares. -/
theorem addFile_of_read_ok (h : Intake.read env path = .ok declarations) (s : Session) :
    Agree (s.addFile env path) (s.addStream ⟨path, declarations⟩) := by
  have hstaged : (Intake.ofFile env s.policy path).answer =
      (Catalogs.ofDeclarations s.policy path declarations).answer := by
    rw [Intake.ofFile_answer, h]
    rfl
  simp only [addFile, addStream, receiveReport, hstaged]
  exact ⟨rfl, rfl⟩

/-- A file that cannot be read is received as its failure. -/
theorem addFile_of_read_error (h : Intake.read env path = .error failure) (s : Session) :
    Agree (s.addFile env path) (s.receive path (.error failure)) := by
  have hstaged : (Intake.ofFile env s.policy path).answer = .error failure := by
    rw [Intake.ofFile_answer, h]
    rfl
  simp only [addFile, receiveReport, hstaged]
  exact ⟨rfl, rfl⟩

/-- The session after a file in which nothing is refused, or which is skipped. -/
theorem addFile_of_admits (hlegible : Intake.Legible env path)
    (h : s.catalogs.Admits s.policy (Intake.stream env path)) :
    (s.addFile env path).1 =
        { s with
          catalogs := s.catalogs.gather s.policy (Intake.stream env path)
          skipped := s.skipped ++ (Intake.defect? env path).toList.map (⟨path, ·⟩) } ∧
      ∃ outcome, (s.addFile env path).2.answer = .ok outcome := by
  rw [Intake.stream] at h
  rw [Intake.stream, Intake.defect?]
  cases hread : Intake.read env path with
  | ok declarations =>
    rw [hread] at h
    obtain ⟨hsession, hanswer⟩ := addFile_of_read_ok hread s
    obtain ⟨classes, enums, hnext, hmerged⟩ := @addStream_of_admits s ⟨path, declarations⟩ h
    rw [hsession, hanswer, hnext]
    exact ⟨by simp, _, hmerged⟩
  | error failure =>
    obtain ⟨defect, hdefect⟩ := hlegible failure hread
    obtain ⟨hsession, hanswer⟩ := addFile_of_read_error hread s
    rw [hsession, hanswer]
    simp only [receive, hdefect]
    exact ⟨rfl, _, rfl⟩

/-- A file that is not legible, or whose declarations are refused, fails. -/
theorem addFile_of_not_admits
    (h : ¬ (Intake.Legible env path ∧ s.catalogs.Admits s.policy (Intake.stream env path))) :
    ∃ failure, (s.addFile env path).2.answer = .error failure := by
  rw [Intake.stream] at h
  cases hread : Intake.read env path with
  | ok declarations =>
    rw [hread] at h
    have hlegible : Intake.Legible env path := fun failure heq => by
      rw [hread] at heq
      cases heq
    rw [(addFile_of_read_ok hread s).answer]
    exact addStream_of_not_admits fun hadmits => h ⟨hlegible, hadmits⟩
  | error failure =>
    rw [hread] at h
    rw [(addFile_of_read_error hread s).answer]
    cases hdefect : failure.defect? with
    | some defect =>
      refine absurd ⟨fun other hother => ?_, Catalogs.admits_nil⟩ h
      rw [hread] at hother
      cases hother
      exact ⟨defect, hdefect⟩
    | none =>
      simp only [receive, hdefect]
      exact ⟨failure, rfl⟩

end Session

/-! ### Batches -/

/-- Nothing ends a batch of files: each of them can be read or is skipped, and nothing that they
declare one after the other is refused. -/
structure Catalogs.AdmitsFiles (env : Environment) (policy : Policy) (c : Catalogs)
    (paths : List String) : Prop where
  legible : ∀ path ∈ paths, Intake.Legible env path
  admitted : c.Admits policy (paths.flatMap (Intake.stream env))

/-- A batch is admitted if its first file is, and then the rest. -/
theorem Catalogs.admitsFiles_cons {env : Environment} {policy : Policy} {c : Catalogs}
    {path : String} {paths : List String} :
    c.AdmitsFiles env policy (path :: paths) ↔
      (Intake.Legible env path ∧ c.Admits policy (Intake.stream env path)) ∧
        (c.gather policy (Intake.stream env path)).AdmitsFiles env policy paths := by
  constructor
  · rintro ⟨hlegible, hadmitted⟩
    obtain ⟨hfirst, hrest⟩ := List.forall_mem_cons.1 hlegible
    rw [List.flatMap_cons, admits_append] at hadmitted
    exact ⟨⟨hfirst, hadmitted.1⟩, hrest, hadmitted.2⟩
  · rintro ⟨⟨hfirst, hadmitted⟩, hrest, hlater⟩
    refine ⟨List.forall_mem_cons.2 ⟨hfirst, hrest⟩, ?_⟩
    rw [List.flatMap_cons, admits_append]
    exact ⟨hadmitted, hlater⟩

namespace Session

variable {env : Environment} {paths : List String} {s : Session}

/-- The files of a batch that are skipped. -/
def skips (env : Environment) (paths : List String) : List Skip :=
  paths.flatMap fun path => (Intake.defect? env path).toList.map (⟨path, ·⟩)

/-- A batch that is admitted gathers what its files declare, and skips what cannot be read. -/
theorem addFiles_of_admits (h : s.catalogs.AdmitsFiles env s.policy paths) :
    (s.addFiles env paths).1 =
        { s with
          catalogs := s.catalogs.gather s.policy (paths.flatMap (Intake.stream env))
          skipped := s.skipped ++ skips env paths } ∧
      ∃ summary, (s.addFiles env paths).2.answer = .ok summary := by
  induction paths generalizing s with
  | nil =>
    rw [skips, List.flatMap_nil, List.flatMap_nil, List.append_nil]
    exact ⟨rfl, _, rfl⟩
  | cons path rest ih =>
    obtain ⟨⟨hlegible, hfirst⟩, hrest⟩ := Catalogs.admitsFiles_cons.1 h
    obtain ⟨hnext, outcome, hanswer⟩ := addFile_of_admits hlegible hfirst
    obtain ⟨hlast, summary, hsummary⟩ := @ih (s.addFile env path).1 (by rw [hnext]; exact hrest)
    rw [addFiles, runAll_cons_of_ok hanswer, ← addFiles]
    refine ⟨?_, ?_⟩
    · rw [hlast, hnext]
      simp only [skips, List.flatMap_cons, Catalogs.gather_append, List.append_assoc]
    · rw [Report.answer_after, Report.answer_map, hsummary]
      exact ⟨_, rfl⟩

/-- A batch that is not admitted fails. -/
theorem addFiles_of_not_admits (h : ¬ s.catalogs.AdmitsFiles env s.policy paths) :
    ∃ failure, (s.addFiles env paths).2.answer = .error failure := by
  induction paths generalizing s with
  | nil => exact absurd ⟨fun _ hpath => (nomatch hpath), Catalogs.admits_nil⟩ h
  | cons path rest ih =>
    by_cases hfirst :
        Intake.Legible env path ∧ s.catalogs.Admits s.policy (Intake.stream env path)
    · obtain ⟨hnext, outcome, hanswer⟩ := addFile_of_admits hfirst.1 hfirst.2
      obtain ⟨failure, hfailure⟩ := @ih (s.addFile env path).1 (by
        rw [hnext]
        exact fun hrest => h (Catalogs.admitsFiles_cons.2 ⟨hfirst, hrest⟩))
      rw [addFiles, runAll_cons_of_ok hanswer, ← addFiles, Report.answer_after,
        Report.answer_map, hfailure]
      exact ⟨failure, rfl⟩
    · obtain ⟨failure, hfailure⟩ := addFile_of_not_admits hfirst
      rw [addFiles, runAll_cons_of_error hfailure]
      exact ⟨failure, rfl⟩

/-- A batch succeeds if and only if nothing ends it. -/
theorem addFiles_answer_iff :
    (∃ summary, (s.addFiles env paths).2.answer = .ok summary) ↔
      s.catalogs.AdmitsFiles env s.policy paths := by
  constructor
  · rintro ⟨summary, hsummary⟩
    by_contra h
    obtain ⟨failure, hfailure⟩ := addFiles_of_not_admits h
    rw [hsummary] at hfailure
    cases hfailure
  · exact fun h => (addFiles_of_admits h).2

end Session

end TypeCatalog
