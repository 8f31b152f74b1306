import TypeCatalog.Proofs.CommandLine.Flag
import TypeCatalog.Proofs.FileSystem.Writing
import TypeCatalog.Proofs.Session.Together

/-!
# Running the program

A run either writes the catalogs of all of its inputs or, where an input fails, nothing. Whether the
inputs are extracted together makes no difference to what is written and noted.

## Main definitions

- `Session.Fails` — that a batch gets to an input that fails

## Main statements

- `Session.addFiles_answer_eq_error_iff` — a batch fails if and only if it gets to such an input
- `CommandLine.Plan.Alike.carryOut` — plans that are alike are carried out alike
- `CommandLine.run_all_or_nothing` — what a run writes, and where
-/

namespace TypeCatalog

namespace Session

variable {env : Environment} {paths : List String} {s : Session} {failure : Failure}

/-- The files before some path are taken into the session, and the one under the path fails. -/
def Fails (env : Environment) (paths : List String) (s : Session) (failure : Failure) : Prop :=
  ∃ before path rest summary, paths = before ++ path :: rest ∧
    (s.addFiles env before).2.answer = .ok summary ∧
    ((s.addFiles env before).1.addFile env path).2.answer = .error failure

/-- A batch ends in a failure if and only if it gets to a file that fails. -/
theorem addFiles_answer_eq_error_iff :
    (s.addFiles env paths).2.answer = .error failure ↔ s.Fails env paths failure :=
  runAll_answer_eq_error_iff

end Session

namespace CommandLine

/-- What an invocation extracts, wherever the files are parsed. -/
theorem Invocation.extract_agree (env : Environment) (invocation : Invocation) :
    Session.Agree (invocation.extract env)
      (({ policy := invocation.policy } : Session).addFiles env invocation.inputs) := by
  rw [extract]
  split
  · exact (Session.addFiles_agree env invocation.inputs _).symm
  · exact ⟨rfl, rfl⟩

namespace Plan

variable {p q : Plan} {fs : FileSystem} {path text : String}

theorem carryOut_of_none (h : p.output = none) : p.carryOut fs = (p.response, fs) := by
  rw [carryOut, h]

/-- A plan with a file writes the file, and answers what came of it. -/
theorem carryOut_of_some (h : p.output = some (path, text)) :
    p.carryOut fs = (p.response.afterWriting path (fs.write path (Text.Utf8.encode text)).1,
      (fs.write path (Text.Utf8.encode text)).2) := by
  simp only [carryOut, h]

/-- What is noted of writing a file does not depend on what was logged. -/
theorem afterWriting_log (response : Response) (path : String)
    (answer : Except FileSystem.Obstacle Unit) :
    { response.afterWriting path answer with log := [] } =
      ({ response with log := [] } : Response).afterWriting path answer := by
  cases answer <;> rfl

/-- Plans that are alike are carried out alike. -/
theorem Alike.carryOut (h : p.Alike q) (fs : FileSystem) :
    (p.carryOut fs).2 = (q.carryOut fs).2 ∧
      { (p.carryOut fs).1 with log := [] } = { (q.carryOut fs).1 with log := [] } := by
  obtain ⟨houtput, hresponse⟩ := h
  cases hq : q.output with
  | none =>
    rw [carryOut_of_none hq, carryOut_of_none (houtput.trans hq)]
    exact ⟨rfl, hresponse⟩
  | some file =>
    obtain ⟨path, text⟩ := file
    rw [carryOut_of_some hq, carryOut_of_some (houtput.trans hq), afterWriting_log,
      afterWriting_log, hresponse]
    exact ⟨rfl, rfl⟩

end Plan

/-- Parsing the inputs together or not leads to plans that are alike. -/
theorem Invocation.plan_toggle (env : Environment) (invocation : Invocation) :
    ({ invocation with parallel := !invocation.parallel }.plan env).Alike
      (invocation.plan env) := by
  obtain ⟨inputs, policy, parallel, output, pretty⟩ := invocation
  have halike := Session.plan_alike env ⟨inputs, policy, true, output, pretty⟩
  cases parallel with
  | false => exact halike
  | true => exact ⟨halike.output.symm, halike.response.symm⟩

variable {parse : Parser} {fs : FileSystem} {arguments : List String} {invocation : Invocation}

/-- A run carries out what its invocation leads to. -/
theorem run_of_extract (h : read arguments = .ok (.extract invocation)) :
    run parse fs arguments = (invocation.plan ⟨fs.find, parse⟩).carryOut fs := by
  rw [run, plan, h]

/-- A run in which an input fails writes nothing. -/
theorem run_of_error (h : read arguments = .ok (.extract invocation)) {failure : Failure}
    (hfail : (invocation.extract ⟨fs.find, parse⟩).2.answer = .error failure) :
    (run parse fs arguments).1.code = 1 ∧ (run parse fs arguments).1.stdout = "" ∧
      (run parse fs arguments).2 = fs := by
  simp [run_of_extract h, Invocation.plan, hfail, Plan.carryOut]

/-- Where a document goes: to the output of the answer, or to a file. -/
theorem run_of_ok (h : read arguments = .ok (.extract invocation)) {summary : Summary}
    (hok : (invocation.extract ⟨fs.find, parse⟩).2.answer = .ok summary) :
    let document := invocation.document (invocation.extract ⟨fs.find, parse⟩).1.catalogs
    let result := run parse fs arguments
    (∀ note ∈ summaryNotes summary, note ∈ result.1.stderr) ∧
      (invocation.output = none →
        result.1.code = 0 ∧ result.1.stdout = document ∧ result.2 = fs) ∧
      ∀ path, invocation.output = some path →
        let written := fs.write path (Text.Utf8.encode document)
        result.1.stdout = "" ∧ result.2 = written.2 ∧
          (written.1 = .ok () → result.1.code = 0) ∧
          ∀ obstacle, written.1 = .error obstacle → result.1.code = 1 := by
  intro document result
  have hresult : result = (invocation.plan ⟨fs.find, parse⟩).carryOut fs := run_of_extract h
  rw [hresult]
  -- without an output the document is printed, otherwise a file is written with it
  cases houtput : invocation.output with
  | none =>
    have hplan : invocation.plan ⟨fs.find, parse⟩ = ⟨⟨0, document,
        (invocation.extract ⟨fs.find, parse⟩).2.events, summaryNotes summary⟩, none⟩ := by
      simp [Invocation.plan, hok, houtput, document]
    rw [hplan, Plan.carryOut_of_none rfl]
    refine ⟨fun note hnote => List.mem_append_right _ hnote, fun _ => ⟨rfl, rfl, rfl⟩, ?_⟩
    intro path hpath
    cases hpath
  | some path =>
    have hplan : invocation.plan ⟨fs.find, parse⟩ = ⟨⟨0, "",
        (invocation.extract ⟨fs.find, parse⟩).2.events, summaryNotes summary⟩,
          some (path, document)⟩ := by
      simp [Invocation.plan, hok, houtput, document]
    rw [hplan, Plan.carryOut_of_some rfl]
    -- where writing fails, the cause is noted behind the summary
    cases hanswer : (fs.write path (Text.Utf8.encode document)).1 with
    | ok _ =>
      refine ⟨fun note hnote => List.mem_append_right _ hnote,
        fun hnone => absurd hnone (Option.some_ne_none path), ?_⟩
      rintro _ ⟨⟩
      refine ⟨rfl, rfl, fun _ => rfl, fun obstacle hobstacle => ?_⟩
      cases hanswer.symm.trans hobstacle
    | error obstacle =>
      refine ⟨fun note hnote => ?_, fun hnone => absurd hnone (Option.some_ne_none path), ?_⟩
      · exact List.mem_append_right _ (List.mem_append_left _ hnote)
      · rintro _ ⟨⟩
        refine ⟨rfl, rfl, fun hok => ?_, fun _ _ => rfl⟩
        cases hanswer.symm.trans hok

/-- An extraction is all or nothing: if an input fails, nothing is written anywhere, and otherwise
every input is accounted for and the document of the merged catalogs goes where it is asked for. It
does not matter whether the inputs are parsed together. -/
theorem run_all_or_nothing (parse : Parser) (fs : FileSystem)
    (h : read arguments = .ok (.extract invocation)) :
    let env : Environment := ⟨fs.find, parse⟩
    let start : Session := { policy := invocation.policy }
    let result := run parse fs arguments
    (∀ failure, start.Fails env invocation.inputs failure →
      result.1.code = 1 ∧ result.1.stdout = "" ∧ result.2 = fs) ∧
    ((∀ failure, ¬start.Fails env invocation.inputs failure) →
      ∃ summary, (start.addFiles env invocation.inputs).2.answer = .ok summary ∧
        summary.processed.length + summary.skipped.length = invocation.inputs.length ∧
        s!"extracted {summary.processed.length} input(s), skipped {summary.skipped.length}" ∈
          result.1.stderr ∧
        let catalogs := (start.addFiles env invocation.inputs).1.catalogs
        let document :=
          (if invocation.pretty then catalogs.toJson.pretty else catalogs.toJson.compact) ++ "\n"
        (invocation.output = none →
          result.1.code = 0 ∧ result.1.stdout = document ∧ result.2 = fs) ∧
        ∀ path, invocation.output = some path →
          let octets := Text.Utf8.encode document
          let written := fs.write path octets
          result.1.stdout = "" ∧ result.2 = written.2 ∧ fs.Writes path octets written ∧
            (written.1 = .ok () → result.1.code = 0) ∧
            ∀ obstacle, written.1 = .error obstacle → result.1.code = 1) ∧
    (∀ other, read other = .ok (.extract { invocation with parallel := !invocation.parallel }) →
      (run parse fs other).1.code = result.1.code ∧
      (run parse fs other).1.stdout = result.1.stdout ∧
      (run parse fs other).1.notes = result.1.notes ∧ (run parse fs other).2 = result.2) ∧
    (invocation.parallel = false →
      read ("--parallel" :: arguments) = .ok (.extract { invocation with parallel := true })) := by
  intro env start result
  obtain ⟨hsession, hanswer⟩ := invocation.extract_agree env
  refine ⟨?_, ?_, ?_, read_parallel_cons h⟩
  · intro failure hfails
    exact run_of_error h (hanswer.trans (Session.addFiles_answer_eq_error_iff.2 hfails))
  · intro hfails
    -- a failure of the batch would be that of a file it gets to
    cases hfiles : (start.addFiles env invocation.inputs).2.answer with
    | error failure =>
      exact absurd (Session.addFiles_answer_eq_error_iff.1 hfiles) (hfails failure)
    | ok summary =>
      obtain ⟨hnotes, hstdout, hfile⟩ := run_of_ok h (hanswer.trans hfiles)
      rw [hsession] at hstdout hfile
      refine ⟨summary, rfl, Session.runAll_length hfiles, ?_, hstdout, ?_⟩
      · exact hnotes _ (List.mem_append_right _ (List.mem_singleton_self _))
      · intro path hpath
        obtain ⟨hempty, hleft, hcode⟩ := hfile path hpath
        exact ⟨hempty, hleft, fs.writes_write path _, hcode⟩
  · intro other hother
    -- parsing together changes what is logged, and nothing else
    obtain ⟨hwritten, hresponse⟩ := (invocation.plan_toggle env).carryOut fs
    have hother : run parse fs other = _ := run_of_extract hother
    have hresult : result = _ := run_of_extract h
    rw [hother, hresult]
    have hcode := congrArg Response.code hresponse
    have hstdout := congrArg Response.stdout hresponse
    have hnotes := congrArg Response.notes hresponse
    exact ⟨hcode, hstdout, hnotes, hwritten⟩

/-- A class in the home directory and in another one, notes beside the first, and a link to the home
directory in the root. -/
def homeFiles : FileSystem where
  objects :=
    [(["home", "A.cs"], .file (Text.Utf8.encode "class A {}")),
      (["home", "notes.txt"], .file (Text.Utf8.encode "notes")),
      (["srv", "A.cs"], .file (Text.Utf8.encode "class A {}")),
      (["link"], .link "home")]
  workingDirectory := ["home"]

/-- A parser that makes the tree of `class A {}` of every text. -/
def classParser : Parser := fun _ =>
  .node { kind := "compilation_unit", start := 0, stop := 10 }
    [.node { kind := "class_declaration", start := 0, stop := 10 }
      [.node { kind := "identifier", start := 6, stop := 7, field := some "name" } [],
        .node { kind := "declaration_list", start := 8, stop := 10, field := some "body" } []]]

/-- An input is merged and another one skipped, and the document takes the place of the latter.
Where a class is declared again in a file elsewhere, nothing is written. -/
theorem run_all_or_nothing_home :
    let arguments := ["A.cs", "../home/notes.txt", "-o", "/link/notes.txt"]
    let merged := run classParser homeFiles arguments
    let failed := run classParser homeFiles ["A.cs", "/srv/A.cs", "-o", "out.json"]
    let catalogs : Catalogs := { classes := ⟨[("A", { name := "A" })]⟩ }
    (merged.1.code = 0 ∧ merged.1.stdout = "" ∧
        "extracted 1 input(s), skipped 1" ∈ merged.1.stderr ∧
        merged.2.objectAt? "/link/notes.txt" =
          some (.file (Text.Utf8.encode (catalogs.toJson.compact ++ "\n"))) ∧
        (run classParser homeFiles ("--parallel" :: arguments)).2 = merged.2) ∧
      failed.1.code = 1 ∧ failed.1.stdout = "" ∧ failed.2 = homeFiles := by
  intro arguments merged failed catalogs
  let env : Environment := ⟨homeFiles.find, classParser⟩
  let octets := Text.Utf8.encode (catalogs.toJson.compact ++ "\n")
  have hread : read arguments = .ok (.extract
      { inputs := ["A.cs", "../home/notes.txt"], output := some "/link/notes.txt" }) := by
    decide +kernel
  have hreadFailed : read ["A.cs", "/srv/A.cs", "-o", "out.json"] = .ok (.extract
      { inputs := ["A.cs", "/srv/A.cs"], output := some "out.json" }) := by
    decide +kernel
  -- the run that merges an input
  have hanswer : (({} : Session).addFiles env ["A.cs", "../home/notes.txt"]).2.answer =
      .ok { processed := ["A.cs"], skipped := [⟨"../home/notes.txt", .wrongExtension⟩] } := by
    decide +kernel
  have hcatalogs : (({} : Session).addFiles env ["A.cs", "../home/notes.txt"]).1.catalogs =
      catalogs := by
    decide +kernel
  have hfine : ∀ failure,
      ¬({} : Session).Fails env ["A.cs", "../home/notes.txt"] failure := by
    intro failure hfails
    cases hanswer.symm.trans (Session.addFiles_answer_eq_error_iff.2 hfails)
  have hwrite : homeFiles.write "/link/notes.txt" octets =
      (.ok (), homeFiles.put ["home", "notes.txt"] octets) :=
    FileSystem.write_eq (by decide +kernel)
      (show homeFiles.object? ["home", "notes.txt"] = some (.file (Text.Utf8.encode "notes")) by
        decide +kernel) rfl octets
  obtain ⟨-, hwrites, htoggle, hflag⟩ := run_all_or_nothing classParser homeFiles hread
  obtain ⟨summary, hsummary, -, hnote, -, hfile⟩ := hwrites hfine
  obtain rfl := Except.ok.inj (hanswer.symm.trans hsummary)
  rw [hcatalogs] at hfile
  obtain ⟨hempty, hleft, hwritten, hcode, -⟩ := hfile "/link/notes.txt" rfl
  have hok : (homeFiles.write "/link/notes.txt" octets).1 = .ok () := by rw [hwrite]
  have hcontent : merged.2.objectAt? "/link/notes.txt" = some (.file octets) := by
    rw [hleft]
    exact hwritten.objectAt? hok (by decide +kernel)
  -- the run in which an input fails
  have hfails : ({} : Session).Fails env ["A.cs", "/srv/A.cs"]
      (.duplicate "A" .classKind "/srv/A.cs") :=
    Session.addFiles_answer_eq_error_iff.1 (by decide +kernel)
  obtain ⟨hfailed, -⟩ := run_all_or_nothing classParser homeFiles hreadFailed
  exact ⟨⟨hcode hok, hempty, hnote, hcontent, (htoggle _ (hflag rfl)).2.2.2⟩, hfailed _ hfails⟩

end CommandLine

end TypeCatalog
