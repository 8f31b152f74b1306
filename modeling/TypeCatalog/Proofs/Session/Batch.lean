import TypeCatalog.Proofs.Session.Transaction
import TypeCatalog.Session.Batch

/-!
# Batches of streams

A run takes its inputs one after the other, up to the first failure. Where the inputs are streams
of declarations, each is collected by itself before it is merged; in the end this comes to what
collecting all of them as one stream would.

## Main definitions

- `Session.Agree` — that two steps leave the same session and give the same answer
- `Session.addStreams` — feeds streams of declarations to a session

## Main statements

- `Session.runAll_cons_of_error`, `Session.runAll_cons_of_ok` — the first step of a run
- `Session.runAll_answer_eq_error_iff` — where a run ends in a failure
- `Session.runAll_length` — every input of a run is processed or skipped
- `Session.addStreams_of_admits`, `Session.addStreams_of_not_admits` — a run over streams
- `Session.addStreams_eq_ofDeclarations` — many streams are collected like one
-/

namespace TypeCatalog

namespace Session

variable {α γ : Type} {step : α → Session → Session × Report Outcome} {name : α → String}
  {input : α} {s : Session}

/-- Two steps leave the same session and give the same answer, whatever they report on the way. -/
structure Agree (x y : Session × Report γ) : Prop where
  session : x.1 = y.1
  answer : x.2.answer = y.2.answer

theorem Agree.symm {x y : Session × Report γ} (h : Agree x y) : Agree y x :=
  ⟨h.session.symm, h.answer.symm⟩

/-- A batch ends at the first step that fails. -/
theorem runAll_cons_of_error {failure : Failure} (h : (step input s).2.answer = .error failure)
    (rest : List α) :
    runAll step name (input :: rest) s =
      ((step input s).1, .failed failure (step input s).2.events) := by
  simp only [runAll, h]

/-- A batch goes on behind a step that succeeds. -/
theorem runAll_cons_of_ok {outcome : Outcome} (h : (step input s).2.answer = .ok outcome)
    (rest : List α) :
    runAll step name (input :: rest) s =
      ((runAll step name rest (step input s).1).1,
        ((runAll step name rest (step input s).1).2.map
          (Summary.push (name input) outcome)).after (step input s).2.events) := by
  simp only [runAll, h]

/-- A run ends in a failure if and only if it takes some of the inputs, and the next one fails. -/
theorem runAll_answer_eq_error_iff {inputs : List α} {failure : Failure} :
    (runAll step name inputs s).2.answer = .error failure ↔
      ∃ before input rest summary, inputs = before ++ input :: rest ∧
        (runAll step name before s).2.answer = .ok summary ∧
        (step input (runAll step name before s).1).2.answer = .error failure := by
  induction inputs generalizing s with
  | nil => simp [runAll]
  | cons first inputs ih =>
    cases hfirst : (step first s).2.answer with
    | error earlier =>
      rw [runAll_cons_of_error hfirst]
      -- the first input fails, so none comes before the one that fails
      constructor
      · rintro ⟨⟩
        exact ⟨[], first, inputs, {}, rfl, rfl, hfirst⟩
      · rintro ⟨before, input, rest, summary, hinputs, hbefore, hinput⟩
        cases before with
        | nil =>
          cases hinputs
          obtain rfl := Except.error.inj (hfirst.symm.trans hinput)
          rfl
        | cons _ before =>
          cases hinputs
          rw [runAll_cons_of_error hfirst] at hbefore
          cases hbefore
    | ok outcome =>
      rw [runAll_cons_of_ok hfirst, Report.answer_after, Report.answer_map_eq_error_iff, ih]
      -- the first input is one more of those before the one that fails
      constructor
      · rintro ⟨before, input, rest, summary, rfl, hbefore, hinput⟩
        refine ⟨first :: before, input, rest, summary.push (name first) outcome, rfl, ?_, ?_⟩
        · rw [runAll_cons_of_ok hfirst, Report.answer_after]
          exact Report.answer_map_eq_ok_iff.2 ⟨summary, hbefore, rfl⟩
        · rwa [runAll_cons_of_ok hfirst]
      · rintro ⟨before, input, rest, summary, hinputs, hbefore, hinput⟩
        cases before with
        | nil =>
          cases hinputs
          cases hfirst.symm.trans hinput
        | cons _ before =>
          cases hinputs
          rw [runAll_cons_of_ok hfirst, Report.answer_after] at hbefore
          rw [runAll_cons_of_ok hfirst] at hinput
          obtain ⟨earlier, hearlier, -⟩ := Report.answer_map_eq_ok_iff.1 hbefore
          exact ⟨before, input, rest, earlier, rfl, hearlier, hinput⟩

/-- Every input of a run that succeeds is processed or skipped. -/
theorem runAll_length {inputs : List α} {summary : Summary}
    (h : (runAll step name inputs s).2.answer = .ok summary) :
    summary.processed.length + summary.skipped.length = inputs.length := by
  induction inputs generalizing s summary with
  | nil => cases h; rfl
  | cons input inputs ih =>
    cases hinput : (step input s).2.answer with
    | error failure =>
      rw [runAll_cons_of_error hinput] at h
      cases h
    | ok outcome =>
      rw [runAll_cons_of_ok hinput, Report.answer_after] at h
      obtain ⟨rest, hrest, rfl⟩ := Report.answer_map_eq_ok_iff.1 h
      have hlength := ih hrest
      cases outcome <;> simp only [Summary.push, List.length_cons] <;> omega

/-! ### Streams of declarations -/

/-- The declarations of an input, and its path. -/
structure Stream where
  path : String
  declarations : List Declaration

/-- Collects a stream by itself and takes what was collected into the session. -/
def addStream (stream : Stream) (s : Session) : Session × Report Outcome :=
  s.receiveReport stream.path
    (Catalogs.ofDeclarations s.policy stream.path stream.declarations)

/-- A text is taken into a session as the stream of what it declares. -/
theorem addText_agree (parse : Parser) (label text : String) (s : Session) :
    Agree (s.addText parse label text)
      (s.addStream ⟨label, (Source.ofText label .csharp text).declarations (parse text)⟩) := by
  simp only [addText, addStream, receiveReport, Intake.ofText_answer]
  exact ⟨rfl, rfl⟩

/-- Takes streams into the session in order, up to the first failure. -/
def addStreams (streams : List Stream) (s : Session) : Session × Report Summary :=
  runAll addStream Stream.path streams s

variable {stream : Stream} {streams : List Stream}

/-- A stream in which nothing is refused is merged, and the session gains what it declares. -/
theorem addStream_of_admits (h : s.catalogs.Admits s.policy stream.declarations) :
    ∃ classes enums, (s.addStream stream).1 =
        { s with catalogs := s.catalogs.gather s.policy stream.declarations } ∧
      (s.addStream stream).2.answer = .ok (.merged classes enums) := by
  obtain ⟨classes, enums, events, heq⟩ := receive_of_accepts stream.path
    (Catalogs.indexed_gather ..) ((Catalogs.accepts_records_gather_iff h.of_empty).2 h)
  rw [Catalogs.gather_records] at heq
  simp only [addStream, receiveReport,
    Catalogs.ofDeclarations_of_admits stream.path h.of_empty, heq]
  exact ⟨classes, enums, trivial, rfl⟩

/-- A stream that is refused fails. -/
theorem addStream_of_not_admits (h : ¬ s.catalogs.Admits s.policy stream.declarations) :
    ∃ failure, (s.addStream stream).2.answer = .error failure := by
  by_cases hempty : ({} : Catalogs).Admits s.policy stream.declarations
  · obtain ⟨-, name, kind, heq⟩ := receive_of_not_accepts stream.path
      (Catalogs.indexed_gather ..) fun haccepts =>
        h ((Catalogs.accepts_records_gather_iff hempty).1 haccepts)
    simp only [addStream, receiveReport, Catalogs.ofDeclarations_of_admits stream.path hempty, heq]
    exact ⟨_, rfl⟩
  · obtain ⟨-, name, kind, hfailed⟩ := Catalogs.ofDeclarations_of_not_admits stream.path hempty
    simp only [addStream, receiveReport, hfailed]
    exact ⟨_, rfl⟩

/-- Streams that are not refused are all gathered. -/
theorem addStreams_of_admits
    (h : s.catalogs.Admits s.policy (streams.flatMap Stream.declarations)) :
    (s.addStreams streams).1 =
        { s with catalogs := s.catalogs.gather s.policy (streams.flatMap Stream.declarations) } ∧
      (s.addStreams streams).2.answer = .ok { processed := streams.map Stream.path } := by
  induction streams generalizing s with
  | nil => exact ⟨rfl, rfl⟩
  | cons stream rest ih =>
    -- the rest is fed to the session that the first stream leaves, so `ih` is for every session
    rw [List.flatMap_cons, Catalogs.admits_append] at h
    obtain ⟨classes, enums, hnext, hanswer⟩ := addStream_of_admits h.1
    obtain ⟨hlast, hsummary⟩ := @ih (s.addStream stream).1 (by rw [hnext]; exact h.2)
    rw [addStreams, runAll_cons_of_ok hanswer, ← addStreams, List.flatMap_cons,
      Catalogs.gather_append]
    refine ⟨?_, ?_⟩
    · rw [hlast, hnext]
    · rw [Report.answer_after, Report.answer_map, hsummary]
      rfl

/-- A batch fails if the streams one after the other are refused. -/
theorem addStreams_of_not_admits
    (h : ¬ s.catalogs.Admits s.policy (streams.flatMap Stream.declarations)) :
    ∃ failure, (s.addStreams streams).2.answer = .error failure := by
  induction streams generalizing s with
  | nil => exact absurd Catalogs.admits_nil h
  | cons stream rest ih =>
    rw [List.flatMap_cons, Catalogs.admits_append] at h
    -- the first stream is refused, or the rest is by the session that it leaves
    by_cases hfirst : s.catalogs.Admits s.policy stream.declarations
    · obtain ⟨classes, enums, hnext, hanswer⟩ := addStream_of_admits hfirst
      obtain ⟨failure, hfailure⟩ := @ih (s.addStream stream).1 (by
        rw [hnext]
        exact fun hrest => h ⟨hfirst, hrest⟩)
      rw [addStreams, runAll_cons_of_ok hanswer, ← addStreams, Report.answer_after,
        Report.answer_map, hfailure]
      exact ⟨failure, rfl⟩
    · obtain ⟨failure, hfailure⟩ := addStream_of_not_admits hfirst
      rw [addStreams, runAll_cons_of_error hfailure]
      exact ⟨failure, rfl⟩

/-- Feeding streams to an empty session one after the other succeeds if and only if they are
collected as one stream, and then comes to the same catalogs; none of the streams is skipped. This
is always so where no policy refuses a name. In particular two streams are collected as one if and
only if both are collected and what was collected can be merged, and the merge is what comes out.
A text is fed as the stream of what it declares. -/
theorem addStreams_eq_ofDeclarations (policy : Policy) (path : String) (streams : List Stream) :
    ((∃ summary, (addStreams streams { policy := policy }).2.answer = .ok summary) ↔
        ∃ c, (Catalogs.ofDeclarations policy path
          (streams.flatMap Stream.declarations)).answer = .ok c) ∧
      (∀ c, (Catalogs.ofDeclarations policy path
          (streams.flatMap Stream.declarations)).answer = .ok c →
        (addStreams streams { policy := policy }).1 = { policy := policy, catalogs := c } ∧
          (addStreams streams { policy := policy }).2.answer =
            .ok { processed := streams.map Stream.path }) ∧
      (policy ≠ .reject → ∃ c, (Catalogs.ofDeclarations policy path
          (streams.flatMap Stream.declarations)).answer = .ok c) ∧
      (∀ (pathX pathY pathMerge : String) (xs ys : List Declaration) (c : Catalogs),
        (Catalogs.ofDeclarations policy path (xs ++ ys)).answer = .ok c ↔
          ∃ x y tally, (Catalogs.ofDeclarations policy pathX xs).answer = .ok x ∧
            (Catalogs.ofDeclarations policy pathY ys).answer = .ok y ∧
            (x.merge policy pathMerge y).1 = c ∧
            (x.merge policy pathMerge y).2.answer = .ok tally) ∧
      ∀ (parse : Parser) (label text : String) (s : Session),
        Agree (s.addText parse label text)
          (s.addStream ⟨label, (Source.ofText label .csharp text).declarations (parse text)⟩) := by
  have hfed : ∀ c, (Catalogs.ofDeclarations policy path
      (streams.flatMap Stream.declarations)).answer = .ok c →
      (addStreams streams { policy := policy }).1 = { policy := policy, catalogs := c } ∧
        (addStreams streams { policy := policy }).2.answer =
          .ok { processed := streams.map Stream.path } := by
    intro c hc
    obtain ⟨hadmits, rfl⟩ := Catalogs.ofDeclarations_answer_eq_ok_iff.1 hc
    exact addStreams_of_admits hadmits
  -- it remains that streams refused as one are refused one after the other, and the merge law
  refine ⟨⟨?_, fun ⟨c, hc⟩ => ⟨_, (hfed c hc).2⟩⟩, hfed, fun hpolicy => ?_, ?_, addText_agree⟩
  · rintro ⟨summary, hsummary⟩
    by_cases hadmits :
        ({} : Catalogs).Admits policy (streams.flatMap Stream.declarations)
    · exact ⟨_, Catalogs.ofDeclarations_of_admits path hadmits⟩
    · obtain ⟨failure, hfailure⟩ :=
        addStreams_of_not_admits (s := { policy := policy }) hadmits
      rw [hsummary] at hfailure
      cases hfailure
  · exact ⟨_, Catalogs.ofDeclarations_of_admits path (Catalogs.accepts_of_ne_reject hpolicy)⟩
  · intro pathX pathY pathMerge xs ys c
    rw [Catalogs.ofDeclarations_answer_eq_ok_iff, Catalogs.admits_append, Catalogs.gather_append,
      and_assoc, ← Catalogs.merge_ofDeclarations_iff]
    constructor
    · rintro ⟨hadmits, y, tally, hy, hmerge⟩
      exact ⟨_, y, tally, Catalogs.ofDeclarations_of_admits pathX hadmits, hy, hmerge⟩
    · rintro ⟨x, y, tally, hx, hy, hmerge⟩
      obtain ⟨hadmits, rfl⟩ := Catalogs.ofDeclarations_answer_eq_ok_iff.1 hx
      exact ⟨hadmits, y, tally, hy, hmerge⟩

end Session

end TypeCatalog
