import TypeCatalog.Proofs.Session.History
import TypeCatalog.Proofs.Session.Reading

/-!
# Conservation of declarations

Every declaration of an input that was merged is accounted for: it made a catalog larger by one, or
it was reported that its name is declared again. The balance holds of a stream that is collected by
itself and of what is merged into a session, so it holds of any run of inputs, whatever becomes of
them; and where a second declaration is refused, nothing is ever reported of one.

## Main definitions

- `Declaration.count` — how many declarations of a sort there are in a stream
- `Session.Input.declarations` — the stream of an input
- `Session.feedAll` — feeds inputs to a session and notes what was reported of each

## Main statements

- `Catalogs.ofDeclarations_balance` — the balance of a stream that is collected
- `Session.feed_balance` — the balance of an input
- `Session.feedAll_conserves` — the balance of a run
-/

namespace TypeCatalog

open Text

namespace Declaration

/-- How many of the declarations are of the sort. -/
def count (kind : TypeKind) (declarations : List Declaration) : Nat :=
  declarations.countP (isOf kind)

@[simp] theorem count_nil (kind : TypeKind) : count kind [] = 0 := rfl

@[simp] theorem count_append (kind : TypeKind) (xs ys : List Declaration) :
    count kind (xs ++ ys) = count kind xs + count kind ys :=
  List.countP_append

theorem count_cons (kind : TypeKind) (declaration : Declaration) (rest : List Declaration) :
    count kind (declaration :: rest) = count kind [declaration] + count kind rest :=
  count_append kind [declaration] rest

end Declaration

variable {policy : Policy} {path : String} {kind : TypeKind}

/-- If no step reports a name as declared again, all of them together do not. -/
theorem Event.repeats_andThen {α β : Type} {r : Report α} {next : α → Report β}
    (h : repeats kind r.events = 0) (hnext : ∀ answer, repeats kind (next answer).events = 0) :
    repeats kind (r.andThen next).events = 0 := by
  cases hanswer : r.answer with
  | error failure => rwa [Report.andThen_of_error hanswer]
  | ok answer =>
    rw [Report.andThen_of_ok hanswer, Report.events_after, repeats_append, h, hnext]

/-! ### Collecting a stream -/

namespace Catalogs

variable {c next : Catalogs} {declaration : Declaration} {declarations : List Declaration}

/-- A recorded declaration is in the catalogs as a new record, or reported as declared again. -/
theorem record_balance (kind : TypeKind)
    (h : (c.record policy path declaration).answer = .ok next) :
    next.count kind + Event.repeats kind (c.record policy path declaration).events =
      c.count kind + Declaration.count kind [declaration] := by
  -- a declaration of one sort leaves the catalog of the other as it is
  cases declaration with
  | ofClass declaration =>
    obtain ⟨insertion, hanswer, rfl⟩ := Report.answer_map_eq_ok_iff.1 h
    have haccounts : Accounts policy c
        { c with classes := (c.classes.insert policy path declaration.record).1 } _
        ⟨insertion.stored.toNat, 0⟩ _ :=
      .of_sorts (Catalog.insert_accounts hanswer) (.refl policy c.enums)
    rw [List.append_nil] at haccounts
    exact (haccounts.balance kind).trans (by cases kind <;> rfl)
  | ofEnum declaration =>
    obtain ⟨insertion, hanswer, rfl⟩ := Report.answer_map_eq_ok_iff.1 h
    have haccounts : Accounts policy c
        { c with enums := (c.enums.insert policy path declaration.record).1 } _
        ⟨0, insertion.stored.toNat⟩ _ :=
      .of_sorts (.refl policy c.classes) (Catalog.insert_accounts hanswer)
    rw [List.nil_append] at haccounts
    exact (haccounts.balance kind).trans (by cases kind <;> rfl)
  | other passed name =>
    cases h
    rfl

/-- Recorded declarations are in the catalogs as new records, or reported, by induction on them. -/
theorem recordAll_balance (kind : TypeKind)
    (h : (c.recordAll policy path declarations).answer = .ok next) :
    next.count kind + Event.repeats kind (c.recordAll policy path declarations).events =
      c.count kind + Declaration.count kind declarations := by
  induction declarations generalizing c with
  | nil =>
    cases h
    rfl
  | cons declaration rest ih =>
    rw [recordAll] at h ⊢
    obtain ⟨recorded, hfirst, hlater⟩ := Report.answer_andThen_eq_ok_iff.1 h
    have hrecord := record_balance kind hfirst
    have hrest := ih hlater
    rw [Report.andThen_of_ok hfirst, Report.events_after, Event.repeats_append,
      Declaration.count_cons]
    omega

/-- The declarations of an input that was collected are in its catalogs or reported. -/
theorem ofDeclarations_balance (kind : TypeKind)
    (h : (ofDeclarations policy path declarations).answer = .ok c) :
    c.count kind + Event.repeats kind (ofDeclarations policy path declarations).events =
      Declaration.count kind declarations := by
  rw [ofDeclarations] at h ⊢
  obtain ⟨recorded, hall, hlast⟩ := Report.answer_andThen_eq_ok_iff.1 h
  cases hlast
  have hrecord := recordAll_balance kind hall
  have hempty : ({} : Catalogs).count kind = 0 := by cases kind <;> rfl
  have hnotice (classes enums : Nat) :
      Event.repeats kind [.collected classes enums path] = 0 := rfl
  rw [hempty, Nat.zero_add] at hrecord
  rw [Report.andThen_of_ok hall, Report.events_after, Event.repeats_append, Report.events_done,
    hnotice, Nat.add_zero]
  exact hrecord

/-- A policy that refuses repetitions reports none. -/
theorem repeats_recordAll_reject (kind : TypeKind) (path : String) (c : Catalogs)
    (declarations : List Declaration) :
    Event.repeats kind (c.recordAll .reject path declarations).events = 0 := by
  induction declarations generalizing c with
  | nil => rfl
  | cons declaration rest ih =>
    have hfirst : Event.repeats kind (c.record .reject path declaration).events = 0 := by
      cases declaration with
      | other => rfl
      | _ => simp [record]
    exact Event.repeats_andThen hfirst fun recorded => ih recorded

/-- Collecting an input under a policy that refuses repetitions reports none. -/
theorem repeats_ofDeclarations_reject (kind : TypeKind) (path : String)
    (declarations : List Declaration) :
    Event.repeats kind (ofDeclarations .reject path declarations).events = 0 :=
  Event.repeats_andThen (repeats_recordAll_reject kind path {} declarations) fun _ => rfl

end Catalogs

/-! ### Reading an input -/

namespace Intake

/-- The report of an input that holds the declarations: if they were collected, each of them is in
the catalogs or reported as declared again; and none is reported by an input that fails or under a
policy that refuses it. -/
structure Accounted (policy : Policy) (report : Report Catalogs)
    (declarations : List Declaration) : Prop where
  collected : ∀ catalogs, report.answer = .ok catalogs → ∀ kind,
    catalogs.count kind + Event.repeats kind report.events = Declaration.count kind declarations
  failed : ∀ failure, report.answer = .error failure → ∀ kind, Event.repeats kind report.events = 0
  reject : policy = .reject → ∀ kind, Event.repeats kind report.events = 0

variable {report : Report Catalogs} {declarations : List Declaration}

/-- What is collected of declarations accounts for each of them. -/
theorem Accounted.ofDeclarations (policy : Policy) (path : String)
    (declarations : List Declaration) :
    Accounted policy (Catalogs.ofDeclarations policy path declarations) declarations where
  collected _ h kind := Catalogs.ofDeclarations_balance kind h
  failed failure h kind := by
    obtain ⟨rfl, -⟩ := Catalogs.of_ofDeclarations_error h
    exact Catalogs.repeats_ofDeclarations_reject ..
  reject h kind := by
    rw [h]
    exact Catalogs.repeats_ofDeclarations_reject ..

/-- What is reported while a text is read does not change the balance. -/
theorem Accounted.after {events : List Event} (h : Accounted policy report declarations)
    (hevents : ∀ kind, Event.repeats kind events = 0) :
    Accounted policy (report.after events) declarations where
  collected catalogs hcatalogs kind := by
    rw [Report.events_after, Event.repeats_append, hevents, Nat.zero_add]
    exact h.collected catalogs hcatalogs kind
  failed failure hfailure kind := by
    rw [Report.events_after, Event.repeats_append, hevents, h.failed failure hfailure]
  reject hpolicy kind := by
    rw [Report.events_after, Event.repeats_append, hevents, h.reject hpolicy]

/-- A failure accounts for declarations if it reports none of them. -/
theorem Accounted.of_failed {failure : Failure} {events : List Event}
    (h : ∀ kind, Event.repeats kind events = 0) :
    Accounted policy (.failed failure events) declarations where
  collected _ hcatalogs := nomatch hcatalogs
  failed _ _ := h
  reject _ := h

/-- What is collected of a text accounts for the declarations in it. -/
theorem accounted_ofText (parse : Parser) (policy : Policy) (path text : String)
    (language : Language) :
    Accounted policy (ofText parse policy path text language.name)
      ((Source.ofText path language text).declarations (parse text)) := by
  rw [ofText, Intake.declarations, Language.ofName?_name]
  refine (Accounted.ofDeclarations ..).after fun kind => ?_
  simp only [declarationsOf]
  split <;> rfl

/-- What is collected of a file accounts for the declarations in it. -/
theorem accounted_ofFile (env : Environment) (policy : Policy) (path : String) :
    Accounted policy (ofFile env policy path) (stream env path) := by
  rw [ofFile, stream, read]
  cases check env path with
  | error failure => exact .of_failed fun _ => rfl
  | ok language =>
    simp only [Except.bind]
    cases env.find path with
    | regular octets =>
      simp only [ofOctets]
      cases Utf8.decode octets with
      | error fault => exact .of_failed fun _ => rfl
      | ok text => exact accounted_ofText ..
    | _ => exact .of_failed fun _ => rfl

end Intake

/-! ### Feeding inputs -/

namespace Session

variable {s : Session}

/-- The declarations of an input, as far as it can be read. -/
def Input.declarations : Input → List Declaration
  | .file env path => Intake.stream env path
  | .text parse label content => (Source.ofText label .csharp content).declarations (parse content)

/-- An input that was fed to a session, with what was reported of it. -/
structure Fed where
  input : Input
  report : Report Outcome

/-- The declarations that an answer says were merged: all or none. -/
def mergedOf (answer : Except Failure Outcome) (declarations : List Declaration) :
    List Declaration :=
  match answer with
  | .ok (.merged ..) => declarations
  | _ => []

/-- The declarations of the input if it was merged. -/
def Fed.merged (fed : Fed) : List Declaration :=
  mergedOf fed.report.answer fed.input.declarations

/-- Feeds inputs to the session one after the other, whatever becomes of them. -/
def feedAll (s : Session) : List Input → Session × List Fed
  | [] => (s, [])
  | input :: rest =>
    let (next, report) := s.feed input
    let (last, later) := next.feedAll rest
    (last, ⟨input, report⟩ :: later)

/-- When what was collected is merged, its declarations are in the catalogs or reported; when it is
not, nothing is. -/
theorem receiveReport_balance {staged : Report Catalogs} {declarations : List Declaration}
    (hstaged : Intake.Staged s.policy path staged.answer)
    (h : Intake.Accounted s.policy staged declarations) (kind : TypeKind) :
    (s.receiveReport path staged).1.catalogs.count kind +
        Event.repeats kind (s.receiveReport path staged).2.events =
      s.catalogs.count kind + Declaration.count kind
        (mergedOf (s.receiveReport path staged).2.answer declarations) := by
  cases hanswer : staged.answer with
  | error failure =>
    have hsilent := h.failed failure hanswer kind
    simp only [receiveReport, hanswer]
    cases failure with
    | invalidInput invalid defect =>
      have hskip : Event.repeats kind [.skipped path defect] = 0 := rfl
      simp [receive, Failure.defect?, mergedOf, hsilent, hskip]
    | _ => simp [receive, Failure.defect?, mergedOf, hsilent]
  | ok catalogs =>
    simp only [receiveReport, receive, hanswer]
    cases hmerge : (s.catalogs.merge s.policy path catalogs).2.answer with
    | error failure =>
      -- only a refusal makes a merge fail, and then nothing was reported before it either
      have hindexed := hstaged.indexed catalogs hanswer
      obtain ⟨hpolicy, refusal, -, heq⟩ := Catalogs.merge_of_not_accepts path hindexed
        ((Catalogs.merge_answer_eq_error_iff hindexed).1 ⟨failure, hmerge⟩)
      rw [Report.andThen_of_error hmerge, heq]
      simp [mergedOf, h.reject hpolicy]
    | ok tally =>
      have hcollected := h.collected catalogs hanswer kind
      have hmerged := (Catalogs.merge_accounts hmerge).balance kind
      have hnotice (classes enums total totalEnums : Nat) :
          Event.repeats kind [.merged classes enums path total totalEnums] = 0 := rfl
      rw [Report.andThen_of_ok hmerge]
      simp only [Report.events_after, Report.events_done, Report.answer_after, Report.answer_done,
        Event.repeats_append, mergedOf, hnotice]
      omega

/-- A merge under a policy that refuses repetitions reports none. -/
theorem repeats_receive_reject (kind : TypeKind) (path : String)
    (staged : Except Failure Catalogs) (hpolicy : s.policy = .reject) :
    Event.repeats kind (s.receive path staged).2.events = 0 := by
  cases staged with
  | error failure => cases failure <;> rfl
  | ok catalogs =>
    have hsilent := Catalogs.events_merge_reject path s.catalogs catalogs
    simp only [receive, hpolicy]
    exact Event.repeats_andThen (hsilent ▸ Event.repeats_nil kind) fun _ => rfl

/-! ### Runs -/

/-- Feeding an input is collecting it, with its declarations accounted for, and then merging. -/
theorem staged_feed (s : Session) (input : Input) :
    ∃ path staged, s.feed input = s.receiveReport path staged ∧
      Intake.Staged s.policy path staged.answer ∧
      Intake.Accounted s.policy staged input.declarations := by
  cases input with
  | file env path =>
    exact ⟨path, _, rfl, Intake.staged_ofFile .., Intake.accounted_ofFile ..⟩
  | text parse label content =>
    exact ⟨label, _, rfl, Intake.staged_ofText .., Intake.accounted_ofText ..⟩

/-- Every declaration of an input that is merged makes a catalog larger by one or is reported as
declared again; an input that is not merged does neither. -/
theorem feed_balance (s : Session) (input : Input) (kind : TypeKind) :
    (s.feed input).1.catalogs.count kind + Event.repeats kind (s.feed input).2.events =
      s.catalogs.count kind +
        Declaration.count kind (mergedOf (s.feed input).2.answer input.declarations) := by
  obtain ⟨path, staged, heq, hstaged, haccounted⟩ := staged_feed s input
  rw [heq]
  exact receiveReport_balance hstaged haccounted kind

/-- An input fed under a policy that refuses repetitions reports none. -/
theorem repeats_feed_reject (hpolicy : s.policy = .reject) (input : Input) (kind : TypeKind) :
    Event.repeats kind (s.feed input).2.events = 0 := by
  obtain ⟨path, staged, heq, -, haccounted⟩ := staged_feed s input
  have hreceived := repeats_receive_reject kind path staged.answer hpolicy
  rw [heq, receiveReport, Report.events_after, Event.repeats_append,
    haccounted.reject hpolicy, hreceived]

/-- Over a run, what was merged is in the catalogs or reported as declared again. -/
theorem feedAll_balance (s : Session) (inputs : List Input) (kind : TypeKind) :
    (s.feedAll inputs).1.catalogs.count kind +
        Event.repeats kind ((s.feedAll inputs).2.flatMap (·.report.events)) =
      s.catalogs.count kind +
        Declaration.count kind ((s.feedAll inputs).2.flatMap Fed.merged) := by
  induction inputs generalizing s with
  | nil => rfl
  | cons input rest ih =>
    have hfirst := feed_balance s input kind
    have hrest := ih (s.feed input).1
    simp only [feedAll, List.flatMap_cons, Event.repeats_append, Declaration.count_append,
      Fed.merged] at hrest ⊢
    omega

/-- A run under a policy that refuses repetitions reports none. -/
theorem repeats_feedAll_reject (hpolicy : s.policy = .reject) (inputs : List Input)
    (kind : TypeKind) :
    Event.repeats kind ((s.feedAll inputs).2.flatMap (·.report.events)) = 0 := by
  induction inputs generalizing s with
  | nil => rfl
  | cons input rest ih =>
    have hnext : (s.feed input).1.policy = .reject := (Grows.feed s input).policy.trans hpolicy
    simp only [feedAll, List.flatMap_cons, Event.repeats_append]
    rw [repeats_feed_reject hpolicy, ih hnext]

/-- In any run on an empty session, whatever becomes of its inputs, the classes that were declared
in the inputs that were merged are as many as the session holds and as were reported as declared
again together, and so are the enums. Where a second declaration is refused, none is ever
reported. -/
theorem feedAll_conserves (policy : Policy) (inputs : List Input) (kind : TypeKind) :
    let run := ({ policy := policy } : Session).feedAll inputs
    Declaration.count kind (run.2.flatMap Fed.merged) =
        run.1.catalogs.count kind + Event.repeats kind (run.2.flatMap (·.report.events)) ∧
      (policy = .reject → Event.repeats kind (run.2.flatMap (·.report.events)) = 0) := by
  intro run
  have hempty : ({ policy := policy } : Session).catalogs.count kind = 0 := by cases kind <;> rfl
  have hbalance := feedAll_balance { policy := policy } inputs kind
  rw [hempty, Nat.zero_add] at hbalance
  exact ⟨hbalance.symm, fun hpolicy => repeats_feedAll_reject hpolicy inputs kind⟩

/-- A second class of one name is reported if its input is merged; if it is refused, it neither
counts as merged nor is reported. -/
theorem feedAll_conserves_oneClass :
    let inputs : List Input := [.oneClass "A.cs", .oneClass "B.cs"]
    let kept := ({ policy := .keepFirst } : Session).feedAll inputs
    let refused := ({ policy := .reject } : Session).feedAll inputs
    kept.1.catalogs.count .classKind = 1 ∧
      Event.repeats .classKind (kept.2.flatMap (·.report.events)) = 1 ∧
      Declaration.count .classKind (kept.2.flatMap Fed.merged) = 2 ∧
      Event.repeats .classKind (refused.2.flatMap (·.report.events)) = 0 ∧
      Declaration.count .classKind (refused.2.flatMap Fed.merged) = 1 := by
  intro inputs kept refused
  have hkept : kept.1.catalogs.count .classKind = 1 := by rfl
  have hrefused : refused.1.catalogs.count .classKind = 1 := by rfl
  have hreported : Event.repeats .classKind (kept.2.flatMap (·.report.events)) = 1 := by rfl
  obtain ⟨hbalance, -⟩ := feedAll_conserves .keepFirst inputs .classKind
  obtain ⟨hbalance', hsilent⟩ := feedAll_conserves .reject inputs .classKind
  refine ⟨hkept, hreported, ?_, hsilent rfl, ?_⟩
  · exact hbalance.trans (by rw [hkept, hreported])
  · exact hbalance'.trans (by rw [hsilent rfl, hrefused])

end Session

end TypeCatalog
