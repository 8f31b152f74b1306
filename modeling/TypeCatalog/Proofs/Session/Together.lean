import TypeCatalog.CommandLine
import TypeCatalog.Embedding
import TypeCatalog.Proofs.Session.Batch

/-!
# Extracting files together

A batch may extract all of its files before it merges any. An extraction depends on the policy of
the session alone, and no input changes the policy; so it does not matter when a file is extracted,
and what comes after a failure is extracted for nothing.

## Main definitions

- `CommandLine.Plan.Alike` — that two plans write the same and answer the same

## Main statements

- `Session.runAll_agree` — runs agree if their steps do
- `Session.addFilesTogether_agree` — files extracted together are merged as if one after the other
-/

namespace TypeCatalog

/-- Two plans write the same and answer the same, whatever was logged on the way. -/
structure CommandLine.Plan.Alike (p q : Plan) : Prop where
  output : p.output = q.output
  response : { p.response with log := [] } = { q.response with log := [] }

namespace Session

variable {α β : Type}

/-- No input changes the policy, whatever was staged of it. -/
theorem policy_receive (path : String) (staged : Except Failure Catalogs) (s : Session) :
    (s.receive path staged).1.policy = s.policy := by
  cases staged with
  | error failure => cases failure <;> rfl
  | ok catalogs => rfl

/-- Runs agree if each of their inputs does, as long as the policy stays the same. -/
theorem runAll_agree {policy : Policy} {step : α → Session → Session × Report Outcome}
    {name : α → String} (step' : β → Session → Session × Report Outcome) (name' : β → String)
    (f : α → β) (hname : ∀ input, name' (f input) = name input)
    (hstep : ∀ input s, s.policy = policy → Agree (step input s) (step' (f input) s))
    (hpolicy : ∀ input s, s.policy = policy → (step input s).1.policy = policy)
    (inputs : List α) {s : Session} (hs : s.policy = policy) :
    Agree (runAll step name inputs s) (runAll step' name' (inputs.map f) s) := by
  induction inputs generalizing s with
  | nil => exact ⟨rfl, rfl⟩
  | cons input rest ih =>
    obtain ⟨hnext, hanswer⟩ := hstep input s hs
    rw [List.map_cons]
    cases h : (step input s).2.answer with
    | error failure =>
      -- both runs end here, so what either would make of `rest` is of no account
      have h' : (step' (f input) s).2.answer = .error failure := hanswer ▸ h
      rw [runAll_cons_of_error h, runAll_cons_of_error h']
      exact ⟨hnext, rfl⟩
    | ok outcome =>
      have h' : (step' (f input) s).2.answer = .ok outcome := hanswer ▸ h
      obtain ⟨hlast, hsummary⟩ := ih (hpolicy input s hs)
      rw [runAll_cons_of_ok h, runAll_cons_of_ok h', hname, ← hnext]
      refine ⟨hlast, ?_⟩
      rw [Report.answer_after, Report.answer_map, hsummary]
      rfl

/-- Collecting all files first and then merging them comes to the same as taking them in one by one.
-/
theorem addFiles_agree (env : Environment) (paths : List String) (s : Session) :
    Agree (s.addFiles env paths) (s.addFilesTogether env paths) := by
  -- a file may be extracted before the session has got to it, since only the policy matters to it
  have hstep : ∀ path (t : Session), t.policy = s.policy →
      Agree (t.addFile env path) (t.receive path (Intake.ofFile env s.policy path).answer) := by
    intro path t ht
    rw [addFile, ht]
    exact ⟨rfl, rfl⟩
  have hpolicy : ∀ path (t : Session), t.policy = s.policy →
      (t.addFile env path).1.policy = s.policy := fun _ _ ht => (policy_receive ..).trans ht
  obtain ⟨hsession, hanswer⟩ := runAll_agree (fun input => receive input.1 input.2.answer) Prod.fst
    (fun path => (path, Intake.ofFile env s.policy path)) (fun _ => rfl) hstep hpolicy paths rfl
  exact ⟨hsession, hanswer⟩

/-- A run of the program extracts the same whether or not its inputs are collected together. -/
theorem extract_agree (env : Environment) (invocation : CommandLine.Invocation) :
    Agree ({ invocation with parallel := true }.extract env)
      ({ invocation with parallel := false }.extract env) :=
  (addFiles_agree env invocation.inputs { policy := invocation.policy }).symm

/-- A plan depends on an extraction through the session and the answer alone, but for the log. -/
theorem plan_alike (env : Environment) (invocation : CommandLine.Invocation) :
    ({ invocation with parallel := true }.plan env).Alike
      ({ invocation with parallel := false }.plan env) := by
  obtain ⟨hsession, hanswer⟩ := extract_agree env invocation
  simp only [CommandLine.Invocation.plan, hsession, hanswer]
  cases ({ invocation with parallel := false }.extract env).2.answer with
  | error failure => exact ⟨rfl, rfl⟩
  | ok summary => cases invocation.output <;> exact ⟨rfl, rfl⟩

/-- Files that are extracted together and merged afterwards leave the session, and give the answer,
that they would if they were extracted one after the other, wherever one of them fails. So a caller
gets the same session or the same notice, and the program writes and answers the same. -/
theorem addFilesTogether_agree (env : Environment) (paths : List String) (s : Session) :
    Agree (s.addFilesTogether env paths) (s.addFiles env paths) ∧
      (∀ policyText, Embedding.extractFiles env paths policyText =
        (Embedding.newSession policyText).bind fun fresh =>
          (Embedding.addFiles env paths fresh).2.map fun _ =>
            (Embedding.addFiles env paths fresh).1) ∧
      ∀ invocation : CommandLine.Invocation,
        Agree ({ invocation with parallel := true }.extract env)
            ({ invocation with parallel := false }.extract env) ∧
          ({ invocation with parallel := true }.plan env).Alike
            ({ invocation with parallel := false }.plan env) := by
  refine ⟨(addFiles_agree env paths s).symm, fun policyText => ?_,
    fun invocation => ⟨extract_agree env invocation, plan_alike env invocation⟩⟩
  rw [Embedding.extractFiles]
  congr 1
  funext fresh
  obtain ⟨hsession, hanswer⟩ := addFiles_agree env paths fresh
  simp only [Embedding.addFiles, Embedding.told, hsession, hanswer]
  cases (fresh.addFilesTogether env paths).2.answer <;> rfl

end Session

end TypeCatalog
