import TypeCatalog.CommandLine.Arguments

/-!
# The flag for extracting together

Arguments that do not ask for extracting together may be given the flag for it in front. They then
ask for the same in all other respects.

## Main definitions

- `CommandLine.Progress.together` — the same progress with the flag given
- `CommandLine.Progress.Follows` — that an argument is read alike whether or not the flag was given

## Main statements

- `CommandLine.read_parallel_cons` — what arguments with the flag in front ask for
-/

namespace TypeCatalog.CommandLine

namespace Progress

variable {p q : Progress} {parameter : Parameter} {argument : String}

/-- The same progress, with the flag given. -/
def together (p : Progress) : Progress := { p with parallel := true }

/-- A value is stored alike whether or not the flag was given. -/
theorem store_together (parameter : Parameter) (value : String) (p : Progress) :
    p.together.store parameter value = (p.store parameter value).map together := by
  fun_cases store parameter value p <;> simp_all [store, together, Except.map]

/-- A value that is still awaited is settled alike whether or not the flag was given. -/
theorem resolve_together (p : Progress) : p.together.resolve = p.resolve.map together := by
  obtain ⟨inputs, policy, output, parallel, pretty, pending⟩ := p
  cases pending with
  | nothing => rfl
  | option parameter value =>
    cases value with
    | none => rfl
    | some value =>
      exact store_together parameter value ⟨inputs, policy, output, parallel, pretty, .nothing⟩
  | inputs paths =>
    simp only [resolve, together]
    split <;> rfl

/-- An input is taken alike whether or not the flag was given. -/
theorem addInput_together (path : String) (p : Progress) :
    p.together.addInput path = (p.addInput path).map together := by
  have hresolve := resolve_together p
  obtain ⟨inputs, policy, output, parallel, pretty, pending⟩ := p
  cases pending with
  | inputs paths => rfl
  | _ =>
    simp only [together] at hresolve
    simp only [addInput, together, hresolve]
    cases Progress.resolve _ <;> rfl

/-- Another flag is set alike whether or not this one was given. -/
theorem setFlag_together (h : parameter ≠ .parallel) (p : Progress) :
    p.together.setFlag parameter = (p.setFlag parameter).map together := by
  fun_cases setFlag parameter p <;> simp_all [setFlag, together, Except.map]

/-- Every parameter but the flag itself is taken alike whether or not the flag was given. -/
theorem named_together (h : parameter ≠ .parallel) (attached : Option String) (p : Progress) :
    p.together.named parameter attached =
      (p.named parameter attached).map (Sum.map id together) := by
  -- what was named before is settled first, alike with and without the flag
  have hbind {f : Progress → Next}
      (hf : ∀ q, f q.together = (f q).map (Sum.map id together)) :
      (p.together.resolve >>= f) = (p.resolve >>= f).map (Sum.map id together) := by
    rw [resolve_together]
    cases p.resolve with
    | error fault => rfl
    | ok q => exact hf q
  have hflag (q : Progress) : (q.together.setFlag parameter >>= fun r => pure (.inr r) : Next) =
      (q.setFlag parameter >>= fun r => pure (.inr r) : Next).map (Sum.map id together) := by
    rw [setFlag_together h]
    cases q.setFlag parameter <;> rfl
  have hstore (value : String) (q : Progress) :
      (q.together.store parameter value >>= fun r => pure (.inr r) : Next) =
        (q.store parameter value >>= fun r => pure (.inr r) : Next).map (Sum.map id together) := by
    rw [store_together]
    cases q.store parameter value <;> rfl
  cases parameter with
  | parallel => exact absurd rfl h
  | version | help =>
    cases attached with
    | none => exact hbind fun _ => rfl
    | some value => rfl
  | pretty =>
    cases attached with
    | none => exact hbind hflag
    | some value => rfl
  | inputs | onDuplicate | output =>
    cases attached with
    | none => exact hbind fun _ => rfl
    | some value => exact hbind (hstore value)

/-- No parameter is an extraction by itself: that is asked for by all arguments. -/
theorem named_ne_extract (parameter : Parameter) (attached : Option String) (p : Progress)
    (invocation : Invocation) : p.named parameter attached ≠ .ok (.inl (.extract invocation)) := by
  have hbind {f : Progress → Next} (hf : ∀ q, f q ≠ .ok (.inl (.extract invocation))) :
      (p.resolve >>= f) ≠ .ok (.inl (.extract invocation)) := by
    cases p.resolve with
    | error fault => nofun
    | ok q => exact hf q
  have hgoes (x : Except UsageError Progress) :
      (x >>= fun r => pure (.inr r) : Next) ≠ .ok (.inl (.extract invocation)) := by
    cases x <;> nofun
  cases parameter with
  | version | help =>
    cases attached with
    | none => exact hbind fun _ => nofun
    | some value => nofun
  | parallel | pretty =>
    cases attached with
    | none => exact hbind fun _ => hgoes _
    | some value => nofun
  | inputs | onDuplicate | output =>
    cases attached with
    | none => exact hbind fun _ => nofun
    | some value => exact hbind fun _ => hgoes _

/-- Reading goes on alike whether or not the flag was given, unless what is read is the flag. -/
structure Follows (read : Progress → Next) : Prop where
  together : ∀ p, read p.together = (read p).map (Sum.map id together) ∨
    ∀ next, read p = .ok next → ∃ q, next = .inr q ∧ q.parallel = true
  ne_extract : ∀ p invocation, read p ≠ .ok (.inl (.extract invocation))

/-- After the name of a parameter, reading goes on alike. -/
theorem follows_named (parameter : Parameter) (attached : Option String) :
    Follows (named parameter attached) := by
  refine ⟨fun p => ?_, named_ne_extract parameter attached⟩
  by_cases h : parameter = .parallel
  · right
    subst h
    intro next hnext
    cases attached with
    | some value => cases hnext
    | none =>
      have hread : (p.resolve >>= fun q => q.setFlag .parallel >>= fun r => pure (.inr r) : Next) =
          .ok next := hnext
      cases hresolved : p.resolve with
      | error fault => rw [hresolved] at hread; cases hread
      | ok settled =>
        rw [hresolved] at hread
        -- the flag is not taken twice
        cases hparallel : settled.parallel <;>
          simp [setFlag, hparallel, bind, Except.bind, pure, Except.pure] at hread
        exact ⟨_, hread.symm, rfl⟩
  · exact .inl (named_together h attached p)

theorem follows_error (fault : UsageError) : Follows fun _ => .error fault :=
  ⟨fun _ => .inl rfl, fun _ _ => nofun⟩

/-- After a long option, reading goes on alike. -/
theorem follows_long (text : List Char) : Follows (long text) := by
  unfold long
  dsimp only
  cases Parameter.ofLongName? (String.ofList (text.takeWhile (· != '='))) with
  | none => exact follows_error _
  | some parameter => exact follows_named parameter _

/-- After short options, reading goes on alike. -/
theorem follows_short (letter : Char) (text : List Char) : Follows (short letter text) := by
  unfold short
  cases Parameter.ofShortName? letter with
  | none => exact follows_error _
  | some parameter =>
    cases htakes : parameter.takesValue with
    | false => simpa [htakes] using follows_named parameter none
    | true => simpa [htakes] using follows_named parameter _

/-- After a plain argument, reading goes on alike. -/
theorem follows_plain (text : String) : Follows (plain text) := by
  constructor
  · intro p
    left
    have hadd : (p.together.addInput text >>= fun q => pure (.inr q) : Next) =
        (p.addInput text >>= fun q => pure (.inr q) : Next).map (Sum.map id together) := by
      rw [addInput_together]
      cases p.addInput text <;> rfl
    fun_cases plain text p
    · next hpending => simp [plain, together, hpending, pure, Except.pure, Except.map]
    · next hpending => simpa [plain, together, hpending] using hadd
  · intro p invocation
    fun_cases plain text p
    · nofun
    · cases p.addInput text <;> nofun

/-- After any argument, reading goes on alike. -/
theorem follows_next (argument : String) : Follows (next argument) := by
  unfold next
  split
  · exact follows_long _
  · exact follows_short _ _
  · exact follows_plain argument

/-- The flag makes no difference where it was given already. -/
theorem together_eq_self (h : p.parallel = true) : p.together = p := by
  obtain ⟨inputs, policy, output, parallel, pretty, pending⟩ := p
  obtain rfl : parallel = true := h
  rfl

/-- Once the flag was given, it stays so. -/
theorem parallel_of_next (h : p.next argument = .ok (.inr q)) (hp : p.parallel = true) :
    q.parallel = true := by
  rcases (follows_next argument).together p with halike | hflag
  · rw [together_eq_self hp, h] at halike
    have hq : q = q.together := Sum.inr.inj (Except.ok.inj halike)
    rw [hq]
    rfl
  · obtain ⟨r, hr, hparallel⟩ := hflag _ h
    cases hr
    exact hparallel

/-- Inputs do not depend on the flag. -/
theorem addInputs_together (paths : List String) (p : Progress) :
    paths.foldlM (fun (q : Progress) path => q.addInput path) p.together =
      (paths.foldlM (fun (q : Progress) path => q.addInput path) p).map together := by
  induction paths generalizing p with
  | nil => rfl
  | cons path paths ih =>
    rw [List.foldlM_cons, List.foldlM_cons, addInput_together]
    cases p.addInput path with
    | error fault => rfl
    | ok q => exact ih q

variable {invocation : Invocation}

/-- The flag asks for the same extraction, with all inputs parsed together. -/
theorem request_together (h : p.request = .ok (.extract invocation)) :
    p.together.request = .ok (.extract { invocation with parallel := true }) := by
  rw [request, resolve_together]
  rw [request] at h
  cases hresolved : p.resolve with
  | error fault => rw [hresolved] at h; cases h
  | ok settled => rw [hresolved] at h; cases h; rfl

/-- An extraction is together if the flag was given before. -/
theorem parallel_of_request (h : p.request = .ok (.extract invocation)) (hp : p.parallel = true) :
    invocation.parallel = true := by
  have htogether := request_together h
  rw [together_eq_self hp, h] at htogether
  have hinvocation : invocation = { invocation with parallel := true } := by
    simpa using htogether
  rw [hinvocation]

/-- A flag that was given is not lost. -/
theorem parallel_of_readFrom {arguments : List String}
    (h : p.readFrom arguments = .ok (.extract invocation)) (hp : p.parallel = true) :
    invocation.parallel = true := by
  fun_induction readFrom p arguments with
  | case1 p => exact parallel_of_request h hp
  | case2 p rest =>
    have hadd := addInputs_together rest p
    rw [together_eq_self hp] at hadd
    cases hinputs : rest.foldlM (fun (q : Progress) path => q.addInput path) p with
    | error fault => rw [hinputs] at h; cases h
    | ok q =>
      rw [hinputs] at h hadd
      have hq : q = q.together := Except.ok.inj hadd
      exact parallel_of_request h (by rw [hq]; rfl)
  | case3 => cases h
  | case4 p argument rest hne request hnext =>
    cases h
    exact absurd hnext ((follows_next argument).ne_extract p invocation)
  | case5 p argument rest hne q hnext ih => exact ih h (parallel_of_next hnext hp)

/-- Arguments that do not give the flag are read alike after it. -/
theorem readFrom_together {arguments : List String}
    (h : p.readFrom arguments = .ok (.extract invocation)) (hflag : invocation.parallel = false) :
    p.together.readFrom arguments = .ok (.extract { invocation with parallel := true }) := by
  fun_induction readFrom p arguments with
  | case1 p => exact request_together h
  | case2 p rest =>
    rw [readFrom, addInputs_together]
    cases hinputs : rest.foldlM (fun (q : Progress) path => q.addInput path) p with
    | error fault => rw [hinputs] at h; cases h
    | ok q =>
      rw [hinputs] at h
      exact request_together h
  | case3 => cases h
  | case4 p argument rest hne request hnext =>
    cases h
    exact absurd hnext ((follows_next argument).ne_extract p invocation)
  | case5 p argument rest hne q hnext ih =>
    rcases (follows_next argument).together p with halike | hgiven
    · rw [hnext] at halike
      rw [readFrom, halike]
      · exact ih h
      · exact hne
    · -- after the flag, the extraction would be together
      obtain ⟨r, ⟨⟩, hparallel⟩ := hgiven _ hnext
      rw [parallel_of_readFrom h hparallel] at hflag
      cases hflag

end Progress

/-- Put before other arguments, the flag changes nothing but how inputs are parsed. -/
theorem read_parallel_cons {arguments : List String} {invocation : Invocation}
    (h : read arguments = .ok (.extract invocation)) (hflag : invocation.parallel = false) :
    read ("--parallel" :: arguments) = .ok (.extract { invocation with parallel := true }) :=
  Progress.readFrom_together h hflag

end TypeCatalog.CommandLine
