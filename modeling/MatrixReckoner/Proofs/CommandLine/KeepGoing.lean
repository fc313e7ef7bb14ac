import MatrixReckoner.Proofs.CommandLine.Arguments

/-!
A run that keeps going behind a failure, next to the run that stops there.

* `AddsOutput`: an outcome with more output and more errors than another, and with the same code.
* `addsOutput_evaluateLines`: so it is for the same lines.
* `Reading.goOn`, `Reading.Carries`: arguments are read on alike where the option to keep going was
  given before.
* `read_keepGoing`: the option changes nothing else in the options.
* `addsOutput_keepGoing`: it only adds output and errors.
-/

namespace MatrixReckoner.CommandLine

open Expression

/-! ### Lines -/

/-- Two outcomes have the same code, the output of one starts that of the other, and the only error
of the one, if there is any, is the first of the other. -/
structure AddsOutput (stopping going : Outcome) : Prop where
  code : stopping.code = going.code
  output : stopping.output <+: going.output
  errors : stopping.errors = going.errors.take 1
  reported : stopping.errors ≠ [] ↔ stopping.code = 1

/-- Behind the first failure there is only more output and there are only more failures. -/
lemma evaluateLines_keepGoing (lines : List (Except ReadFailure (List Char))) :
    (evaluateLines false lines).output <+: (evaluateLines true lines).output ∧
      (evaluateLines false lines).failures = (evaluateLines true lines).failures.take 1 := by
  induction lines with
  | nil => exact ⟨List.prefix_rfl, rfl⟩
  | cons line lines ih =>
      rcases line with failure | line
      · exact ⟨List.prefix_rfl, rfl⟩
      rw [evaluateLines, evaluateLines]
      by_cases hblank : line.all isBlank = true
      · rw [if_pos hblank, if_pos hblank]
        exact ih
      · rw [if_neg hblank, if_neg hblank]
        rcases Expression.evaluate line with e | a
        · exact ⟨List.nil_prefix, rfl⟩
        · exact ⟨(List.prefix_append_right_inj _).mpr ih.1, ih.2⟩

lemma addsOutput_evaluateLines (lines : List (Except ReadFailure (List Char))) :
    AddsOutput (evaluateLines false lines).outcome (evaluateLines true lines).outcome := by
  obtain ⟨houtput, hfailures⟩ := evaluateLines_keepGoing lines
  refine ⟨?_, houtput, hfailures, ?_⟩
  · simp only [Report.outcome, hfailures]
    cases (evaluateLines true lines).failures <;> rfl
  · simp [Report.outcome]

/-- Whatever the lines come from, and if there are none because a file cannot be opened. -/
lemma addsOutput_runOptions (world : World) (options : Options) :
    AddsOutput (runOptions world { options with keepGoing := false })
      (runOptions world { options with keepGoing := true }) := by
  by_cases hexpressions : options.expressions = []
  · rw [runOptions, if_neg (not_not.mpr hexpressions), runOptions,
      if_neg (not_not.mpr hexpressions)]
    dsimp only
    cases options.file with
    | none => exact addsOutput_evaluateLines _
    | some name =>
        dsimp only
        cases world.openFile name with
        | ok input => exact addsOutput_evaluateLines _
        | error e => exact ⟨rfl, List.prefix_rfl, rfl, by simp⟩
  · rw [runOptions, if_pos hexpressions, runOptions, if_pos hexpressions]
    exact addsOutput_evaluateLines _

/-! ### Arguments -/

namespace Reading

/-- The state with the option to keep going given. -/
def goOn (s : Reading) : Reading :=
  { s with options.keepGoing := true }

/-- If an operation does not lead to the option to keep going, it does not come from it, and it does
the same where the option is given. -/
def Carries (f : Reading → Except Stop Reading) : Prop :=
  ∀ s s' : Reading, f s = .ok s' → s'.options.keepGoing = false →
    s.options.keepGoing = false ∧ f s.goOn = .ok s'.goOn

variable {f g : Reading → Except Stop Reading}

/-- An operation that does not touch the option. -/
lemma carries_update {f : Reading → Reading} (hgoOn : ∀ s, f s.goOn = (f s).goOn)
    (hkeep : ∀ s, (f s).options.keepGoing = s.options.keepGoing) :
    Carries fun s => .ok (f s) := by
  intro s s' h hs'
  cases h
  exact ⟨(hkeep s).symm.trans hs', congrArg Except.ok (hgoOn s)⟩

lemma carries_error (stop : Stop) : Carries fun _ => .error stop := by
  intro s s' h
  cases h

lemma Carries.bind (hf : Carries f) (hg : Carries g) : Carries fun s => f s >>= g := by
  intro s s' h hs'
  obtain ⟨t, hfs, hgt⟩ := bind_eq_ok_iff.mp h
  obtain ⟨ht, hgt⟩ := hg t s' hgt hs'
  obtain ⟨hs, hfs⟩ := hf s t hfs ht
  exact ⟨hs, bind_eq_ok_iff.mpr ⟨t.goOn, hfs, hgt⟩⟩

/-- The same values are due. -/
lemma Carries.nothingDue (hf : Carries f) : Carries fun s => s.nothingDue >>= fun _ => f s := by
  intro s s' h hs'
  obtain ⟨_, hdue, hfs⟩ := bind_eq_ok_iff.mp h
  obtain ⟨hs, hfs⟩ := hf s s' hfs hs'
  exact ⟨hs, bind_eq_ok_iff.mpr ⟨(), hdue, hfs⟩⟩

/-- A condition that does not look at the option. -/
lemma Carries.ite {p : Reading → Prop} [DecidablePred p] (hp : ∀ s, p s.goOn ↔ p s)
    (hf : Carries f) (hg : Carries g) : Carries fun s => if p s then f s else g s := by
  intro s s' h hs'
  dsimp only at h ⊢
  by_cases hs : p s
  · rw [if_pos hs] at h
    rw [if_pos ((hp s).mpr hs)]
    exact hf s s' h hs'
  · rw [if_neg hs] at h
    rw [if_neg (mt (hp s).mp hs)]
    exact hg s s' h hs'

lemma carries_switch (option : Switch) : Carries (·.switch option) := by
  cases option with
  | debug =>
      refine Carries.nothingDue ?_
      exact .ite (fun _ => Iff.rfl) (carries_error .usage)
        (carries_update (fun _ => rfl) fun _ => rfl)
  | keepGoing =>
      refine Carries.nothingDue fun s s' h hs' => ?_
      -- the option is repeated, or given
      dsimp only at h
      split at h
      · cases h
      · cases h
        cases hs'
  | version => exact Carries.nothingDue (carries_error .version)
  | help long => exact Carries.nothingDue (carries_error (.help long))

lemma carries_assign (option : Setting) (value : String) : Carries (·.assign option value) := by
  cases option with
  | expression => exact carries_update (fun _ => rfl) fun _ => rfl
  | logLevel =>
      intro s s' h hs'
      rcases s with ⟨⟨debug, logLevel, keepGoing, expressions, file⟩, due, escaped⟩
      dsimp only [assign, goOn] at h ⊢
      split at h
      · cases h
        exact ⟨hs', rfl⟩
      · cases h

lemma carries_setting (option : Setting) (value : Option (List Char)) :
    Carries (·.setting option value) := by
  cases value with
  | none => exact Carries.nothingDue (carries_update (fun _ => rfl) fun _ => rfl)
  | some value => exact Carries.nothingDue (carries_assign option _)

lemma carries_long (name : List Char) (value : Option (List Char)) :
    Carries (·.long name value) := by
  unfold long
  split
  · exact carries_switch _
  · exact carries_setting _ _
  · exact carries_error _

lemma carries_short (letters : List Char) : Carries (·.short letters) := by
  induction letters with
  | nil => exact carries_update (fun _ => rfl) fun _ => rfl
  | cons letter letters ih =>
      simp only [short]
      split
      · exact (carries_switch _).bind ih
      · split <;> exact carries_setting _ _
      · exact carries_error _

lemma carries_file (name : String) : Carries (·.file name) := by
  refine Carries.nothingDue ?_
  exact .ite (fun _ => Iff.rfl) (carries_error .usage)
    (carries_update (fun _ => rfl) fun _ => rfl)

lemma carries_step (text : String) : Carries (·.step text) := by
  refine .ite (p := (·.escaped = true)) (fun _ => Iff.rfl) (carries_file text) ?_
  split
  · exact carries_update (fun _ => rfl) fun _ => rfl
  · exact carries_long _ _
  · exact carries_short _
  · intro s s' h hs'
    have hdue : s.goOn.due = s.due := rfl
    dsimp only at h ⊢
    rw [hdue]
    split at h
    · next option _ => exact carries_assign option text s s' h hs'
    · exact carries_file text s s' h hs'

lemma carries_foldlM (arguments : List String) : Carries (arguments.foldlM step) := by
  induction arguments with
  | nil => exact carries_update (fun _ => rfl) fun _ => rfl
  | cons text arguments ih =>
      simp only [List.foldlM_cons]
      exact (carries_step text).bind ih

/-- Behind two dashes alone, no option is given. -/
lemma foldlM_of_escaped {s s' : Reading} {arguments : List String} (hescaped : s.escaped = true)
    (h : arguments.foldlM step s = .ok s') : s'.options.keepGoing = s.options.keepGoing := by
  induction arguments generalizing s with
  | nil =>
      cases h
      rfl
  | cons text arguments ih =>
      rw [List.foldlM_cons] at h
      obtain ⟨t, hstep, h⟩ := bind_eq_ok_iff.mp h
      rw [step, if_pos hescaped] at hstep
      obtain ⟨_, -, hfile⟩ := bind_eq_ok_iff.mp hstep
      have ht : t.escaped = true ∧ t.options.keepGoing = s.options.keepGoing := by
        split at hfile
        · cases hfile
        · cases hfile
          exact ⟨hescaped, rfl⟩
      exact (ih ht.1 h).trans ht.2

/-! ### Options -/

variable {environment : String → Option String} {options options' : Options} {s : Reading}

/-- The environment counts only if the option is not given. -/
lemma settle_goOn (h : s.settle environment = .ok options) :
    s.goOn.settle environment = .ok { options with keepGoing := true } := by
  obtain ⟨_, hdue, h⟩ := bind_eq_ok_iff.mp h
  obtain ⟨debug, hdebug, h⟩ := bind_eq_ok_iff.mp h
  obtain ⟨logLevel, hlevel, h⟩ := bind_eq_ok_iff.mp h
  obtain ⟨keepGoing, hkeep, h⟩ := bind_eq_ok_iff.mp h
  refine bind_eq_ok_iff.mpr ⟨(), hdue, bind_eq_ok_iff.mpr ⟨debug, hdebug,
    bind_eq_ok_iff.mpr ⟨logLevel, hlevel, bind_eq_ok_iff.mpr ⟨true, rfl, ?_⟩⟩⟩⟩
  split at h
  · cases h
  · next hfile =>
      cases h
      exact if_neg hfile

lemma settle_keepGoing (h : s.settle environment = .ok options) :
    environmentSwitch s.options.keepGoing (environment "MATCALC_KEEP_GOING") =
      .ok options.keepGoing := by
  obtain ⟨_, -, h⟩ := bind_eq_ok_iff.mp h
  obtain ⟨_, -, h⟩ := bind_eq_ok_iff.mp h
  obtain ⟨_, -, h⟩ := bind_eq_ok_iff.mp h
  obtain ⟨keepGoing, hkeep, h⟩ := bind_eq_ok_iff.mp h
  split at h
  · cases h
  · cases h
    exact hkeep

/-- The option is not given if the run does not keep going. -/
lemma keepGoing_of_settle (h : s.settle environment = .ok options)
    (hstops : options.keepGoing = false) : s.options.keepGoing = false := by
  have hswitch := settle_keepGoing h
  cases hkeep : s.options.keepGoing with
  | false => rfl
  | true =>
      rw [hkeep, hstops] at hswitch
      cases hswitch

/-- The option, given, is only noted. -/
lemma eq_goOn_of_switch {u : Reading} (h : s.switch .keepGoing = .ok u) : u = s.goOn := by
  obtain ⟨_, -, h⟩ := bind_eq_ok_iff.mp h
  dsimp only at h
  split at h
  · cases h
  · exact (Except.ok.inj h).symm

end Reading

/-- The option to keep going, given anywhere among arguments, changes nothing else. -/
lemma read_keepGoing {environment : String → Option String} {before after : List String}
    {options options' : Options}
    (hstop : Options.read (before ++ after) environment = .ok options)
    (hstops : options.keepGoing = false)
    (hgo : Options.read (before ++ "--keep-going" :: after) environment = .ok options')
    (hgoes : options'.keepGoing = true) : options' = { options with keepGoing := true } := by
  rw [read_eq_settle, List.foldlM_append] at hstop hgo
  obtain ⟨t, hfold, hsettle⟩ := bind_eq_ok_iff.mp hstop
  obtain ⟨s, hbefore, hafter⟩ := bind_eq_ok_iff.mp hfold
  obtain ⟨t', hfold', hsettle'⟩ := bind_eq_ok_iff.mp hgo
  obtain ⟨s', hbefore', hafter'⟩ := bind_eq_ok_iff.mp hfold'
  obtain rfl : s = s' := Except.ok.inj (hbefore.symm.trans hbefore')
  cases hescaped : s.escaped with
  | true =>
      -- the option is the name of the file
      have hswitch := Reading.settle_keepGoing hsettle
      have hswitch' := Reading.settle_keepGoing hsettle'
      rw [Reading.foldlM_of_escaped hescaped hafter, hstops] at hswitch
      rw [Reading.foldlM_of_escaped hescaped hafter', hgoes, hswitch] at hswitch'
      cases hswitch'
  | false =>
      have ht := Reading.keepGoing_of_settle hsettle hstops
      obtain ⟨-, hgoOn⟩ := Reading.carries_foldlM after s t hafter ht
      rw [List.foldlM_cons, Reading.step_keepGoing hescaped] at hafter'
      obtain ⟨u, hstep, hafter'⟩ := bind_eq_ok_iff.mp hafter'
      obtain rfl := Reading.eq_goOn_of_switch hstep
      obtain rfl : t' = t.goOn := Except.ok.inj (hafter'.symm.trans hgoOn)
      exact Except.ok.inj (hsettle'.symm.trans (Reading.settle_goOn hsettle))

/-! ### Runs -/

/-- **Keeping going only adds output.**  Let a run be given an input, or expressions, and let it
stop at the first failure; and let the option to keep going be given besides.  Then the code is the
same, there is only more output behind the output, and the run that stops reports at most one error,
the first of those of the run that keeps going, and it reports one just in case its code is one. -/
theorem addsOutput_keepGoing (world : World) {before after : List String}
    {options options' : Options}
    (hstop : Options.read (before ++ after) world.environment = .ok options)
    (hstops : options.keepGoing = false)
    (hgo : Options.read (before ++ "--keep-going" :: after) world.environment = .ok options')
    (hgoes : options'.keepGoing = true) :
    AddsOutput (run world (before ++ after)) (run world (before ++ "--keep-going" :: after)) := by
  have hoptions := read_keepGoing hstop hstops hgo hgoes
  have hself : options = { options with keepGoing := false } := by rw [← hstops]
  rw [run, hstop, run, hgo, hoptions]
  dsimp only
  rw [hself]
  exact addsOutput_runOptions world options

/-- A file with a value, a line without one, a value, and a line that is no text. -/
theorem addsOutput_keepGoing_of_file :
    let contents := encodeText "[1]\n[1]+\n[2]\n".toList ++ [255]
    let world : World := ⟨fun _ => none, .bytes [], fun _ => .ok (.bytes contents)⟩
    let stopping := run world ["-d", "sums"]
    let going := run world ["-d", "--keep-going", "sums"]
    (Options.read ["-d", "sums"] world.environment = .ok ⟨true, none, false, [], some "sums"⟩ ∧
      Options.read ["-d", "--keep-going", "sums"] world.environment =
        .ok ⟨true, none, true, [], some "sums"⟩) ∧
    AddsOutput stopping going ∧ stopping.errors.length = 1 ∧ going.errors.length = 2 := by
  intro contents world stopping going
  have hstop : Options.read (["-d"] ++ ["sums"]) world.environment =
      .ok ⟨true, none, false, [], some "sums"⟩ := by decide +kernel
  have hgo : Options.read (["-d"] ++ "--keep-going" :: ["sums"]) world.environment =
      .ok ⟨true, none, true, [], some "sums"⟩ := by decide +kernel
  refine ⟨⟨hstop, hgo⟩, addsOutput_keepGoing world hstop rfl hgo rfl, ?_, ?_⟩
  · decide +kernel
  · decide +kernel

end MatrixReckoner.CommandLine
