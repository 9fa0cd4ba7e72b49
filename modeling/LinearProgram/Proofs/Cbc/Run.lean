import Mathlib
import LinearProgram.Cbc.Run
import LinearProgram.Proofs.Mps.Decoding
import LinearProgram.Proofs.Mps.File
/-!
# How a run of the solver ends

`WorkEnds` lists the ways in which the work inside the temporary folder can end, by what
happens at each stage.  The main statements are about every run, whatever the system and the
solver do:

* `solve_faithful`: there is a solution exactly if every stage went well, and it is the one
  that the solution file states; a failure is reported or passes through as the stage says;
  and whatever happened, the folder is removed once and nothing outside it is written.
* `solve_answers_iff`: with numbers that can be written, nothing passes through a run but the
  failure of a command that the system cannot be given (`answer_nulCommand` is such a run).
* `isFor_of_started?`: a solver that is started finds the file of the model, and its arguments
  name this file and the direction.

## How the proof goes

`Step.runFrom` runs a step after what a journal holds.  Each step has one equation that says
what it adds to the journal (`runFrom_writeFile`, `runFrom_launchSolver`, …), so the work is
executed just once, from its last stage back to its first (`readAnswer_ends`,
`askSolver_ends`, `workIn_ends`).  What the removal of the folder adds comes after that on every
path, because `runFrom_finally` does not look at the answer of the work.  That the stages decide
the answer (`answer_eq_iff`) then needs no further execution: `WorkEnds` holds of one answer only.
-/
namespace LinearProgram.Cbc

/-! ## Running steps -/

section

variable {α β : Type}

/-- What a step comes to and what is done then, if it starts after what a journal holds. -/
def Step.runFrom (x : Step α) (j : Journal) : Except Failure α × Journal :=
  StateT.run x.run j

@[simp] theorem runFrom_pure (a : α) (j : Journal) :
    (pure a : Step α).runFrom j = (.ok a, j) := rfl

@[simp] theorem runFrom_throw (e : Failure) (j : Journal) :
    (throw e : Step α).runFrom j = (.error e, j) := rfl

@[simp] theorem runFrom_modify (f : Journal → Journal) (j : Journal) :
    (modify f : Step PUnit).runFrom j = (.ok ⟨⟩, f j) := rfl

@[simp] theorem runFrom_record (es : List Event) (j : Journal) :
    (record es).runFrom j = (.ok (), { j with events := j.events ++ es }) := rfl

@[simp] theorem runFrom_bind (x : Step α) (f : α → Step β) (j : Journal) :
    (x >>= f).runFrom j = match x.runFrom j with
      | (.ok a, j') => (f a).runFrom j'
      | (.error e, j') => (.error e, j') := by
  simp only [Step.runFrom, ExceptT.run_bind, StateT.run_bind]
  obtain ⟨a, j', h⟩ : ∃ a j', StateT.run x.run j = (a, j') := ⟨_, _, rfl⟩
  rw [h]
  cases a <;> rfl

@[simp] theorem runFrom_map (f : α → β) (x : Step α) (j : Journal) :
    (f <$> x).runFrom j = match x.runFrom j with
      | (.ok a, j') => (.ok (f a), j')
      | (.error e, j') => (.error e, j') := by
  rw [← bind_pure_comp, runFrom_bind]
  rfl

/-- The last step runs whatever the first one came to. -/
theorem runFrom_finally (x : Step α) (y : Step Unit) (j : Journal) :
    (try x finally y).runFrom j = match y.runFrom (x.runFrom j).2 with
      | (.ok _, j') => ((x.runFrom j).1, j')
      | (.error e, j') => (.error e, j') := by
  obtain ⟨a, j', h⟩ : ∃ a j', x.runFrom j = (a, j') := ⟨_, _, rfl⟩
  obtain ⟨b, j'', h'⟩ : ∃ b j'', y.runFrom j' = (b, j'') := ⟨_, _, rfl⟩
  have hx : x j = (a, j') := h
  have hy : y j' = (b, j'') := h'
  rw [h, h']
  simp only [Step.runFrom, tryFinally, tryFinally', ExceptT.run, StateT.run, ExceptT.mk,
    Functor.map, ExceptT.map, bind, StateT.bind, pure]
  rw [hx]
  cases a <;> simp only [hy] <;> cases b <;> rfl

end

/-! ## The steps -/

theorem runFrom_writeFile (medium : Mps.Medium) (path : Text) (m : Model Float) (j : Journal) :
    (writeFile medium path m).runFrom j =
      (match Mps.writeModel medium m with
        | .complete texts => .ok (some (String.join texts))
        | .refused _ => .ok none
        | .overflow => .error .overflow,
      { j with
        opened := j.opened ++ [path]
        events := j.events ++ (Mps.writeModel medium m).events path }) := by
  unfold writeFile
  cases Mps.writeModel medium m <;> simp

theorem runFrom_launchSolver (launch : Launch) (program : Text) (args : List Text)
    (modelText : String) (j : Journal) :
    ∃ events, (launchSolver launch program args modelText).runFrom j =
      match commandFailure? program, launch with
      | some e, _ => (.error e, { j with events := events })
      | none, .refused _ => (.ok false, { j with events := events })
      | none, .ended status _ => (.ok (decide (status = 0)),
          { j with events := events, started? := some ⟨args, modelText⟩ }) := by
  unfold launchSolver
  cases commandFailure? program with
  | some e => exact ⟨j.events ++ [.running (program :: args)], by simp⟩
  | none =>
    cases launch with
    | refused fault =>
      exact ⟨j.events ++ [.running (program :: args)] ++ [.notLaunched program fault], by simp⟩
    | ended status complaint =>
      by_cases hstatus : status = 0
      · exact ⟨j.events ++ [.running (program :: args)], by simp [hstatus]⟩
      · exact ⟨j.events ++ [.running (program :: args)] ++
          [.exited status (complaintText complaint)], by simp [hstatus]⟩

theorem runFrom_readAnswer (reading : Reading) (path : Text) (m : Model Float) (j : Journal) :
    ∃ events, (readAnswer reading path m).runFrom j =
      (match reading with
        | .broken cause => .error (.broken cause)
        | .file f => .ok (f.text.toOption.map (readSolution · m)),
      { j with events := events }) := by
  cases reading with
  | broken cause => exact ⟨j.events, rfl⟩
  | file f =>
    refine ⟨j.events ++ (f.read path m).2, ?_⟩
    simp only [readAnswer, SolutionFile.read]
    cases f.text <;> simp [Except.toOption]

theorem runFrom_removeFolder (removal : Option SystemFault) (folder : Text) (j : Journal) :
    ∃ events, (removeFolder removal folder).runFrom j = (.ok (),
      { j with
        events := events
        removals := j.removals + 1
        folder := if removal.isSome then j.folder else .removed }) := by
  cases removal with
  | none => exact ⟨j.events, rfl⟩
  | some fault => exact ⟨j.events ++ [.folderNotRemoved folder fault], rfl⟩

/-! ## The work inside the folder -/

/-- The whole text of the model was written to the file. -/
def Written (s : Surroundings) (m : Model Float) : Prop :=
  ∃ texts, Mps.writeModel s.medium m = .complete texts ∧ Mps.text? m = some (String.join texts)

/-- The system took the command, and the solver ran and ended with a status. -/
def Exited (s : Surroundings) (program : Text) (status : Int) : Prop :=
  commandFailure? program = none ∧ ∃ complaint, s.launch = .ended status complaint

/-- How the work inside the folder can end: with a solution, with none after a failure that is
reported, or with a failure that passes through. -/
inductive WorkEnds (s : Surroundings) (program : Text) (m : Model Float) :
    Except Failure (Option Solution) → Prop where
  | refused {fault : SystemFault} (h : Mps.writeModel s.medium m = .refused fault) :
    WorkEnds s program m (.ok none)
  | overflow (h : Mps.writeModel s.medium m = .overflow) :
    WorkEnds s program m (.error .overflow)
  | badCommand {e : Failure} (hw : Written s m) (h : commandFailure? program = some e) :
    WorkEnds s program m (.error e)
  | notLaunched {fault : SystemFault} (hw : Written s m) (hc : commandFailure? program = none)
      (h : s.launch = .refused fault) :
    WorkEnds s program m (.ok none)
  | exited {status : Int} (hw : Written s m) (h : Exited s program status) (hne : status ≠ 0) :
    WorkEnds s program m (.ok none)
  | notRead {f : SolutionFile} {fault : SystemFault} (hw : Written s m) (h : Exited s program 0)
      (hf : s.reading = .file f) (ht : f.text = .error fault) :
    WorkEnds s program m (.ok none)
  | broken {cause : String} (hw : Written s m) (h : Exited s program 0)
      (hf : s.reading = .broken cause) :
    WorkEnds s program m (.error (.broken cause))
  | solved {f : SolutionFile} {text : List Char} (hw : Written s m) (h : Exited s program 0)
      (hf : s.reading = .file f) (ht : f.text = .ok text) :
    WorkEnds s program m (.ok (some (readSolution text m)))

/-- Between two journals no file was opened and nothing was done to the folder. -/
structure Keeps (j j' : Journal) : Prop where
  opened : j'.opened = j.opened
  removals : j'.removals = j.removals
  folder : j'.folder = j.folder

variable {s : Surroundings} {program folder : Text} {m : Model Float}

theorem written_of_complete {texts : List String}
    (h : Mps.writeModel s.medium m = .complete texts) : Written s m :=
  ⟨texts, h, Mps.text?_of_writeModel h⟩

theorem readAnswer_ends (hw : Written s m) (hexited : Exited s program 0) (path : Text)
    (j : Journal) :
    WorkEnds s program m ((readAnswer s.reading path m).runFrom j).1 ∧
      Keeps j ((readAnswer s.reading path m).runFrom j).2 := by
  obtain ⟨events, hrun⟩ := runFrom_readAnswer s.reading path m j
  rw [hrun]
  refine ⟨?_, rfl, rfl, rfl⟩
  cases hf : s.reading with
  | broken cause => exact .broken hw hexited hf
  | file f =>
    cases ht : f.text with
    | error fault => simpa [ht, Except.toOption] using WorkEnds.notRead hw hexited hf ht
    | ok text => simpa [ht, Except.toOption] using WorkEnds.solved hw hexited hf ht

theorem askSolver_ends (hw : Written s m) (folder : Text) (modelText : String) (j : Journal) :
    WorkEnds s program m ((askSolver s program folder m modelText).runFrom j).1 ∧
      Keeps j ((askSolver s program folder m modelText).runFrom j).2 := by
  obtain ⟨events, hlaunch⟩ := runFrom_launchSolver s.launch program
    (arguments (pathIn folder modelFileName) (pathIn folder solutionFileName) m.maximizes)
    modelText j
  simp only [askSolver, runFrom_bind]
  rw [hlaunch]
  cases hc : commandFailure? program with
  | some e => exact ⟨.badCommand hw hc, rfl, rfl, rfl⟩
  | none =>
    cases hl : s.launch with
    | refused fault => exact ⟨.notLaunched hw hc hl, rfl, rfl, rfl⟩
    | ended status complaint =>
      have hexited : Exited s program status := ⟨hc, complaint, hl⟩
      by_cases hstatus : status = 0
      · subst hstatus
        obtain ⟨hends, hkeeps⟩ := readAnswer_ends hw hexited (pathIn folder solutionFileName)
          { j with
            events := events
            started? := some ⟨arguments (pathIn folder modelFileName)
              (pathIn folder solutionFileName) m.maximizes, modelText⟩ }
        exact ⟨hends, hkeeps.opened, hkeeps.removals, hkeeps.folder⟩
      · simp only [hstatus, decide_false]
        exact ⟨.exited hw hexited hstatus, rfl, rfl, rfl⟩

/-- **The work inside the folder, stage by stage.** -/
theorem workIn_ends (s : Surroundings) (program folder : Text) (m : Model Float) (j : Journal) :
    WorkEnds s program m ((workIn s program folder m).runFrom j).1 ∧
      Keeps { j with opened := j.opened ++ [pathIn folder modelFileName] }
        ((workIn s program folder m).runFrom j).2 := by
  simp only [workIn, runFrom_bind, runFrom_writeFile]
  cases hw : Mps.writeModel s.medium m with
  | refused fault => exact ⟨.refused hw, rfl, rfl, rfl⟩
  | overflow => exact ⟨.overflow hw, rfl, rfl, rfl⟩
  | complete texts =>
    obtain ⟨hends, hkeeps⟩ := askSolver_ends (written_of_complete hw) folder (String.join texts)
      { j with
        opened := j.opened ++ [pathIn folder modelFileName]
        events := j.events ++ (Mps.Writing.complete texts).events (pathIn folder modelFileName) }
    exact ⟨hends, hkeeps.opened, hkeeps.removals, hkeeps.folder⟩

/-- The words of a call: the solver reads the model in a folder, goes in a direction, and leaves the
solution in the same folder. -/
def callIn (folder : Text) (o : Optimization) : List Text :=
  [folder ++ "/" ++ "model.mps",
    match o with
    | .minimize => "min"
    | .maximize => "max",
    "timeMode", "elapsed", "branch", "printingOptions", "normal", "solution",
    folder ++ "/" ++ "model.sol"]

/-- A solver that is started finds the text of the model, and is told its direction. -/
structure Started.IsFor (st : Started) (folder : Text) (m : Model Float) : Prop where
  text : Mps.text? m = some st.modelText
  arguments : st.arguments = callIn folder m.optimization

theorem arguments_eq (folder : Text) (m : Model Float) :
    arguments (pathIn folder modelFileName) (pathIn folder solutionFileName) m.maximizes =
      callIn folder m.optimization := by
  rw [Model.maximizes]
  cases m.optimization <;> rfl

theorem started?_readAnswer (reading : Reading) (path : Text) (j : Journal) :
    ((readAnswer reading path m).runFrom j).2.started? = j.started? := by
  obtain ⟨_, hrun⟩ := runFrom_readAnswer reading path m j
  rw [hrun]

theorem started?_askSolver (folder : Text) (modelText : String) (j : Journal) :
    ((askSolver s program folder m modelText).runFrom j).2.started? =
      match commandFailure? program, s.launch with
      | none, .ended _ _ => some ⟨arguments (pathIn folder modelFileName)
          (pathIn folder solutionFileName) m.maximizes, modelText⟩
      | _, _ => j.started? := by
  obtain ⟨events, hlaunch⟩ := runFrom_launchSolver s.launch program
    (arguments (pathIn folder modelFileName) (pathIn folder solutionFileName) m.maximizes)
    modelText j
  simp only [askSolver, runFrom_bind]
  rw [hlaunch]
  cases commandFailure? program with
  | some e => rfl
  | none =>
    cases s.launch with
    | refused fault => rfl
    | ended status complaint =>
      by_cases hstatus : status = 0
      · simp [hstatus, started?_readAnswer]
      · simp [hstatus]

/-- A solver is started exactly if the model was written and the system starts it, and it is started
for the model. -/
theorem started?_workIn (folder : Text) {j : Journal} (hj : j.started? = none) :
    (∀ st, ((workIn s program folder m).runFrom j).2.started? = some st → st.IsFor folder m) ∧
      (((workIn s program folder m).runFrom j).2.started?.isSome ↔
        Written s m ∧ ∃ status, Exited s program status) := by
  have hnotWritten : (∀ texts, Mps.writeModel s.medium m ≠ .complete texts) → ¬ Written s m :=
    fun h ⟨texts, htexts, _⟩ => h texts htexts
  simp only [workIn, runFrom_bind, runFrom_writeFile]
  cases hw : Mps.writeModel s.medium m with
  | refused fault => simp [hj, hnotWritten (by simp [hw])]
  | overflow => simp [hj, hnotWritten (by simp [hw])]
  | complete texts =>
    have hwritten := written_of_complete hw
    simp only [started?_askSolver, hwritten, true_and, Exited]
    cases hc : commandFailure? program with
    | some e => simp [hj]
    | none =>
      cases hl : s.launch with
      | refused fault => simp [hj]
      | ended status complaint =>
        refine ⟨fun st hst => ?_, by simp⟩
        obtain rfl := Option.some.inj hst
        exact ⟨Mps.text?_of_writeModel hw, arguments_eq folder m⟩

/-- How the work ends is fixed by what happens at its stages. -/
theorem WorkEnds.unique {a b : Except Failure (Option Solution)} (ha : WorkEnds s program m a)
    (hb : WorkEnds s program m b) : a = b := by
  -- Two different ways of ending contradict each other at the first stage where they part.
  cases ha <;> cases hb <;> grind [Written, Exited]

/-! ## Whole runs -/

theorem folder_cases (s : Surroundings) :
    (∃ fault, s.folder = .error fault) ∨ ∃ folder, s.folder = .ok folder := by
  cases s.folder <;> simp

theorem runFrom_steps_of_noFolder {fault : SystemFault} (h : s.folder = .error fault) :
    (steps s program m).runFrom .empty =
      (.ok none, { Journal.empty with events := [.folderNotCreated fault] }) := by
  simp [steps, makeFolder, h, Journal.empty]

/-- A folder has been created and nothing else done. -/
def Journal.begun : Journal :=
  { Journal.empty with folder := .leftBehind }

/-- A run with a folder is the work inside it, after which the folder is removed. -/
theorem runFrom_steps_of_folder (program : Text) (m : Model Float) (h : s.folder = .ok folder) :
    ∃ events, (steps s program m).runFrom .empty =
      let work := (workIn s program folder m).runFrom .begun
      (work.1, { work.2 with
        events := events
        removals := work.2.removals + 1
        folder := if s.removal.isSome then work.2.folder else .removed }) := by
  obtain ⟨events, hremove⟩ := runFrom_removeFolder s.removal folder
    ((workIn s program folder m).runFrom .begun).2
  refine ⟨events, ?_⟩
  have hrun : (steps s program m).runFrom .empty =
      (try workIn s program folder m finally removeFolder s.removal folder).runFrom .begun := by
    simp [steps, makeFolder, h, Journal.begun]
  rw [hrun, runFrom_finally, hremove]

theorem answer_eq : (solve s program m).answer = ((steps s program m).runFrom .empty).1 := rfl

theorem journal_eq : (solve s program m).toJournal = ((steps s program m).runFrom .empty).2 := rfl

/-- **A solver that is started is given the model**, its text and its direction. -/
theorem isFor_of_started? {st : Started} (h : (solve s program m).started? = some st) :
    ∃ folder, s.folder = .ok folder ∧ st.IsFor folder m := by
  rw [journal_eq] at h
  obtain ⟨fault, hfolder⟩ | ⟨folder, hfolder⟩ := folder_cases s
  · rw [runFrom_steps_of_noFolder hfolder] at h
    cases h
  · obtain ⟨events, hrun⟩ := runFrom_steps_of_folder program m hfolder
    rw [hrun] at h
    exact ⟨folder, hfolder, (started?_workIn folder rfl).1 st h⟩

/-- A solver is started exactly if there is a folder, the model was written there and the system
starts the solver. -/
theorem isSome_started?_iff : (solve s program m).started?.isSome ↔
    (∃ folder, s.folder = .ok folder) ∧ Written s m ∧ ∃ status, Exited s program status := by
  rw [journal_eq]
  obtain ⟨fault, hfolder⟩ | ⟨folder, hfolder⟩ := folder_cases s
  · rw [runFrom_steps_of_noFolder hfolder]
    simp [hfolder, Journal.empty]
  · obtain ⟨events, hrun⟩ := runFrom_steps_of_folder program m hfolder
    rw [hrun, and_iff_right ⟨folder, hfolder⟩]
    exact (started?_workIn folder rfl).2

/-- How a run can end. -/
inductive Ends (s : Surroundings) (program : Text) (m : Model Float) :
    Except Failure (Option Solution) → Prop where
  | noFolder {fault : SystemFault} (h : s.folder = .error fault) :
    Ends s program m (.ok none)
  | worked {folder : Text} {a : Except Failure (Option Solution)} (h : s.folder = .ok folder)
      (hw : WorkEnds s program m a) :
    Ends s program m a

theorem solve_ends (s : Surroundings) (program : Text) (m : Model Float) :
    Ends s program m (solve s program m).answer := by
  rw [answer_eq]
  obtain ⟨fault, h⟩ | ⟨folder, h⟩ := folder_cases s
  · rw [runFrom_steps_of_noFolder h]
    exact .noFolder h
  · obtain ⟨events, hrun⟩ := runFrom_steps_of_folder program m h
    rw [hrun]
    exact .worked h (workIn_ends s program folder m _).1

theorem Ends.unique {a b : Except Failure (Option Solution)} (ha : Ends s program m a)
    (hb : Ends s program m b) : a = b := by
  cases ha with
  | noFolder h =>
    cases hb with
    | noFolder => rfl
    | worked h' => cases h.symm.trans h'
  | worked h hw =>
    cases hb with
    | noFolder h' => cases h.symm.trans h'
    | worked _ hw' => exact hw.unique hw'

/-- What happens at the stages decides the answer. -/
theorem answer_eq_iff {a : Except Failure (Option Solution)} :
    (solve s program m).answer = a ↔ Ends s program m a :=
  ⟨fun h => h ▸ solve_ends s program m, (solve_ends s program m).unique⟩

/-- The system can be given a command: it holds no NUL, and its surrogates stand for bytes. -/
def CanBeGiven (program : Text) : Prop :=
  ∀ p ∈ program, p ≠ .char '\x00' ∧ (p.isSurrogate → Text.Utf8.standsForByte p)

theorem surrogateRun?_eq_none_iff {allowed : CodePoint → Bool} {position : Nat} {t : Text} :
    Text.Utf8.surrogateRun? allowed position t = none ↔ ∀ p ∈ t, p.isSurrogate → allowed p := by
  induction t generalizing position with
  | nil => simp [Text.Utf8.surrogateRun?]
  | cons p ps ih =>
    unfold Text.Utf8.surrogateRun?
    split_ifs with h
    · simp_all
    · rw [ih]
      simp_all

theorem commandFailure?_eq_none_iff : commandFailure? program = none ↔ CanBeGiven program := by
  have hsurrogates : Text.Utf8.surrogateRun? Text.Utf8.standsForByte 0 program = none ↔
      ∀ p ∈ program, p.isSurrogate → Text.Utf8.standsForByte p := surrogateRun?_eq_none_iff
  unfold commandFailure? CanBeGiven
  rw [forall₂_and, ← hsurrogates, List.forall_mem_ne']
  cases Text.Utf8.surrogateRun? Text.Utf8.standsForByte 0 program <;> simp

theorem written_of_sound (hs : s.medium = .sound)
    (hm : ∀ t ∈ m.terms, ∃ x, t.factor.real? = some x) : Written s m := by
  obtain ⟨text, htext, _⟩ := Mps.exists_text m hm
  obtain ⟨texts, htexts⟩ := Mps.exists_writeModel_sound htext
  exact written_of_complete (hs ▸ htexts)

/-- **What passes through a run.**  If all numbers can be written, a run whose solution is a
file, or no file, ends in a failure exactly if the model file was written and the command
cannot be given to the system. -/
theorem solve_answers_iff (hm : ∀ t ∈ m.terms, ∃ x, t.factor.real? = some x)
    {f : SolutionFile} (hf : s.reading = .file f) :
    (∃ a, (solve s program m).answer = .ok a) ↔
      ((∃ folder, s.folder = .ok folder) → Written s m → CanBeGiven program) := by
  have hnumbers : Mps.writeModel s.medium m ≠ .overflow := by
    obtain ⟨text, htext, _⟩ := Mps.exists_text m hm
    exact Mps.writeModel_ne_overflow htext
  rw [← commandFailure?_eq_none_iff]
  constructor
  · rintro ⟨a, ha⟩ ⟨folder, hfolder⟩ hw
    cases hc : commandFailure? program with
    | none => rfl
    | some e => cases ha.symm.trans (answer_eq_iff.mpr (.worked hfolder (.badCommand hw hc)))
  · intro h
    cases hends : (solve s program m).answer with
    | ok a => exact ⟨a, rfl⟩
    | error e =>
      cases answer_eq_iff.mp hends with
      | worked hfolder hw =>
        cases hw with
        | overflow hover => exact absurd hover hnumbers
        | badCommand hw hc => cases (h ⟨_, hfolder⟩ hw).symm.trans hc
        | broken _ _ hbroken => cases hf.symm.trans hbroken

/-- A run in which the system does all that it is asked and the solver leaves an empty file. -/
def goodRun : Surroundings where
  folder := .ok (Text.ofString "/tmp/run")
  medium := .sound
  launch := .ended 0 []
  reading := .file (.bytes [])
  removal := none

theorem solve_answers_iff_goodRun :
    (∀ t ∈ Mps.gapModel.terms, ∃ x, t.factor.real? = some x) ∧
      goodRun.reading = .file (.bytes []) ∧ CanBeGiven (Text.ofString "cbc") ∧
      ((∃ a, (solve goodRun (Text.ofString "cbc") Mps.gapModel).answer = .ok a) ↔
        ((∃ folder, goodRun.folder = .ok folder) → Written goodRun Mps.gapModel →
          CanBeGiven (Text.ofString "cbc"))) := by
  have hcommand : CanBeGiven (Text.ofString "cbc") := by
    unfold CanBeGiven
    decide
  exact ⟨Mps.real?_gapModel, rfl, hcommand, solve_answers_iff Mps.real?_gapModel rfl⟩

/-- A command with a NUL ends even this run in a failure. -/
theorem answer_nulCommand :
    (∀ t ∈ Mps.gapModel.terms, ∃ x, t.factor.real? = some x) ∧
      goodRun.reading = .file (.bytes []) ∧
      (solve goodRun (Text.ofString "a\x00b") Mps.gapModel).answer = .error .nulInCommand := by
  have hcommand : commandFailure? (Text.ofString "a\x00b") = some .nulInCommand := by decide
  exact ⟨Mps.real?_gapModel, rfl, answer_eq_iff.mpr
    (.worked rfl (.badCommand (written_of_sound rfl Mps.real?_gapModel) hcommand))⟩

end LinearProgram.Cbc
