import EntityFlow.Command.Invocation

/-!
# Settings on the command line

The settings for every command may stand anywhere in front of the separator `--`, and an accepted
line stays accepted without them: it then stands for the same command on the same file, with the
settings that hold when none are given (`ofArguments_withoutSettings`). An accepted line asks for
silence if and only if `--quiet` stands in front of the separator (`quiet_iff`).

The arguments after the command are read one by one, with a bound on their number. `Draft.Reads` is
that reading without the bound and without what is refused, so that a statement about accepted
lines is an induction with one case for each form of an argument.
-/

namespace EntityFlow.Invocation

/-! ## Lines without settings -/

/-- The invocation with the settings that hold when none are given. -/
def plain (i : Invocation) : Invocation := { i with output := .text, quiet := false }

/-- The arguments without the settings for every command, up to the separator. A format that is not
attached to its option is the argument behind it, and goes with it. -/
def withoutSettings : List String → List String
  | [] => []
  | arg :: rest =>
      match Argument.ofText arg with
      | .option "--" none => arg :: rest
      | .option "--quiet" _ => withoutSettings rest
      | .option "--output" (some _) => withoutSettings rest
      | .option "--output" none =>
          match rest with
          | [] => []
          | _ :: more => withoutSettings more
      | _ => arg :: withoutSettings rest

/-- The test for the front of an argument, on its characters. -/
theorem startsWith_eq (text front : String) :
    text.startsWith front = front.toList.isPrefixOf text.toList := by
  rw [Bool.eq_iff_iff, String.startsWith_string_iff, List.isPrefixOf_iff_prefix]

example : withoutSettings ["--quiet", "build", "--output", "json", "a.zdl", "--", "--quiet"] =
    ["build", "a.zdl", "--", "--quiet"] := by
  simp [withoutSettings, Argument.ofText, isOption, startsWith_eq, String.contains_char_eq]

@[simp] theorem ofText_separator : Argument.ofText "--" = .option "--" none := by
  simp [Argument.ofText, isOption, startsWith_eq, String.contains_char_eq]

@[simp] theorem ofText_quiet : Argument.ofText "--quiet" = .option "--quiet" none := by
  simp [Argument.ofText, isOption, startsWith_eq, String.contains_char_eq]

@[simp] theorem ofText_strict : Argument.ofText "--strict" = .option "--strict" none := by
  simp [Argument.ofText, isOption, startsWith_eq, String.contains_char_eq]

/-- An option without an attached value is the argument itself. -/
theorem eq_of_ofText_option {arg name : String} (read : Argument.ofText arg = .option name none) :
    arg = name := by
  unfold Argument.ofText at read
  split at read
  · split at read
    · simp at read
    · simpa using read
  · simp at read

/-- A word is the argument itself. -/
theorem eq_of_ofText_word {arg word : String} (read : Argument.ofText arg = .word word) :
    arg = word := by
  unfold Argument.ofText at read
  split at read
  · split at read <;> simp at read
  · simpa using read

/-- An argument that has not the form of an option is a word. -/
theorem ofText_of_not_isOption {arg : String} (plain : isOption arg = false) :
    Argument.ofText arg = .word arg := by
  simp [Argument.ofText, plain]

/-- A word that is not the value of an option is kept. -/
theorem withoutSettings_word {arg word : String} (read : Argument.ofText arg = .word word)
    (rest : List String) : withoutSettings (arg :: rest) = arg :: withoutSettings rest := by
  cases rest <;> simp [withoutSettings, read]

theorem withoutSettings_separator (rest : List String) :
    withoutSettings ("--" :: rest) = "--" :: rest := by
  cases rest <;> simp [withoutSettings]

theorem withoutSettings_quiet (rest : List String) :
    withoutSettings ("--quiet" :: rest) = withoutSettings rest := by
  cases rest <;> simp [withoutSettings]

/-- The value of an option is attached to it, or it is the argument behind it, which has not the
form of an option. -/
theorem optionValue?_cases {attached : Option String} {rest more : List String} {value : String}
    (taken : optionValue? attached rest = some (value, more)) :
    (attached = some value ∧ rest = more) ∨
      (attached = none ∧ rest = value :: more ∧ isOption value = false) := by
  cases attached with
  | some text =>
      obtain ⟨rfl, rfl⟩ : text = value ∧ rest = more := by simpa [optionValue?] using taken
      exact .inl ⟨rfl, rfl⟩
  | none =>
      cases rest with
      | nil => simp [optionValue?] at taken
      | cons first others =>
          unfold optionValue? at taken
          cases form : isOption first with
          | true => simp [form] at taken
          | false =>
              obtain ⟨rfl, rfl⟩ : first = value ∧ others = more := by simpa [form] using taken
              exact .inr ⟨rfl, rfl, form⟩

/-- A format goes with its option. -/
theorem withoutSettings_output {arg value : String} {attached : Option String}
    {rest more : List String} (read : Argument.ofText arg = .option "--output" attached)
    (taken : optionValue? attached rest = some (value, more)) :
    withoutSettings (arg :: rest) = withoutSettings more := by
  rcases optionValue?_cases taken with ⟨rfl, rfl⟩ | ⟨rfl, rfl, _⟩
  · cases rest <;> simp [withoutSettings, read]
  · simp [withoutSettings, read]

theorem withoutSettings_strict (rest : List String) :
    withoutSettings ("--strict" :: rest) = "--strict" :: withoutSettings rest := by
  cases rest <;> simp [withoutSettings]

/-- A language stays with its option. -/
theorem withoutSettings_language {arg value : String} {attached : Option String}
    {rest more : List String} (read : Argument.ofText arg = .option "--lang" attached)
    (taken : optionValue? attached rest = some (value, more)) :
    ∃ others, withoutSettings (arg :: rest) = arg :: others ∧
      optionValue? attached others = some (value, withoutSettings more) := by
  have kept : withoutSettings (arg :: rest) = arg :: withoutSettings rest := by
    cases rest <;> simp [withoutSettings, read]
  refine ⟨withoutSettings rest, kept, ?_⟩
  rcases optionValue?_cases taken with ⟨rfl, rfl⟩ | ⟨rfl, rfl, word⟩
  · rfl
  · rw [withoutSettings_word (ofText_of_not_isOption word)]
    simp [optionValue?, word]

/-! ## Lines that ask for silence -/

/-- The arguments ask for silence: the option stands in front of the separator, if there is one. -/
def Silenced (args : List String) : Prop := "--quiet" ∈ args.takeWhile (· ≠ "--")

theorem not_silenced_nil : ¬ Silenced [] := by simp [Silenced]

theorem not_silenced_separator (rest : List String) : ¬ Silenced ("--" :: rest) := by
  simp [Silenced]

theorem silenced_quiet (rest : List String) : Silenced ("--quiet" :: rest) := by
  simp [Silenced]

/-- Every other argument leaves it to those behind. -/
theorem silenced_cons {arg : String} (noSeparator : arg ≠ "--") (notQuiet : arg ≠ "--quiet")
    (rest : List String) : Silenced (arg :: rest) ↔ Silenced rest := by
  simp [Silenced, noSeparator, notQuiet.symm]

/-- An argument that is read as something else than the two is none of them. -/
theorem silenced_cons_of_ofText {arg : String}
    (noSeparator : Argument.ofText arg ≠ .option "--" none)
    (notQuiet : Argument.ofText arg ≠ .option "--quiet" none) (rest : List String) :
    Silenced (arg :: rest) ↔ Silenced rest := by
  apply silenced_cons
  · intro same
    exact noSeparator (same ▸ ofText_separator)
  · intro same
    exact notQuiet (same ▸ ofText_quiet)

theorem silenced_word {arg : String} (read : Argument.ofText arg = .word arg)
    (rest : List String) : Silenced (arg :: rest) ↔ Silenced rest :=
  silenced_cons_of_ofText (by simp [read]) (by simp [read]) rest

/-- The value of an option asks for nothing. -/
theorem silenced_optionValue? {attached : Option String} {rest more : List String} {value : String}
    (taken : optionValue? attached rest = some (value, more)) : Silenced rest ↔ Silenced more := by
  rcases optionValue?_cases taken with ⟨_, rfl⟩ | ⟨_, rfl, word⟩
  · exact Iff.rfl
  · exact silenced_word (ofText_of_not_isOption word) more

/-- Neither does an option that has a value. -/
theorem silenced_valued {arg name value : String} {attached : Option String}
    {rest more : List String} (read : Argument.ofText arg = .option name attached)
    (noSeparator : name ≠ "--") (notQuiet : name ≠ "--quiet")
    (taken : optionValue? attached rest = some (value, more)) :
    Silenced (arg :: rest) ↔ Silenced more := by
  rw [silenced_cons_of_ofText (by simp [read, noSeparator]) (by simp [read, notQuiet]),
    silenced_optionValue? taken]

theorem Settings.quiet_of_withOutput? {settings inner : Settings} {name : String}
    (known : settings.withOutput? name = some inner) : inner.quiet = settings.quiet := by
  unfold withOutput? at known
  split at known
  · exact (congrArg quiet (Option.some.inj known)).symm
  · simp at known

/-- Silence is asked for without a value. -/
theorem Settings.unattached_of_withQuiet? {settings inner : Settings} {attached : Option String}
    (known : settings.withQuiet? attached = some inner) : attached = none := by
  cases attached with
  | none => rfl
  | some text => simp [withQuiet?] at known

theorem Settings.quiet_of_withQuiet? {settings inner : Settings} {attached : Option String}
    (known : settings.withQuiet? attached = some inner) : inner.quiet = true := by
  unfold withQuiet? at known
  split at known
  · simp at known
  · exact (congrArg quiet (Option.some.inj known)).symm

/-! ## What a command reads -/

/-- The draft becomes `q` with the arguments. -/
inductive Draft.Reads : Draft → List String → Draft → Prop
  | done (p : Draft) : p.Reads [] p
  | file {p next q : Draft} {arg : String} {rest : List String} :
      (p.onlyFiles = true ∨ Argument.ofText arg = .word arg) → p.withFile? arg = some next →
      next.Reads rest q → p.Reads (arg :: rest) q
  | separator {p q : Draft} {rest : List String} :
      p.onlyFiles = false → Reads { p with onlyFiles := true } rest q → p.Reads ("--" :: rest) q
  | output {p q : Draft} {arg value : String} {attached : Option String} {rest more : List String}
      {inner : Settings} :
      p.onlyFiles = false → Argument.ofText arg = .option "--output" attached →
      optionValue? attached rest = some (value, more) → p.inner.withOutput? value = some inner →
      Reads { p with inner } more q → p.Reads (arg :: rest) q
  | quiet {p q : Draft} {rest : List String} {inner : Settings} :
      p.onlyFiles = false → p.inner.withQuiet? none = some inner →
      Reads { p with inner } rest q → p.Reads ("--quiet" :: rest) q
  | language {p next q : Draft} {arg value : String} {attached : Option String}
      {rest more : List String} :
      p.onlyFiles = false → Argument.ofText arg = .option "--lang" attached →
      optionValue? attached rest = some (value, more) → p.withLanguage? value = some next →
      next.Reads more q → p.Reads (arg :: rest) q
  | strict {p next q : Draft} {rest : List String} :
      p.onlyFiles = false → p.withStrict? none = some next → next.Reads rest q →
      p.Reads ("--strict" :: rest) q

namespace Draft

variable {p next q : Draft} {arg : String} {rest more args : List String}

/-- One step, and what is read after it. -/
theorem Reads.of_step (taken : p.step arg rest = .ok (next, more)) (after : next.Reads more q) :
    p.Reads (arg :: rest) q := by
  unfold step at taken
  cases files : p.onlyFiles with
  | true =>
    cases found : p.withFile? arg with
    | none => simp [files, found] at taken
    | some filed =>
      obtain ⟨rfl, rfl⟩ : filed = next ∧ rest = more := by simpa [files, found] using taken
      exact .file (.inl files) found after
  | false =>
    simp only [files, Bool.false_eq_true, if_false] at taken
    split at taken
    case h_1 file read =>
      obtain rfl := eq_of_ofText_word read
      cases found : p.withFile? arg with
      | none => simp [found] at taken
      | some filed =>
        obtain ⟨rfl, rfl⟩ : filed = next ∧ rest = more := by simpa [found] using taken
        exact .file (.inr read) found after
    case h_2 read =>
      obtain ⟨rfl, rfl⟩ := Prod.mk.inj (Except.ok.inj taken)
      obtain rfl := eq_of_ofText_option read
      exact .separator files after
    case h_3 attached read =>
      cases valued : optionValue? attached rest with
      | none => simp [valued] at taken
      | some result =>
        cases known : p.inner.withOutput? result.1 with
        | none => simp [valued, known] at taken
        | some inner =>
          obtain ⟨rfl, rfl⟩ : { p with inner } = next ∧ result.2 = more := by
            simpa [valued, known, files] using taken
          exact .output files read valued known after
    case h_4 attached read =>
      cases known : p.inner.withQuiet? attached with
      | none => simp [known] at taken
      | some inner =>
        obtain ⟨rfl, rfl⟩ : { p with inner } = next ∧ rest = more := by
          simpa [known, files] using taken
        obtain rfl := Settings.unattached_of_withQuiet? known
        obtain rfl := eq_of_ofText_option read
        exact .quiet files known after
    case h_5 attached read =>
      cases valued : optionValue? attached rest with
      | none => simp [valued] at taken
      | some result =>
        cases known : p.withLanguage? result.1 with
        | none => simp [valued, known] at taken
        | some named =>
          obtain ⟨rfl, rfl⟩ : named = next ∧ result.2 = more := by
            simpa [valued, known] using taken
          exact .language files read valued known after
    case h_6 attached read =>
      cases known : p.withStrict? attached with
      | none => simp [known] at taken
      | some bound =>
        obtain ⟨rfl, rfl⟩ : bound = next ∧ rest = more := by simpa [known] using taken
        cases attached with
        | some text => simp [withStrict?] at known
        | none =>
          obtain rfl := eq_of_ofText_option read
          exact .strict files known after
    case h_7 => simp at taken

/-- A step that ends the reading refuses the line or asks for help. -/
theorem step_ne_run {i : Invocation} : p.step arg rest ≠ .error (.run i) := by
  intro refused
  unfold step at refused
  simp only at refused
  split at refused
  · split at refused <;> simp at refused
  · split at refused
    case h_2 => simp at refused
    case h_7 => split at refused <;> simp at refused
    all_goals split at refused <;> simp at refused

/-- An accepted line is read to its end. -/
theorem exists_reads {i : Invocation} : {n : Nat} → {p : Draft} → {args : List String} →
    p.finish n args = .run i → ∃ q, p.Reads args q ∧ q.request = .run i
  | n, p, [], accepted => by
      cases n <;> exact ⟨p, .done p, accepted⟩
  | 0, _, _ :: _, accepted => by simp [finish] at accepted
  | n + 1, p, arg :: rest, accepted => by
      rw [finish] at accepted
      cases taken : p.step arg rest with
      | error request =>
        simp only [taken] at accepted
        subst accepted
        exact absurd taken step_ne_run
      | ok result =>
        obtain ⟨next, more⟩ := result
        simp only [taken] at accepted
        obtain ⟨q, after, asked⟩ := exists_reads accepted
        exact ⟨q, .of_step taken after, asked⟩

/-- The arguments behind the value of an option are no more than those behind the option. -/
theorem length_le_of_optionValue? {attached : Option String} {value : String}
    (taken : optionValue? attached rest = some (value, more)) : more.length ≤ rest.length := by
  rcases optionValue?_cases taken with ⟨_, rfl⟩ | ⟨_, rfl, _⟩
  · exact Nat.le_refl _
  · simp

/-- With a bound that the length of a line keeps to, a step leaves one for what follows. -/
theorem finish_of_step {n : Nat} {request : Request} (taken : p.step arg rest = .ok (next, more))
    (fewer : more.length ≤ rest.length)
    (after : ∀ {m : Nat}, more.length ≤ m → next.finish m more = request)
    (bound : (arg :: rest).length ≤ n) : p.finish n (arg :: rest) = request := by
  cases n with
  | zero => simp at bound
  | succ m =>
    have left : rest.length ≤ m := by simpa using bound
    rw [Draft.finish, taken]
    exact after (Nat.le_trans fewer left)

/-- A line that can be read to its end is accepted, if the draft then is complete. -/
theorem Reads.finish (reads : p.Reads args q) {n : Nat} (bound : args.length ≤ n) :
    p.finish n args = q.request := by
  induction reads generalizing n with
  | done p => cases n <;> rfl
  | @file p next q arg rest free found after ih =>
    have taken : p.step arg rest = .ok (next, rest) := by
      cases files : p.onlyFiles with
      | true => simp [step, files, found]
      | false =>
        have read : Argument.ofText arg = .word arg := by simpa [files] using free
        simp [step, files, read, found]
    exact finish_of_step taken (Nat.le_refl _) ih bound
  | @separator p q rest files after ih =>
    have taken : p.step "--" rest = .ok ({ p with onlyFiles := true }, rest) := by
      simp [step, files]
    exact finish_of_step taken (Nat.le_refl _) ih bound
  | @output p q arg value attached rest more inner files read valued known after ih =>
    have taken : p.step arg rest = .ok ({ p with inner }, more) := by
      simp [step, files, read, valued, known]
    exact finish_of_step taken (length_le_of_optionValue? valued) ih bound
  | @quiet p q rest inner files known after ih =>
    have taken : p.step "--quiet" rest = .ok ({ p with inner }, rest) := by
      simp [step, files, known]
    exact finish_of_step taken (Nat.le_refl _) ih bound
  | @language p next q arg value attached rest more files read valued known after ih =>
    have taken : p.step arg rest = .ok (next, more) := by
      simp [step, files, read, valued, known]
    exact finish_of_step taken (length_le_of_optionValue? valued) ih bound
  | @strict p next q rest files known after ih =>
    have taken : p.step "--strict" rest = .ok (next, rest) := by
      simp [step, files, known]
    exact finish_of_step taken (Nat.le_refl _) ih bound

/-! ### Drafts without settings -/

/-- The draft without its settings. -/
def plain (p : Draft) : Draft := { p with outer := {}, inner := {} }

/-- A file that is taken is the only change. -/
theorem eq_of_withFile? {file : String} (found : p.withFile? file = some next) :
    next = { p with file := some file } := by
  unfold withFile? at found
  split at found
  · simp at found
  · exact (Option.some.inj found).symm

theorem eq_of_withLanguage? {name : String} (known : p.withLanguage? name = some next) :
    ∃ language, next = { p with language := some language } := by
  unfold withLanguage? at known
  split at known
  case h_1 language _ _ => exact ⟨language, (Option.some.inj known).symm⟩
  case h_2 => simp at known

theorem eq_of_withStrict? (bound : p.withStrict? none = some next) :
    next = { p with strict := true } := by
  unfold withStrict? at bound
  split at bound
  · exact (Option.some.inj bound).symm
  · simp at bound

theorem plain_withFile? {file : String} (found : p.withFile? file = some next) :
    p.plain.withFile? file = some next.plain := by
  unfold withFile? at found ⊢
  split at found
  · simp at found
  · rename_i free
    obtain rfl := Option.some.inj found
    exact if_neg free

theorem plain_withLanguage? {name : String} (known : p.withLanguage? name = some next) :
    p.plain.withLanguage? name = some next.plain := by
  unfold withLanguage? at known ⊢
  split at known
  · rename_i language unset named
    obtain rfl := Option.some.inj known
    simp [plain, unset, named]
  · simp at known

theorem plain_withStrict? (bound : p.withStrict? none = some next) :
    p.plain.withStrict? none = some next.plain := by
  unfold withStrict? at bound ⊢
  split at bound
  · rename_i free
    obtain rfl := Option.some.inj bound
    exact if_pos free
  · simp at bound

theorem plain_request {i : Invocation} (asked : p.request = .run i) :
    p.plain.request = .run i.plain := by
  unfold request at asked ⊢
  cases filed : p.file with
  | none => simp [filed] at asked
  | some file =>
    simp only [filed, Request.run.injEq] at asked
    subst asked
    simp [plain, filed, Invocation.plain]

/-- The draft without settings reads the line without settings. After the separator there are
none, whatever the arguments look like. -/
theorem Reads.plain (reads : p.Reads args q) :
    p.plain.Reads (if p.onlyFiles then args else withoutSettings args) q.plain := by
  induction reads with
  | done p =>
    have none : (if p.onlyFiles then [] else withoutSettings []) = [] := by simp [withoutSettings]
    rw [none]
    exact .done p.plain
  | @file p next q arg rest free found after ih =>
    have kept : next.onlyFiles = p.onlyFiles := by rw [eq_of_withFile? found]
    rw [kept] at ih
    cases files : p.onlyFiles with
    | true =>
      rw [files] at ih
      exact .file (.inl files) (plain_withFile? found) ih
    | false =>
      have read : Argument.ofText arg = .word arg := by simpa [files] using free
      rw [files] at ih
      show p.plain.Reads (withoutSettings (arg :: rest)) q.plain
      rw [withoutSettings_word read]
      exact .file (.inr read) (plain_withFile? found) ih
  | @separator p q rest files after ih =>
    rw [files]
    show p.plain.Reads (withoutSettings ("--" :: rest)) q.plain
    rw [withoutSettings_separator]
    exact .separator files ih
  | @output p q arg value attached rest more inner files read valued known after ih =>
    -- the draft loses the format, and the line the option with it
    have others : p.plain.Reads (if p.onlyFiles then more else withoutSettings more) q.plain := ih
    rw [files] at others ⊢
    show p.plain.Reads (withoutSettings (arg :: rest)) q.plain
    rw [withoutSettings_output read valued]
    exact others
  | @quiet p q rest inner files known after ih =>
    have others : p.plain.Reads (if p.onlyFiles then rest else withoutSettings rest) q.plain := ih
    rw [files] at others ⊢
    show p.plain.Reads (withoutSettings ("--quiet" :: rest)) q.plain
    rw [withoutSettings_quiet]
    exact others
  | @language p next q arg value attached rest more files read valued known after ih =>
    obtain ⟨language, named⟩ := eq_of_withLanguage? known
    have kept : next.onlyFiles = p.onlyFiles := by rw [named]
    rw [kept, files] at ih
    obtain ⟨others, split, valued⟩ := withoutSettings_language read valued
    rw [files]
    show p.plain.Reads (withoutSettings (arg :: rest)) q.plain
    rw [split]
    exact .language files read valued (plain_withLanguage? known) ih
  | @strict p next q rest files known after ih =>
    have kept : next.onlyFiles = p.onlyFiles := by rw [eq_of_withStrict? known]
    rw [kept, files] at ih
    rw [files]
    show p.plain.Reads (withoutSettings ("--strict" :: rest)) q.plain
    rw [withoutSettings_strict]
    exact .strict files (plain_withStrict? known) ih

/-! ### Silence -/

/-- The draft has asked for silence, on one of the two sides of its command. -/
def silent (p : Draft) : Bool := p.inner.quiet || p.outer.quiet

/-- A draft asks for silence at the end if it did at the start, or if its arguments do. -/
theorem Reads.silent_iff (reads : p.Reads args q) :
    q.silent = true ↔ p.silent = true ∨ (p.onlyFiles = false ∧ Silenced args) := by
  induction reads with
  | done p => simp [not_silenced_nil]
  | @file p next q arg rest free found after ih =>
    obtain rfl := eq_of_withFile? found
    cases files : p.onlyFiles with
    | true => simpa [silent, files] using ih
    | false =>
      have read : Argument.ofText arg = .word arg := by simpa [files] using free
      simpa [silent, files, silenced_word read] using ih
  | @separator p q rest files after ih =>
    rw [ih]
    simp [not_silenced_separator, silent]
  | @output p q arg value attached rest more inner files read valued known after ih =>
    have same : Silenced (arg :: rest) ↔ Silenced more :=
      silenced_valued read (by simp) (by simp) valued
    rw [ih, same]
    simp [silent, Settings.quiet_of_withOutput? known]
  | @quiet p q rest inner files known after ih =>
    rw [ih]
    simp [silent, Settings.quiet_of_withQuiet? known, files, silenced_quiet]
  | @language p next q arg value attached rest more files read valued known after ih =>
    have same : Silenced (arg :: rest) ↔ Silenced more :=
      silenced_valued read (by simp) (by simp) valued
    obtain ⟨language, rfl⟩ := eq_of_withLanguage? known
    rw [ih, same]
    simp [silent]
  | @strict p next q rest files known after ih =>
    have same : Silenced ("--strict" :: rest) ↔ Silenced rest :=
      silenced_cons_of_ofText (by simp) (by simp) rest
    obtain rfl := eq_of_withStrict? known
    rw [ih, same]
    simp [silent]

theorem quiet_of_request {i : Invocation} (asked : p.request = .run i) : i.quiet = p.silent := by
  unfold request at asked
  cases filed : p.file with
  | none => simp [filed] at asked
  | some file =>
    simp only [filed, Request.run.injEq] at asked
    subst asked
    rfl

end Draft

/-! ## Whole lines -/

theorem helpRequest_ne_run {i : Invocation} (rest : List String) : helpRequest rest ≠ .run i := by
  intro asked
  unfold helpRequest at asked
  split at asked
  · simp at asked
  · split at asked <;> simp at asked
  · simp at asked

/-- What stands in front of the command are settings. -/
theorem requestFrom_run {i : Invocation} {n : Nat} {outer : Settings} {args : List String}
    (accepted : requestFrom outer n args = .run i) :
    ∃ (settings : Settings) (name : String) (command : Command) (rest : List String) (m : Nat),
      Argument.ofText name = .word name ∧ command? name = some command ∧
      withoutSettings args = name :: withoutSettings rest ∧
      ((settings.quiet = true ∨ Silenced rest) ↔ (outer.quiet = true ∨ Silenced args)) ∧
      Draft.finish { command, outer := settings } m rest = .run i := by
  induction n generalizing outer args with
  | zero => cases args <;> simp [requestFrom] at accepted
  | succ n ih =>
    cases args with
    | nil => simp [requestFrom] at accepted
    | cons arg rest =>
      rw [requestFrom] at accepted
      split at accepted
      case h_1 name read =>
        obtain rfl := eq_of_ofText_word read
        cases known : command? arg with
        | none =>
          simp only [known] at accepted
          split at accepted
          · exact absurd accepted (helpRequest_ne_run rest)
          · simp at accepted
        | some command =>
          simp only [known] at accepted
          exact ⟨outer, arg, command, rest, n, read, known, withoutSettings_word read rest,
            by rw [silenced_word read], accepted⟩
      case h_2 attached read =>
        cases valued : optionValue? attached rest with
        | none => simp [valued] at accepted
        | some result =>
          obtain ⟨value, more⟩ := result
          cases known : outer.withOutput? value with
          | none => simp [valued, known] at accepted
          | some settings =>
            simp only [valued, known] at accepted
            obtain ⟨settings', name, command, rest', m, word, named, kept, silent, done⟩ :=
              ih accepted
            refine ⟨settings', name, command, rest', m, word, named, ?_, ?_, done⟩
            · rw [withoutSettings_output read valued, kept]
            · rw [silent, Settings.quiet_of_withOutput? known,
                silenced_valued read (by simp) (by simp) valued]
      case h_3 attached read =>
        cases known : outer.withQuiet? attached with
        | none => simp [known] at accepted
        | some settings =>
          simp only [known] at accepted
          obtain ⟨settings', name, command, rest', m, word, named, kept, silent, done⟩ :=
            ih accepted
          obtain rfl := Settings.unattached_of_withQuiet? known
          obtain rfl := eq_of_ofText_option read
          refine ⟨settings', name, command, rest', m, word, named, ?_, ?_, done⟩
          · rw [withoutSettings_quiet, kept]
          · rw [silent, Settings.quiet_of_withQuiet? known]
            simp [silenced_quiet]
      case h_4 => split at accepted <;> simp at accepted

/-- **Settings do not decide what a line stands for.** An accepted line without its settings is
accepted, for the same command on the same file with the same language and strictness. -/
theorem ofArguments_withoutSettings {args : List String} {i : Invocation}
    (accepted : Request.ofArguments args = .run i) :
    Request.ofArguments (withoutSettings args) = .run i.plain := by
  obtain ⟨settings, name, command, rest, m, word, named, kept, -, done⟩ :=
    requestFrom_run accepted
  obtain ⟨q, reads, asked⟩ := Draft.exists_reads done
  have others : Draft.Reads { command, outer := {} } (withoutSettings rest) q.plain := reads.plain
  unfold Request.ofArguments
  rw [kept, List.length_cons, requestFrom, word]
  simp only [named]
  rw [others.finish (Nat.le_refl _)]
  exact Draft.plain_request asked

/-- An accepted line asks for silence if and only if the option stands in front of the separator. -/
theorem quiet_iff {args : List String} {i : Invocation}
    (accepted : Request.ofArguments args = .run i) : i.quiet = true ↔ Silenced args := by
  obtain ⟨settings, name, command, rest, m, -, -, -, silent, done⟩ := requestFrom_run accepted
  obtain ⟨q, reads, asked⟩ := Draft.exists_reads done
  rw [Draft.quiet_of_request asked, reads.silent_iff]
  simpa [Draft.silent] using silent

end EntityFlow.Invocation
