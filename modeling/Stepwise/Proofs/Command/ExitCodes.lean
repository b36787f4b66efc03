import Stepwise.Main
import Stepwise.Proofs.Command.Clean
import Stepwise.Proofs.Session.Catalog

/-!
# Exit codes

What a command line is answered. Unless the answer is broken off, its code is 2 if the
command line is `Senseless`, 1 if it starts a program that fails or runs over its limit, and
0 otherwise; and what a run prints is its history, or what there is of it at the limit
(`Contract`). The answer is broken off exactly where `Broken` says so, so that there is a
fourth way out, which has no code of its own (`answer_broken_off`).

No run outlasts the patience of the program, so that every command line is answered.

Main statement: `answer_contract`.
-/

namespace Stepwise

open Session

namespace Command

variable {ambient : Option String} {words : List String} {p : Sample} {format : Given Format}
  {limit : Option Nat} {r : Except Stop History}

/-! ## What a command line comes to -/

/-- There is a severity of the name that is in force. -/
def Known (ambient : Option String) (level : Given String) : Prop :=
  ∃ v : Severity, v.name = levelName level.toOption ambient

/-- The name of the program that a task is about. -/
def Task.program? : Task → Option String
  | .display name | .run name _ _ => some name
  | _ => none

/-- The command line makes no sense: its words are complained about, or ask for nothing, or
for a program that the catalog does not have. -/
inductive Senseless (ambient : Option String) (words : List String) : Prop
  | misuse {page m} : read words = .error (.misuse page m) → Senseless ambient words
  | idle {level} : read words = .ok ⟨level, .nothing⟩ → Known ambient level →
      Senseless ambient words
  | unknown {level task name} : read words = .ok ⟨level, task⟩ → Known ambient level →
      task.program? = some name → name ∉ Catalog.names → Senseless ambient words

/-- The command line starts the program `p` under the limit, and is to print its history. -/
inductive Starts (ambient : Option String) (words : List String) (p : Sample)
    (format : Given Format) : Option Nat → Prop
  | unlimited {level} : read words = .ok ⟨level, .run p.name format .absent⟩ →
      Known ambient level → p ∈ Catalog.all → Starts ambient words p format none
  | limited {level n} : read words = .ok ⟨level, .run p.name format (.value n)⟩ →
      Known ambient level → p ∈ Catalog.all → Starts ambient words p format (some n)

theorem Starts.mem (h : Starts ambient words p format limit) : p ∈ Catalog.all := by
  cases h <;> assumption

/-- The command line is not answered: the severity in force does not exist, or a blank stands
where the limit of a run or the format of a history is needed. -/
inductive Broken (ambient : Option String) (words : List String) : Abort → Prop
  | level {level task} : read words = .ok ⟨level, task⟩ → ¬ Known ambient level →
      Broken ambient words (.unknownLevel ⟨levelName level.toOption ambient⟩)
  | limit {level} {p : Sample} {format : Given Format} :
      read words = .ok ⟨level, .run p.name format .blank⟩ → Known ambient level →
      p ∈ Catalog.all → Broken ambient words .blankLimit
  | format {p : Sample} {limit : Option Nat} {r : Except Stop History} :
      Starts ambient words p .blank limit → p.start.Outcome limit r →
      (∀ f, r ≠ .error (.fault f)) → Broken ambient words .blankFormat

/-! ## Severities and programs by name -/

theorem severity_of_known {level : Given String} (h : Known ambient level) :
    ∃ v, Severity.ofName (levelName level.toOption ambient) = .ok v := by
  obtain ⟨v, hv⟩ := h
  rw [← hv]
  exact ⟨v, by cases v <;> rfl⟩

theorem severity_of_unknown {level : Given String} (h : ¬ Known ambient level) :
    Severity.ofName (levelName level.toOption ambient) =
      .error ⟨levelName level.toOption ambient⟩ := by
  rw [Severity.ofName]
  split
  · next v hv =>
    have hname : v.name = levelName level.toOption ambient := by simpa using List.find?_some hv
    exact absurd ⟨v, hname⟩ h
  · rfl

/-- No two programs of the catalog have the same name. -/
theorem find_of_mem (hp : p ∈ Catalog.all) : Catalog.find p.name = .ok p := by
  simp only [Catalog.all, List.mem_cons, List.not_mem_nil, or_false] at hp
  rcases hp with rfl | rfl | rfl | rfl | rfl | rfl | rfl <;> rfl

theorem find_of_not_mem {name : String} (h : name ∉ Catalog.names) :
    Catalog.find name = .error ⟨name⟩ := by
  rw [Catalog.find]
  split
  · next p hp =>
    have hname : p.name = name := by simpa using List.find?_some hp
    exact absurd (hname ▸ List.mem_map_of_mem (List.mem_of_find?_eq_some hp)) h
  · rfl

/-! ## What is printed of a run -/

/-- The format in which a history is printed. -/
def Given.inForce (format : Given Format) : Format := format.toOption.getD (.style .lines)

theorem formatInForce_eq (h : format ≠ .blank) : formatInForce format = .ok format.inForce := by
  cases format with
  | blank => exact absurd rfl h
  | _ => rfl

theorem printed_ok (hf : format ≠ .blank) (h : History) :
    printed format (.ok h) = .ok (format.inForce.write h ++ "\n") := by
  rw [printed, formatInForce_eq hf]
  rfl

theorem printed_limit (hf : format ≠ .blank) (n : Int) (h : History) :
    printed format (.error (.limit n h)) =
      .ok (if format.inForce = .json then "" else format.inForce.write h ++ "\n") := by
  rw [printed, formatInForce_eq hf]
  rfl

/-- No history, whole or cut short, is printed in a blank format. -/
theorem printed_blank (ho : p.start.Outcome limit r) (h : ∀ f, r ≠ .error (.fault f)) :
    printed .blank r = .error .blankFormat := by
  cases ho with
  | fails => exact absurd rfl (h _)
  | _ => rfl

/-- Everything else that comes of a program is printed. -/
theorem printed_of_outcome (ho : p.start.Outcome limit r)
    (h : format = .blank → ∃ f, r = .error (.fault f)) : ∃ out, printed format r = .ok out := by
  by_cases hf : format = .blank
  · obtain ⟨f, rfl⟩ := h hf
    exact ⟨_, rfl⟩
  · cases ho with
    | finishes => exact ⟨_, printed_ok hf _⟩
    | fails => exact ⟨_, rfl⟩
    | overruns => exact ⟨_, printed_limit hf _ _⟩

/-! ## Answers -/

theorem answer_of_known {level : Given String} {task : Task}
    (hr : read words = .ok ⟨level, task⟩) (hk : Known ambient level) :
    ∃ v, answer patience ambient words = perform patience v task := by
  obtain ⟨v, hv⟩ := severity_of_known hk
  refine ⟨v, ?_⟩
  simp only [answer, hr, hv]

theorem answer_senseless (h : Senseless ambient words) :
    ∃ reply, answer patience ambient words = some (.ok reply) ∧ reply.code = 2 := by
  cases h with
  | misuse hr => exact ⟨_, by rw [answer, hr], rfl⟩
  | idle hr hk =>
    obtain ⟨v, hv⟩ := answer_of_known hr hk
    exact ⟨_, hv, rfl⟩
  | @unknown level task name hr hk hname hcatalog =>
    obtain ⟨v, hv⟩ := answer_of_known hr hk
    have hfind := find_of_not_mem hcatalog
    refine ⟨unknownProgram name, ?_, rfl⟩
    rw [hv]
    cases task with
    | display _ => cases hname; rw [perform, hfind]
    | run _ _ _ => cases hname; rw [perform, hfind]
    | _ => cases hname

theorem patient : 20 < patience := by decide

theorem runSample_outcome (hp : p ∈ Catalog.all) (ho : p.start.Outcome limit r) (v : Severity)
    (format : Given Format) :
    ∃ err, runSample patience v p format limit =
      some ((printed format r).map fun out => ⟨runCode r, out, err⟩) := by
  obtain ⟨report, hrun, ho'⟩ := Sample.run_outcome hp limit patient
  obtain rfl := Sample.outcome_unique ho ho'
  exact ⟨_, congrArg (Option.map _) hrun⟩

/-- The answer to a command line that starts a program. -/
theorem answer_starts (h : Starts ambient words p format limit)
    (ho : p.start.Outcome limit r) :
    ∃ err, answer patience ambient words =
      some ((printed format r).map fun out => ⟨runCode r, out, err⟩) := by
  cases h with
  | unlimited hr hk hp =>
    obtain ⟨v, hv⟩ := answer_of_known hr hk
    obtain ⟨err, hrun⟩ := runSample_outcome hp ho v format
    refine ⟨err, hv.trans ?_⟩
    rw [perform, find_of_mem hp]
    exact hrun
  | limited hr hk hp =>
    obtain ⟨v, hv⟩ := answer_of_known hr hk
    obtain ⟨err, hrun⟩ := runSample_outcome hp ho v format
    refine ⟨err, hv.trans ?_⟩
    rw [perform, find_of_mem hp]
    exact hrun

theorem answer_broken {abort : Abort} (h : Broken ambient words abort) :
    answer patience ambient words = some (.error abort) := by
  cases h with
  | level hr hk => simp only [answer, hr, severity_of_unknown hk]
  | limit hr hk hp =>
    obtain ⟨v, hv⟩ := answer_of_known hr hk
    rw [hv, perform, find_of_mem hp]
  | format hs ho hf =>
    obtain ⟨err, ha⟩ := answer_starts hs ho
    rw [ha, printed_blank ho hf]
    rfl

/-- Every command line makes no sense, starts a program, is not answered, or is answered with
the code 0. -/
theorem answer_cases (ambient : Option String) (words : List String) :
    Senseless ambient words ∨ (∃ p format limit, Starts ambient words p format limit) ∨
      (∃ abort, Broken ambient words abort) ∨
      ∃ reply, answer patience ambient words = some (.ok reply) ∧ reply.code = 0 := by
  cases hr : read words with
  | error e =>
    have ha : answer patience ambient words = some (.ok e.reply) := by rw [answer, hr]
    cases e with
    | help page => exact .inr (.inr (.inr ⟨_, ha, rfl⟩))
    | version => exact .inr (.inr (.inr ⟨_, ha, rfl⟩))
    | misuse page m => exact .inl (.misuse hr)
  | ok request =>
    obtain ⟨level, task⟩ := request
    by_cases hk : Known ambient level
    · obtain ⟨v, hv⟩ := answer_of_known hr hk
      cases task with
      | nothing => exact .inl (.idle hr hk)
      | list => exact .inr (.inr (.inr ⟨_, hv, rfl⟩))
      | display name =>
        by_cases hname : name ∈ Catalog.names
        · obtain ⟨p, hp, rfl⟩ := List.mem_map.1 hname
          rw [perform, find_of_mem hp] at hv
          exact .inr (.inr (.inr ⟨_, hv, rfl⟩))
        · exact .inl (.unknown hr hk rfl hname)
      | run name format limit =>
        by_cases hname : name ∈ Catalog.names
        · obtain ⟨p, hp, rfl⟩ := List.mem_map.1 hname
          cases limit with
          | absent => exact .inr (.inl ⟨p, format, _, .unlimited hr hk hp⟩)
          | blank => exact .inr (.inr (.inl ⟨_, .limit hr hk hp⟩))
          | value n => exact .inr (.inl ⟨p, format, _, .limited hr hk hp⟩)
        · exact .inl (.unknown hr hk rfl hname)
    · exact .inr (.inr (.inl ⟨_, .level hr hk⟩))

/-- The answers that there are, each with what the command line has come to. -/
inductive Answered (ambient : Option String) (words : List String) : Except Abort Reply → Prop
  | senseless {reply} : Senseless ambient words → reply.code = 2 →
      Answered ambient words (.ok reply)
  | started {p : Sample} {format : Given Format} {limit : Option Nat}
      {r : Except Stop History} {out err} : Starts ambient words p format limit →
      p.start.Outcome limit r → printed format r = .ok out →
      Answered ambient words (.ok ⟨runCode r, out, err⟩)
  | broken {abort} : Broken ambient words abort → Answered ambient words (.error abort)
  | served {reply} : reply.code = 0 → Answered ambient words (.ok reply)

/-- Every command line is answered, or the answer is broken off. -/
theorem exists_answered (ambient : Option String) (words : List String) :
    ∃ a, answer patience ambient words = some a ∧ Answered ambient words a := by
  rcases answer_cases ambient words with h | ⟨p, format, limit, hs⟩ | ⟨abort, h⟩ | ⟨reply, h, hc⟩
  · obtain ⟨reply, ha, hcode⟩ := answer_senseless h
    exact ⟨_, ha, .senseless h hcode⟩
  · obtain ⟨report, -, ho⟩ := Sample.run_outcome hs.mem limit patient
    by_cases h : format = .blank → ∃ f, report.result = .error (.fault f)
    · obtain ⟨err, ha⟩ := answer_starts hs ho
      obtain ⟨out, hout⟩ := printed_of_outcome ho h
      rw [hout] at ha
      exact ⟨_, ha, .started hs ho hout⟩
    · obtain ⟨rfl, hf⟩ := Classical.not_imp.1 h
      have hb : Broken ambient words .blankFormat := .format hs ho fun f hr => hf ⟨f, hr⟩
      exact ⟨_, answer_broken hb, .broken hb⟩
  · exact ⟨_, answer_broken h, .broken h⟩
  · exact ⟨_, h, .served hc⟩

theorem answered {a : Except Abort Reply} (ha : answer patience ambient words = some a) :
    Answered ambient words a := by
  obtain ⟨a', ha', h⟩ := exists_answered ambient words
  obtain rfl : a = a' := Option.some.inj (ha.symm.trans ha')
  exact h

/-- The reply to a command line that starts a program. -/
theorem reply_of_starts {reply : Reply} (ha : answer patience ambient words = some (.ok reply))
    (hs : Starts ambient words p format limit) (ho : p.start.Outcome limit r) :
    printed format r = .ok reply.out := by
  obtain ⟨err, herr⟩ := answer_starts hs ho
  have heq := Option.some.inj (ha.symm.trans herr)
  cases hout : printed format r with
  | error abort => rw [hout] at heq; cases heq
  | ok out =>
    rw [hout] at heq
    cases heq
    rfl

theorem not_blank_of_starts {reply : Reply}
    (ha : answer patience ambient words = some (.ok reply))
    (hs : Starts ambient words p format limit) (ho : p.start.Outcome limit r)
    (hr : ∀ f, r ≠ .error (.fault f)) : format ≠ .blank := by
  rintro rfl
  have hout := reply_of_starts ha hs ho
  rw [printed_blank ho hr] at hout
  cases hout

/-! ## The contract -/

/-- What is promised of the answer `a` to a command line. -/
structure Contract (ambient : Option String) (words : List String) (a : Except Abort Reply) :
    Prop where
  /-- The answer is broken off for the reasons that there are, and for no other. -/
  broken : ∀ abort, a = .error abort ↔ Broken ambient words abort
  /-- The code is 2 exactly if the command line makes no sense. -/
  senseless : (∃ reply, a = .ok reply ∧ reply.code = 2) ↔ Senseless ambient words
  /-- The code is 1 exactly if a program is started that fails, or runs over its limit with a
  format in which to say so. -/
  fails : (∃ reply, a = .ok reply ∧ reply.code = 1) ↔
    ∃ p format limit s, Starts ambient words p format limit ∧
      p.start.Outcome limit (.error s) ∧ (format = .blank → ∃ f, s = .fault f)
  /-- There is no other code but 0. -/
  codes : ∀ reply, a = .ok reply → reply.code ≤ 2
  /-- A whole history is printed in the format in force, and a line end. -/
  whole : ∀ reply p format limit h, a = .ok reply → Starts ambient words p format limit →
    p.start.Outcome limit (.ok h) → reply.out = format.inForce.write h ++ "\n"
  /-- So is a history cut short, unless the format is JSON. -/
  cut : ∀ reply p format limit n h, a = .ok reply → Starts ambient words p format limit →
    p.start.Outcome limit (.error (.limit n h)) →
    reply.out = if format.inForce = .json then "" else format.inForce.write h ++ "\n"
  /-- A request says what the words say, and a complaint is justified by them. -/
  sound : Sound words (Request.Said words) (read words)
  /-- Where a program is run, nothing is wrong with the words behind the command. -/
  clean : ∀ p format limit, Starts ambient words p format limit →
    ∃ before rest, words = before ++ "run" :: rest ∧ Page.run.Clean rest
  /-- A line that is written out is read as it stands. -/
  reads : ∀ name format limit, words = ["run", name, "-f", format, "-n", limit] →
    (∀ w ∈ [name, format, limit], w.toList.head? ≠ some '-') →
    read words =
      match Format.ofName? format, Count.read limit with
      | none, _ => .error (.misuse .run (.unknownFormat format))
      | _, .error e => .error (.misuse .run (.badLimit e))
      | some f, .ok n => .ok ⟨.absent, .run name (.value f) (.value n)⟩

theorem clean_of_starts (h : Starts ambient words p format limit) :
    ∃ before rest, words = before ++ "run" :: rest ∧ Page.run.Clean rest := by
  have hread : ∃ level given, read words = .ok ⟨level, .run p.name format given⟩ := by
    cases h with
    | unlimited hr => exact ⟨_, _, hr⟩
    | limited hr => exact ⟨_, _, hr⟩
  obtain ⟨level, given, hr⟩ := hread
  obtain ⟨before, cmd, page, rest, found, rfl, hcmd, htask, hclean⟩ := read_clean hr nofun
  -- Of the pages of commands, only that of `run` makes a task of running.
  simp only [Page.commands, List.mem_cons, Prod.mk.injEq, List.not_mem_nil, or_false] at hcmd
  rcases hcmd with ⟨rfl, rfl⟩ | ⟨rfl, rfl⟩ | ⟨rfl, rfl⟩
  · cases htask
  · cases htask
  · exact ⟨before, rest, rfl, hclean⟩

theorem broken_iff {a : Except Abort Reply} (ha : answer patience ambient words = some a)
    (abort : Abort) : a = .error abort ↔ Broken ambient words abort := by
  constructor
  · rintro rfl
    cases answered ha with
    | broken h => exact h
  · intro h
    exact Option.some.inj (ha.symm.trans (answer_broken h))

theorem senseless_iff {a : Except Abort Reply} (ha : answer patience ambient words = some a) :
    (∃ reply, a = .ok reply ∧ reply.code = 2) ↔ Senseless ambient words := by
  constructor
  · rintro ⟨reply, rfl, hcode⟩
    cases answered ha with
    | senseless h _ => exact h
    | @started _ _ _ r => cases r <;> cases hcode
    | served hzero => rw [hcode] at hzero; cases hzero
  · intro h
    obtain ⟨reply, hreply, hcode⟩ := answer_senseless h
    exact ⟨reply, Option.some.inj (ha.symm.trans hreply), hcode⟩

theorem fails_iff {a : Except Abort Reply} (ha : answer patience ambient words = some a) :
    (∃ reply, a = .ok reply ∧ reply.code = 1) ↔
      ∃ p format limit s, Starts ambient words p format limit ∧
        p.start.Outcome limit (.error s) ∧ (format = .blank → ∃ f, s = .fault f) := by
  constructor
  · rintro ⟨reply, rfl, hcode⟩
    cases answered ha with
    | senseless _ htwo => rw [hcode] at htwo; cases htwo
    | served hzero => rw [hcode] at hzero; cases hzero
    | @started p format limit r _ _ hs ho hout =>
      cases r with
      | ok h => cases hcode
      | error s =>
        refine ⟨p, format, limit, s, hs, ho, ?_⟩
        rintro rfl
        cases ho with
        | fails => exact ⟨_, rfl⟩
        | overruns => cases hout
  · rintro ⟨p, format, limit, s, hs, ho, hf⟩
    obtain ⟨err, herr⟩ := answer_starts hs ho
    obtain ⟨out, hout⟩ := printed_of_outcome ho fun hblank => by
      obtain ⟨f, rfl⟩ := hf hblank
      exact ⟨f, rfl⟩
    rw [ha, hout] at herr
    exact ⟨_, Option.some.inj herr, rfl⟩

theorem code_le_two {reply : Reply} (ha : answer patience ambient words = some (.ok reply)) :
    reply.code ≤ 2 := by
  cases answered ha with
  | senseless _ htwo => exact Nat.le_of_eq htwo
  | @started _ _ _ r => cases r <;> simp [runCode]
  | served hzero => exact hzero ▸ Nat.zero_le 2

/-- **What a command line is answered.** Every command line has an answer, and the answer
keeps the contract. -/
theorem answer_contract (ambient : Option String) (words : List String) :
    ∃ a, answer patience ambient words = some a ∧ Contract ambient words a := by
  obtain ⟨a, ha, -⟩ := exists_answered ambient words
  refine ⟨a, ha, broken_iff ha, senseless_iff ha, fails_iff ha, ?_, ?_, ?_, read_sound words,
    ?_, ?_⟩
  · rintro reply rfl
    exact code_le_two ha
  · rintro reply p format limit h rfl hs ho
    have hout := reply_of_starts ha hs ho
    rw [printed_ok (not_blank_of_starts ha hs ho nofun)] at hout
    exact (Except.ok.inj hout).symm
  · rintro reply p format limit n h rfl hs ho
    have hout := reply_of_starts ha hs ho
    rw [printed_limit (not_blank_of_starts ha hs ho nofun)] at hout
    exact (Except.ok.inj hout).symm
  · intro p format limit hs
    exact clean_of_starts hs
  · rintro name format limit rfl hplain
    exact read_run (hplain name (by simp)) (hplain format (by simp)) (hplain limit (by simp))

/-- There are command lines that are not answered: the severity named by a flag does not
exist, or that of the environment does not, which may be empty; and a blank stands for the
limit of a run or for the format of its history. -/
theorem answer_broken_off :
    answer patience none ["--log-level", "BOGUS", "list"] =
      some (.error (.unknownLevel ⟨"BOGUS"⟩)) ∧
    answer patience (some "") ["list"] = some (.error (.unknownLevel ⟨""⟩)) ∧
    answer patience none ["run", "increment", "--max-steps=--"] = some (.error .blankLimit) ∧
    answer patience none ["run", "increment", "--format=--"] = some (.error .blankFormat) := by
  refine ⟨rfl, rfl, rfl, ?_⟩
  have hread : read ["run", "increment", "--format=--"] =
      .ok ⟨.absent, .run Catalog.increment.name .blank .absent⟩ := rfl
  have hmem : Catalog.increment ∈ Catalog.all := by simp [Catalog.all]
  have hafter : State.after 3 Catalog.increment.start =
      .ok ⟨.skip, Table.ofList [("x", .num 3)]⟩ := rfl
  obtain ⟨es, hes⟩ := Records.of_after (m := Catalog.increment.session none) hafter
  have ho : Catalog.increment.start.Outcome none (.ok ⟨es⟩) := .finishes hafter rfl nofun hes
  exact answer_broken (.format (.unlimited hread ⟨.warning, rfl⟩ hmem) ho nofun)

end Command

end Stepwise
