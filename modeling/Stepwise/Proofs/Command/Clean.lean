import Stepwise.Proofs.Command.Words

/-!
# Nothing wrong is passed over

Reading a command line is complete: if it gives a request, the words behind the command are
`Page.Clean`. Every flag among them has a value where it needs one, every format is the name
of one and every limit is a count, those included that a later flag of the same kind
overrides. What one flag of a page has to have does not depend on how the words before it are
read, so `Page.Clean` looks at the words one by one.

In the other direction, a line with a name, a format and a limit that are all plain words is
read to the request for just that.

Main statements: `read_clean`, `read_run`.
-/

namespace Stepwise.Command

variable {p : Page} {f : Flag} {w text : String} {words rest : List String}

/-- The flag accepts the text for a value. -/
def Flag.Accepts : Flag → String → Prop
  | .format, text => text = "--" ∨ ∃ f : Format, f.name = text
  | .limit, text => text = "--" ∨ ∃ n, Count.read text = .ok n
  | _, _ => True

/-- Up to the divider, every flag of the page is one that takes a value and has one that it
accepts, and no word is the beginning of several flags. -/
def Page.Clean (p : Page) : List String → Prop
  | [] => True
  | w :: rest =>
    match p.role w with
    | .divider => True
    | .plain | .unknown => p.Clean rest
    | .ambiguous _ => False
    | .joined f _ text => f.takesValue = true ∧ f.Accepts text ∧ p.Clean rest
    | .flag f =>
      f.takesValue = true ∧
        (∃ v, rest.head? = some v ∧ p.role v = .plain ∧ f.Accepts v) ∧ p.Clean rest

theorem Found.set_accepts {found found' : Found} (h : found.set p f text = .ok found') :
    f.Accepts text := by
  cases f with
  | format =>
    rw [Found.set] at h
    split at h
    · next g hg =>
      rcases Given.ofText_ok hg with ⟨htext, -⟩ | ⟨format, hread, -⟩
      · exact .inl htext
      · exact .inr ⟨format, readFormat_ok hread⟩
    · cases h
  | limit =>
    rw [Found.set] at h
    split at h
    · next g hg =>
      rcases Given.ofText_ok hg with ⟨htext, -⟩ | ⟨n, hread, -⟩
      · exact .inl htext
      · exact .inr ⟨n, readLimit_ok hread⟩
    · cases h
  | _ => exact trivial

/-- A page reads only clean words to their end. -/
theorem Page.readWords_clean {found found' : Found}
    (h : p.readWords found words = .ok found') : p.Clean words := by
  fun_induction p.readWords found words
  -- No words, or a divider.
  case case1 => exact trivial
  case case2 found w rest hrole => rw [Clean, hrole]; exact trivial
  -- An unknown flag, a name, or a plain word that is left over.
  case case4 found w rest hrole ih => rw [Clean, hrole]; exact ih h
  case case5 found w hrole hname rest => rw [Clean, hrole]; exact trivial
  case case6 found w rest hrole hname hdivider ih => rw [Clean, hrole]; exact ih h
  case case7 found w rest hrole hname ih => rw [Clean, hrole]; exact ih h
  -- A flag and its value. The value is a plain word, so it is passed over by itself.
  case case9 found w f hrole hf v rest hv found' hset ih =>
    have hplain : p.role v = .plain := by simpa [isValue] using hv
    rw [Clean, hrole]
    refine ⟨hf, ⟨v, rfl, hplain, Found.set_accepts hset⟩, ?_⟩
    rw [Clean, hplain]
    exact ih h
  -- A flag with its value joined to it.
  case case13 found w rest f letter text hrole hf found' hset ih =>
    rw [Clean, hrole]
    exact ⟨hf, Found.set_accepts hset, ih h⟩
  -- Everything else ends the reading.
  all_goals cases h

theorem Page.readCommand_clean {found : Found} (h : p.readCommand words = .ok found) :
    p.Clean words := by
  rw [readCommand] at h
  split at h
  · cases h
  split at h
  · cases h
  · next hok => exact readWords_clean hok

/-- The command stands among the words, before those that its page reads. -/
theorem readOpening_command {level : Given String} {extras : List String} {opening : Opening}
    (h : readOpening level extras words = .ok opening) (hc : opening.command = some (p, rest)) :
    ∃ before cmd, words = before ++ cmd :: rest ∧ (cmd, p) ∈ Page.commands := by
  fun_induction readOpening level extras words
  case case1 | case2 => cases h; cases hc
  case case4 level extras w rest' hrole p' hpage =>
    cases h
    cases hc
    exact ⟨[], w, rfl, commandPage_ok hpage⟩
  case case7 level extras w rest' hrole ih =>
    obtain ⟨before, cmd, rfl, hcmd⟩ := ih h
    exact ⟨w :: before, cmd, rfl, hcmd⟩
  case case9 level extras w f hrole hf v rest' hv ih =>
    obtain ⟨before, cmd, rfl, hcmd⟩ := ih h
    exact ⟨w :: v :: before, cmd, rfl, hcmd⟩
  case case12 level extras w rest' f letter text hrole hf ih =>
    obtain ⟨before, cmd, rfl, hcmd⟩ := ih h
    exact ⟨w :: before, cmd, rfl, hcmd⟩
  all_goals cases h

/-- **Reading is complete.** A request other than the empty one is that of a command among
the words, and the words behind it are clean on its page. -/
theorem read_clean {request : Request} (h : read words = .ok request)
    (hne : request.task ≠ .nothing) :
    ∃ before cmd p rest found, words = before ++ cmd :: rest ∧ (cmd, p) ∈ Page.commands ∧
      request.task = p.task found ∧ p.Clean rest := by
  rw [read] at h
  split at h
  · cases h
  split at h
  · cases h
  · next opening hopening =>
    rw [Opening.read] at h
    split at h
    · obtain rfl := request_ok h
      exact absurd rfl hne
    · next p rest hcommand =>
      split at h
      · cases h
      · next found hfound =>
        obtain rfl := request_ok h
        obtain ⟨before, cmd, hwords, hcmd⟩ := readOpening_command hopening hcommand
        exact ⟨before, cmd, p, rest, found, hwords, hcmd, rfl, Page.readCommand_clean hfound⟩

/-! ## Lines that are written out -/

/-- A word that does not begin with a minus sign is plain on every page. -/
theorem Page.role_plain (h : w.toList.head? ≠ some '-') : p.role w = .plain := by
  have hw : w ≠ "--" := by
    rintro rfl
    exact h rfl
  rw [role, if_neg hw, if_pos (by simp [h])]

theorem Page.ambiguity?_eq_none (h : ∀ w ∈ words, ∀ spellings, p.role w ≠ .ambiguous spellings) :
    p.ambiguity? words = none := by
  rw [ambiguity?, List.findSome?_eq_none_iff]
  intro w hw
  split
  · next spellings hrole =>
    exact absurd hrole (h w ((List.takeWhile_sublist _).subset hw) spellings)
  · rfl

/-- The first plain word is the name. -/
theorem Page.readWords_name {found : Found} (hrole : p.role w = .plain)
    (hname : (p.takesName && found.name.isNone) = true) (hrest : ∀ ws, rest ≠ "--" :: ws) :
    p.readWords found (w :: rest) = p.readWords { found with name := some w } rest := by
  rw [readWords, hrole]
  · simp only [hname, if_true]
  · exact hrest

/-- A flag takes the plain word behind it for its value. -/
theorem Page.readWords_flag {found : Found} {v : String} (hrole : p.role w = .flag f)
    (hf : f.takesValue = true) (hv : p.role v = .plain) :
    p.readWords found (w :: v :: rest) = (found.set p f v).bind (p.readWords · rest) := by
  have hvalue : p.isValue v = true := by rw [isValue, hv]; rfl
  rw [readWords.eq_def]
  simp only [hrole, hf, hvalue, if_true]
  cases found.set p f v <;> rfl

/-- **A line that is written out is read as it stands**: the format that it gives if there is
one of that name, and the limit that it gives if that is a count, else a complaint about the
first of them that is wrong. -/
theorem read_run {name format limit : String} (hname : name.toList.head? ≠ some '-')
    (hformat : format.toList.head? ≠ some '-') (hlimit : limit.toList.head? ≠ some '-') :
    read ["run", name, "-f", format, "-n", limit] =
      match Format.ofName? format, Count.read limit with
      | none, _ => .error (.misuse .run (.unknownFormat format))
      | _, .error e => .error (.misuse .run (.badLimit e))
      | some f, .ok n => .ok ⟨.absent, .run name (.value f) (.value n)⟩ := by
  have hn (p : Page) : p.role name = .plain := Page.role_plain hname
  have hf (p : Page) : p.role format = .plain := Page.role_plain hformat
  have hl (p : Page) : p.role limit = .plain := Page.role_plain hlimit
  have hrun : Page.main.role "run" = .plain := rfl
  have hmain : Page.main.ambiguity? ["run", name, "-f", format, "-n", limit] = none := by
    apply Page.ambiguity?_eq_none
    simp [hn, hf, hl, hrun, show Page.main.role "-f" = .unknown from rfl,
      show Page.main.role "-n" = .unknown from rfl]
  have hflag : Page.run.role "-f" = .flag .format := rfl
  have hflag' : Page.run.role "-n" = .flag .limit := rfl
  have hcommand : Page.run.ambiguity? [name, "-f", format, "-n", limit] = none := by
    apply Page.ambiguity?_eq_none
    simp [hn, hf, hl, hflag, hflag']
  have hopening : readOpening .absent [] ["run", name, "-f", format, "-n", limit] =
      .ok ⟨.absent, [], some (.run, [name, "-f", format, "-n", limit])⟩ := by
    rw [readOpening, hrun]
    rfl
  have hdash {w : String} (hw : w.toList.head? ≠ some '-') : w ≠ "--" := by
    rintro rfl
    exact hw rfl
  rw [read, hmain]
  simp only [hopening, Opening.read]
  rw [Page.readCommand, hcommand, Page.readWords_name (hn _) rfl (by simp),
    Page.readWords_flag hflag rfl (hf _), Found.set, Given.ofText, if_neg (hdash hformat),
    readFormat]
  cases Format.ofName? format with
  | none => rfl
  | some f =>
    simp only [Except.map, Except.bind]
    rw [Page.readWords_flag hflag' rfl (hl _), Found.set, Given.ofText, if_neg (hdash hlimit),
      readLimit]
    cases Count.read limit <;> rfl

end Stepwise.Command
