import Mathlib.Data.List.Forall2
import Stepwise.Proofs.Session.Offers
import Stepwise.Session.Bench

/-!
# The journal of a bench

Of all that can be done with a bench, only runs make records (`act_journal`), and each run
adds one block to the journal (`run_logged`): a record of its start, then what the sink notes
of each state that it is offered, and at the end at most one record, which tells how the run
has come out. There is none if the sink has refused or the program is no term any more.

Main statement: `journal_in_blocks`.
-/

namespace Stepwise

/-! ## Records of events -/

namespace Record

/-- A record of an event, with particulars that each have a name. -/
def ofEvent (severity : Severity) (origin event : String) (particulars : List (String × String)) :
    Record :=
  ⟨severity, origin,
    Text.joinWith " " (event :: particulars.map fun p => p.1 ++ "=" ++ p.2)⟩

/-- The event that a record is of: the first word of its message. -/
def event (r : Record) : String := String.ofList (r.message.toList.takeWhile (· ≠ ' '))

theorem event_ofEvent {severity : Severity} {origin event : String}
    {particulars : List (String × String)} (h : ' ' ∉ event.toList) :
    (ofEvent severity origin event particulars).event = event := by
  have hword : ∀ c ∈ event.toList, decide (c ≠ ' ') = true := by
    intro c hc
    have hc : c ≠ ' ' := fun he => h (he ▸ hc)
    simpa using hc
  have hmessage : ∃ rest, (ofEvent severity origin event particulars).message.toList =
      event.toList ++ rest ∧ rest.takeWhile (· ≠ ' ') = [] := by
    cases particulars with
    | nil => exact ⟨[], by simp [ofEvent, Text.joinWith], rfl⟩
    | cons p rest =>
      refine ⟨' ' :: (Text.joinWith " " ((p :: rest).map fun p => p.1 ++ "=" ++ p.2)).toList, ?_, rfl⟩
      simp [ofEvent, Text.joinWith]
  obtain ⟨rest, hmessage, hrest⟩ := hmessage
  rw [Record.event, hmessage, List.takeWhile_append_of_pos hword, hrest, List.append_nil,
    String.ofList_toList]

/-- A record with two particulars, written out. -/
theorem ofEvent_two {severity : Severity} {origin event first second before between x y : String}
    (hbefore : event ++ " " ++ first ++ "=" = before) (hbetween : " " ++ second ++ "=" = between) :
    ofEvent severity origin event [(first, x), (second, y)] =
      ⟨severity, origin, before ++ x ++ between ++ y⟩ := by
  subst hbefore hbetween
  simp [ofEvent, Text.joinWith, String.append_assoc]

/-- A journal is read record by record; if all of them are grave enough, nothing is left out. -/
theorem readFrom_append {threshold : Severity} (journal : List Record) {block : List Record}
    (h : ∀ x ∈ block, threshold.rank ≤ x.severity.rank) :
    readFrom threshold (journal ++ block) = readFrom threshold journal ++ block := by
  have hblock : readFrom threshold block = block :=
    List.filter_eq_self.2 fun x hx => decide_eq_true (h x hx)
  rw [readFrom, List.filter_append]
  exact congrArg (_ ++ ·) hblock

end Record

/-! ## What a sink notes -/

namespace Sink

variable {σ : Type} {sink : Sink σ} {threshold : Severity} {note : String × String → List Record}

/-- What a sink notes of each pair that it is offered. Either it makes no records at all, or
it makes one of each pair, of a severity that shows in a journal read from `threshold` on. -/
inductive Notes (threshold : Severity) (sink : Sink σ) : (String × String → List Record) → Prop
  | silent : (∀ pair tray, (sink.offer pair tray).records = []) →
      Notes threshold sink fun _ => []
  | record {level : String} {severity : Severity} : sink = Sink.record true level →
      Severity.ofName level = .ok severity → threshold.rank ≤ severity.rank →
      Notes threshold sink fun pair =>
        [.ofEvent severity "smallstep.trace" "trace.configuration"
          [("program", pair.1), ("environment", pair.2)]]

theorem Notes.records_eq (h : sink.Notes threshold note) (pair : String × String) (tray : σ) :
    (sink.offer pair tray).records = note pair := by
  cases h with
  | silent hsilent => exact hsilent pair tray
  | record hsink hlevel _ =>
    simp only [hsink, Sink.record, hlevel]
    exact congrArg ([·]) (Record.ofEvent_two (by decide) (by decide)).symm

theorem Notes.event_eq (h : sink.Notes threshold note) {pair : String × String} :
    ∀ x ∈ note pair, x.event = "trace.configuration" := by
  cases h <;> simp [Record.event_ofEvent]

theorem Notes.rank_le (h : sink.Notes threshold note) {pair : String × String} :
    ∀ x ∈ note pair, threshold.rank ≤ x.severity.rank := by
  cases h with
  | silent => simp
  | record _ _ hrank => simpa [Record.ofEvent] using hrank

end Sink

namespace Session

variable {σ : Type} {sink : Sink σ} {m m' : Session} {tray : σ} {fuel : Nat}
  {threshold : Severity} {note : String × String → List Record} {r : Except Stop History}
  {closing : List Record}

/-- The record with which a run begins. -/
def opening (m : Session) : Record :=
  .ofEvent .debug origin "machine.run.started"
    [("program", m.state.program.text), ("environment", m.state.store.text)]

/-- The records with which a run ends that comes from the session `m` to `m'` with this
result. -/
inductive Closes (m m' : Session) : Except Stop History → List Record → Prop
  | finished {h : History} : m'.canStep = .ok false →
      Closes m m' (.ok h)
        [.ofEvent .debug origin "machine.run.finished"
          [("steps", toString (m'.taken - m.taken)), ("final", m'.state.text)]]
  | spent {n : Int} {h : History} : m'.canStep = .ok true →
      Closes m m' (.error (.limit n h))
        [.ofEvent .warning origin "machine.run.step_limit"
          [("limit", toString n), ("program", m'.state.program.text)]]
  | stuck {f : Fault} : m'.canStep = .ok true → m'.step = .error f →
      Closes m m' (.error (.fault f))
        [.ofEvent .debug origin "machine.run.failed"
          [("steps", toString m'.taken), ("error", f.message)]]
  | strayed {v : Scalar} : m'.state.program = .stray v →
      Closes m m' (.error (.fault (.notTerm v))) []
  | refused {r : Refusal} : Closes m m' (.error (.refused r)) []

theorem startRecord_eq (m : Session) : startRecord m = opening m :=
  (Record.ofEvent_two (by decide) (by decide)).symm

theorem finishRecord_eq {k : Nat} {st : State} {es : List Entry} (h : es.length = k + 1) :
    finishRecord ⟨es⟩ (m.moved k st) =
      .ofEvent .debug origin "machine.run.finished"
        [("steps", toString ((m.moved k st).taken - m.taken)), ("final", st.text)] := by
  have hcount : History.stepCount ⟨es⟩ = k := by
    rw [History.stepCount, History.size, h, Nat.add_sub_cancel]
  have htaken : (m.moved k st).taken - m.taken = k := Nat.add_sub_cancel_left ..
  rw [finishRecord, hcount, htaken, Numeral.write_eq_toString]
  exact (Record.ofEvent_two (by decide) (by decide)).symm

theorem limitRecord_eq (n : Int) (last : Session) :
    limitRecord n last =
      .ofEvent .warning origin "machine.run.step_limit"
        [("limit", toString n), ("program", last.state.program.text)] := by
  rw [limitRecord, Numeral.write_eq_toString]
  exact (Record.ofEvent_two (by decide) (by decide)).symm

theorem failRecord_eq (f : Fault) (last : Session) :
    failRecord f last =
      .ofEvent .debug origin "machine.run.failed"
        [("steps", toString last.taken), ("error", f.message)] := by
  rw [failRecord, Numeral.write_eq_toString]
  exact (Record.ofEvent_two (by decide) (by decide)).symm

/-- A journey has the sink's notes of each state that it has recorded. -/
theorem travel_records (hnote : ∀ pair tray, (sink.offer pair tray).records = note pair)
    (n : Nat) (m : Session) (tray : σ) :
    (travel sink n m tray).records =
      (travel sink n m tray).visited.flatMap fun e => note e.texts := by
  fun_induction travel sink n m tray with
  | case1 => rfl
  | case5 _ _ _ _ _ _ _ _ ih =>
    rw [Journey.after, ih, List.flatMap_cons]
    exact congrArg (· ++ _) (hnote _ _)
  | _ => exact (hnote _ _).trans (List.flatMap_singleton ..).symm

/-- A journey that goes along the states from `m` is closed by what its ending asks for. -/
theorem conclude_closes {journey : Journey σ} {k n : Nat} {st : State}
    {c : Except Stop History × List Record} (hm : journey.session = m.moved k st)
    (hr : m.Reached n k st journey.visited journey.ending)
    (h : conclude m.limit journey = some c) : m.Closes journey.session c.1 c.2 := by
  obtain ⟨es, session, tray, records, ending⟩ := journey
  obtain rfl : session = m.moved k st := hm
  cases ending with
  | finished =>
    cases h
    rw [finishRecord_eq hr.2.1]
    exact .finished hr.1
  | stuck f =>
    cases h
    obtain ⟨-, hc, hs, -⟩ := hr
    rw [failRecord_eq]
    exact .stuck hc ((step_eq_error_iff (m := m.moved k st) hc).2 hs)
  | strayed f =>
    cases h
    obtain ⟨v, hv, rfl⟩ := Term.canStep_eq_error_iff.1 hr.1
    exact .strayed hv
  | refused r => cases h; exact .refused
  | spent =>
    cases hl : m.limit with
    | none => rw [hl] at h; cases h
    | some limit =>
      rw [hl] at h
      cases h
      rw [limitRecord_eq]
      exact .spent hr.2.1

/-- The journal of a run: its opening, the sink's notes of the states recorded, and the
closing. -/
theorem run_logged (hnote : ∀ pair tray, (sink.offer pair tray).records = note pair)
    {report : Report σ} (h : m.run fuel sink tray = some report) :
    ∃ es o closing, m.Offers report.result report.session es o ∧
      m.Closes report.session report.result closing ∧
      report.journal = opening m :: es.flatMap (fun e => note e.texts) ++ closing := by
  obtain ⟨o, hoffers, -⟩ := run_receives h
  obtain ⟨k, st, -, -, hm, hr⟩ := travel_reaches sink (budget fuel m.limit) m tray
  obtain ⟨c, hc, rfl⟩ := Option.map_eq_some_iff.1 h
  refine ⟨_, o, c.2, hoffers, conclude_closes hm hr hc, ?_⟩
  rw [← travel_records hnote, startRecord_eq]

/-! ## The events of a run -/

/-- The events that end a run. -/
def endings : List String :=
  ["machine.run.finished", "machine.run.step_limit", "machine.run.failed"]

namespace Closes

theorem finished_iff (h : m.Closes m' r closing) :
    (∃ x ∈ closing, x.event = "machine.run.finished") ↔ ∃ hist, r = .ok hist := by
  cases h <;> simp [Record.event_ofEvent]

theorem limited_iff (h : m.Closes m' r closing) :
    (∃ x ∈ closing, x.event = "machine.run.step_limit") ↔
      ∃ n hist, r = .error (.limit n hist) := by
  cases h <;> simp [Record.event_ofEvent]

/-- A fault is recorded if a step has met it. -/
theorem failed_iff (h : m.Closes m' r closing) :
    (∃ x ∈ closing, x.event = "machine.run.failed") ↔
      ∃ f, m'.canStep = .ok true ∧ m'.step = .error f ∧ r = .error (.fault f) := by
  cases h with
  | stuck hc hs => simp [Record.event_ofEvent, hc, hs]
  | strayed hv => simp [canStep, hv, Term.canStep]
  | _ => simp [Record.event_ofEvent]

/-- Nothing closes the journal if the sink has refused or the program is no term. -/
theorem nil_iff (h : m.Closes m' r closing) :
    (∀ x ∈ closing, x.event ∉ endings) ↔
      (∃ refusal, r = .error (.refused refusal)) ∨ ∃ v, m'.state.program = .stray v := by
  have hterm : ∀ {more v}, m'.canStep = .ok more → m'.state.program ≠ .stray v := by
    intro more v hc hv
    rw [canStep, hv] at hc
    cases hc
  cases h with
  | finished hc => simp [Record.event_ofEvent, endings, hterm hc]
  | spent hc => simp [Record.event_ofEvent, endings, hterm hc]
  | stuck hc hs => simp [Record.event_ofEvent, endings, hterm hc]
  | strayed hv => simp [hv]
  | refused => simp

/-- What closes a journal is at least of the severity of the opening. -/
theorem debug_le (h : m.Closes m' r closing) :
    ∀ x ∈ closing, Severity.debug.rank ≤ x.severity.rank := by
  cases h <;> simp [Record.ofEvent, Severity.rank]

end Closes

theorem mem_block_iff {x : Record} {es : List Entry} :
    x ∈ opening m :: es.flatMap (fun e => note e.texts) ++ closing ↔
      x = opening m ∨ (∃ e ∈ es, x ∈ note e.texts) ∨ x ∈ closing := by
  simp

/-- Neither the opening nor a note of the sink is of an event that ends a run. -/
theorem exists_event_iff {name : String} {es : List Entry} (hnotes : sink.Notes threshold note)
    (hname : name ∈ endings) :
    (∃ x ∈ opening m :: es.flatMap (fun e => note e.texts) ++ closing, x.event = name) ↔
      ∃ x ∈ closing, x.event = name := by
  constructor
  · intro h
    obtain ⟨x, hx, rfl⟩ := h
    obtain rfl | ⟨e, -, hx⟩ | hx := mem_block_iff.1 hx
    · simp [opening, endings, Record.event_ofEvent] at hname
    · simp [hnotes.event_eq x hx, endings] at hname
    · exact ⟨x, hx, rfl⟩
  · intro h
    obtain ⟨x, hx, hevent⟩ := h
    exact ⟨x, mem_block_iff.2 (.inr (.inr hx)), hevent⟩

end Session

/-! ## Calls -/

/-- The outcome of a run with this result. -/
def Outcome.ofResult : Except Stop History → Outcome
  | .ok h => .history h
  | .error s => .stopped s

theorem Outcome.ofResult_eq_history_iff {r : Except Stop History} {h : History} :
    ofResult r = .history h ↔ r = .ok h := by
  cases r <;> simp [ofResult]

theorem Outcome.ofResult_eq_stopped_iff {r : Except Stop History} {s : Stop} :
    ofResult r = .stopped s ↔ r = .error s := by
  cases r <;> simp [ofResult]

/-- An action that was done with a bench: the bench before, what the action has given, and
the bench after. -/
structure Call (σ : Type) where
  before : Bench σ
  action : Action
  outcome : Outcome
  after : Bench σ

namespace Bench

variable {σ : Type} {sink : Sink σ} {b b' : Bench σ} {a : Action} {o : Outcome} {fuel : Nat}
  {threshold : Severity} {note : String × String → List Record} {calls : List (Call σ)}

/-- These calls, one after another, take a bench to another one. -/
inductive Calls (sink : Sink σ) : Bench σ → List (Call σ) → Bench σ → Prop
  | nil {b : Bench σ} : Calls sink b [] b
  | cons {b b' b'' : Bench σ} {a : Action} {o : Outcome} {fuel : Nat} {calls : List (Call σ)} :
      b.act fuel sink a = some (b', o) → Calls sink b' calls b'' →
      Calls sink b (⟨b, a, o, b'⟩ :: calls) b''

/-- Does actions one after another and lists the calls; each run has the same fuel. -/
def callAll (fuel : Nat) (sink : Sink σ) :
    Bench σ → List Action → Option (List (Call σ) × Bench σ)
  | b, [] => some ([], b)
  | b, a :: as => (b.act fuel sink a).bind fun done =>
    (callAll fuel sink done.1 as).map fun rest => (⟨b, a, done.2, done.1⟩ :: rest.1, rest.2)

theorem Calls.of_callAll {as : List Action} (h : b.callAll fuel sink as = some (calls, b')) :
    Calls sink b calls b' ∧ calls.map Call.action = as := by
  induction as generalizing b calls with
  | nil => cases h; exact ⟨.nil, rfl⟩
  | cons a as ih =>
    obtain ⟨⟨b₁, o⟩, hact, hrest⟩ := Option.bind_eq_some_iff.1 h
    obtain ⟨⟨rest, b₂⟩, hafter, heq⟩ := Option.map_eq_some_iff.1 hrest
    cases heq
    obtain ⟨hcalls, hactions⟩ := ih hafter
    exact ⟨.cons hact hcalls, congrArg (a :: ·) hactions⟩

/-- The block of records that a run has added to the journal: its opening, the sink's notes
of the states that it has recorded, in order, and what closes it. It is told by the records
of the block how the run has ended. -/
structure Logged (note : String × String → List Record) (c : Call σ) (block : List Record) :
    Prop where
  block_eq : ∃ r es o closing, c.outcome = .ofResult r ∧
    c.before.session.Offers r c.after.session es o ∧
    c.before.session.Closes c.after.session r closing ∧
    block = c.before.session.opening :: es.flatMap (fun e => note e.texts) ++ closing
  finished : (∃ x ∈ block, x.event = "machine.run.finished") ↔ ∃ h, c.outcome = .history h
  limited : (∃ x ∈ block, x.event = "machine.run.step_limit") ↔
    ∃ n h, c.outcome = .stopped (.limit n h)
  failed : (∃ x ∈ block, x.event = "machine.run.failed") ↔
    ∃ f, c.after.session.canStep = .ok true ∧ c.after.session.step = .error f ∧
      c.outcome = .stopped (.fault f)
  broken_off : (∀ x ∈ block, x.event ∉ Session.endings) ↔
    (∃ refusal, c.outcome = .stopped (.refused refusal)) ∨
      ∃ v, c.after.session.state.program = .stray v

/-- Only runs make records: any other action leaves the journal as it is. -/
theorem act_journal (ha : a ≠ .run) (h : b.act fuel sink a = some (b', o)) :
    b'.journal = b.journal := by
  cases a with
  | run => exact absurd rfl ha
  | step =>
    rw [act, step] at h
    split at h <;> cases h <;> rfl
  | advance i =>
    rw [act, advance] at h
    split at h <;> cases h <;> rfl
  | _ => cases h; rfl

/-- A run adds one block to the journal, all of which is read. -/
theorem run_logs (hdebug : threshold.rank ≤ Severity.debug.rank)
    (hnotes : sink.Notes threshold note) (h : b.run fuel sink = some (b', o)) :
    ∃ block, Record.readFrom threshold b'.journal =
        Record.readFrom threshold b.journal ++ block ∧ Logged note ⟨b, .run, o, b'⟩ block := by
  obtain ⟨report, hrun, hreport⟩ := Option.map_eq_some_iff.1 h
  obtain ⟨rfl, houtcome⟩ := Prod.mk.inj hreport
  obtain rfl : o = .ofResult report.result := by
    rw [← houtcome]
    cases report.result <;> rfl
  obtain ⟨es, offered, closing, hoffers, hcloses, hjournal⟩ :=
    Session.run_logged hnotes.records_eq hrun
  have hevent {name : String} (hname : name ∈ Session.endings) :
      (∃ x ∈ report.journal, x.event = name) ↔ ∃ x ∈ closing, x.event = name := by
    rw [hjournal]
    exact Session.exists_event_iff hnotes hname
  refine ⟨report.journal, Record.readFrom_append b.journal ?_, ?_⟩
  · intro x hx
    rw [hjournal] at hx
    obtain rfl | ⟨e, -, hx⟩ | hx := Session.mem_block_iff.1 hx
    · exact hdebug
    · exact hnotes.rank_le x hx
    · exact Nat.le_trans hdebug (hcloses.debug_le x hx)
  · constructor
    · exact ⟨_, es, offered, closing, rfl, hoffers, hcloses, hjournal⟩
    · simp only [Outcome.ofResult_eq_history_iff]
      exact (hevent (by decide)).trans hcloses.finished_iff
    · simp only [Outcome.ofResult_eq_stopped_iff]
      exact (hevent (by decide)).trans hcloses.limited_iff
    · simp only [Outcome.ofResult_eq_stopped_iff]
      exact (hevent (by decide)).trans hcloses.failed_iff
    · simp only [Outcome.ofResult_eq_stopped_iff]
      rw [← hcloses.nil_iff]
      constructor
      · intro hall x hx hends
        obtain ⟨y, hy, hyx⟩ := (hevent hends).2 ⟨x, hx, rfl⟩
        exact hall y hy (hyx ▸ hends)
      · intro hall x hx hends
        obtain ⟨y, hy, hyx⟩ := (hevent hends).1 ⟨x, hx, rfl⟩
        exact hall y hy (hyx ▸ hends)

theorem journal_blocks (hdebug : threshold.rank ≤ Severity.debug.rank)
    (hnotes : sink.Notes threshold note) (h : Calls sink b calls b') :
    ∃ blocks : List (List Record),
      Record.readFrom threshold b'.journal =
        Record.readFrom threshold b.journal ++ blocks.flatten ∧
      List.Forall₂ (Logged note) (calls.filter (·.action = .run)) blocks := by
  induction h with
  | nil => exact ⟨[], by simp, .nil⟩
  | @cons b b' b'' a o fuel calls hact _ ih =>
    obtain ⟨blocks, hjournal, hblocks⟩ := ih
    by_cases ha : a = .run
    · subst ha
      obtain ⟨block, hblock, hlogged⟩ := run_logs hdebug hnotes hact
      refine ⟨block :: blocks, ?_, ?_⟩
      · rw [hjournal, hblock, List.flatten_cons, List.append_assoc]
      · rw [List.filter_cons_of_pos (by simp)]
        exact .cons hlogged hblocks
    · refine ⟨blocks, ?_, ?_⟩
      · rw [hjournal, act_journal ha hact]
      · rw [List.filter_cons_of_neg (by simpa using ha)]
        exact hblocks

/-- **The journal of a bench is made of one block for each run.** In a journal that is read
from debugging upwards there is a block for each of the runs among the calls, in order, and
nothing else; here the sink makes no records of its own, or one of each state that it is
offered. A block begins with the record of the start, goes on with the sink's notes of the
states that the run has recorded, and ends with at most one record. It tells of the end if
and only if there is a history, of the limit if and only if that was reached, of a failure if
and only if a step has met a fault; and there is no such record if and only if the sink has
refused or the program is no term. -/
theorem journal_in_blocks {m : Session} {tray : σ}
    (hdebug : threshold.rank ≤ Severity.debug.rank) (hnotes : sink.Notes threshold note)
    (h : Calls sink (ofSession m tray) calls b) :
    ∃ blocks : List (List Record),
      Record.readFrom threshold b.journal = blocks.flatten ∧
      List.Forall₂ (Logged note) (calls.filter (·.action = .run)) blocks :=
  journal_blocks hdebug hnotes h

/-- An assignment of a sum that is run under a limit of one step, then without one, and then
with a program that is no term: of the three blocks of the journal the last one has no record
of an end. -/
theorem journal_in_blocks_assignment :
    let m : Session := ⟨⟨.assign "x" (.binary .add (.num 1) (.num 2)), ∅⟩, 0, some 1⟩
    let sink : Sink Unit := Sink.record true "INFO"
    let note := fun pair : String × String =>
      [Record.ofEvent .info "smallstep.trace" "trace.configuration"
        [("program", pair.1), ("environment", pair.2)]]
    ∃ calls b, Calls sink (ofSession m ()) calls b ∧
      calls.map Call.action =
        [.run, .step, .setLimit none, .run, .setProgram (.stray .null), .run] ∧
      b.journal.map Record.event =
        ["machine.run.started", "trace.configuration", "trace.configuration",
          "machine.run.step_limit", "machine.run.started", "trace.configuration",
          "machine.run.finished", "machine.run.started"] ∧
      ∃ blocks : List (List Record),
        Record.readFrom .debug b.journal = blocks.flatten ∧
        List.Forall₂ (Logged note) (calls.filter (·.action = .run)) blocks := by
  intro m sink note
  have hnotes : sink.Notes .debug note := .record rfl rfl (by decide)
  have hperform : ((ofSession m ()).callAll 9 sink
      [.run, .step, .setLimit none, .run, .setProgram (.stray .null), .run]).map
        (fun p => p.2.journal.map Record.event) =
      some ["machine.run.started", "trace.configuration", "trace.configuration",
        "machine.run.step_limit", "machine.run.started", "trace.configuration",
        "machine.run.finished", "machine.run.started"] := by
    decide +kernel
  obtain ⟨⟨calls, b⟩, hcall, hjournal⟩ := Option.map_eq_some_iff.1 hperform
  obtain ⟨hcalls, hactions⟩ := Calls.of_callAll hcall
  exact ⟨calls, b, hcalls, hactions, hjournal, journal_in_blocks (by decide) hnotes hcalls⟩

end Bench

end Stepwise
