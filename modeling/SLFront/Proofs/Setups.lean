import Mathlib.Data.List.Basic
import SLFront.Log.Journal

/-!
# The last set-up counts

Nothing but a set-up that names a known level changes the journal, and it leaves nothing of what was
there before: the level is then that of the set-up, and there is one handler (`journal_step`). So
after any commands the journal is as the last such set-up has left it, or as it was at the start
(`after_eq`), and a record that is emitted then goes to the stream of that set-up, once, or nowhere
(`written_step`, `write_ofHandler`). All of this together is `run_keeps_last_setup`.
-/
namespace SLFront.Log.Journal
variable {timestamp : String} {j : Journal}

/-- The handler that a command installs: that of a set-up whose level is known. -/
def Command.installs? : Command → Option Handler
  | .setup choice stream => choice.resolve.toOption.map fun level => { level, stream }
  | .parse _ _ | .tokenize _ _ | .expression _ _ _ | .record _ => none

/-- The records that a command emits, whether or not they are written. -/
def Command.records : Command → List Record
  | .setup _ _ => []
  | .parse source filename => recordsOfRun (Parser.run Parser.program source filename)
  | .tokenize source filename =>
    match SLFront.tokenize source filename with
    | .ok _ => []
    | .error e => [.ofLexicalError e]
  | .expression source filename p => recordsOfRun (Parser.run (Parser.expression p) source filename)
  | .record r => [r]

/-- The handler of the last set-up whose level is known. -/
def lastInstalled (cs : List Command) : Option Handler := (cs.filterMap Command.installs?).getLast?

/-- The journal after commands. -/
def after (timestamp : String) (j : Journal) (cs : List Command) : Journal :=
  cs.foldl (fun j c => (j.step timestamp c).journal) j

/-! ## One command -/

/-- A command leaves the journal of the handler that it installs, or the journal as it was. -/
theorem journal_step (timestamp : String) (j : Journal) (c : Command) :
    (j.step timestamp c).journal = c.installs?.elim j ofHandler := by
  cases c with
  | setup choice stream =>
    simp only [step, setup_eq, Command.installs?]
    cases choice.resolve <;> rfl
  | tokenize source filename =>
    simp only [step]
    cases SLFront.tokenize source filename <;> rfl
  | parse | expression | record => rfl

/-- A command writes what becomes of its records, in their order. -/
theorem written_step (timestamp : String) (j : Journal) (c : Command) :
    (j.step timestamp c).written = j.writeAll timestamp c.records := by
  cases c with
  | setup choice stream =>
    simp only [step]
    cases setup choice stream j <;> rfl
  | tokenize source filename =>
    simp only [step, Command.records]
    cases SLFront.tokenize source filename with
    | ok ts => rfl
    | error e => exact (List.append_nil _).symm
  | record r => exact (List.append_nil _).symm
  | parse | expression => rfl

/-- A set-up that names no known level says so, and does nothing. -/
theorem step_setup_of_unknown {name : String} (hname : levelOfName? name = none) (stream : String) :
    j.step timestamp (.setup (.name name) stream) =
      { answer := .unknownLevel name, journal := j } := by
  simp only [step, setup_eq, LevelChoice.resolve, hname]
  rfl

theorem writeAll_empty (rs : List Record) : ({} : Journal).writeAll timestamp rs = [] := by
  refine List.flatMap_eq_nil_iff.2 fun r _ => ?_
  unfold write
  split <;> rfl

theorem write_ofHandler (h : Handler) (r : Record) :
    (ofHandler h).write timestamp r =
      if (ofHandler h).Reaches r ∧ h.level ≤ r.level then [(h.stream, r.line timestamp)]
      else [] := by
  unfold write
  by_cases hreaches : (ofHandler h).Reaches r
  · by_cases hlevel : h.level ≤ r.level
    · rw [if_pos hreaches, if_pos ⟨hreaches, hlevel⟩]
      simp [ofHandler, hlevel]
    · rw [if_pos hreaches, if_neg fun hboth => hlevel hboth.2]
      simp [ofHandler, hlevel]
  · rw [if_neg hreaches, if_neg fun hboth => hreaches hboth.1]

/-- One handler writes each record once or not at all. -/
theorem writeAll_ofHandler (h : Handler) (rs : List Record) :
    (ofHandler h).writeAll timestamp rs =
      (rs.filter fun r => (ofHandler h).Reaches r ∧ h.level ≤ r.level).map
        fun r => (h.stream, r.line timestamp) := by
  induction rs with
  | nil => rfl
  | cons r rs ih =>
    rw [writeAll, List.flatMap_cons, ← writeAll, ih, write_ofHandler]
    by_cases hr : (ofHandler h).Reaches r ∧ h.level ≤ r.level
    · rw [if_pos hr, List.filter_cons, if_pos (decide_eq_true hr)]
      rfl
    · rw [if_neg hr, List.filter_cons, if_neg (by simpa using hr)]
      rfl

/-! ## Runs -/

/-- After commands the journal is that of the handler installed last, or as it was. -/
theorem after_eq (j : Journal) (cs : List Command) :
    j.after timestamp cs = (lastInstalled cs).elim j ofHandler := by
  induction cs generalizing j with
  | nil => rfl
  | cons c cs ih =>
    have hcons : j.after timestamp (c :: cs) =
        (j.step timestamp c).journal.after timestamp cs := rfl
    rw [hcons, ih, journal_step, lastInstalled, lastInstalled, List.filterMap_cons]
    cases c.installs? with
    | none => rfl
    | some h =>
      rw [List.getLast?_cons]
      cases (cs.filterMap Command.installs?).getLast? <;> rfl

/-- The outcome of a command in a run is that of the command after those before it. -/
theorem getElem?_run (j : Journal) (before later : List Command) (c : Command) :
    (run timestamp j (before ++ c :: later))[before.length]? =
      some ((j.after timestamp before).step timestamp c) := by
  induction before generalizing j with
  | nil => rfl
  | cons b before ih => exact ih _

theorem isSome_lastInstalled (cs : List Command) :
    (lastInstalled cs).isSome = cs.any (·.installs?.isSome) := by
  rw [Bool.eq_iff_iff, lastInstalled, List.getLast?_isSome]
  simp [Option.isSome_iff_ne_none]

/-- In every run from the start, in front of every command: there is one handler if a set-up has
named a known level before, and none otherwise; the level of the root logger, the handler's level
and its stream are those of the last such set-up. If the command is a set-up that names no known
level, it says so and leaves all of this as it was. Of the records that it emits each one is written
once, to the stream of that last set-up, or not at all: once if it comes from the root logger or
below and is as serious as both levels ask for. -/
theorem run_keeps_last_setup (timestamp : String) (before : List Command) (c : Command)
    (later : List Command) :
    let j := ({} : Journal).after timestamp before
    (run timestamp {} (before ++ c :: later))[before.length]? = some (j.step timestamp c) ∧
      j.handlers.length = (if before.any (·.installs?.isSome) then 1 else 0) ∧
      (∀ h, lastInstalled before = some h → j.level = h.level ∧ j.handler = some h) ∧
      (∀ name stream, c = .setup (.name name) stream → levelOfName? name = none →
        j.step timestamp c = { answer := .unknownLevel name, journal := j }) ∧
      (j.step timestamp c).written = match lastInstalled before with
        | none => []
        | some h => (c.records.filter fun r => j.Reaches r ∧ h.level ≤ r.level).map
            fun r => (h.stream, r.line timestamp) := by
  intro j
  have hj : j = (lastInstalled before).elim {} ofHandler := after_eq {} before
  refine ⟨getElem?_run {} before later c, ?_, fun h hlast => ?_, ?_, ?_⟩
  · rw [← isSome_lastInstalled, hj]
    cases lastInstalled before <;> rfl
  · rw [hj, hlast]
    exact ⟨rfl, rfl⟩
  · rintro name stream rfl hname
    exact step_setup_of_unknown hname stream
  · rw [written_step, hj]
    cases lastInstalled before with
    | none => exact writeAll_empty _
    | some h => exact writeAll_ofHandler h _

/-- After two set-ups a third one fails, and the error of a forbidden word still goes to the stream
of the second. -/
theorem run_keeps_last_setup_failing :
    let before : List Command :=
      [.record { logger := "slc", level := 50, message := "early" }, .setup (.name "DEBUG") "first",
        .parse "var x" "a", .setup (.number 30) "second"]
    let failing : Command := .setup (.name "LOUD") "third"
    let j := ({} : Journal).after "now" before
    lastInstalled before = some ⟨30, "second"⟩ ∧ levelOfName? "LOUD" = none ∧
      j.handlers.length = 1 ∧ j.level = 30 ∧ j.handler = some ⟨30, "second"⟩ ∧
      j.step "now" failing = { answer := .unknownLevel "LOUD", journal := j } ∧
      ((({} : Journal).after "now" (before ++ [failing])).step "now"
        (.parse "var\n x = lib" "b")).written.map (·.1) = ["second"] := by
  intro before failing j
  have hlast : lastInstalled before = some ⟨30, "second"⟩ := by decide +kernel
  have hname : levelOfName? "LOUD" = none := by decide +kernel
  obtain ⟨-, hlength, hset, hunknown, -⟩ := run_keeps_last_setup "now" before failing []
  obtain ⟨hlevel, hhandler⟩ := hset _ hlast
  have hlast' : lastInstalled (before ++ [failing]) = some ⟨30, "second"⟩ := by decide +kernel
  obtain ⟨-, -, -, -, hwritten⟩ :=
    run_keeps_last_setup "now" (before ++ [failing]) (.parse "var\n x = lib" "b") []
  rw [hlast'] at hwritten
  refine ⟨hlast, hname, hlength, hlevel, hhandler, hunknown _ _ rfl hname, ?_⟩
  rw [hwritten]
  decide +kernel

end SLFront.Log.Journal
