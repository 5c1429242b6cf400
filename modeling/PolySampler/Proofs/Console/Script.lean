import Mathlib.Data.List.DropRight
import PolySampler.Proofs.Console.Input
import PolySampler.Proofs.Console.Tokens
import PolySampler.Proofs.Synth.Configure
import PolySampler.Screen.Desk

/-!
The same session on both consoles. A script is typed into the terminal, line by line, or
is the input of the plain console. Either way its lines are executed up to the first that
quits, errors and blank lines notwithstanding; the engine goes through the same states,
and every line is shown the same answer.
-/

namespace PolySampler.Console

open Screen

/-! ### The session of a script -/

def quits (line : String) : Bool :=
  match Command.parse line with
  | .ok (some .quit) => true
  | _ => false

/-- The lines up to the first that ends the session, that one included. -/
def executed (lines : List String) : List String :=
  lines.take (lines.findIdx quits + 1)

def Executed.ends (done : Executed) : Bool :=
  match done.answer with
  | .ok .quit => true
  | _ => false

/-- What the user is shown of a line that has been executed. -/
def Executed.shown (done : Executed) : List String :=
  match done.answer with
  | .ok (.lines lines) => lines
  | .ok .quit => []
  | .error error => ["ERROR: " ++ error.message]

section Script

variable (around : Surroundings)

def engineAfter (e : Engine) (lines : List String) : Engine :=
  lines.foldl (fun e line => (executeLine around e line).engine) e

/-- Lines that are executed one after the other, each with what is shown of it. -/
def transcript : Engine → List String → List (String × List String)
  | _, [] => []
  | e, line :: rest =>
    let done := executeLine around e line
    (line, done.shown) :: transcript done.engine rest

end Script

/-- What the plain console writes for a line: the answer, and behind it what asks for the
next line. -/
def written (line : String) (shown : List String) : String :=
  String.join (shown.map (· ++ "\n")) ++ if quits line then "" else promptText

/-- What the terminal shows for a line: the line itself and the answer, or nothing if the
line is blank. -/
def echoed (line : String) (shown : List String) : List String :=
  if (Text.trim line.toList).isEmpty then [] else ("> " ++ line) :: shown

theorem executed_cons (line : String) (lines : List String) :
    executed (line :: lines) = line :: if quits line then [] else executed lines := by
  rw [executed, List.findIdx_cons]
  cases quits line <;> rfl

example : executed ["frob", "exit", "help"] = ["frob", "exit"] := by decide

/-! ### One line -/

section Line

variable {around : Surroundings} {e : Engine} {line : String}

theorem ends_reply (response : Response Unit) (text : String) (records : List Log.Record) :
    Executed.ends { answer := (Response.reply response text).answer.mapError .config,
                    engine := response.engine, records } = false := by
  obtain ⟨answer, engine, told⟩ := response
  cases answer <;> rfl

theorem ends_executeLine : (executeLine around e line).ends = quits line := by
  rw [executeLine, quits]
  rcases Command.parse line with error | command | command
  · rfl
  · rfl
  · cases command with
    | loadInstrument path =>
        dsimp only [execute]
        cases (e.loadInstrument around.files path around.readers).answer <;> rfl
    | setOversampling oversampling => exact ends_reply _ _ _
    | setPreloadSize frames => exact ends_reply _ _ _
    | setVoices count => exact ends_reply _ _ _
    | gain level => exact ends_reply _ _ _
    | unloadInstrument | settings | help | quit => rfl

theorem isBlank_of_trim_isEmpty {text : List Char} (h : (Text.trim text).isEmpty) :
    ∀ c ∈ text, Text.isBlank c = true := by
  have hend : (text.dropWhile Text.isBlank).rdropWhile Text.isBlank = [] := List.isEmpty_iff.mp h
  have hnone := List.dropWhile_eq_nil_iff.mpr (List.rdropWhile_eq_nil_iff.mp hend)
  rw [List.dropWhile_idempotent] at hnone
  exact List.dropWhile_eq_nil_iff.mp hnone

/-- A blank line does nothing, wherever it is executed. -/
theorem executeLine_of_blank (h : (Text.trim line.toList).isEmpty) :
    executeLine around e line = { answer := .ok (.lines []), engine := e, records := [] } := by
  have hparse : Command.parse line = .ok none := by
    rw [Command.parse, tokenize, splitTokens_of_blank [] _ (isBlank_of_trim_isEmpty h)]
    rfl
  rw [executeLine, hparse]

end Line

/-! ### The plain console -/

section Plain

variable (around : Surroundings)

def Session.after (s : Session) (line : String) : Session where
  engine := (executeLine around s.engine line).engine
  shutdown := if quits line then s.shutdown.request else s.shutdown
  output := s.output ++ written line (executeLine around s.engine line).shown
  records := s.records ++ (executeLine around s.engine line).records

theorem step_eq (s : Session) (line : String) :
    s.step around line = (!quits line, s.after around line) := by
  have hends := @ends_executeLine around s.engine line
  rw [Session.step, Session.after]
  unfold written
  rw [← hends]
  generalize executeLine around s.engine line = done
  obtain ⟨answer, engine, records⟩ := done
  rcases answer with error | lines | _
  · simp only [Session.writeLines, Session.write, Executed.ends, Executed.shown,
      String.append_assoc]
    rfl
  · simp only [Session.writeLines, Session.write, Executed.ends, Executed.shown,
      String.append_assoc]
    rfl
  · simp only [Executed.ends, Executed.shown, List.map_nil, String.join_nil, if_true,
      String.append_empty]
    rfl

theorem runLines_cons {s : Session} (h : s.shutdown.requested = false) (line : String)
    (rest : List (Option String)) :
    s.runLines around (some line :: rest) =
      if quits line then (.ok (), s.after around line)
      else (s.after around line).runLines around rest := by
  rw [Session.runLines, if_neg (by simp [h]), step_eq]
  cases quits line <;> rfl

/-- The plain console executes the lines up to the first that quits. Whether one does or
the input is at its end, shutdown is requested. -/
theorem runLines_eq (lines : List String) (s : Session) (h : s.shutdown.requested = false) :
    let (ended, s') := s.runLines around (lines.map some)
    ended = .ok () ∧ s'.engine = engineAfter around s.engine (executed lines) ∧
      s'.shutdown.requested = true ∧
      s'.output = s.output ++ String.join
        ((transcript around s.engine (executed lines)).map
          fun (line, shown) => written line shown) := by
  induction lines generalizing s with
  | nil => exact ⟨rfl, rfl, rfl, String.append_empty.symm⟩
  | cons line lines ih =>
      rw [executed_cons, List.map_cons, runLines_cons around h, transcript, List.map_cons,
        String.join_cons, ← String.append_assoc]
      cases hquits : quits line with
      | true =>
          have hrequested : (s.after around line).shutdown.requested = true := by
            rw [Session.after, hquits]
            rfl
          exact ⟨rfl, rfl, hrequested, String.append_empty.symm⟩
      | false =>
          have hopen : (s.after around line).shutdown.requested = false := by
            rw [Session.after, hquits]
            exact h
          exact ih (s.after around line) hopen

end Plain

/-! ### The terminal console -/

/-- The last lines that are kept of all that were shown. -/
def newest (shown : List String) : List String :=
  shown.drop (shown.length - Log.maxLines)

theorem length_newest (shown : List String) :
    (newest shown).length = min shown.length Log.maxLines := by
  rw [newest, List.length_drop]
  omega

theorem kept_push {l : Log.Lines} {shown : List String} (h : l.kept = newest shown)
    (line : String) : (l.push line).kept = newest (shown ++ [line]) := by
  have hlength := length_newest shown
  have hroom : shown.length + 1 - Log.maxLines ≤ shown.length := by
    rw [Log.maxLines]
    omega
  have hnew : newest (shown ++ [line]) =
      shown.drop (shown.length + 1 - Log.maxLines) ++ [line] := by
    rw [newest, List.length_append, List.length_singleton, List.drop_append_of_le_length hroom]
  rw [Log.Lines.push, h, hnew]
  by_cases hfull : (newest shown).length = Log.maxLines
  · have hcount : shown.length - Log.maxLines + 1 = shown.length + 1 - Log.maxLines := by omega
    rw [if_pos hfull, newest, List.drop_drop, hcount]
  · have hcount : shown.length - Log.maxLines = shown.length + 1 - Log.maxLines := by omega
    rw [if_neg hfull, newest, hcount]

theorem kept_pushAll {l : Log.Lines} {shown : List String} (h : l.kept = newest shown)
    (lines : List String) : (l.pushAll lines).kept = newest (shown ++ lines) := by
  induction lines generalizing l shown with
  | nil => rw [List.append_nil]; exact h
  | cons line lines ih =>
      have hrest := ih (kept_push h line)
      rw [List.append_assoc, List.singleton_append] at hrest
      exact hrest

/-- A desk as far as a session goes: the engine, the lines that have been shown so far,
what is being typed, and whether the session is closed. -/
structure Stands (d : Desk) (e : Engine) (shown : List String) (input : String) (closed : Bool) :
    Prop where
  engine_eq : d.engine = e
  kept_eq : d.lines.kept = newest shown
  input_eq : d.input = input
  requested_eq : d.shutdown.requested = closed

def typedLine (line : String) : List TerminalEvent :=
  line.toList.map (fun c => .press (.char c) false) ++ [.press .enter false]

section Terminal

variable (around : Surroundings) {d : Desk} {e : Engine} {shown : List String} {input : String}
  {closed : Bool}

theorem Stands.poll (h : Stands d e shown input closed) : Stands d.poll e shown input closed :=
  ⟨h.engine_eq, h.kept_eq, h.input_eq, h.requested_eq⟩

theorem Stands.turn {event : TerminalEvent}
    (h : Stands (d.handle around event) e shown input closed) :
    Stands (d.turn around event) e shown input closed := by
  rw [Desk.turn]
  split
  · exact h
  · exact h.poll

theorem Stands.char (h : Stands d e shown input closed) (c : Char) :
    Stands (d.turn around (.press (.char c) false)) e shown (input.push c) closed := by
  apply Stands.turn
  rw [Desk.handle, Desk.press, if_neg (by simp)]
  exact ⟨h.engine_eq, h.kept_eq, congrArg (String.push · c) h.input_eq, h.requested_eq⟩

theorem showAnswer_eq (d : Desk) (done : Executed) :
    d.showAnswer done.answer = { d with
      lines := d.lines.pushAll done.shown
      shutdown := if done.ends then d.shutdown.request else d.shutdown } := by
  obtain ⟨answer, engine, records⟩ := done
  rcases answer with error | lines | _ <;> rfl

theorem Stands.enter (h : Stands d e shown input false) :
    Stands (d.turn around (.press .enter false)) (executeLine around e input).engine
      (shown ++ echoed input (executeLine around e input).shown) "" (quits input) := by
  apply Stands.turn
  rw [Desk.handle, Desk.press, Desk.submit, h.input_eq, echoed]
  dsimp only
  split
  · next hblank =>
      have hquits : quits input = false := by
        rw [← @ends_executeLine around e input, executeLine_of_blank hblank]
        rfl
      rw [executeLine_of_blank hblank, hquits, List.append_nil]
      exact ⟨h.engine_eq, h.kept_eq, rfl, h.requested_eq⟩
  · rw [h.engine_eq, showAnswer_eq, ends_executeLine]
    refine ⟨rfl, ?_, rfl, ?_⟩
    · have hpushed := kept_pushAll (kept_push h.kept_eq ("> " ++ input))
        (executeLine around e input).shown
      rw [List.append_assoc, List.singleton_append] at hpushed
      exact hpushed
    · have hopen := h.requested_eq
      show (if quits input then d.shutdown.request else d.shutdown).requested = quits input
      cases quits input
      · exact hopen
      · rfl

theorem turns_cons (h : d.shutdown.requested = false) (event : TerminalEvent)
    (rest : List TerminalEvent) :
    d.turns around (event :: rest) = (d.turn around event).turns around rest := by
  rw [Desk.turns, if_neg (by simp [h])]

theorem Stands.turns_chars (h : Stands d e shown input false) (chars : List Char)
    (rest : List TerminalEvent) :
    ∃ d', d.turns around (chars.map (fun c => .press (.char c) false) ++ rest) =
        d'.turns around rest ∧ Stands d' e shown (input ++ String.ofList chars) false := by
  induction chars generalizing d input with
  | nil => exact ⟨d, rfl, by simpa using h⟩
  | cons c chars ih =>
      obtain ⟨d', hturns, hstands⟩ := ih (h.char around c)
      have hinput : input.push c ++ String.ofList chars = input ++ String.ofList (c :: chars) := by
        apply String.toList_inj.mp
        simp
      refine ⟨d', ?_, hinput ▸ hstands⟩
      rw [List.map_cons, List.cons_append, turns_cons around h.requested_eq, hturns]

theorem Stands.turns_typedLine (h : Stands d e shown "" false) (line : String)
    (rest : List TerminalEvent) :
    ∃ d', d.turns around (typedLine line ++ rest) = d'.turns around rest ∧
      Stands d' (executeLine around e line).engine
        (shown ++ echoed line (executeLine around e line).shown) "" (quits line) := by
  obtain ⟨d', hturns, hstands⟩ := h.turns_chars around line.toList (.press .enter false :: rest)
  have hline : "" ++ String.ofList line.toList = line := by simp
  rw [hline] at hstands
  refine ⟨d'.turn around (.press .enter false), ?_, hstands.enter around⟩
  rw [typedLine, List.append_assoc, List.singleton_append, hturns,
    turns_cons around hstands.requested_eq]

theorem turns_of_requested (h : d.shutdown.requested = true) (events : List TerminalEvent) :
    d.turns around events = d := by
  cases events with
  | nil => rfl
  | cons event rest => rw [Desk.turns, if_pos h]

/-- The terminal console executes the lines up to the first that quits, and shows them. -/
theorem Stands.turns_script (h : Stands d e shown "" false) (lines : List String) :
    Stands (d.turns around (lines.flatMap typedLine)) (engineAfter around e (executed lines))
      (shown ++ (transcript around e (executed lines)).flatMap fun (line, shown) =>
        echoed line shown) "" (lines.any quits) := by
  induction lines generalizing d e shown with
  | nil =>
      rw [List.flatMap_nil]
      simpa [executed, transcript, engineAfter, Desk.turns] using h
  | cons line lines ih =>
      obtain ⟨d', hturns, hstands⟩ := h.turns_typedLine around line (lines.flatMap typedLine)
      rw [List.flatMap_cons, hturns, executed_cons, transcript, List.flatMap_cons,
        ← List.append_assoc, List.any_cons]
      cases hquits : quits line with
      | true =>
          rw [hquits] at hstands
          rw [turns_of_requested around hstands.requested_eq]
          simpa [transcript, engineAfter] using hstands
      | false =>
          rw [hquits] at hstands
          exact ih hstands

end Terminal

/-- A script is typed into the terminal, line by line and each line entered, or it is the
input of the plain console. Both execute its lines up to the first that quits, and leave
the engine in the same state; the plain console then ends without complaint. Shutdown is
requested by the line that quits, and by the plain console at the end of its input. The
plain console writes the answer to each line, and asks for the next; the terminal keeps
the last of the lines with their answers, without the blank ones. -/
theorem same_session_on_both_consoles (around : Surroundings) (e : Engine) (device : String)
    (lines : List String) (h : ∀ line ∈ lines, '\n' ∉ line.toList ∧ '\r' ∉ line.toList) :
    let (ended, session) := run around e {} (String.join (lines.map (· ++ "\n"))).toUTF8
    let desk := (Desk.new e {} device).run around (lines.flatMap typedLine)
    let entries := transcript around e (executed lines)
    ended = .ok () ∧
    session.engine = engineAfter around e (executed lines) ∧
    desk.engine = engineAfter around e (executed lines) ∧
    session.shutdown.requested = true ∧
    desk.shutdown.requested = lines.any quits ∧
    session.output = promptText ++
      String.join (entries.map fun (line, shown) => written line shown) ∧
    desk.lines.kept = newest (entries.flatMap fun (line, shown) => echoed line shown) := by
  have hinput : inputLines (String.join (lines.map (· ++ "\n"))).toUTF8 = lines.map some :=
    inputLines_scriptOf h
  have hnew : Stands (Desk.new e {} device) e [] "" false := ⟨rfl, rfl, rfl, rfl⟩
  obtain ⟨hended, hengine, hshutdown, houtput⟩ := runLines_eq around lines
    (({ engine := e, shutdown := {} } : Session).write promptText) rfl
  have hdesk := hnew.poll.turns_script around lines
  rw [run, hinput]
  exact ⟨hended, hengine, hdesk.engine_eq, hshutdown, hdesk.requested_eq, houtput, hdesk.kept_eq⟩

/-- After an unknown command and a blank line the session is quit, and the last line is
not executed. -/
theorem help_after_quit_is_not_shown :
    ∃ e, Engine.new .machine { numVoices := 2 } = .ok e ∧
      let around : Surroundings := { files := fun _ => none }
      let lines := ["frob", " ", "quit", "help"]
      (∀ line ∈ lines, '\n' ∉ line.toList ∧ '\r' ∉ line.toList) ∧
      (run around e {} (String.join (lines.map (· ++ "\n"))).toUTF8).2.output =
        "> ERROR: Unknown command 'frob'!\n> > " ∧
      ((Desk.new e {} "").run around (lines.flatMap typedLine)).lines.kept =
        ["> frob", "ERROR: Unknown command 'frob'!", "> quit"] := by
  obtain ⟨s, hnew⟩ := Synth.exists_duet
  have he : Engine.new .machine { numVoices := 2 } = .ok { gate := { state := s } } := by
    rw [Engine.new, hnew]
    rfl
  refine ⟨_, he, by decide, ?_⟩
  obtain ⟨-, -, -, -, -, houtput, hkept⟩ := same_session_on_both_consoles
    { files := fun _ => none } { gate := { state := s } } "" ["frob", " ", "quit", "help"]
    (by decide)
  have hexecuted : executed ["frob", " ", "quit", "help"] = ["frob", " ", "quit"] := by decide
  have hunknown : Command.parse "frob" = .error (.unknown "frob") := by rfl
  have hblank : Command.parse " " = .ok none := by rfl
  have hquit : Command.parse "quit" = .ok (some .quit) := by rfl
  have hentries (e : Engine) : transcript { files := fun _ => none } e ["frob", " ", "quit"] =
      [("frob", ["ERROR: Unknown command 'frob'!"]), (" ", []), ("quit", [])] := by
    simp only [transcript, executeLine, hunknown, hblank, hquit]
    rfl
  rw [hexecuted, hentries] at houtput hkept
  exact ⟨houtput.trans (by rfl), hkept.trans (by decide)⟩

end PolySampler.Console
