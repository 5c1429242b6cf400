import PolySampler.Engine
import PolySampler.Proofs.Midi.Dispatch
import PolySampler.Proofs.Synth.Calls
import PolySampler.Proofs.Synth.Configure

/-!
Blocks that find the gate busy. Whatever holds the gate, be it a change of the
configuration or another block, may call for blocks of its own, and these are silent:
they count themselves, lose their events and change nothing else. A run is therefore
the run without them, with their silence put in where they were called for.
-/

namespace PolySampler.Engine

open Signal Midi

/-! ### One block -/

/-- The engine with another count of the renderers that were turned away. -/
def counting (contended : Nat) (e : Engine) : Engine :=
  { e with gate := { e.gate with contended } }

/-- The engine after a block that has left it with `s`. -/
def rendered (s : Synth) (e : Engine) : Engine where
  gate := { e.gate with state := s, busy := false }
  activeVoices := s.activeVoices
  renderedBlocks := e.renderedBlocks + 1

def held (e : Engine) : Engine :=
  { e with gate := e.gate.hold }

variable {e : Engine} {ω : Type}

theorem rendered_of_free (h : e.gate.busy = false) (s : Synth) :
    e.rendered s =
      { gate := { e.gate with state := s }
        activeVoices := s.activeVoices
        renderedBlocks := e.renderedBlocks + 1 } := by
  simp only [rendered, h]

theorem renderAround_of_busy (h : e.gate.busy = true) (feed : ω → Engine → Nat × ω × Engine)
    (own : ω) (outputs : List (Array Float32)) :
    e.renderAround feed own outputs =
      (.silenced, outputs.map silence, e.counting (e.contentionCount + 1), own) := by
  simp only [renderAround, Gate.tryRender, if_pos h]
  rfl

theorem renderAround_of_free (h : e.gate.busy = false) (feed : ω → Engine → Nat × ω × Engine)
    (own : ω) (outputs : List (Array Float32)) :
    e.renderAround feed own outputs =
      let (events, own, e) := feed own e.held
      let (s, outputs) := e.synth.renderBlock outputs
      (.rendered events, outputs, e.rendered s, own) := by
  have hfree : ¬ e.gate.busy = true := by simp [h]
  simp only [renderAround, Gate.tryRender, if_neg hfree]
  rfl

/-- Whatever is behind a feed that knows only the synth, on a free gate the synth is
fed and then rendered. -/
theorem renderWith_of_free (h : e.gate.busy = false) (feed : Synth → Nat × Synth)
    (outputs : List (Array Float32)) :
    e.renderWith feed outputs =
      let (events, s) := feed e.synth
      let (s, outputs) := s.renderBlock outputs
      (.rendered events, outputs, e.rendered s) := by
  rw [renderWith, renderFed, renderAround_of_free h]
  rfl

theorem renderWith_of_busy (h : e.gate.busy = true) (feed : Synth → Nat × Synth)
    (outputs : List (Array Float32)) :
    e.renderWith feed outputs =
      (.silenced, outputs.map silence, e.counting (e.contentionCount + 1)) := by
  rw [renderWith, renderFed, renderAround_of_busy h]

section Sources

variable {α : Type} [EventSource ω α] [TransportEvent α]

theorem renderFrom_of_free (h : e.gate.busy = false) (source : ω)
    (outputs : List (Array Float32)) :
    e.renderFrom source outputs =
      let calls := Midi.calls (EventSource.events source)
      let (s, outputs) := (Synth.performAll calls e.synth).renderBlock outputs
      (.rendered calls.length, outputs, e.rendered s, discard source) := by
  rw [renderFrom, renderFed, renderAround_of_free h]
  simp only [inside, dispatchFrom_eq]
  rfl

theorem renderFrom_of_busy (h : e.gate.busy = true) (source : ω)
    (outputs : List (Array Float32)) :
    e.renderFrom source outputs =
      (.silenced, outputs.map silence, e.counting (e.contentionCount + 1), discard source) := by
  rw [renderFrom, renderFed, renderAround_of_busy h]

end Sources

/-! ### Runs -/

/-- What is done while the gate is held: work on the synth, which counts the events it
dispatches, or a call for a block. -/
inductive Deed : Type 1 where
  | work (f : Synth → Nat × Synth)
  | render {ω α : Type} [EventSource ω α] [TransportEvent α] (source : ω)
      (outputs : List (Array Float32))
  | renderWith (feed : List Deed) (outputs : List (Array Float32))

/-- What is asked of an engine from outside: a change of the configuration or a block. -/
inductive Entry : Type 1 where
  | configure (deeds : List Deed)
  | render {ω α : Type} [EventSource ω α] [TransportEvent α] (source : ω)
      (outputs : List (Array Float32))
  | renderWith (feed : List Deed) (outputs : List (Array Float32))

/-- What shows of a run: the synth after each piece of work, and what came of each
block, with the synth after it. -/
inductive Seen where
  | worked (s : Synth)
  | block (status : RenderStatus) (outputs : List (Array Float32)) (s : Synth)

def Seen.isBlock : Seen → Bool
  | .worked _ => false
  | .block .. => true

def Seen.isRendered : Seen → Bool
  | .worked _ | .block .silenced _ _ => false
  | .block (.rendered _) _ _ => true

def Seen.isSilenced : Seen → Bool
  | .worked _ | .block (.rendered _) _ _ => false
  | .block .silenced _ _ => true

mutual

/-- Does a deed. Gives the events that were counted and what has shown. -/
def Deed.run : Deed → Engine → (Nat × List Seen) × Engine
  | .work f, e =>
    let (events, e) := e.inside f
    ((events, [.worked e.synth]), e)
  | @Deed.render _ _ _ _ source outputs, e =>
    let (status, outputs, e, _) := e.renderFrom source outputs
    ((0, [.block status outputs e.synth]), e)
  | .renderWith feed outputs, e =>
    let (status, outputs, e, seen) := e.renderAround (fun seen e =>
      let ((events, more), e) := Deed.runAll feed e
      (events, seen ++ more, e)) [] outputs
    ((0, seen ++ [.block status outputs e.synth]), e)

def Deed.runAll : List Deed → Engine → (Nat × List Seen) × Engine
  | [], e => ((0, []), e)
  | deed :: deeds, e =>
    let ((events, seen), e) := Deed.run deed e
    let ((others, more), e) := Deed.runAll deeds e
    ((events + others, seen ++ more), e)

end

def Entry.run : Entry → Engine → List Seen × Engine
  | .configure deeds, e =>
    let ((_, seen), e) := e.whileHeld (Deed.runAll deeds)
    (seen, e)
  | @Entry.render _ _ _ _ source outputs, e =>
    let ((_, seen), e) := (Deed.render source outputs).run e
    (seen, e)
  | .renderWith feed outputs, e =>
    let ((_, seen), e) := (Deed.renderWith feed outputs).run e
    (seen, e)

def Entry.runAll : List Entry → Engine → List Seen × Engine
  | [], e => ([], e)
  | entry :: entries, e =>
    let (seen, e) := entry.run e
    let (more, e) := runAll entries e
    (seen ++ more, e)

/-- The deed is work on the synth and no call for a block. -/
def Deed.isWork : Deed → Bool
  | .work _ => true
  | @Deed.render .. | .renderWith .. => false

/-- The entry without the calls that find the gate busy: those made while the entry
holds it. -/
def Entry.uncontested : Entry → Entry
  | .configure deeds => .configure (deeds.filter Deed.isWork)
  | @Entry.render _ _ _ _ source outputs => .render source outputs
  | .renderWith feed outputs => .renderWith (feed.filter Deed.isWork) outputs

/-- What shows of a run, without the blocks that were silent. -/
def heard (seen : List Seen) : List Seen :=
  seen.filter fun x => !x.isSilenced

theorem heard_append (seen more : List Seen) : heard (seen ++ more) = heard seen ++ heard more :=
  List.filter_append seen more

/-! ### While the gate is held -/

theorem runAll_cons (deed : Deed) (deeds : List Deed) (e : Engine) :
    Deed.runAll (deed :: deeds) e =
      let first := deed.run e
      let rest := Deed.runAll deeds first.2
      ((first.1.1 + rest.1.1, first.1.2 ++ rest.1.2), rest.2) := by
  rw [Deed.runAll]

theorem run_work (f : Synth → Nat × Synth) (e : Engine) :
    (Deed.work f).run e =
      (((e.inside f).1, [.worked (e.inside f).2.synth]), (e.inside f).2) := by
  rw [Deed.run]

/-- A call for a block while the gate is held shows as a silent block, and counts. -/
theorem run_of_busy (h : e.gate.busy = true) {deed : Deed} (hcall : deed.isWork = false) :
    ∃ outputs, deed.run e =
      ((0, [.block .silenced outputs e.synth]), e.counting (e.contentionCount + 1)) := by
  cases deed with
  | work f => cases hcall
  | render source outputs =>
      refine ⟨outputs.map silence, ?_⟩
      rw [Deed.run, renderFrom_of_busy h]
      rfl
  | renderWith feed outputs =>
      refine ⟨outputs.map silence, ?_⟩
      rw [Deed.run, renderAround_of_busy h]
      rfl

/-- The counters have grown by what has shown. -/
structure Tally (e : Engine) (seen : List Seen) (e' : Engine) : Prop where
  rendered : e'.renderedBlocks = e.renderedBlocks + seen.countP Seen.isRendered
  silenced : e'.contentionCount = e.contentionCount + seen.countP Seen.isSilenced

theorem Tally.nil (e : Engine) : Tally e [] e :=
  ⟨rfl, rfl⟩

theorem Tally.append {e e' e'' : Engine} {seen more : List Seen} (h : Tally e seen e')
    (h' : Tally e' more e'') : Tally e (seen ++ more) e'' := by
  refine ⟨?_, ?_⟩
  · rw [h'.rendered, h.rendered, List.countP_append, Nat.add_assoc]
  · rw [h'.silenced, h.silenced, List.countP_append, Nat.add_assoc]

/-- Every block that has shown is in one of the counters. -/
theorem Tally.blocks {e e' : Engine} {seen : List Seen} (h : Tally e seen e') :
    e'.renderedBlocks + e'.contentionCount =
      e.renderedBlocks + e.contentionCount + seen.countP Seen.isBlock := by
  have hsplit : seen.countP Seen.isBlock =
      seen.countP Seen.isRendered + seen.countP Seen.isSilenced := by
    clear h
    induction seen with
    | nil => rfl
    | cons x seen ih =>
        rw [List.countP_cons, List.countP_cons, List.countP_cons, ih]
        rcases x with s | ⟨events | _, outputs, s⟩
        · rfl
        · show _ + _ + 1 = _ + 1 + (_ + 0)
          omega
        · rfl
  rw [h.rendered, h.silenced, hsplit]
  omega

theorem runAll_of_busy (deeds : List Deed) (h : e.gate.busy = true) :
    (Deed.runAll deeds e).2.gate.busy = true ∧
      Tally e (Deed.runAll deeds e).1.2 (Deed.runAll deeds e).2 := by
  induction deeds generalizing e with
  | nil =>
      rw [Deed.runAll]
      exact ⟨h, .nil e⟩
  | cons deed deeds ih =>
      rw [runAll_cons]
      cases hcall : deed.isWork with
      | true =>
          cases deed with
          | work f =>
              rw [run_work]
              obtain ⟨hbusy, htally⟩ := ih (e := (e.inside f).2) h
              have hwork : Tally e [.worked (e.inside f).2.synth] (e.inside f).2 := ⟨rfl, rfl⟩
              exact ⟨hbusy, hwork.append htally⟩
          | render | renderWith => cases hcall
      | false =>
          obtain ⟨outputs, hrun⟩ := run_of_busy h hcall
          rw [hrun]
          obtain ⟨hbusy, htally⟩ := ih (e := e.counting (e.contentionCount + 1)) h
          have hblock : Tally e [.block .silenced outputs e.synth]
              (e.counting (e.contentionCount + 1)) := ⟨rfl, rfl⟩
          exact ⟨hbusy, hblock.append htally⟩

/-- While the gate is held, the calls for blocks can be left out: the work is the same,
and it shows the same but for the silent blocks. -/
theorem runAll_filter_isWork (deeds : List Deed) (h : e.gate.busy = true) (contended : Nat) :
    Deed.runAll (deeds.filter Deed.isWork) (e.counting contended) =
      (((Deed.runAll deeds e).1.1, heard (Deed.runAll deeds e).1.2),
        (Deed.runAll deeds e).2.counting contended) := by
  induction deeds generalizing e with
  | nil => rw [List.filter_nil, Deed.runAll, Deed.runAll]; rfl
  | cons deed deeds ih =>
      rw [runAll_cons]
      cases hcall : deed.isWork with
      | true =>
          rw [List.filter_cons_of_pos hcall, runAll_cons]
          cases deed with
          | work f =>
              have hrest := ih (e := (e.inside f).2) h
              rw [run_work, run_work]
              dsimp only
              have hsame :
                  ((e.counting contended).inside f).2 = (e.inside f).2.counting contended :=
                rfl
              rw [hsame, hrest]
              rfl
          | render | renderWith => cases hcall
      | false =>
          obtain ⟨outputs, hrun⟩ := run_of_busy h hcall
          rw [hrun, List.filter_cons_of_neg (by simp [hcall])]
          have hrest := ih (e := e.counting (e.contentionCount + 1)) h
          dsimp only
          rw [Nat.zero_add]
          exact hrest

/-! ### From outside -/

theorem whileHeld_eq {α : Type} (f : Engine → α × Engine) (e : Engine) :
    e.whileHeld f =
      ((f e.held).1, { (f e.held).2 with gate := (f e.held).2.gate.release }) :=
  rfl

theorem run_configure (deeds : List Deed) (e : Engine) :
    (Entry.configure deeds).run e =
      ((Deed.runAll deeds e.held).1.2,
        { (Deed.runAll deeds e.held).2 with
          gate := (Deed.runAll deeds e.held).2.gate.release }) := by
  rw [Entry.run, whileHeld_eq]

theorem run_render {α : Type} [EventSource ω α] [TransportEvent α] (h : e.gate.busy = false)
    (source : ω) (outputs : List (Array Float32)) :
    (Entry.render source outputs).run e =
      let calls := Midi.calls (EventSource.events source)
      let block := (Synth.performAll calls e.synth).renderBlock outputs
      ([.block (.rendered calls.length) block.2 block.1], e.rendered block.1) := by
  rw [Entry.run, Deed.run, renderFrom_of_free h]
  rfl

theorem run_renderWith (h : e.gate.busy = false) (feed : List Deed)
    (outputs : List (Array Float32)) :
    (Entry.renderWith feed outputs).run e =
      let fed := Deed.runAll feed e.held
      let block := fed.2.synth.renderBlock outputs
      (fed.1.2 ++ [.block (.rendered fed.1.1) block.2 block.1], fed.2.rendered block.1) := by
  rw [Entry.run, Deed.run, renderAround_of_free h]
  rfl

/-- An entry leaves the gate free, and the counters say what has shown. -/
theorem Entry.run_of_free (entry : Entry) (h : e.gate.busy = false) :
    (entry.run e).2.gate.busy = false ∧ Tally e (entry.run e).1 (entry.run e).2 := by
  cases entry with
  | configure deeds =>
      rw [run_configure]
      obtain ⟨-, htally⟩ := runAll_of_busy deeds (e := e.held) rfl
      exact ⟨rfl, htally.rendered, htally.silenced⟩
  | render source outputs =>
      rw [run_render h]
      exact ⟨rfl, rfl, rfl⟩
  | renderWith feed outputs =>
      rw [run_renderWith h]
      obtain ⟨-, htally⟩ := runAll_of_busy feed (e := e.held) rfl
      have hfed : Tally e (Deed.runAll feed e.held).1.2 (Deed.runAll feed e.held).2 :=
        ⟨htally.rendered, htally.silenced⟩
      exact ⟨rfl, hfed.append ⟨rfl, rfl⟩⟩

/-- Without its contested calls an entry does the same, and it shows the same but for
the silent blocks. -/
theorem Entry.run_uncontested (entry : Entry) (h : e.gate.busy = false) (contended : Nat) :
    entry.uncontested.run (e.counting contended) =
      (heard (entry.run e).1, (entry.run e).2.counting contended) := by
  have hfree : (e.counting contended).gate.busy = false := h
  have hheld : (e.counting contended).held = e.held.counting contended := rfl
  cases entry with
  | configure deeds =>
      rw [uncontested, run_configure, run_configure, hheld, runAll_filter_isWork deeds rfl]
      rfl
  | render source outputs =>
      rw [uncontested, run_render h, run_render hfree]
      rfl
  | renderWith feed outputs =>
      rw [uncontested, run_renderWith h, run_renderWith hfree, hheld,
        runAll_filter_isWork feed rfl]
      dsimp only
      rw [heard_append]
      rfl

theorem runAll_entries (entries : List Entry) (h : e.gate.busy = false) :
    Tally e (Entry.runAll entries e).1 (Entry.runAll entries e).2 ∧
      ∀ contended, Entry.runAll (entries.map Entry.uncontested) (e.counting contended) =
        (heard (Entry.runAll entries e).1, (Entry.runAll entries e).2.counting contended) := by
  induction entries generalizing e with
  | nil => exact ⟨.nil e, fun _ => rfl⟩
  | cons entry entries ih =>
      obtain ⟨hfree, htally⟩ := entry.run_of_free h
      obtain ⟨hrest, hsame⟩ := ih hfree
      refine ⟨htally.append hrest, fun contended => ?_⟩
      rw [List.map_cons, Entry.runAll, Entry.runAll, entry.run_uncontested h contended]
      dsimp only
      rw [hsame, heard_append]

/-- A block that finds the gate busy is silence of the full length in every output: its
events are fetched and lost, the synth is as it was, and one more renderer has been
turned away. A block that finds the gate free plays every event once, in order, and is
rendered after that.

So whatever is asked of an engine with a free gate, with however many blocks called for
in the midst of changes and of other blocks, the two counters together count the calls;
and all that shows, and all that is left, is as it would be without the calls that were
contested. -/
theorem contested_blocks_leave_no_trace (e : Engine) :
    (e.gate.busy = true →
      (∀ {ω α : Type} [EventSource ω α] [TransportEvent α] (source : ω)
        (outputs : List (Array Float32)), ∃ rest : ω, EventSource.next? rest = none ∧
          e.renderFrom source outputs =
            (.silenced, outputs.map fun output => Array.replicate output.size 0,
              { e with gate := { e.gate with contended := e.gate.contended + 1 } }, rest)) ∧
      ∀ feed outputs, e.renderWith feed outputs =
        (.silenced, outputs.map fun output => Array.replicate output.size 0,
          { e with gate := { e.gate with contended := e.gate.contended + 1 } })) ∧
    (e.gate.busy = false →
      (∀ {ω α : Type} [EventSource ω α] [TransportEvent α] (source : ω)
        (outputs : List (Array Float32)),
        let calls := (EventSource.events source).filterMap call?
        let block := (calls.foldl (fun s call => call.perform s) e.synth).renderBlock outputs
        ∃ rest : ω, EventSource.next? rest = none ∧
          e.renderFrom source outputs =
            (.rendered calls.length, block.2,
              { gate := { e.gate with state := block.1 }
                activeVoices := block.1.activeVoices
                renderedBlocks := e.renderedBlocks + 1 }, rest)) ∧
      (∀ feed outputs,
        let block := (feed e.synth).2.renderBlock outputs
        e.renderWith feed outputs =
          (.rendered (feed e.synth).1, block.2,
            { gate := { e.gate with state := block.1 }
              activeVoices := block.1.activeVoices
              renderedBlocks := e.renderedBlocks + 1 })) ∧
      ∀ entries : List Entry,
        let run := Entry.runAll entries e
        let without := Entry.runAll (entries.map Entry.uncontested) e
        run.2.renderedBlocks + run.2.contentionCount =
            e.renderedBlocks + e.contentionCount + run.1.countP Seen.isBlock ∧
          run.2.contentionCount = e.contentionCount + run.1.countP Seen.isSilenced ∧
          without.1 = run.1.filter (fun x => !x.isSilenced) ∧
          without.2 =
            { run.2 with gate := { run.2.gate with contended := e.contentionCount } }) := by
  refine ⟨fun hbusy => ⟨fun source outputs => ?_, fun feed outputs => ?_⟩, fun hfree =>
    ⟨fun source outputs => ?_, fun feed outputs => ?_, fun entries => ?_⟩⟩
  · exact ⟨discard source, next?_discard source, renderFrom_of_busy hbusy source outputs⟩
  · exact renderWith_of_busy hbusy feed outputs
  · refine ⟨discard source, next?_discard source, ?_⟩
    rw [renderFrom_of_free hfree, ← rendered_of_free hfree]
    rfl
  · rw [renderWith_of_free hfree]
    dsimp only
    rw [rendered_of_free hfree]
  · obtain ⟨htally, hwithout⟩ := runAll_entries entries hfree
    have hsame := hwithout e.contentionCount
    exact ⟨htally.blocks, htally.silenced, congrArg Prod.fst hsame, congrArg Prod.snd hsame⟩

/-- A note that is played to a block in the midst of a change of the pedal is lost with
the block. Two calls have been counted, and the other shows as if it were alone. -/
theorem block_within_change_is_lost :
    ∃ e, Engine.new .machine { numVoices := 2 } = .ok e ∧ e.gate.busy = false ∧
      e.held.gate.busy = true ∧
      (e.held.renderFrom [RawEvent.noteOn 0 0 60 100] [#[1, 1]]).1 = .silenced ∧
      let change : Entry := .configure
        [.render [RawEvent.noteOn 0 0 60 100] [#[1, 1]],
          .work fun s => (1, Synth.controlChange 0 64 127 s)]
      let block : Entry := .render [RawEvent.noteOff 3 0 60 0] [#[1, 1]]
      let run := Entry.runAll [change, block] e
      run.2.renderedBlocks + run.2.contentionCount = 2 ∧
        (Entry.runAll [change.uncontested, block] e).1 = run.1.filter fun x => !x.isSilenced := by
  obtain ⟨s, hnew⟩ := Synth.exists_duet
  have he : Engine.new .machine { numVoices := 2 } = .ok { gate := { state := s } } := by
    rw [Engine.new, hnew]
    rfl
  refine ⟨_, he, rfl, rfl, ?_, ?_⟩
  · obtain ⟨hheld, -⟩ := contested_blocks_leave_no_trace (held { gate := { state := s } })
    obtain ⟨rest, -, heq⟩ := (hheld rfl).1 [RawEvent.noteOn 0 0 60 100] [#[1, 1]]
    rw [heq]
  · obtain ⟨-, hfree⟩ := contested_blocks_leave_no_trace { gate := { state := s } }
    obtain ⟨hblocks, -, hsame, -⟩ := (hfree rfl).2.2 [.configure
      [.render [RawEvent.noteOn 0 0 60 100] [#[1, 1]],
        .work fun s => (1, Synth.controlChange 0 64 127 s)],
      .render [RawEvent.noteOff 3 0 60 0] [#[1, 1]]]
    exact ⟨hblocks, hsame⟩

end PolySampler.Engine
