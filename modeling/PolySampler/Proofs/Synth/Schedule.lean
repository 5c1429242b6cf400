import PolySampler.Proofs.Synth.Block
import PolySampler.Proofs.Synth.Calls
import PolySampler.Proofs.Synth.Configure

/-!
Changes land on their frames. The queue holds the scheduled changes in the order
of their frames, those of one frame in the order in which they were asked for.
What is in force at a frame is therefore, of each kind, the last change due by
that frame; and by the end of the block every change has taken effect.
-/

namespace PolySampler.Synth

open Signal Midi

/-! ### The order of the queue -/

/-- The second list has the elements of the first in the order of their frames,
and those of one frame in the order they had. -/
structure StablySorted (changes order : List Pending) : Prop where
  sorted : order.Pairwise fun a b => a.1 ≤ b.1
  stable : ∀ due : UInt32, order.filter (·.1 = due) = changes.filter (·.1 = due)

theorem StablySorted.mem_iff {changes order : List Pending} (h : StablySorted changes order)
    (change : Pending) : change ∈ order ↔ change ∈ changes := by
  have hfilter (list : List Pending) :
      change ∈ list ↔ change ∈ list.filter (·.1 = change.1) := by
    simp [List.mem_filter]
  rw [hfilter order, hfilter changes, h.stable]

/-- Where a change stands in the sorted list tells which changes of its frame stand
behind it in the list it was sorted from. -/
theorem StablySorted.split {changes order before behind : List Pending} {delay : UInt32}
    {change : Change} (h : StablySorted changes order)
    (horder : order = before ++ (delay, change) :: behind) :
    ∃ earlier later, changes = earlier ++ (delay, change) :: later ∧
      later.filter (·.1 = delay) = behind.filter (·.1 = delay) := by
  have hstable := h.stable delay
  rw [horder, List.filter_append, List.filter_cons_of_pos (by simp)] at hstable
  obtain ⟨first, second, rfl, -, hsecond⟩ := List.filter_eq_append_iff.mp hstable.symm
  obtain ⟨third, later, rfl, -, -, hlater⟩ := List.filter_eq_cons_iff.mp hsecond
  exact ⟨first ++ third, later, (List.append_assoc _ _ _).symm, hlater⟩

theorem mem_insertPending {delay : UInt32} {change : Change} {pending : List Pending}
    {p : Pending} : p ∈ insertPending delay change pending ↔ p = (delay, change) ∨ p ∈ pending := by
  induction pending with
  | nil => simp [insertPending]
  | cons q rest ih =>
      obtain ⟨due, other⟩ := q
      rw [insertPending]
      split
      · rw [List.mem_cons, ih, List.mem_cons]
        exact or_left_comm
      · rw [List.mem_cons]

theorem sorted_insertPending {pending : List Pending}
    (h : pending.Pairwise fun a b => a.1 ≤ b.1) (delay : UInt32) (change : Change) :
    (insertPending delay change pending).Pairwise fun a b => a.1 ≤ b.1 := by
  induction pending with
  | nil => exact List.pairwise_singleton _ _
  | cons q rest ih =>
      obtain ⟨due, other⟩ := q
      obtain ⟨hfirst, hrest⟩ := List.pairwise_cons.mp h
      rw [insertPending]
      split
      · next hdue =>
          refine List.pairwise_cons.mpr ⟨?_, ih hrest⟩
          intro p hp
          rcases mem_insertPending.mp hp with rfl | hp
          · exact hdue
          · exact hfirst p hp
      · next hdue =>
          have hlt : delay < due := UInt32.not_le.mp hdue
          refine List.pairwise_cons.mpr ⟨?_, h⟩
          intro p hp
          rcases List.mem_cons.mp hp with rfl | hp
          · exact UInt32.le_of_lt hlt
          · exact UInt32.le_of_lt (UInt32.lt_of_lt_of_le hlt (hfirst p hp))

theorem filter_insertPending {pending : List Pending}
    (h : pending.Pairwise fun a b => a.1 ≤ b.1) (delay : UInt32) (change : Change)
    (due : UInt32) :
    (insertPending delay change pending).filter (·.1 = due) =
      pending.filter (·.1 = due) ++ [(delay, change)].filter (·.1 = due) := by
  induction pending with
  | nil => rfl
  | cons p rest ih =>
      obtain ⟨first, other⟩ := p
      obtain ⟨hfirst, hrest⟩ := List.pairwise_cons.mp h
      rw [insertPending]
      split
      · rw [List.filter_cons, List.filter_cons, ih hrest]
        split <;> rfl
      · next hbehind =>
          -- All that is queued is due later than the new change.
          have hlater : ∀ p ∈ (first, other) :: rest, delay < p.1 := by
            have hlt : delay < first := UInt32.not_le.mp hbehind
            intro p hp
            rcases List.mem_cons.mp hp with rfl | hp
            · exact hlt
            · exact UInt32.lt_of_lt_of_le hlt (hfirst p hp)
          rw [List.filter_cons]
          by_cases hdue : delay = due
          · have hnone : ((first, other) :: rest).filter (·.1 = due) = [] := by
              rw [List.filter_eq_nil_iff]
              intro p hp
              have hne := UInt32.ne_of_lt (hlater p hp)
              rw [hdue] at hne
              simpa using hne.symm
            rw [hnone]
            simp [hdue]
          · simp [hdue]

/-- Scheduling sorts the changes by their frames. -/
theorem stablySorted_insertAll (changes : List Pending) :
    StablySorted changes (insertAll changes []) := by
  suffices hall : ∀ before pending, StablySorted before pending →
      StablySorted (before ++ changes) (insertAll changes pending) from
    hall [] [] ⟨.nil, fun _ => rfl⟩
  induction changes with
  | nil =>
      intro before pending h
      rwa [List.append_nil]
  | cons change changes ih =>
      intro before pending h
      obtain ⟨delay, change⟩ := change
      have hnext : StablySorted (before ++ [(delay, change)])
          (insertPending delay change pending) := by
        refine ⟨sorted_insertPending h.sorted delay change, ?_⟩
        intro due
        rw [filter_insertPending h.sorted, h.stable, List.filter_append]
      have hrest := ih _ _ hnext
      rw [List.append_assoc] at hrest
      exact hrest

theorem not_due_of_mem_dropWhile {order : List Pending}
    (h : order.Pairwise fun a b => a.1 ≤ b.1) {frame : Nat} {p : Pending}
    (hp : p ∈ order.dropWhile (isDue frame)) : frame < p.1.toNat := by
  induction order with
  | nil => exact absurd hp List.not_mem_nil
  | cons q rest ih =>
      obtain ⟨hfirst, hrest⟩ := List.pairwise_cons.mp h
      rw [List.dropWhile_cons] at hp
      split at hp
      · exact ih hrest hp
      · next hq =>
          have hlater : frame < q.1.toNat := by simpa [isDue] using hq
          rcases List.mem_cons.mp hp with rfl | hp
          · exact hlater
          · exact Nat.lt_of_lt_of_le hlater (UInt32.le_iff_toNat_le.mp (hfirst p hp))

theorem mem_takeWhile_isDue {order : List Pending}
    (h : order.Pairwise fun a b => a.1 ≤ b.1) {frame : Nat} {p : Pending} :
    p ∈ order.takeWhile (isDue frame) ↔ p ∈ order ∧ p.1.toNat ≤ frame := by
  constructor
  · intro hp
    have hdue := List.all_eq_true.mp (List.all_takeWhile (l := order)) p hp
    exact ⟨(List.takeWhile_prefix _).subset hp, by simpa [isDue] using hdue⟩
  · rintro ⟨hp, hdue⟩
    rw [← List.takeWhile_append_dropWhile (p := isDue frame) (l := order)] at hp
    rcases List.mem_append.mp hp with hp | hp
    · exact hp
    · have := not_due_of_mem_dropWhile h hp
      omega

/-! ### What is in force -/

/-- One of the values that changes change: how it is read off a change, and
where it stands. -/
structure Aspect (α : Type) where
  read : Change → Option α
  value : Performance → α
  value_apply : ∀ p change, value (p.apply change) = (read change).getD (value p)

namespace Aspect

def volume : Aspect UInt8 where
  read
    | .volume value => some value
    | .expression _ | .pitchBend _ => none
  value := Performance.volume
  value_apply _ change := by cases change <;> rfl

def expression : Aspect UInt8 where
  read
    | .expression value => some value
    | .volume _ | .pitchBend _ => none
  value := Performance.expression
  value_apply _ change := by cases change <;> rfl

def pitchBend : Aspect Int where
  read
    | .pitchBend value => some value
    | .volume _ | .expression _ => none
  value := Performance.pitchBend
  value_apply _ change := by cases change <;> rfl

variable {α : Type} (aspect : Aspect α)

/-- A change of this aspect that is due by the frame. -/
def Reached (frame : Nat) (p : Pending) : Prop :=
  p.1.toNat ≤ frame ∧ (aspect.read p.2).isSome

/-- The value that is in force at a frame: that of the change which is due last
by then, the latest asked for if several are due at once, or the value from
before if no change is due by then. -/
inductive InForce (before : α) (changes : List Pending) (frame : Nat) : α → Prop where
  | kept (h : ∀ p ∈ changes, ¬ aspect.Reached frame p) : InForce before changes frame before
  | changed {earlier later : List Pending} {delay : UInt32} {change : Change} {value : α}
      (hchanges : changes = earlier ++ (delay, change) :: later)
      (hdue : delay.toNat ≤ frame) (hread : aspect.read change = some value)
      (hearlier : ∀ p ∈ earlier, aspect.Reached frame p → p.1 ≤ delay)
      (hlater : ∀ p ∈ later, aspect.Reached frame p → p.1 < delay) :
      InForce before changes frame value

theorem eq_of_decisive {frame : Nat} {m first second : List Pending} {p q : Pending}
    (hsplit : p :: first = m ++ q :: second) (hp : aspect.Reached frame p)
    (hq : aspect.Reached frame q) (hlater : ∀ r ∈ first, aspect.Reached frame r → r.1 < p.1)
    (hearlier : ∀ r ∈ m, aspect.Reached frame r → r.1 ≤ q.1) : p = q := by
  rcases List.cons_eq_append_iff.mp hsplit with ⟨-, heq⟩ | ⟨rest, rfl, rfl⟩
  · exact (List.cons.inj heq).1.symm
  · have hle := hearlier p List.mem_cons_self hp
    have hlt := hlater q (List.mem_append_right _ List.mem_cons_self) hq
    exact absurd hle (UInt32.not_le.mpr hlt)

/-- Only one value is in force. -/
theorem InForce.unique {before : α} {changes : List Pending} {frame : Nat} {a b : α}
    (ha : aspect.InForce before changes frame a) (hb : aspect.InForce before changes frame b) :
    a = b := by
  have hreached {delay : UInt32} {change : Change} {value : α} (hdue : delay.toNat ≤ frame)
      (hread : aspect.read change = some value) : aspect.Reached frame (delay, change) :=
    ⟨hdue, by rw [hread]; rfl⟩
  cases ha with
  | kept hnone =>
      cases hb with
      | kept => rfl
      | changed hchanges hdue hread =>
          refine absurd (hreached hdue hread) (hnone _ ?_)
          rw [hchanges]
          exact List.mem_append_right _ List.mem_cons_self
  | changed hchanges hdue hread hearlier hlater =>
      cases hb with
      | kept hnone =>
          refine absurd (hreached hdue hread) (hnone _ ?_)
          rw [hchanges]
          exact List.mem_append_right _ List.mem_cons_self
      | changed hchanges' hdue' hread' hearlier' hlater' =>
          have hsame := hchanges.symm.trans hchanges'
          rcases List.append_eq_append_iff.mp hsame with ⟨m, rfl, hsplit⟩ | ⟨m, rfl, hsplit⟩
          · have heq := aspect.eq_of_decisive hsplit (hreached hdue hread)
              (hreached hdue' hread') hlater
              fun r hr => hearlier' r (List.mem_append_right _ hr)
            rw [(Prod.mk.inj heq).2, hread'] at hread
            exact (Option.some.inj hread).symm
          · have heq := aspect.eq_of_decisive hsplit (hreached hdue' hread')
              (hreached hdue hread) hlater'
              fun r hr => hearlier r (List.mem_append_right _ hr)
            rw [(Prod.mk.inj heq).2, hread] at hread'
            exact Option.some.inj hread'

/-- A list has no change of an aspect in it, or has a last one, and that is
where the list leads. -/
theorem value_applyAll_cases (changes : List Pending) (p : Performance) :
    (∀ r ∈ changes, aspect.read r.2 = none) ∧
        aspect.value (p.applyAll (changes.map (·.2))) = aspect.value p ∨
      ∃ before delay change behind, changes = before ++ (delay, change) :: behind ∧
        aspect.read change = some (aspect.value (p.applyAll (changes.map (·.2)))) ∧
        ∀ r ∈ behind, aspect.read r.2 = none := by
  induction changes generalizing p with
  | nil => exact .inl ⟨fun r hr => absurd hr List.not_mem_nil, rfl⟩
  | cons r rest ih =>
      have hstep : p.applyAll ((r :: rest).map (·.2)) =
          (p.apply r.2).applyAll (rest.map (·.2)) := rfl
      rw [hstep]
      rcases ih (p.apply r.2) with
        ⟨hnone, hvalue⟩ | ⟨before, delay, change, behind, hrest, hread, hbehind⟩
      · rw [hvalue, aspect.value_apply]
        cases hr : aspect.read r.2 with
        | none =>
            refine .inl ⟨?_, rfl⟩
            intro q hq
            rcases List.mem_cons.mp hq with rfl | hq
            · exact hr
            · exact hnone q hq
        | some value => exact .inr ⟨[], r.1, r.2, rest, rfl, hr, hnone⟩
      · exact .inr ⟨r :: before, delay, change, behind, by rw [hrest]; rfl, hread, hbehind⟩

theorem inForce_of_stablySorted {changes order : List Pending} (h : StablySorted changes order)
    (p : Performance) (frame : Nat) :
    aspect.InForce (aspect.value p) changes frame
      (aspect.value (p.applyAll ((order.takeWhile (isDue frame)).map (·.2)))) := by
  have hreached {r : Pending} (hr : r ∈ changes) (hdue : aspect.Reached frame r) :
      r ∈ order.takeWhile (isDue frame) :=
    (mem_takeWhile_isDue h.sorted).mpr ⟨(h.mem_iff r).mpr hr, hdue.1⟩
  have hunread {r : Pending} (hdue : aspect.Reached frame r) : aspect.read r.2 ≠ none :=
    Option.isSome_iff_ne_none.mp hdue.2
  rcases aspect.value_applyAll_cases (order.takeWhile (isDue frame)) p with
    ⟨hnone, hvalue⟩ | ⟨before, delay, change, behind, htake, hread, hbehind⟩
  · rw [hvalue]
    exact .kept fun r hr hdue => hunread hdue (hnone r (hreached hr hdue))
  have hsorted := h.sorted.sublist (List.takeWhile_prefix (isDue frame)).sublist
  rw [htake] at hsorted
  have hdue : delay.toNat ≤ frame := by
    have hmem : (delay, change) ∈ order.takeWhile (isDue frame) := by
      rw [htake]
      exact List.mem_append_right _ List.mem_cons_self
    exact ((mem_takeWhile_isDue h.sorted).mp hmem).2
  -- A change of this kind that is due stands before the last one, or is it.
  have hle {r : Pending} (hr : r ∈ changes) (hdue : aspect.Reached frame r) : r.1 ≤ delay := by
    have hmem := hreached hr hdue
    rw [htake] at hmem
    rcases List.mem_append.mp hmem with hr | hr
    · exact (List.pairwise_append.mp hsorted).2.2 r hr _ List.mem_cons_self
    · rcases List.mem_cons.mp hr with rfl | hr
      · exact UInt32.le_refl _
      · exact absurd (hbehind r hr) (hunread hdue)
  have horder : order = before ++ (delay, change) ::
      (behind ++ order.dropWhile (isDue frame)) := by
    rw [← List.cons_append, ← List.append_assoc, ← htake, List.takeWhile_append_dropWhile]
  obtain ⟨earlier, later, hsplit, hlater⟩ := h.split horder
  refine .changed hsplit hdue hread (fun r hr => hle ?_) (fun r hr hreach => ?_)
  · rw [hsplit]
    exact List.mem_append_left _ hr
  · have hmem : r ∈ changes := by
      rw [hsplit]
      exact List.mem_append_right _ (List.mem_cons_of_mem _ hr)
    -- One of the same frame that was asked for later would stand behind the last one.
    refine UInt32.lt_of_le_of_ne (hle hmem hreach) fun heq => ?_
    have hbehind' : r ∈ (behind ++ order.dropWhile (isDue frame)).filter (·.1 = delay) := by
      rw [← hlater]
      exact List.mem_filter.mpr ⟨hr, by simpa using heq⟩
    rcases List.mem_append.mp (List.mem_filter.mp hbehind').1 with hr | hr
    · exact hunread hreach (hbehind r hr)
    · have hlate := not_due_of_mem_dropWhile h.sorted hr
      have hearly := hreach.1
      omega

end Aspect

/-! ### A block -/

/-- The values are those that the changes have brought into force by a frame. -/
structure InForceAt (before : Performance) (changes : List Pending) (frame : Nat)
    (p : Performance) : Prop where
  volume : Aspect.volume.InForce before.volume changes frame p.volume
  expression : Aspect.expression.InForce before.expression changes frame p.expression
  pitchBend : Aspect.pitchBend.InForce before.pitchBend changes frame p.pitchBend

/-- By the end of a block all changes have taken effect, wherever it was cut. -/
theorem performance_applyRest_afterChunks (frames offset : Nat) (s : Synth) :
    (s.afterChunks frames offset).applyRest.performance = s.applyRest.performance := by
  induction offset, s using chunk_induction frames with
  | done offset s h => rw [afterChunks_of_le h]
  | chunk offset s h ih =>
      have hchunk (t : Synth) (length : Nat) :
          (t.afterChunk length).applyRest.performance = t.applyRest.performance := by
        simp only [applyRest, performance_afterChunk, pending_afterChunk]
      rw [afterChunks_of_lt h, ih, hchunk, applyRest_applyDue]

/-- Every frame of a block is rendered with the values that are in force there.
When the block is over all changes have taken effect, in the order of their
frames, and none is left. -/
theorem renderBlock_performAll_changes {s : Synth} (hpending : s.pending = [])
    {calls : List Call} (hroom : (calls.flatMap scheduled).length ≤ maxPending)
    (outputs : List (Array Float32)) :
    let t := performAll calls s
    let changes := calls.flatMap scheduled
    (∀ frame < sharedFrames outputs, ∃ k ∈ t.chunks (sharedFrames outputs) 0, k.Covers frame ∧
      InForceAt s.performance changes frame k.synth.performance ∧
      ∀ channel, sample? (t.renderBlock outputs).2 channel frame =
        (sample? outputs channel frame).map fun _ =>
          k.synth.sampleAt outputs.length channel (frame - k.offset)) ∧
    (t.renderBlock outputs).1.pending = [] ∧
    ∃ order, StablySorted changes order ∧
      (t.renderBlock outputs).1.performance = s.performance.applyAll (order.map (·.2)) := by
  intro t changes
  have hsorted : StablySorted changes (insertAll changes []) := stablySorted_insertAll changes
  obtain ⟨hperformance, hqueue⟩ := pending_performAll calls (s := s) (by
    rw [hpending]
    simpa using hroom)
  rw [hpending] at hqueue
  refine ⟨?_, ?_, insertAll changes [], hsorted, ?_⟩
  · intro frame hframe
    obtain ⟨k, hk, hcovers⟩ := t.exists_chunk (Nat.zero_le frame) hframe
    have hforce : k.synth.performance = s.performance.applyAll
        (((insertAll changes []).takeWhile (isDue frame)).map (·.2)) := by
      rw [(chunk_changes hk hcovers).1, applyDue, hqueue, hperformance]
    refine ⟨k, hk, hcovers, ?_, ?_⟩
    · rw [hforce]
      exact ⟨Aspect.volume.inForce_of_stablySorted hsorted _ frame,
        Aspect.expression.inForce_of_stablySorted hsorted _ frame,
        Aspect.pitchBend.inForce_of_stablySorted hsorted _ frame⟩
    · intro channel
      rw [sample?_renderBlock, if_pos hframe, sample?_renderChunks hk outputs channel hcovers]
  · rw [renderBlock_fst]
    rfl
  · rw [renderBlock_fst, performance_applyRest_afterChunks, applyRest, hqueue, hperformance]

/-- In a block of four frames two volumes of frame 1, asked for in turn, leave
the later one in force at frame 2, and a bend of frame 9 is not left over. -/
theorem volumes_of_one_frame :
    ∃ s, Synth.new .machine { numVoices := 2 } = .ok s ∧
      let calls := [.controlChange 1 7 100, .pitchWheel 9 4096, .controlChange 1 7 64]
      let t := performAll calls s
      let outputs := [Array.replicate 4 0]
      s.pending = [] ∧ (calls.flatMap scheduled).length ≤ maxPending ∧
      (∃ k ∈ t.chunks 4 0, k.Covers 2 ∧ k.synth.performance.volume = 64) ∧
      (t.renderBlock outputs).1.pending = [] := by
  obtain ⟨s, hnew⟩ := exists_duet
  obtain ⟨scratch, -, -, heq⟩ := new_eq_ok hnew
  have hpending : s.pending = [] := by rw [heq]
  have hroom : ([Call.controlChange 1 7 100, .pitchWheel 9 4096,
      .controlChange 1 7 64].flatMap scheduled).length ≤ maxPending := by
    decide
  refine ⟨s, hnew, hpending, hroom, ?_⟩
  obtain ⟨hframes, hqueue, -⟩ :=
    renderBlock_performAll_changes hpending hroom [Array.replicate 4 (0 : Float32)]
  obtain ⟨k, hk, hcovers, hforce, -⟩ := hframes 2 (by decide)
  refine ⟨⟨k, hk, hcovers, ?_⟩, hqueue⟩
  have hlast : Aspect.volume.InForce s.performance.volume
      [((1 : UInt32), Change.volume 100), (9, .pitchBend 4096), (1, .volume 64)] 2 64 := by
    have hsplit : [((1 : UInt32), Change.volume 100), (9, .pitchBend 4096), (1, .volume 64)] =
        [(1, .volume 100), (9, .pitchBend 4096)] ++ (1, .volume 64) :: [] := rfl
    refine .changed hsplit (by decide) rfl ?_ fun p hp => absurd hp List.not_mem_nil
    intro p hp hreached
    rcases List.mem_cons.mp hp with rfl | hp
    · decide
    · obtain rfl := List.mem_singleton.mp hp
      exact absurd hreached.1 (by decide)
  exact hforce.volume.unique _ hlast

end PolySampler.Synth
