import PolySampler.Proofs.Signal.Shape
import PolySampler.Proofs.Synth.InPlace

/-!
A buffer as a list of channels, each a list of samples, and all of one length. The
samples of a channel lie in lanes whose last one may run past them and hold what was
there before a cut; nothing of that is seen. Whatever is asked of a buffer, and whichever
reservations fail, it answers and changes as the list of its channels does.
-/

namespace PolySampler.Signal

@[ext] structure Tracks where
  frames : Nat
  channels : List (List Float32)

/-- What can be asked of a buffer. Every attempt to reserve storage is answered on its
own, those of a new buffer by their numbers. -/
inductive AudioBuffer.Request where
  | empty
  | new (answers : Nat → Memory) (channels frames : Nat)
  | addChannel (memory : Memory)
  | resize (memory : Memory) (frames : Nat)
  | clear
  | set (channel frame : Nat) (sample : Float32)
  | write (channel : Nat) (samples : Array Float32)

namespace Tracks

def addChannel (capacity : Nat) (memory : Memory) (t : Tracks) : Bool × Tracks :=
  if t.channels.length < capacity ∧
      (lanesFor t.frames = 0 ∨ memory.lanes t.channels.length (lanesFor t.frames)) then
    (true, { t with channels := t.channels ++ [List.replicate t.frames 0] })
  else (false, t)

/-- Cuts every channel down to the length or puts silence behind it, if each is granted
the lanes that it does not have. -/
def resize (memory : Memory) (frames : Nat) (t : Tracks) : Bool × Tracks :=
  if ∀ channel < t.channels.length,
      lanesFor frames ≤ lanesFor t.frames ∨ memory.lanes channel (lanesFor frames) then
    (true, {
      frames
      channels := t.channels.map fun xs =>
        xs.take frames ++ List.replicate (frames - xs.length) 0 })
  else (false, t)

/-- What a buffer with room for `capacity` channels answers, and its channels
afterwards. -/
def answer (capacity : Nat) : AudioBuffer.Request → Tracks → Bool × Tracks
  | .empty, _ => (true, ⟨0, []⟩)
  | .new answers channels frames, _ =>
    (true, (List.range (min channels capacity)).foldl
      (fun t attempt => (t.addChannel capacity (answers attempt)).2) ⟨frames, []⟩)
  | .addChannel memory, t => t.addChannel capacity memory
  | .resize memory frames, t => t.resize memory frames
  | .clear, t => (true, { t with
      channels := t.channels.map fun xs => List.replicate xs.length 0 })
  | .set channel frame sample, t => (true, { t with
      channels := t.channels.modify channel fun xs => xs.set frame sample })
  | .write channel samples, t => (true, { t with
      channels := t.channels.modify channel fun xs =>
        samples.toList.take xs.length ++ xs.drop samples.size })

/-- The answers to one request after the other, and the channels in the end. -/
def answerAll (capacity : Nat) : List AudioBuffer.Request → Tracks → List Bool × Tracks
  | [], t => ([], t)
  | request :: rest, t =>
    let (granted, t) := answer capacity request t
    let (answers, t) := answerAll capacity rest t
    (granted :: answers, t)

end Tracks

namespace Channel

/-! ### The samples of one channel -/

theorem Holds.lt_size {c : Channel} {frames i : Nat} (h : c.Holds frames) (hi : i < frames) :
    i < c.storage.size := by
  rw [h.storage]
  exact Nat.lt_of_lt_of_le hi (le_lanesFor frames)

theorem Holds.getElem?_toList {c : Channel} {frames : Nat} (h : c.Holds frames) (i : Nat) :
    c.samples.toList[i]? = if i < frames then c.storage[i]? else none := by
  rw [Array.getElem?_toList, samples, Array.getElem?_extract, h.length]
  by_cases hi : i < frames
  · have hstored := h.lt_size hi
    rw [if_pos (by omega), if_pos hi, Nat.zero_add]
  · rw [if_neg (by omega), if_neg hi]

theorem getElem?_silence (count start : Nat) (storage : Array Float32) (i : Nat) :
    (silence count start storage)[i]? =
      if start ≤ i ∧ i < start + count then storage[i]?.map fun _ => 0 else storage[i]? := by
  induction count generalizing start storage with
  | zero => rw [if_neg (by omega)]; rfl
  | succ n ih =>
      rw [silence, ih, Array.getElem?_setIfInBounds]
      by_cases heq : start = i
      · subst heq
        rw [if_neg (by omega)]
        by_cases hsize : start < storage.size
        · simp [hsize]
        · simp [hsize]
      · rw [if_neg heq]
        by_cases hin : start ≤ i ∧ i < start + (n + 1)
        · rw [if_pos (by omega), if_pos hin]
        · rw [if_neg (by omega), if_neg hin]

theorem getElem?_fitStorage (storage : Array Float32) {size i : Nat} (h : i < size) :
    (fitStorage storage size)[i]? = some (storage[i]?.getD 0) := by
  rw [fitStorage]
  split
  · have hi : i < storage.size := by omega
    rw [Array.getElem?_extract, if_pos (by omega), Nat.zero_add]
    simp [hi]
  · by_cases hi : i < storage.size
    · simp [hi, Array.getElem?_append_left hi]
    · rw [Array.getElem?_append_right (by omega), Array.getElem?_replicate, if_pos (by omega),
        Array.getElem?_eq_none (by omega)]
      rfl

/-- A change of the length keeps the samples that there is still room for, and puts
silence behind them, also where the last lane held samples cut off before. -/
theorem toList_setLength {c : Channel} {frames : Nat} (h : c.Holds frames) (length : Nat) :
    (c.setLength length).samples.toList =
      c.samples.toList.take length ++ List.replicate (length - frames) 0 := by
  apply List.ext_getElem?
  intro i
  rw [(c.holds_setLength length).getElem?_toList, List.getElem?_append, List.length_take,
    Array.length_toList, h.size_samples]
  by_cases hi : i < length
  · have hroom : i < lanesFor length * laneWidth := Nat.lt_of_lt_of_le hi (le_lanesFor length)
    rw [if_pos hi, setLength, getElem?_silence, h.length, getElem?_fitStorage _ hroom]
    by_cases hkept : i < frames
    · have hstored := h.lt_size hkept
      rw [if_neg (by omega), if_pos (by omega), List.getElem?_take_of_lt hi, h.getElem?_toList,
        if_pos hkept]
      simp [hstored]
    · rw [if_pos (by omega), if_neg (by omega), List.getElem?_replicate, if_pos (by omega)]
      rfl
  · rw [if_neg hi, if_neg (by omega), List.getElem?_replicate, if_neg (by omega)]

theorem Holds.lanes_eq {c : Channel} {frames : Nat} (h : c.Holds frames) :
    c.lanes = lanesFor frames := by
  rw [lanes, h.storage, laneWidth]
  omega

theorem getElem?_writeFrom (samples : Array Float32) (count start : Nat) (c : Channel) (i : Nat) :
    (writeFrom samples count start c).storage[i]? =
      if start ≤ i ∧ i < start + count ∧ i < samples.size ∧ i < c.length then
        c.storage[i]?.map fun _ => samples[i]?.getD 0
      else c.storage[i]? := by
  induction count generalizing start c with
  | zero => rw [if_neg (by omega)]; rfl
  | succ n ih =>
      rw [writeFrom]
      cases hsample : samples[start]? with
      | none =>
          have := Array.getElem?_eq_none_iff.mp hsample
          rw [if_neg (by omega)]
      | some sample =>
          obtain ⟨hlt, -⟩ := Array.getElem?_eq_some_iff.mp hsample
          dsimp only
          split
          · next hroom =>
              rw [ih]
              dsimp only
              rw [Array.getElem?_setIfInBounds]
              by_cases heq : start = i
              · subst heq
                have hin : start ≤ start ∧ start < start + (n + 1) ∧ start < samples.size ∧
                    start < c.length := ⟨Nat.le_refl _, by omega, hlt, hroom⟩
                rw [if_neg (by omega), if_pos rfl, if_pos hin, hsample]
                by_cases hsize : start < c.storage.size
                · simp [hsize]
                · simp [hsize]
              · rw [if_neg heq]
                by_cases hin : start ≤ i ∧ i < start + (n + 1) ∧ i < samples.size ∧ i < c.length
                · rw [if_pos (by omega), if_pos hin]
                · rw [if_neg (by omega), if_neg hin]
          · rw [if_neg (by omega)]

theorem toList_write {c : Channel} {frames : Nat} (h : c.Holds frames) (samples : Array Float32) :
    (c.write samples).samples.toList =
      samples.toList.take frames ++ c.samples.toList.drop samples.size := by
  apply List.ext_getElem?
  intro i
  rw [(h.write samples).getElem?_toList, write, getElem?_writeFrom, h.length,
    List.getElem?_append, List.length_take, Array.length_toList, List.getElem?_drop]
  by_cases hi : i < frames
  · have hstored := h.lt_size hi
    rw [if_pos hi]
    by_cases hwritten : i < samples.size
    · rw [if_pos (by omega), if_pos (by omega), List.getElem?_take_of_lt hi,
        Array.getElem?_toList]
      simp [hstored, hwritten]
    · have hsame : samples.size + (i - min frames samples.size) = i := by omega
      rw [if_neg (by omega), if_neg (by omega), hsame, h.getElem?_toList, if_pos hi]
  · rw [if_neg hi]
    by_cases hwritten : i < min frames samples.size
    · omega
    · rw [if_neg hwritten, h.getElem?_toList, if_neg (by omega)]

theorem toList_set {c : Channel} {frames : Nat} (h : c.Holds frames) (frame : Nat)
    (sample : Float32) :
    (c.set frame sample).samples.toList = c.samples.toList.set frame sample := by
  have hlength := h.length
  by_cases hin : frame < c.length
  · have hstored : frame < c.storage.size := h.lt_size (by omega)
    rw [Channel.set, if_pos hin]
    apply List.ext_getElem?
    intro i
    rw [(h.setSample frame sample).getElem?_toList, Array.getElem?_setIfInBounds,
      List.getElem?_set, Array.length_toList, h.size_samples, h.getElem?_toList]
    by_cases heq : frame = i
    · subst heq
      simp [hstored]
    · simp [heq]
  · rw [Channel.set, if_neg hin, List.set_eq_of_length_le]
    rw [Array.length_toList, h.size_samples]
    omega

theorem toList_fill {c : Channel} {frames : Nat} (h : c.Holds frames) (sample : Float32) :
    (c.fill sample).samples.toList = List.replicate frames sample := by
  have hwrite : c.fill sample = c.write (Array.replicate frames sample) := by
    rw [fill, write, h.length, Array.size_replicate]
  rw [hwrite, toList_write h]
  simp [h.size_samples]

end Channel

namespace AudioBuffer

variable {capacity : Nat} {b : AudioBuffer capacity}

/-! ### The channels of a buffer -/

def tracks (b : AudioBuffer capacity) : Tracks where
  frames := b.numFrames
  channels := (List.range b.numChannels).map fun channel => (b.samples channel).toList

@[simp] theorem length_channels_tracks (b : AudioBuffer capacity) :
    b.tracks.channels.length = b.numChannels := by
  simp [tracks]

theorem getElem?_tracks {channel : Nat} {c : Channel} (h : b.slots[channel]? = some (some c))
    (hcounted : channel < b.numChannels) :
    b.tracks.channels[channel]? = some c.samples.toList := by
  simp [tracks, hcounted, samples_of_slot h]

theorem WellFormed.channels_eq (h : b.WellFormed) {channels : List (List Float32)}
    (hlength : channels.length = b.numChannels)
    (hchannel : ∀ channel c, channel < b.numChannels → b.slots[channel]? = some (some c) →
      channels[channel]? = some c.samples.toList) :
    b.tracks.channels = channels := by
  apply List.ext_getElem?
  intro channel
  by_cases hcounted : channel < b.numChannels
  · obtain ⟨c, hslot, -⟩ := h.exists_channel hcounted
    rw [getElem?_tracks hslot hcounted, hchannel channel c hcounted hslot]
  · rw [List.getElem?_eq_none (by simpa using hcounted), List.getElem?_eq_none (by omega)]

theorem WellFormed.tracks_mapChannels (h : b.WellFormed) {f : Channel → Channel} {frames : Nat}
    {g : List Float32 → List Float32} (hholds : ∀ c, c.Holds b.numFrames → (f c).Holds frames)
    (hf : ∀ c, c.Holds b.numFrames → (f c).samples.toList = g c.samples.toList) :
    tracks { b with slots := b.slots.map fun slot => slot.map f, numFrames := frames } =
      ⟨frames, b.tracks.channels.map g⟩ := by
  refine Tracks.ext rfl
    ((h.mapChannels hholds).channels_eq (by simp) fun channel c hcounted hslot => ?_)
  obtain ⟨old, hold, hlanes⟩ := h.exists_channel hcounted
  rw [Vector.getElem?_map, hold] at hslot
  obtain rfl : f old = c := by simpa using hslot
  rw [List.getElem?_map, getElem?_tracks hold hcounted, hf old hlanes]
  rfl

theorem WellFormed.tracks_modifyChannel (h : b.WellFormed) (channel : Nat) {f : Channel → Channel}
    {g : List Float32 → List Float32} (hholds : ∀ c, c.Holds b.numFrames → (f c).Holds b.numFrames)
    (hf : ∀ c, c.Holds b.numFrames → (f c).samples.toList = g c.samples.toList) :
    (b.modifyChannel channel f).tracks =
      { b.tracks with channels := b.tracks.channels.modify channel g } := by
  refine Tracks.ext (numFrames_modifyChannel b channel f)
    ((h.modifyChannel channel hholds).channels_eq (by simp) fun index c hcounted hslot => ?_)
  rw [numChannels_modifyChannel] at hcounted
  obtain ⟨old, hold, hlanes⟩ := h.exists_channel hcounted
  rw [getElem?_modifyChannel, hold] at hslot
  rw [List.getElem?_modify, getElem?_tracks hold hcounted]
  split at hslot
  · next heq =>
      obtain rfl : f old = c := by simpa using hslot
      simp [heq, hf old hlanes]
  · next hne =>
      obtain rfl : old = c := by simpa using hslot
      simp [hne]

/-! ### Requests -/

/-- A buffer of silent channels, the attempts to add them being answered one by one. -/
def ofAnswers (answers : Nat → Memory) (channels frames : Nat) : AudioBuffer capacity :=
  (List.range (min channels capacity)).foldl
    (fun b attempt => (b.addChannel (answers attempt)).2)
    { (empty : AudioBuffer capacity) with numFrames := frames }

theorem addChannels_eq_foldl (memory : Memory) (n : Nat) (b : AudioBuffer capacity) :
    b.addChannels memory n = (List.range n).foldl (fun b _ => (b.addChannel memory).2) b := by
  induction n generalizing b with
  | zero => rfl
  | succ n ih =>
      rw [addChannels, ih, List.range_succ_eq_map, List.foldl_cons, List.foldl_map]

theorem ofShape_eq (memory : Memory) (channels frames : Nat) :
    (ofShape memory channels frames : AudioBuffer capacity) =
      ofAnswers (fun _ => memory) channels frames :=
  addChannels_eq_foldl memory _ _

def Request.run : Request → AudioBuffer capacity → Bool × AudioBuffer capacity
  | .empty, _ => (true, AudioBuffer.empty)
  | .new answers channels frames, _ => (true, ofAnswers answers channels frames)
  | .addChannel memory, b => b.addChannel memory
  | .resize memory frames, b =>
    let (answer, b) := (changeLength memory frames).perform b
    (answer.isOk, b)
  | .clear, b => (true, b.clear)
  | .set channel frame sample, b => (true, b.set channel frame sample)
  | .write channel samples, b => (true, b.write channel samples)

def runAll : List Request → AudioBuffer capacity → List Bool × AudioBuffer capacity
  | [], b => ([], b)
  | request :: rest, b =>
    let (granted, b) := request.run b
    let (answers, b) := runAll rest b
    (granted :: answers, b)

/-- In place or not, a change of the length is granted as a whole or not made. -/
theorem run_resize (memory : Memory) (frames : Nat) (b : AudioBuffer capacity) :
    Request.run (.resize memory frames) b =
      if b.canResize memory frames then
        (true, { b with
          slots := b.slots.map fun slot => slot.map fun channel => channel.setLength frames
          numFrames := frames })
      else (false, b) := by
  rw [Request.run, changeLength_eq, InPlace.perform_wholly, resize]
  cases b.canResize memory frames <;> rfl

theorem WellFormed.canResize_iff (h : b.WellFormed) (memory : Memory) (frames : Nat) :
    b.canResize memory frames = true ↔
      ∀ channel < b.numChannels,
        lanesFor frames ≤ lanesFor b.numFrames ∨ memory.lanes channel (lanesFor frames) := by
  have hcanHold {channel : Nat} (hcounted : channel < b.numChannels) :
      b.canHold memory frames channel = true ↔
        lanesFor frames ≤ lanesFor b.numFrames ∨ memory.lanes channel (lanesFor frames) := by
    obtain ⟨c, hslot, hholds⟩ := h.exists_channel hcounted
    rw [AudioBuffer.canHold, hslot]
    dsimp only
    rw [Channel.canHold, hholds.lanes_eq, Bool.or_eq_true, decide_eq_true_eq]
  rw [canResize, List.all_eq_true]
  constructor
  · intro hall channel hcounted
    exact (hcanHold hcounted).mp
      (hall channel (List.mem_range.mpr (Nat.lt_of_lt_of_le hcounted h.numChannels_le)))
  · intro hgranted channel hlt
    by_cases hcounted : channel < b.numChannels
    · exact (hcanHold hcounted).mpr (hgranted channel hcounted)
    · rw [AudioBuffer.canHold]
      split
      · next c hslot => exact absurd ((h.isSome_iff channel _ hslot).mp rfl) hcounted
      · rfl

theorem holds_default : ({} : Channel).Holds 0 :=
  ⟨rfl, rfl⟩

theorem WellFormed.tracks_addChannel (h : b.WellFormed) (memory : Memory) :
    ((b.addChannel memory).1, (b.addChannel memory).2.tracks) =
      b.tracks.addChannel capacity memory := by
  have hcanHold : ({} : Channel).canHold memory b.numChannels b.numFrames = true ↔
      lanesFor b.numFrames = 0 ∨ memory.lanes b.numChannels (lanesFor b.numFrames) := by
    rw [Channel.canHold, holds_default.lanes_eq, Bool.or_eq_true, decide_eq_true_eq]
    exact or_congr_left Nat.le_zero
  have hformed := h.addChannel memory
  have hframes : b.tracks.frames = b.numFrames := rfl
  rw [AudioBuffer.addChannel] at hformed ⊢
  rw [Tracks.addChannel, length_channels_tracks, hframes]
  by_cases hroom : b.numChannels < capacity
  · rw [if_neg (Nat.not_le.mpr hroom)] at hformed ⊢
    by_cases hgranted : lanesFor b.numFrames = 0 ∨
        memory.lanes b.numChannels (lanesFor b.numFrames)
    · rw [if_pos (hcanHold.mpr hgranted)] at hformed ⊢
      rw [if_pos ⟨hroom, hgranted⟩]
      refine Prod.ext rfl (Tracks.ext rfl
        (hformed.channels_eq (by simp) fun channel c hcounted hslot => ?_))
      rcases getElem?_set_eq_some hslot with ⟨rfl, hnew⟩ | ⟨hne, hold⟩
      · obtain rfl := Option.some.inj hnew
        rw [List.getElem?_append_right (by simp), length_channels_tracks, Nat.sub_self,
          Channel.toList_setLength holds_default]
        simp [Channel.samples]
      · have hcounted : channel < b.numChannels := by
          dsimp only at hcounted
          omega
        rw [List.getElem?_append_left (by simpa using hcounted), getElem?_tracks hold hcounted]
    · rw [if_neg (fun hcan => hgranted (hcanHold.mp hcan)), if_neg (fun hand => hgranted hand.2)]
  · rw [if_pos (Nat.not_lt.mp hroom), if_neg (fun hand => hroom hand.1)]

theorem WellFormed.tracks_foldl_addChannel (h : b.WellFormed) (answers : Nat → Memory)
    (attempts : List Nat) :
    (attempts.foldl (fun b attempt => (b.addChannel (answers attempt)).2) b).WellFormed ∧
      (attempts.foldl (fun b attempt => (b.addChannel (answers attempt)).2) b).tracks =
        attempts.foldl (fun t attempt => (t.addChannel capacity (answers attempt)).2) b.tracks := by
  induction attempts generalizing b with
  | nil => exact ⟨h, rfl⟩
  | cons attempt attempts ih =>
      have hadded := congrArg Prod.snd (h.tracks_addChannel (answers attempt))
      dsimp only at hadded
      rw [List.foldl_cons, List.foldl_cons, ← hadded]
      exact ih (h.addChannel (answers attempt))

theorem WellFormed.run (h : b.WellFormed) (request : Request) :
    (request.run b).2.WellFormed := by
  cases request with
  | empty => exact wellFormed_empty
  | new answers channels frames =>
      exact (wellFormed_empty.tracks_foldl_addChannel answers _).1
  | addChannel memory => exact h.addChannel memory
  | resize memory frames =>
      rw [run_resize]
      split
      · exact h.mapChannels fun channel _ => channel.holds_setLength frames
      · exact h
  | clear => exact h.mapChannels fun channel hlanes => hlanes.writeFrom _ _ _
  | set channel frame sample =>
      exact h.modifyChannel channel fun c hlanes => hlanes.set frame sample
  | write channel samples => exact h.write channel samples

/-- To every request a buffer answers as its channels do, and it changes as they do. -/
theorem WellFormed.tracks_run (h : b.WellFormed) (request : Request) :
    ((request.run b).1, (request.run b).2.tracks) = Tracks.answer capacity request b.tracks := by
  cases request with
  | empty => rfl
  | new answers channels frames =>
      exact congrArg (Prod.mk true) (wellFormed_empty.tracks_foldl_addChannel answers _).2
  | addChannel memory => exact h.tracks_addChannel memory
  | resize memory frames =>
      have hframes : b.tracks.frames = b.numFrames := rfl
      rw [run_resize, Tracks.answer, Tracks.resize, length_channels_tracks, hframes]
      by_cases hgranted : b.canResize memory frames
      · rw [if_pos hgranted, if_pos ((h.canResize_iff memory frames).mp hgranted)]
        refine congrArg (Prod.mk true) (h.tracks_mapChannels
          (fun channel _ => channel.holds_setLength frames) fun c hlanes => ?_)
        rw [Channel.toList_setLength hlanes, Array.length_toList, hlanes.size_samples]
      · rw [if_neg hgranted, if_neg (mt (h.canResize_iff memory frames).mpr hgranted)]
  | clear =>
      refine congrArg (Prod.mk true) (h.tracks_mapChannels
        (fun channel hlanes => hlanes.writeFrom _ _ _) fun c hlanes => ?_)
      rw [Array.length_toList, hlanes.size_samples]
      exact Channel.toList_fill hlanes 0
  | set channel frame sample =>
      refine congrArg (Prod.mk true) (h.tracks_modifyChannel channel
        (fun c hlanes => hlanes.set frame sample) fun c hlanes => ?_)
      exact Channel.toList_set hlanes frame sample
  | write channel samples =>
      refine congrArg (Prod.mk true) (h.tracks_modifyChannel channel
        (fun c hlanes => hlanes.write samples) fun c hlanes => ?_)
      rw [Array.length_toList, hlanes.size_samples]
      exact Channel.toList_write hlanes samples

/-- What is refused changes nothing of a buffer, stale samples included. -/
theorem eq_of_refused {request : Request} (hrefused : (request.run b).1 = false) :
    (request.run b).2 = b := by
  cases request with
  | addChannel memory =>
      change (b.addChannel memory).1 = false at hrefused
      change (b.addChannel memory).2 = b
      rw [AudioBuffer.addChannel] at hrefused ⊢
      split
      · rfl
      · next hroom =>
          rw [if_neg hroom] at hrefused
          split
          · next hgranted =>
              rw [if_pos hgranted] at hrefused
              cases hrefused
          · rfl
  | resize memory frames =>
      rw [run_resize] at hrefused ⊢
      split
      · next hgranted =>
          rw [if_pos hgranted] at hrefused
          cases hrefused
      · rfl
  | empty => cases hrefused
  | new answers channels frames => cases hrefused
  | clear => cases hrefused
  | set channel frame sample => cases hrefused
  | write channel samples => cases hrefused

theorem WellFormed.runAll (h : b.WellFormed) (requests : List Request) :
    (runAll requests b).2.WellFormed := by
  induction requests generalizing b with
  | nil => exact h
  | cons request rest ih => exact ih (h.run request)

/-- To any number of requests a buffer answers as its channels do. -/
theorem WellFormed.tracks_runAll (h : b.WellFormed) (requests : List Request) :
    ((AudioBuffer.runAll requests b).1, (AudioBuffer.runAll requests b).2.tracks) =
      Tracks.answerAll capacity requests b.tracks := by
  induction requests generalizing b with
  | nil => rfl
  | cons request rest ih =>
      have hrest := ih (h.run request)
      rw [Tracks.answerAll, ← h.tracks_run request]
      dsimp only
      rw [← hrest]
      rfl

/-- Whatever is asked of a buffer that begins without channels: it counts no more of
them than it has room for, the slots in use are the first ones, and each holds the
samples of its frames, in as many lanes of eight as they need. Its answers and its
channels are those of the list of channels, and what it refuses leaves it as it was. -/
theorem runs_as_list_of_channels (capacity : Nat) (requests : List Request) :
    let (answers, b) := AudioBuffer.runAll requests (AudioBuffer.empty : AudioBuffer capacity)
    b.numChannels ≤ capacity ∧
    (∀ (channel : Nat) (slot : Option Channel), b.slots[channel]? = some slot →
      (slot.isSome ↔ channel < b.numChannels)) ∧
    (∀ (channel : Nat) (c : Channel), b.slots[channel]? = some (some c) →
      c.samples.size = b.numFrames ∧ c.lanes = (b.numFrames + 7) / 8 ∧
        c.storage.size = c.lanes * 8) ∧
    (answers, b.tracks) = Tracks.answerAll capacity requests ⟨0, []⟩ ∧
    ∀ request : Request, (request.run b).1 = false → (request.run b).2 = b := by
  have hempty : WellFormed (AudioBuffer.empty : AudioBuffer capacity) := wellFormed_empty
  have hformed := hempty.runAll requests
  refine ⟨hformed.numChannels_le, hformed.isSome_iff, fun channel c hslot => ?_,
    hempty.tracks_runAll requests, fun request => eq_of_refused⟩
  have hholds := hformed.holds channel c hslot
  refine ⟨hholds.size_samples, hholds.lanes_eq, ?_⟩
  rw [hholds.storage, hholds.lanes_eq, laneWidth]

end AudioBuffer

end PolySampler.Signal
