import PolySampler.Instrument.Load
import PolySampler.Proofs.Instrument.Build

/-!
The channels of a sample. Frame by frame the loop over interleaved samples gives every
channel what is its own, so the channels grow together: they have one length, and it is
enough to know that of the first.
-/

namespace PolySampler

namespace SampleData

/-- Every channel has the length that is taken from the first. -/
def Even (s : SampleData) : Prop :=
  ∀ channel ∈ s.channels, channel.size = s.numFrames

/-- The channels hold so many of the frames of interleaved samples, each channel the
samples of its place in them. -/
structure Filled (width : Nat) (samples : Array Float32) (frames : Nat)
    (channels : List (Array Float32)) : Prop where
  size : ∀ {c : Nat} {channel : Array Float32}, channels[c]? = some channel →
    channel.size = frames
  sample : ∀ {c f : Nat} {channel : Array Float32}, channels[c]? = some channel → f < frames →
    ∃ x, channel[f]? = some x ∧ samples[f * width + c]? = some x

variable {width kept frames : Nat} {samples : Array Float32} {channels : List (Array Float32)}

theorem filled_replicate (width kept : Nat) (samples : Array Float32) :
    Filled width samples 0 (List.replicate kept #[]) where
  size h := by
    obtain rfl := (List.mem_replicate.mp (List.mem_of_getElem? h)).2
    rfl
  sample _ hf := absurd hf (Nat.not_lt_zero _)

theorem length_addFrame {frame : List Float32} (h : channels.length ≤ frame.length) :
    (addFrame channels frame).length = channels.length := by
  rw [addFrame, List.length_zipWith]
  omega

/-- One more frame makes every channel longer by its sample of the frame. -/
theorem filled_addFrame (h : Filled width samples frames channels) {frame : List Float32}
    (hframe : ∀ {c : Nat} {x : Float32}, frame[c]? = some x →
      samples[frames * width + c]? = some x) :
    Filled width samples (frames + 1) (addFrame channels frame) where
  size {c channel} hchannel := by
    obtain ⟨before, x, hbefore, -, rfl⟩ := List.getElem?_zipWith_eq_some.mp hchannel
    rw [Array.size_push, h.size hbefore]
  sample {c f channel} hchannel hf := by
    obtain ⟨before, x, hbefore, hx, rfl⟩ := List.getElem?_zipWith_eq_some.mp hchannel
    have hsize := h.size hbefore
    rw [Array.getElem?_push, hsize]
    rcases Nat.lt_succ_iff_lt_or_eq.mp hf with hold | rfl
    · rw [if_neg (by omega)]
      exact h.sample hbefore hold
    · rw [if_pos rfl]
      exact ⟨x, rfl, hframe hx⟩

theorem getElem?_frame {offset c : Nat} {x : Float32}
    (h : (samples.extract offset (offset + width)).toList[c]? = some x) :
    samples[offset + c]? = some x := by
  rw [Array.getElem?_toList, Array.getElem?_extract] at h
  split at h
  · exact h
  · cases h

theorem filled_addFrames (h : Filled width samples frames channels) (hwidth : 0 < width)
    (hkept : channels.length ≤ width) {offset : Nat} (hoffset : offset = frames * width)
    (hframes : offset ≤ samples.size) :
    (addFrames width samples offset channels).length = channels.length ∧
      Filled width samples (samples.size / width) (addFrames width samples offset channels) := by
  fun_induction addFrames width samples offset channels generalizing frames with
  | case1 offset channels hroom ih =>
      have hframe : (samples.extract offset (offset + width)).toList.length = width := by
        rw [Array.length_toList, Array.size_extract]
        omega
      have hsame := length_addFrame (hkept.trans_eq hframe.symm)
      have hnext : offset + width = (frames + 1) * width := by
        rw [Nat.succ_mul, hoffset]
      have hfilled : Filled width samples (frames + 1)
          (addFrame channels (samples.extract offset (offset + width)).toList) :=
        filled_addFrame h fun hx => hoffset ▸ getElem?_frame hx
      rw [← hsame] at hkept ⊢
      exact ih hfilled hkept hnext hroom.2
  | case2 offset channels hend =>
      -- Less than a frame is left, so the frames so far are all that there are.
      have hleft : samples.size < (frames + 1) * width := by
        rw [Nat.succ_mul, ← hoffset]
        omega
      have hall : samples.size / width = frames :=
        Nat.div_eq_of_lt_le (hoffset ▸ hframes) hleft
      rw [hall]
      exact ⟨rfl, h⟩

theorem deinterleave_filled (hwidth : 0 < width) (hkept : kept ≤ width)
    (samples : Array Float32) :
    (deinterleave width kept samples).size = kept ∧
      Filled width samples (samples.size / width) (deinterleave width kept samples).toList := by
  obtain ⟨hlength, hfilled⟩ := filled_addFrames (filled_replicate width kept samples) hwidth
    (by rwa [List.length_replicate]) (Nat.zero_mul width).symm (Nat.zero_le _)
  rw [List.length_replicate] at hlength
  exact ⟨hlength, hfilled⟩

/-- Two frames of three samples are complete. -/
example : deinterleave 3 2 #[1, 2, 3, 4, 5, 6, 7, 8] = #[#[1, 4], #[2, 5]] := by
  cbv

theorem even_of_filled {s : SampleData} (h : Filled width samples frames s.channels.toList) :
    s.Even := by
  intro channel hmem
  obtain ⟨c, hc⟩ := List.getElem?_of_mem (Array.mem_toList_iff.mpr hmem)
  have hsome : 0 < s.channels.size := Array.size_pos_of_mem hmem
  have hfirst : s.channels[0]? = some s.channels[0] := Array.getElem?_eq_getElem hsome
  rw [numFrames, hfirst]
  show channel.size = s.channels[0].size
  rw [h.size hc, h.size (Array.getElem?_toList.trans hfirst)]

end SampleData

/-! ### What is read from files -/

section Reading

variable {decode : Decoder} {readers : Readers} {files : Files} {path : String} {data : SampleData}
  {record : Log.Record}

theorem exists_of_readSampleBy (h : files.readSampleBy decode path = .ok (data, record)) :
    ∃ format interleaved, (files path).bind decode = some (format, interleaved) ∧
      data = Wave.toSample format interleaved := by
  rw [Files.readSampleBy] at h
  split at h
  · cases h
  · next format interleaved hdecoded =>
      simp only [Except.ok.injEq, Prod.mk.injEq] at h
      exact ⟨format, interleaved, hdecoded, h.1.symm⟩

theorem exists_readSampleBy_eq {format : Wave.Format} {interleaved : Array Float32}
    (h : (files path).bind decode = some (format, interleaved)) :
    ∃ record, files.readSampleBy decode path = .ok (Wave.toSample format interleaved, record) := by
  rw [Files.readSampleBy, h]
  exact ⟨_, rfl⟩

theorem toSample_filled (format : Wave.Format) (interleaved : Array Float32) :
    let width := max format.channels 1
    (Wave.toSample format interleaved).channels.size = min width Wave.keptChannels ∧
      SampleData.Filled width interleaved (interleaved.size / width)
        (Wave.toSample format interleaved).channels.toList :=
  SampleData.deinterleave_filled (Nat.le_max_right _ _) (Nat.min_le_left _ _) interleaved

/-- Whatever is in a file, and whichever decoder reads it, the channels are even. -/
theorem even_of_readSampleBy (h : files.readSampleBy decode path = .ok (data, record)) :
    data.Even := by
  obtain ⟨format, interleaved, -, rfl⟩ := exists_of_readSampleBy h
  exact SampleData.even_of_filled (toSample_filled format interleaved).2

theorem exists_of_sound {read : SampleReader} {base : String} {source : SourceText}
    (h : source.sound read base = .ok (.sample data)) :
    ∃ path record, read path = .ok (data, record) := by
  cases source with
  | oscillator waveform =>
      rw [SourceText.sound] at h
      cases h
  | sample path =>
      rw [SourceText.sound] at h
      cases hread : read (FilePath.join base path) with
      | error fault =>
          rw [hread] at h
          cases h
      | ok answer =>
          rw [hread] at h
          obtain ⟨_, record⟩ := answer
          cases h
          exact ⟨_, record, hread⟩

theorem exists_of_buildInstrument {read : SampleReader} {patch : Patch} {base : String}
    {instrument : Instrument} {count : Nat}
    (h : (buildInstrument read patch base).result = .ok (instrument, count))
    {region : Region} (hregion : region ∈ instrument.regions)
    (hsource : region.source = .sample data) : ∃ path record, read path = .ok (data, record) := by
  obtain ⟨hregions, hfaultless⟩ := faultless_of_buildInstrument h
  obtain ⟨made, hmade, hbecomes, -, -⟩ := buildInstrument_of_faultless hregions hfaultless
  obtain ⟨rfl, -⟩ := Prod.mk.inj (Except.ok.inj (h.symm.trans hmade))
  obtain ⟨i, hi, rfl⟩ := List.getElem_of_mem (List.mem_toArray.mp hregion)
  obtain ⟨hlength, hall⟩ := List.forall₂_iff_get.mp hbecomes
  have hsound := (hall i (hlength ▸ hi) hi).sound
  have hsample : (made.get ⟨i, hi⟩).source = .sample data := hsource
  obtain ⟨path, record, hread⟩ := exists_of_sound (hsound.trans (congrArg Except.ok hsample))
  exact ⟨_, record, hread⟩

theorem exists_of_loadAs {ext : String} {instrument : Instrument} {count : Nat}
    (h : (loadAs readers files path ext).result = .ok (instrument, count))
    {region : Region} (hregion : region ∈ instrument.regions)
    (hsource : region.source = .sample data) :
    ∃ path record, files.readSampleBy readers.decode? path = .ok (data, record) := by
  unfold loadAs at h
  split at h
  · split at h
    · cases h
    · split at h
      · cases h
      · exact exists_of_buildInstrument h hregion hsource
  · split at h
    · cases h
    · next other record hread =>
        obtain ⟨rfl, -⟩ := Prod.mk.inj (Except.ok.inj h)
        obtain rfl : region = _ := Array.mem_singleton.mp hregion
        cases hsource
        exact ⟨path, record, hread⟩
  · cases h

theorem even_of_loadInstrument {instrument : Instrument} {report : LoadReport}
    (h : (loadInstrument files path readers).result = .ok (instrument, report))
    {region : Region} (hregion : region ∈ instrument.regions)
    (hsource : region.source = .sample data) : data.Even := by
  rw [loadInstrument] at h
  dsimp only at h
  cases hloaded : (loadAs readers files path
      (Text.lowerAscii ((FilePath.extension? path).getD ""))).result with
  | error fault =>
      rw [hloaded] at h
      cases h
  | ok answer =>
      rw [hloaded] at h
      obtain ⟨loaded, count⟩ := answer
      obtain ⟨rfl, -⟩ := Prod.mk.inj (Except.ok.inj h)
      obtain ⟨file, record, hread⟩ := exists_of_loadAs hloaded hregion hsource
      exact even_of_readSampleBy hread

/-- A file of any number of channels, and with any number of interleaved samples in it,
becomes a sample of one or two channels. Each has as many frames as are complete in the
file, and in each frame the sample that the file has for the channel. Whatever is read,
and whatever the samples of an instrument are that has been loaded, all channels have the
length that is taken from the first. -/
theorem channels_of_readSample (files : Files) (path : String) :
    (∀ (decode : Decoder) (format : Wave.Format) (interleaved : Array Float32),
      (files path).bind decode = some (format, interleaved) → 1 ≤ format.channels →
      ∃ data record, files.readSampleBy decode path = .ok (data, record) ∧
        data.channels.size = min format.channels 2 ∧
        data.numFrames = interleaved.size / format.channels ∧
        ∀ c < min format.channels 2, ∃ channel, data.channels[c]? = some channel ∧
          channel.size = interleaved.size / format.channels ∧
          ∀ f < interleaved.size / format.channels, ∃ x,
            channel[f]? = some x ∧ interleaved[f * format.channels + c]? = some x) ∧
    (∀ decode data record, files.readSampleBy decode path = .ok (data, record) → data.Even) ∧
    ∀ readers instrument report,
      (loadInstrument files path readers).result = .ok (instrument, report) →
        ∀ region ∈ instrument.regions, ∀ data, region.source = .sample data → data.Even := by
  refine ⟨fun decode format interleaved hdecoded hchannels => ?_,
    fun decode data record hread => even_of_readSampleBy hread,
    fun readers instrument report hloaded region hregion data hsource =>
      even_of_loadInstrument hloaded hregion hsource⟩
  obtain ⟨hsize, hfilled⟩ := toSample_filled format interleaved
  rw [Nat.max_eq_left hchannels] at hsize hfilled
  have hchannel {c : Nat} (hc : c < min format.channels 2) :
      ∃ channel, (Wave.toSample format interleaved).channels[c]? = some channel :=
    ⟨_, Array.getElem?_eq_getElem (hsize ▸ hc)⟩
  obtain ⟨record, hread⟩ := exists_readSampleBy_eq hdecoded
  refine ⟨Wave.toSample format interleaved, record, hread, hsize, ?_, fun c hc => ?_⟩
  · obtain ⟨first, hfirst⟩ := hchannel (c := 0) (by omega)
    rw [SampleData.numFrames, hfirst]
    exact hfilled.size (Array.getElem?_toList.trans hfirst)
  · obtain ⟨channel, hc⟩ := hchannel hc
    have hmem := Array.getElem?_toList.trans hc
    exact ⟨channel, hc, hfilled.size hmem, fun f hf => hfilled.sample hmem hf⟩

/-- A file of three channels and two frames: the third channel is left out. -/
theorem two_of_three_channels :
    let bytes : ByteArray := ⟨#[82, 73, 70, 70, 48, 0, 0, 0, 87, 65, 86, 69,
      102, 109, 116, 32, 16, 0, 0, 0, 1, 0, 3, 0, 232, 3, 0, 0, 112, 23, 0, 0, 6, 0, 16, 0,
      100, 97, 116, 97, 12, 0, 0, 0, 0, 64, 0, 192, 0, 32, 0, 224, 0, 16, 0, 240]⟩
    let files : Files := fun _ => some bytes
    ∃ format interleaved, (files "drum.wav").bind Wave.decode? = some (format, interleaved) ∧
      1 ≤ format.channels ∧ interleaved = #[0.5, -0.5, 0.25, -0.25, 0.125, -0.125] ∧
      ∃ data record, files.readSampleBy Wave.decode? "drum.wav" = .ok (data, record) ∧
        data.channels.size = 2 ∧ data.numFrames = 2 ∧
        ∃ right, data.channels[1]? = some right ∧ right.size = 2 ∧
          right[0]? = some (-0.5 : Float32) ∧ right[1]? = some (0.125 : Float32) := by
  intro bytes files
  have hdecoded : (Wave.decode? bytes).map (fun (format, samples) => (format.channels, samples)) =
      some (3, #[0.5, -0.5, 0.25, -0.25, 0.125, -0.125]) := by decide +kernel
  obtain ⟨⟨format, interleaved⟩, hfile, heq⟩ := Option.map_eq_some_iff.mp hdecoded
  obtain ⟨hthree, rfl⟩ : format.channels = 3 ∧ interleaved = _ := Prod.mk.inj heq
  have hbind : (files "drum.wav").bind Wave.decode? = some (format, _) :=
    (Option.bind_some bytes Wave.decode?).trans hfile
  obtain ⟨data, record, hread, hsize, hframes, hchannels⟩ :=
    (channels_of_readSample files "drum.wav").1 Wave.decode? format _ hbind (by omega)
  rw [hthree] at hsize hframes hchannels
  obtain ⟨right, hright, hlength, hsamples⟩ := hchannels 1 (by decide)
  obtain ⟨x, hx, hold⟩ := hsamples 0 (by decide)
  obtain ⟨y, hy, hnew⟩ := hsamples 1 (by decide)
  cases hold
  cases hnew
  exact ⟨format, _, hbind, by omega, rfl, data, record, hread, hsize, hframes, right, hright,
    hlength, hx, hy⟩

end Reading

end PolySampler
