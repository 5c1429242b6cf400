import Mathlib.Logic.Basic
import Mathlib.Tactic.SplitIfs
import PolySampler.Midi.Sequencer

/-!
What the two kinds of transport can say. Raw bytes and typed records are decoded in
different ways, bytes by masking and records by refusing, but with the same image: the
events all of whose fields are in range. Bytes are refused only if there is no status
byte or too few data bytes, records only if they are unknown or a field is out of range.
The channel alone is masked in both.
-/

namespace PolySampler.Midi

/-! ### Bytes -/

/-- How many data bytes a message of a status has to have. -/
def dataCount (status : UInt8) : Nat :=
  if status = 0xF0 then 0
  else if status = 0xC0 ∨ status = 0xD0 then 1
  else 2

/-- The bytes begin with a status byte, and the data bytes that it needs are there. -/
def Complete : List UInt8 → Prop
  | [] => False
  | first :: rest => 0x80 ≤ first ∧ dataCount (statusOf first) ≤ rest.length

def statuses : List UInt8 :=
  [0x80, 0x90, 0xA0, 0xB0, 0xC0, 0xD0, 0xE0, 0xF0]

theorem statusOf_mem {first : UInt8} (h : 0x80 ≤ first) : statusOf first ∈ statuses := by
  -- The status is the high half of the byte; the low half has no say in it.
  have hall : ∀ high < 16, ∀ low < 16, 8 ≤ high →
      statusOf (UInt8.ofNat (16 * high + low)) ∈ statuses := by decide
  have hhigh : 128 ≤ first.toNat := UInt8.le_iff_toNat_le.mp h
  have hlt := first.toNat_lt
  have hmem := hall (first.toNat / 16) (by omega) (first.toNat % 16) (by omega) (by omega)
  rwa [Nat.div_add_mod, UInt8.ofNat_toNat] at hmem

/-- A status and a channel share a byte without touching each other. -/
theorem statusOf_or {status channel : UInt8} (hstatus : status ∈ statuses)
    (hchannel : channel < 16) :
    statusOf (status ||| channel) = status ∧ channelOf (status ||| channel) = channel ∧
      ¬ status ||| channel < 0x80 := by
  have hall : ∀ n < 16,
      statusOf (status ||| .ofNat n) = status ∧ channelOf (status ||| .ofNat n) = .ofNat n ∧
        ¬ status ||| .ofNat n < 0x80 := by
    simp only [statuses, List.mem_cons, List.not_mem_nil, or_false] at hstatus
    rcases hstatus with rfl | rfl | rfl | rfl | rfl | rfl | rfl | rfl <;> decide
  have hboth := hall channel.toNat (UInt8.lt_iff_toNat_lt.mp hchannel)
  rwa [UInt8.ofNat_toNat] at hboth

theorem toNat_channelOf (byte : UInt8) : (channelOf byte).toNat = byte.toNat % 16 := by
  rw [channelOf, UInt8.toNat_and]
  exact Nat.and_two_pow_sub_one_eq_mod byte.toNat 4

theorem toNat_dataBits (byte : UInt8) : (dataBits byte).toNat = byte.toNat % 128 := by
  rw [dataBits, UInt8.toNat_and]
  exact Nat.and_two_pow_sub_one_eq_mod byte.toNat 7

theorem channelOf_lt (byte : UInt8) : channelOf byte < 16 := by
  rw [UInt8.lt_iff_toNat_lt, toNat_channelOf]
  exact Nat.mod_lt _ (by decide)

theorem channelOf_of_lt {channel : UInt8} (h : channel < 16) : channelOf channel = channel := by
  rw [← UInt8.toNat_inj, toNat_channelOf]
  exact Nat.mod_eq_of_lt (UInt8.lt_iff_toNat_lt.mp h)

theorem dataBits_lt (byte : UInt8) : dataBits byte < 128 := by
  rw [UInt8.lt_iff_toNat_lt, toNat_dataBits]
  exact Nat.mod_lt _ (by decide)

theorem dataBits_of_lt {byte : UInt8} (h : byte < 128) : dataBits byte = byte := by
  rw [← UInt8.toNat_inj, toNat_dataBits]
  exact Nat.mod_eq_of_lt (UInt8.lt_iff_toNat_lt.mp h)

theorem isBend_centeredPitch (low high : UInt8) : IsBend (centeredPitch low high) := by
  simp only [IsBend, centeredPitch]
  omega

theorem wellFormed_ofNoteOn {channel key velocity : UInt8} (hchannel : channel < 16)
    (hkey : key < 128) (hvelocity : velocity < 128) :
    (Event.ofNoteOn channel key velocity).WellFormed := by
  rw [Event.ofNoteOn]
  split
  · exact ⟨hchannel, hkey, by decide⟩
  · next hne => exact ⟨hchannel, hkey, hvelocity, hne⟩

/-- The event of a status, a channel and two data bytes, of which some statuses leave one
or both unread. -/
def Event.ofData (status channel a b : UInt8) : Event :=
  if status = 0x80 then .noteOff channel a b
  else if status = 0x90 then .ofNoteOn channel a b
  else if status = 0xA0 then .polyPressure channel a b
  else if status = 0xB0 then .controlChange channel a b
  else if status = 0xC0 then .programChange channel a
  else if status = 0xD0 then .channelPressure channel a
  else if status = 0xE0 then .pitchBend channel (centeredPitch a b)
  else .system

theorem wellFormed_ofData (status : UInt8) {channel a b : UInt8} (hchannel : channel < 16)
    (ha : a < 128) (hb : b < 128) : (Event.ofData status channel a b).WellFormed := by
  rw [Event.ofData]
  split_ifs
  · exact ⟨hchannel, ha, hb⟩
  · exact wellFormed_ofNoteOn hchannel ha hb
  · exact ⟨hchannel, ha, hb⟩
  · exact ⟨hchannel, ha, hb⟩
  · exact ⟨hchannel, ha⟩
  · exact ⟨hchannel, ha⟩
  · exact ⟨hchannel, isBend_centeredPitch a b⟩
  · trivial

theorem decodeBytes?_cons {first : UInt8} (hfirst : ¬ first < 0x80) (rest : List UInt8) :
    decodeBytes? (first :: rest) =
      if dataCount (statusOf first) ≤ rest.length then
        some (.ofData (statusOf first) (channelOf first) (dataBits (rest.getD 0 0))
          (dataBits (rest.getD 1 0)))
      else none := by
  have hmem := statusOf_mem (UInt8.not_lt.mp hfirst)
  simp only [statuses, List.mem_cons, List.not_mem_nil, or_false] at hmem
  -- One case for each status, and in it as many data bytes as any status needs.
  rcases hmem with h | h | h | h | h | h | h | h <;>
    rcases rest with _ | ⟨a, _ | ⟨b, more⟩⟩ <;>
    simp [decodeBytes?, dataCount, Event.ofData, hfirst, h]

/-- Messages are refused only for want of bytes. -/
theorem decodeBytes?_eq_none_iff (bytes : List UInt8) :
    decodeBytes? bytes = none ↔ ¬ Complete bytes := by
  cases bytes with
  | nil => simp [decodeBytes?, Complete]
  | cons first rest =>
      by_cases hfirst : first < 0x80
      · simp [decodeBytes?, Complete, hfirst, UInt8.not_le.mpr hfirst]
      · simp [decodeBytes?_cons hfirst, Complete, UInt8.not_lt.mp hfirst]

theorem wellFormed_of_decodeBytes? {bytes : List UInt8} {event : Event}
    (h : decodeBytes? bytes = some event) : event.WellFormed := by
  cases bytes with
  | nil => cases h
  | cons first rest =>
      by_cases hfirst : first < 0x80
      · rw [decodeBytes?, if_pos hfirst] at h
        cases h
      · rw [decodeBytes?_cons hfirst, Option.ite_none_right_eq_some] at h
        obtain ⟨-, heq⟩ := h
        obtain rfl := Option.some.inj heq
        exact wellFormed_ofData _ (channelOf_lt _) (dataBits_lt _) (dataBits_lt _)

theorem decodeBytes?_take (bytes : List UInt8) :
    decodeBytes? (bytes.take 3) = decodeBytes? bytes := by
  rcases bytes with _ | ⟨first, _ | ⟨a, _ | ⟨b, more⟩⟩⟩ <;> rfl

def Event.bytes : Event → List UInt8
  | .noteOff channel key velocity => [0x80 ||| channel, key, velocity]
  | .noteOn channel key velocity => [0x90 ||| channel, key, velocity]
  | .polyPressure channel key pressure => [0xA0 ||| channel, key, pressure]
  | .controlChange channel controller value => [0xB0 ||| channel, controller, value]
  | .programChange channel program => [0xC0 ||| channel, program]
  | .channelPressure channel pressure => [0xD0 ||| channel, pressure]
  | .pitchBend channel value =>
    [0xE0 ||| channel, .ofNat ((value + 8192).toNat % 128), .ofNat ((value + 8192).toNat / 128)]
  | .system => [0xF0]

theorem length_bytes_le (event : Event) : event.bytes.length ≤ 3 := by
  cases event <;> simp [Event.bytes]

theorem centeredPitch_split {value : Int} (h : IsBend value) :
    centeredPitch (dataBits (.ofNat ((value + 8192).toNat % 128)))
      (dataBits (.ofNat ((value + 8192).toNat / 128))) = value := by
  obtain ⟨hlow, hhigh⟩ := h
  simp only [centeredPitch, toNat_dataBits, UInt8.toNat_ofNat']
  omega

theorem decodeBytes?_or {status channel : UInt8} (hstatus : status ∈ statuses)
    (hchannel : channel < 16) {rest : List UInt8} (hcount : dataCount status ≤ rest.length) :
    decodeBytes? ((status ||| channel) :: rest) =
      some (.ofData status channel (dataBits (rest.getD 0 0)) (dataBits (rest.getD 1 0))) := by
  obtain ⟨hsame, hchannel', hfirst⟩ := statusOf_or hstatus hchannel
  rw [decodeBytes?_cons hfirst, hsame, hchannel', if_pos hcount]

theorem decodeBytes?_bytes {event : Event} (h : event.WellFormed) :
    decodeBytes? event.bytes = some event := by
  cases event with
  | noteOn channel key velocity =>
      obtain ⟨hchannel, hkey, hvelocity, hne⟩ := h
      rw [Event.bytes, decodeBytes?_or (by decide) hchannel (by simp [dataCount])]
      simp [Event.ofData, Event.ofNoteOn, dataBits_of_lt hkey, dataBits_of_lt hvelocity, hne]
  | noteOff channel key velocity =>
      obtain ⟨hchannel, hkey, hvelocity⟩ := h
      rw [Event.bytes, decodeBytes?_or (by decide) hchannel (by simp [dataCount])]
      simp [Event.ofData, dataBits_of_lt hkey, dataBits_of_lt hvelocity]
  | polyPressure channel key pressure =>
      obtain ⟨hchannel, hkey, hpressure⟩ := h
      rw [Event.bytes, decodeBytes?_or (by decide) hchannel (by simp [dataCount])]
      simp [Event.ofData, dataBits_of_lt hkey, dataBits_of_lt hpressure]
  | channelPressure channel pressure =>
      obtain ⟨hchannel, hpressure⟩ := h
      rw [Event.bytes, decodeBytes?_or (by decide) hchannel (by simp [dataCount])]
      simp [Event.ofData, dataBits_of_lt hpressure]
  | controlChange channel controller value =>
      obtain ⟨hchannel, hcontroller, hvalue⟩ := h
      rw [Event.bytes, decodeBytes?_or (by decide) hchannel (by simp [dataCount])]
      simp [Event.ofData, dataBits_of_lt hcontroller, dataBits_of_lt hvalue]
  | pitchBend channel value =>
      obtain ⟨hchannel, hbend⟩ := h
      rw [Event.bytes, decodeBytes?_or (by decide) hchannel (by simp [dataCount])]
      simpa [Event.ofData] using centeredPitch_split hbend
  | programChange channel program =>
      obtain ⟨hchannel, hprogram⟩ := h
      rw [Event.bytes, decodeBytes?_or (by decide) hchannel (by simp [dataCount])]
      simp [Event.ofData, dataBits_of_lt hprogram]
  | system => rfl

/-! ### Records -/

def Event.channel? : Event → Option UInt8
  | .noteOn channel _ _ | .noteOff channel _ _ | .polyPressure channel _ _
  | .channelPressure channel _ | .controlChange channel _ _ | .pitchBend channel _
  | .programChange channel _ => some channel
  | .system => none

theorem channel?_ofNoteOn (channel key velocity : UInt8) :
    (Event.ofNoteOn channel key velocity).channel? = some channel := by
  rw [Event.ofNoteOn]
  split <;> rfl

def Record.channel? : Record → Option UInt8
  | .noteOn channel _ _ | .noteOff channel _ _ | .keyPressure channel _ _
  | .controller channel _ _ | .channelPressure channel _ | .pitchBend channel _
  | .programChange channel _ => some channel
  | .systemExclusive | .other => none

/-- The fields of a record are in range, its channel apart: that is cut to four bits, so
any will do. -/
def Record.InRange : Record → Prop
  | .noteOn _ note velocity => note < 128 ∧ velocity < 128
  | .noteOff _ note velocity => note < 128 ∧ velocity < 128
  | .keyPressure _ note value => note < 128 ∧ value < 128
  | .controller _ param value => param < 128 ∧ 0 ≤ value ∧ value < 128
  | .channelPressure _ value => 0 ≤ value ∧ value < 128
  | .pitchBend _ value => IsBend value
  | .programChange _ value => 0 ≤ value ∧ value < 128
  | .systemExclusive | .other => True

theorem sevenBits?_eq_none_iff (value : Int) :
    sevenBits? value = none ↔ ¬ (0 ≤ value ∧ value < 128) := by
  simp [sevenBits?]

theorem lt_of_sevenBits? {value : Int} {byte : UInt8} (h : sevenBits? value = some byte) :
    byte < 128 := by
  rw [sevenBits?, Option.ite_none_right_eq_some] at h
  obtain ⟨⟨-, hlt⟩, heq⟩ := h
  obtain rfl := Option.some.inj heq
  rw [UInt8.lt_iff_toNat_lt, UInt8.toNat_ofNat']
  show value.toNat % 2 ^ 8 < 128
  omega

theorem sevenBits?_toNat {byte : UInt8} (h : byte < 128) :
    sevenBits? byte.toNat = some byte := by
  have hlt : byte.toNat < 128 := UInt8.lt_iff_toNat_lt.mp h
  rw [sevenBits?, if_pos (by omega), Int.toNat_natCast, UInt8.ofNat_toNat]

section Fields

variable {make : UInt8 → Event} {make₂ : UInt8 → UInt8 → Event} {first second : Int}
  {event : Event}

theorem oneField_eq_none_iff :
    (do return make (← sevenBits? first)) = none ↔ ¬ (0 ≤ first ∧ first < 128) := by
  rw [← sevenBits?_eq_none_iff]
  cases sevenBits? first <;> simp

theorem twoFields_eq_none_iff :
    (do return make₂ (← sevenBits? first) (← sevenBits? second)) = none ↔
      ¬ ((0 ≤ first ∧ first < 128) ∧ 0 ≤ second ∧ second < 128) := by
  rw [not_and_or, ← sevenBits?_eq_none_iff, ← sevenBits?_eq_none_iff]
  cases sevenBits? first <;> cases sevenBits? second <;> simp

theorem oneField_eq_some (h : (do return make (← sevenBits? first)) = some event) :
    ∃ a < 128, event = make a := by
  cases hfirst : sevenBits? first with
  | none => simp [hfirst] at h
  | some a =>
      refine ⟨a, lt_of_sevenBits? hfirst, ?_⟩
      simpa [hfirst] using h.symm

theorem twoFields_eq_some
    (h : (do return make₂ (← sevenBits? first) (← sevenBits? second)) = some event) :
    ∃ a < 128, ∃ b < 128, event = make₂ a b := by
  cases hfirst : sevenBits? first with
  | none => simp [hfirst] at h
  | some a =>
      cases hsecond : sevenBits? second with
      | none => simp [hfirst, hsecond] at h
      | some b =>
          refine ⟨a, lt_of_sevenBits? hfirst, b, lt_of_sevenBits? hsecond, ?_⟩
          simpa [hfirst, hsecond] using h.symm

end Fields

theorem byte_inRange_iff (byte : UInt8) :
    (0 ≤ (byte.toNat : Int) ∧ (byte.toNat : Int) < 128) ↔ byte < 128 := by
  rw [UInt8.lt_iff_toNat_lt]
  show _ ↔ byte.toNat < 128
  omega

/-- Records are refused if they are unknown or a field is out of range, and only then. -/
theorem Record.decode?_eq_none_iff (record : Record) :
    record.decode? = none ↔ record = .other ∨ ¬ record.InRange := by
  cases record with
  | noteOn channel note velocity =>
      simp only [decode?, twoFields_eq_none_iff, byte_inRange_iff, InRange, reduceCtorEq,
        false_or]
  | noteOff channel note velocity =>
      simp only [decode?, twoFields_eq_none_iff, byte_inRange_iff, InRange, reduceCtorEq,
        false_or]
  | keyPressure channel note value =>
      simp only [decode?, twoFields_eq_none_iff, byte_inRange_iff, InRange, reduceCtorEq,
        false_or]
  | controller channel param value =>
      simp only [decode?, twoFields_eq_none_iff, InRange, reduceCtorEq, false_or]
      omega
  | channelPressure channel value =>
      simp only [decode?, oneField_eq_none_iff, InRange, reduceCtorEq, false_or]
  | pitchBend channel value => simp [decode?, InRange]
  | programChange channel value =>
      simp only [decode?, oneField_eq_none_iff, InRange, reduceCtorEq, false_or]
  | systemExclusive => simp [decode?, InRange]
  | other => simp [decode?]

/-- Whatever the record, it is decoded to an event whose fields are in range and whose
channel is the one of the record cut to four bits. -/
theorem Record.wellFormed_of_decode? {record : Record} {event : Event}
    (h : record.decode? = some event) :
    event.WellFormed ∧ event.channel? = record.channel?.map channelOf := by
  cases record with
  | noteOn channel note velocity =>
      obtain ⟨a, ha, b, hb, rfl⟩ := twoFields_eq_some h
      exact ⟨wellFormed_ofNoteOn (channelOf_lt channel) ha hb, channel?_ofNoteOn _ a b⟩
  | noteOff channel note velocity =>
      obtain ⟨a, ha, b, hb, rfl⟩ := twoFields_eq_some h
      exact ⟨⟨channelOf_lt channel, ha, hb⟩, rfl⟩
  | keyPressure channel note value =>
      obtain ⟨a, ha, b, hb, rfl⟩ := twoFields_eq_some h
      exact ⟨⟨channelOf_lt channel, ha, hb⟩, rfl⟩
  | controller channel param value =>
      obtain ⟨a, ha, b, hb, rfl⟩ := twoFields_eq_some h
      exact ⟨⟨channelOf_lt channel, ha, hb⟩, rfl⟩
  | channelPressure channel value =>
      obtain ⟨a, ha, rfl⟩ := oneField_eq_some h
      exact ⟨⟨channelOf_lt channel, ha⟩, rfl⟩
  | pitchBend channel value =>
      rw [decode?, Option.ite_none_right_eq_some] at h
      obtain ⟨hbend, heq⟩ := h
      obtain rfl := Option.some.inj heq
      exact ⟨⟨channelOf_lt channel, hbend⟩, rfl⟩
  | programChange channel value =>
      obtain ⟨a, ha, rfl⟩ := oneField_eq_some h
      exact ⟨⟨channelOf_lt channel, ha⟩, rfl⟩
  | systemExclusive =>
      obtain rfl := Option.some.inj h
      exact ⟨trivial, rfl⟩
  | other => cases h

def Event.record : Event → Record
  | .noteOn channel key velocity => .noteOn channel key velocity
  | .noteOff channel key velocity => .noteOff channel key velocity
  | .polyPressure channel key pressure => .keyPressure channel key pressure
  | .channelPressure channel pressure => .channelPressure channel pressure.toNat
  | .controlChange channel controller value => .controller channel controller.toNat value.toNat
  | .pitchBend channel value => .pitchBend channel value
  | .programChange channel program => .programChange channel program.toNat
  | .system => .systemExclusive

theorem decode?_record {event : Event} (h : event.WellFormed) :
    event.record.decode? = some event := by
  cases event with
  | noteOn channel key velocity =>
      obtain ⟨hchannel, hkey, hvelocity, hne⟩ := h
      simp [Event.record, Record.decode?, sevenBits?_toNat hkey, sevenBits?_toNat hvelocity,
        channelOf_of_lt hchannel, Event.ofNoteOn, hne]
  | noteOff channel key velocity =>
      obtain ⟨hchannel, hkey, hvelocity⟩ := h
      simp [Event.record, Record.decode?, sevenBits?_toNat hkey, sevenBits?_toNat hvelocity,
        channelOf_of_lt hchannel]
  | polyPressure channel key pressure =>
      obtain ⟨hchannel, hkey, hpressure⟩ := h
      simp [Event.record, Record.decode?, sevenBits?_toNat hkey, sevenBits?_toNat hpressure,
        channelOf_of_lt hchannel]
  | channelPressure channel pressure =>
      obtain ⟨hchannel, hpressure⟩ := h
      simp [Event.record, Record.decode?, sevenBits?_toNat hpressure, channelOf_of_lt hchannel]
  | controlChange channel controller value =>
      obtain ⟨hchannel, hcontroller, hvalue⟩ := h
      simp [Event.record, Record.decode?, sevenBits?_toNat hcontroller, sevenBits?_toNat hvalue,
        channelOf_of_lt hchannel]
  | pitchBend channel value =>
      obtain ⟨hchannel, hbend⟩ := h
      simp [Event.record, Record.decode?, hbend, channelOf_of_lt hchannel]
  | programChange channel program =>
      obtain ⟨hchannel, hprogram⟩ := h
      simp [Event.record, Record.decode?, sevenBits?_toNat hprogram, channelOf_of_lt hchannel]
  | system => rfl

/-! ### Both transports -/

/-- Both kinds of transport decode to the well-formed events and to nothing else. A raw
message is decoded as its bytes are, though only three of them are kept, and refused if
it has no status byte or too few data bytes; a record is refused if it is unknown or has
a field out of range, apart from its channel, which is cut to four bits. Three bytes are
enough for every well-formed event, and so is a record with its fields in range. -/
theorem decoders_accept_wellFormed :
    (∀ time bytes,
      TransportEvent.decode? (RawEvent.ofBytes time bytes) = decodeBytes? bytes ∧
      (decodeBytes? bytes = none ↔ ¬ Complete bytes)) ∧
    (∀ item : SequencerEvent,
      (TransportEvent.decode? item = none ↔ item.record = .other ∨ ¬ item.record.InRange) ∧
      ∀ event, TransportEvent.decode? item = some event →
        event.channel? = item.record.channel?.map channelOf) ∧
    ∀ event : Event,
      (event.WellFormed ↔ ∃ bytes, decodeBytes? bytes = some event) ∧
      (event.WellFormed ↔ ∃ bytes, bytes.length ≤ 3 ∧ decodeBytes? bytes = some event) ∧
      (event.WellFormed ↔
        ∃ item : SequencerEvent, TransportEvent.decode? item = some event) := by
  refine ⟨fun time bytes => ⟨decodeBytes?_take bytes, decodeBytes?_eq_none_iff bytes⟩,
    fun item => ⟨item.record.decode?_eq_none_iff,
      fun event h => (Record.wellFormed_of_decode? h).2⟩, fun event => ?_⟩
  have hbytes (h : event.WellFormed) :
      ∃ bytes, bytes.length ≤ 3 ∧ decodeBytes? bytes = some event :=
    ⟨event.bytes, length_bytes_le event, decodeBytes?_bytes h⟩
  have hrecord (h : event.WellFormed) :
      ∃ item : SequencerEvent, TransportEvent.decode? item = some event :=
    ⟨⟨0, event.record⟩, decode?_record h⟩
  refine ⟨⟨fun h => ?_, fun ⟨bytes, h⟩ => wellFormed_of_decodeBytes? h⟩,
    ⟨hbytes, fun ⟨bytes, _, h⟩ => wellFormed_of_decodeBytes? h⟩,
    ⟨hrecord, fun ⟨item, h⟩ => (Record.wellFormed_of_decode? h).1⟩⟩
  exact (hbytes h).imp fun bytes => And.right

/-- A record is not refused for its channel. The channel 16 is one past the last, and a
record for it is taken to be for the channel 0. -/
theorem record_not_refused_for_channel :
    TransportEvent.decode? (⟨2, .noteOn 16 0 1⟩ : SequencerEvent) = some (.noteOn 0 0 1) ∧
    ¬ ∀ item : SequencerEvent, TransportEvent.decode? item = none ↔
      item.record = .other ∨ ¬ item.record.InRange ∨
        ∃ channel, item.record.channel? = some channel ∧ ¬ channel < 16 := by
  have hplayed : TransportEvent.decode? (⟨2, .noteOn 16 0 1⟩ : SequencerEvent) =
      some (.noteOn 0 0 1) := by decide
  refine ⟨hplayed, fun hall => ?_⟩
  have hrefused := (hall ⟨2, .noteOn 16 0 1⟩).mpr (.inr (.inr ⟨16, rfl, by decide⟩))
  rw [hplayed] at hrefused
  cases hrefused

end PolySampler.Midi
