import Mathlib.Data.List.Basic
import PolySampler.Console.Session

/-!
The lines of an input. A text that is written line by line, each with a line feed behind
it, is read as these lines again, whatever characters they are of.
-/

namespace PolySampler

namespace Text

variable {α : Type} [DecidableEq α] {feed carriage : α}

theorem splitLines_feed (rest : List α) :
    splitLines feed carriage (feed :: rest) = [] :: splitLines feed carriage rest := by
  rw [splitLines.eq_def]
  exact if_pos rfl

theorem splitLines_cons {c : α} {rest line : List α} {lines : List (List α)} (hc : c ≠ feed)
    (hreturn : c ≠ carriage) (h : splitLines feed carriage rest = line :: lines) :
    splitLines feed carriage (c :: rest) = (c :: line) :: lines := by
  rw [splitLines.eq_def]
  dsimp only
  rw [if_neg hc, if_neg fun hand => hreturn hand.1, h]
  cases rest with
  | nil => cases h
  | cons next rest => rfl

/-- A line ends at the first line feed. It must not hold a carriage return, as one before
the line feed would be lost. -/
theorem splitLines_append (line rest : List α) (hfeed : feed ∉ line) (hreturn : carriage ∉ line) :
    splitLines feed carriage (line ++ feed :: rest) = line :: splitLines feed carriage rest := by
  induction line with
  | nil => exact splitLines_feed rest
  | cons c line ih =>
      rw [List.mem_cons, not_or] at hfeed hreturn
      exact splitLines_cons (Ne.symm hfeed.1) (Ne.symm hreturn.1) (ih hfeed.2 hreturn.2)

theorem splitLines_flatMap (lines : List (List α))
    (h : ∀ line ∈ lines, feed ∉ line ∧ carriage ∉ line) :
    splitLines feed carriage (lines.flatMap fun line => line ++ [feed]) = lines := by
  induction lines with
  | nil => rfl
  | cons line lines ih =>
      obtain ⟨⟨hfeed, hreturn⟩, hlines⟩ := List.forall_mem_cons.mp h
      rw [List.flatMap_cons, List.append_assoc, List.singleton_append,
        splitLines_append line _ hfeed hreturn, ih hlines]

end Text

namespace Console

/-! ### Bytes -/

theorem toList_loop_eq (bytes : ByteArray) (start : Nat) (before : List UInt8) :
    ByteArray.toList.loop bytes start before = before.reverse ++ bytes.data.toList.drop start := by
  fun_induction ByteArray.toList.loop bytes start before with
  | case1 start before hin ih =>
      have hstart : start < bytes.data.toList.length := by simpa using hin
      rw [ih, List.drop_eq_getElem_cons hstart]
      simp [ByteArray.get!, hin]
  | case2 start before hout =>
      rw [List.drop_eq_nil_of_le (by simpa using Nat.le_of_not_lt hout), List.append_nil]

theorem toList_eq (bytes : ByteArray) : bytes.toList = bytes.data.toList := by
  rw [ByteArray.toList, toList_loop_eq, List.reverse_nil, List.nil_append, List.drop_zero]

def bytesOf (text : String) : List UInt8 :=
  text.toUTF8.toList

theorem bytesOf_eq (text : String) : bytesOf text = text.toList.flatMap String.utf8EncodeChar := by
  conv => lhs; rw [← String.ofList_toList (s := text)]
  rw [bytesOf, toList_eq, String.toUTF8_eq_toByteArray, String.toByteArray_ofList,
    List.utf8Encode, List.toList_data_toByteArray]

theorem bytesOf_append (text more : String) :
    bytesOf (text ++ more) = bytesOf text ++ bytesOf more := by
  rw [bytesOf_eq, String.toList_append, List.flatMap_append, bytesOf_eq, bytesOf_eq]

theorem toNat_of_mem_utf8EncodeChar {c : Char} {byte : UInt8} (hbyte : byte.toNat < 128)
    (hmem : byte ∈ String.utf8EncodeChar c) : c.toNat = byte.toNat := by
  have hvalue : c.toNat = c.val.toNat := rfl
  rw [String.utf8EncodeChar.eq_1] at hmem
  split at hmem
  · rw [List.mem_singleton.mp hmem, UInt8.toNat_ofNat']
    omega
  -- every byte of a longer character has its highest bit set
  have hlarge : ∃ n, 128 ≤ n ∧ n < 256 ∧ byte = UInt8.ofNat n := by
    split at hmem
    · rcases List.mem_pair.mp hmem with h | h
      all_goals exact ⟨_, by omega, by omega, h⟩
    · split at hmem
      · simp only [List.mem_cons, List.not_mem_nil, or_false] at hmem
        rcases hmem with h | h | h
        all_goals exact ⟨_, by omega, by omega, h⟩
      · simp only [List.mem_cons, List.not_mem_nil, or_false] at hmem
        rcases hmem with h | h | h | h
        all_goals exact ⟨_, by omega, by omega, h⟩
  obtain ⟨n, hn, hsmall, rfl⟩ := hlarge
  rw [UInt8.toNat_ofNat'] at hbyte
  omega

theorem mem_of_mem_bytesOf {c : Char} {text : String} {byte : UInt8} (hbyte : byte.toNat < 128)
    (hc : c.toNat = byte.toNat) (hmem : byte ∈ bytesOf text) : c ∈ text.toList := by
  rw [bytesOf_eq] at hmem
  obtain ⟨d, hd, hencoded⟩ := List.mem_flatMap.mp hmem
  have hsame : d = c := by
    rw [← Char.ofNat_toNat d, toNat_of_mem_utf8EncodeChar hbyte hencoded, ← hc, Char.ofNat_toNat]
  exact hsame ▸ hd

/-- The bytes of a text are read as the text. -/
theorem fromUTF8?_bytesOf (text : String) :
    String.fromUTF8? (ByteArray.mk (bytesOf text).toArray) = some text := by
  have hbytes : ByteArray.mk (bytesOf text).toArray = text.toByteArray := by
    rw [bytesOf, toList_eq, Array.toArray_toList, String.toUTF8_eq_toByteArray]
  rw [hbytes, String.fromUTF8?, dif_pos text.isValidUTF8]
  rfl

/-! ### Lines -/

def scriptOf (lines : List String) : String :=
  String.join (lines.map (· ++ "\n"))

/-- Nothing in the line ends it. -/
def IsLine (line : String) : Prop :=
  '\n' ∉ line.toList ∧ '\r' ∉ line.toList

theorem bytesOf_scriptOf (lines : List String) :
    bytesOf (scriptOf lines) = (lines.map bytesOf).flatMap fun line => line ++ [10] := by
  induction lines with
  | nil => rw [scriptOf, List.map_nil, String.join_nil, bytesOf_eq]; rfl
  | cons line lines ih =>
      have hfeed : bytesOf "\n" = [10] := by rw [bytesOf_eq]; rfl
      rw [scriptOf, List.map_cons, String.join_cons, ← scriptOf, bytesOf_append, bytesOf_append,
        hfeed, ih, List.map_cons, List.flatMap_cons]

theorem inputLines_scriptOf {lines : List String} (h : ∀ line ∈ lines, IsLine line) :
    inputLines (scriptOf lines).toUTF8 = lines.map some := by
  have hbytes : ∀ line ∈ lines.map bytesOf, (10 : UInt8) ∉ line ∧ (13 : UInt8) ∉ line := by
    intro line hmem
    obtain ⟨text, htext, rfl⟩ := List.mem_map.mp hmem
    obtain ⟨hfeed, hreturn⟩ := h text htext
    exact ⟨fun hin => hfeed (mem_of_mem_bytesOf (by decide) rfl hin),
      fun hin => hreturn (mem_of_mem_bytesOf (by decide) rfl hin)⟩
  rw [inputLines, ← bytesOf, bytesOf_scriptOf, Text.splitLines_flatMap _ hbytes, List.map_map]
  exact List.map_congr_left fun line _ => fromUTF8?_bytesOf line

end Console

end PolySampler
