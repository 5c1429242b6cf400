import Mathlib.Algebra.Ring.Parity
import Mathlib.Data.List.Basic
import PolySampler.Console.Command

/-!
What is lost of a line when it is split into tokens: its quotes, and the white space
outside of them, and nothing else. Splitting fails on an odd number of quotes only. A
token may be empty, but only where a quoted section with nothing in it stands by itself.
-/

namespace PolySampler.Console

theorem map_eq_ok_iff {ε α β : Type} {x : Except ε α} {f : α → β} {b : β} :
    x.map f = .ok b ↔ ∃ a, x = .ok a ∧ f a = b := by
  cases x <;> simp [Except.map]

theorem map_eq_error_iff {ε α β : Type} {x : Except ε α} {f : α → β} {error : ε} :
    x.map f = .error error ↔ x = .error error := by
  cases x <;> simp [Except.map]

theorem tokenize_eq_ok_iff {line : String} {tokens : List String} :
    tokenize line = .ok tokens ↔
      splitTokens false [] line.toList = .ok (tokens.map String.toList) := by
  rw [tokenize, map_eq_ok_iff]
  constructor
  · rintro ⟨split, hsplit, rfl⟩
    simpa using hsplit
  · exact fun h => ⟨tokens.map String.toList, h, by simp⟩

/-- What a line holds apart from its quotes and the white space outside of them. -/
def content : (quoted : Bool) → List Char → List Char
  | _, [] => []
  | quoted, c :: rest =>
    if c = '"' then content (!quoted) rest
    else if Text.isBlank c ∧ quoted = false then content quoted rest
    else c :: content quoted rest

variable {quoted : Bool} {part text : List Char} {tokens : List (List Char)}

theorem quote_notMem_content : '"' ∉ content quoted text := by
  fun_induction content quoted text with
  | case1 => exact List.not_mem_nil
  | case2 quoted rest ih => exact ih
  | case3 quoted c rest hc hblank ih => exact ih
  | case4 quoted c rest hc hblank ih =>
      rw [List.mem_cons, not_or]
      exact ⟨Ne.symm hc, ih⟩

/-- Every quote opens a section or closes one, so splitting fails if the quotes that are
still to come leave a section open. -/
theorem splitTokens_eq_error_iff {error : CommandError} :
    splitTokens quoted part text = .error error ↔
      error = .unterminatedQuote ∧ (quoted = true ↔ Even (text.count '"')) := by
  fun_induction splitTokens quoted part text with
  | case1 part => simp [eq_comm]
  | case2 part => simp
  | case3 part text ih =>
      rw [map_eq_error_iff, ih, List.count_cons_self]
      simp [parity_simps]
  | case4 part c text hc ih => rw [ih, List.count_cons_of_ne hc]
  | case5 part text ih =>
      rw [ih, List.count_cons_self]
      simp [parity_simps]
  | case6 part c text hc hblank ih => rw [map_eq_error_iff, ih, List.count_cons_of_ne hc]
  | case7 part c text hc hblank ih => rw [ih, List.count_cons_of_ne hc]

theorem flatten_flushPart (part : List Char) (tokens : List (List Char)) :
    (flushPart part tokens).flatten = part ++ tokens.flatten := by
  cases part <;> rfl

/-- The tokens add up to what has been collected and what the rest of the line holds. -/
theorem flatten_of_splitTokens (h : splitTokens quoted part text = .ok tokens) :
    tokens.flatten = part ++ content quoted text := by
  fun_induction splitTokens quoted part text generalizing tokens with
  | case1 part => cases h
  | case2 part =>
      obtain rfl := Except.ok.inj h
      rw [flatten_flushPart]
      rfl
  | case3 part text ih =>
      obtain ⟨others, hothers, rfl⟩ := map_eq_ok_iff.mp h
      rw [List.flatten_cons, ih hothers]
      simp [content]
  | case4 part c text hc ih =>
      rw [ih h]
      simp [content, hc]
  | case5 part text ih =>
      rw [ih h]
      simp [content]
  | case6 part c text hc hblank ih =>
      obtain ⟨others, hothers, rfl⟩ := map_eq_ok_iff.mp h
      rw [flatten_flushPart, ih hothers]
      simp [content, hc, hblank]
  | case7 part c text hc hblank ih =>
      rw [ih h]
      simp [content, hc, hblank]

theorem splitTokens_of_blank (part gap : List Char) (h : ∀ c ∈ gap, Text.isBlank c = true) :
    splitTokens false part gap = .ok (flushPart part []) := by
  induction gap generalizing part with
  | nil => rfl
  | cons c gap ih =>
      obtain ⟨hc, hgap⟩ := List.forall_mem_cons.mp h
      have hquote : c ≠ '"' := by
        rintro rfl
        simp at hc
      rw [splitTokens, if_neg hquote, if_pos hc, ih [] hgap]
      rfl

/-! ### Places where no token is being collected -/

/-- The text is over or ends with white space or a quote. If it holds whole sections only,
nothing of a token is left over at its end. -/
def Settled (text : List Char) : Prop :=
  ∀ c ∈ text.getLast?, c = '"' ∨ Text.isBlank c = true

theorem settled_nil : Settled [] :=
  fun _ hmem => nomatch hmem

theorem settled_singleton {c : Char} : Settled [c] ↔ c = '"' ∨ Text.isBlank c = true := by
  simp [Settled]

theorem settled_cons_cons {c d : Char} : Settled (c :: d :: text) ↔ Settled (d :: text) := by
  rw [Settled, Settled, List.getLast?_cons_cons]

theorem Settled.tail {c : Char} (h : Settled (c :: text)) : Settled text := by
  cases text with
  | nil => exact settled_nil
  | cons d text => exact settled_cons_cons.mp h

theorem Settled.cons {c : Char} (h : Settled text)
    (hc : text = [] → c = '"' ∨ Text.isBlank c = true) : Settled (c :: text) := by
  cases text with
  | nil => exact settled_singleton.mpr (hc rfl)
  | cons d text => exact settled_cons_cons.mpr h

/-- What a settled text is split into does not depend on what follows it. -/
theorem splitTokens_append (h : splitTokens quoted part text = .ok tokens)
    (hsettled : Settled text) (hpart : text = [] → part = []) (rest : List Char) :
    splitTokens quoted part (text ++ rest) = (splitTokens false [] rest).map (tokens ++ ·) := by
  fun_induction splitTokens quoted part text generalizing tokens with
  | case1 part => cases h
  | case2 part =>
      obtain rfl := Except.ok.inj h
      obtain rfl := hpart rfl
      rw [List.nil_append]
      cases splitTokens false [] rest <;> rfl
  | case3 part text ih =>
      obtain ⟨others, hothers, rfl⟩ := map_eq_ok_iff.mp h
      rw [List.cons_append, splitTokens, if_pos rfl, ih hothers hsettled.tail fun _ => rfl]
      cases splitTokens false [] rest <;> rfl
  | case4 part c text hc ih =>
      have hopen : text ≠ [] := by
        rintro rfl
        cases h
      rw [List.cons_append, splitTokens, if_neg hc]
      exact ih h hsettled.tail fun hnil => absurd hnil hopen
  | case5 part text ih =>
      have hopen : text ≠ [] := by
        rintro rfl
        cases h
      rw [List.cons_append, splitTokens, if_pos rfl]
      exact ih h hsettled.tail fun hnil => absurd hnil hopen
  | case6 part c text hc hblank ih =>
      obtain ⟨others, hothers, rfl⟩ := map_eq_ok_iff.mp h
      rw [List.cons_append, splitTokens, if_neg hc, if_pos hblank,
        ih hothers hsettled.tail fun _ => rfl]
      cases splitTokens false [] rest with
      | error error => rfl
      | ok more => cases part <;> rfl
  | case7 part c text hc hblank ih =>
      -- The text cannot end here, with a character that is kept.
      have hmore : text ≠ [] := by
        rintro rfl
        exact (settled_singleton.mp hsettled).elim hc hblank
      rw [List.cons_append, splitTokens, if_neg hc, if_neg hblank]
      exact ih h hsettled.tail fun hnil => absurd hnil hmore

/-! ### Empty tokens -/

theorem eq_flushPart_of_eq_append {before after : List (List Char)}
    (h : flushPart part tokens = before ++ [] :: after) :
    ∃ before', before = flushPart part before' ∧ tokens = before' ++ [] :: after := by
  cases part with
  | nil => exact ⟨before, rfl, h⟩
  | cons c part =>
      cases before with
      | nil => cases h
      | cons token before' =>
          obtain ⟨rfl, htokens⟩ := List.cons.inj h
          exact ⟨before', rfl, htokens⟩

/-- An empty token comes from the section that is open, closed with nothing collected, or
from a section with nothing in it that is opened where the text before it is settled. -/
theorem exists_section_of_splitTokens {before after : List (List Char)}
    (h : splitTokens quoted part text = .ok (before ++ [] :: after)) :
    (quoted = true ∧ part = [] ∧ before = [] ∧
      ∃ rest, text = '"' :: rest ∧ splitTokens false [] rest = .ok after) ∨
    ∃ front rest, text = front ++ '"' :: '"' :: rest ∧ Settled front ∧
      (front = [] → quoted = false ∧ part = []) ∧
      splitTokens quoted part front = .ok before ∧ splitTokens false [] rest = .ok after := by
  fun_induction splitTokens quoted part text generalizing before with
  | case1 part => cases h
  | case2 part =>
      obtain ⟨before', -, hnil⟩ := eq_flushPart_of_eq_append (Except.ok.inj h)
      simp at hnil
  | case3 part text ih =>
      obtain ⟨others, hothers, hcons⟩ := map_eq_ok_iff.mp h
      cases before with
      | nil =>
          obtain ⟨rfl, rfl⟩ := List.cons.inj hcons
          exact .inl ⟨rfl, rfl, rfl, text, rfl, hothers⟩
      | cons token before =>
          obtain ⟨rfl, rfl⟩ := List.cons.inj hcons
          obtain ⟨hopen, -⟩ | ⟨front, rest, rfl, hsettled, -, hfront, hrest⟩ := ih hothers
          · cases hopen
          refine .inr ⟨'"' :: front, rest, rfl, hsettled.cons fun _ => .inl rfl, nofun, ?_, hrest⟩
          rw [splitTokens, if_pos rfl, hfront]
          rfl
  | case4 part c text hc ih =>
      obtain ⟨-, hpart, -⟩ | ⟨front, rest, rfl, hsettled, hnil, hfront, hrest⟩ := ih h
      · simp at hpart
      refine .inr ⟨c :: front, rest, rfl, hsettled.cons fun hf => ?_, nofun, ?_, hrest⟩
      · cases (hnil hf).1
      · rw [splitTokens, if_neg hc, hfront]
  | case5 part text ih =>
      obtain ⟨-, rfl, rfl, rest, rfl, hrest⟩ |
        ⟨front, rest, rfl, hsettled, -, hfront, hrest⟩ := ih h
      · exact .inr ⟨[], rest, rfl, settled_nil, fun _ => ⟨rfl, rfl⟩, rfl, hrest⟩
      refine .inr ⟨'"' :: front, rest, rfl, hsettled.cons fun _ => .inl rfl, nofun, ?_, hrest⟩
      rw [splitTokens, if_pos rfl, hfront]
  | case6 part c text hc hblank ih =>
      obtain ⟨others, hothers, hflush⟩ := map_eq_ok_iff.mp h
      obtain ⟨before, rfl, rfl⟩ := eq_flushPart_of_eq_append hflush
      obtain ⟨hopen, -⟩ | ⟨front, rest, rfl, hsettled, -, hfront, hrest⟩ := ih hothers
      · cases hopen
      refine .inr ⟨c :: front, rest, rfl, hsettled.cons fun _ => .inr hblank, nofun, ?_, hrest⟩
      rw [splitTokens, if_neg hc, if_pos hblank, hfront]
      rfl
  | case7 part c text hc hblank ih =>
      obtain ⟨hopen, -⟩ | ⟨front, rest, rfl, hsettled, hnil, hfront, hrest⟩ := ih h
      · cases hopen
      refine .inr ⟨c :: front, rest, rfl, hsettled.cons fun hf => ?_, nofun, ?_, hrest⟩
      · simpa using (hnil hf).2
      · rw [splitTokens, if_neg hc, if_neg hblank, hfront]

/-- The token between two lists of tokens is empty exactly if a section with nothing in it
stands between two lines that are split into these, the first of them settled. -/
theorem tokenize_eq_append_iff {line : String} {before after : List String} :
    tokenize line = .ok (before ++ "" :: after) ↔
      ∃ front rest, line = front ++ "\"\"" ++ rest ∧ Settled front.toList ∧
        tokenize front = .ok before ∧ tokenize rest = .ok after := by
  simp only [tokenize_eq_ok_iff, List.map_append, List.map_cons, String.toList_empty]
  constructor
  · intro h
    obtain ⟨hopen, -⟩ | ⟨front, rest, hline, hsettled, -, hfront, hrest⟩ :=
      exists_section_of_splitTokens h
    · cases hopen
    refine ⟨String.ofList front, String.ofList rest, ?_, ?_, ?_, ?_⟩
    · apply String.toList_inj.mp
      simpa using hline
    · simpa using hsettled
    · simpa using hfront
    · simpa using hrest
  · rintro ⟨front, rest, rfl, hsettled, hfront, hrest⟩
    have hline : (front ++ "\"\"" ++ rest).toList = front.toList ++ '"' :: '"' :: rest.toList := by
      simp
    rw [hline, splitTokens_append hfront hsettled (fun _ => rfl), splitTokens, if_pos rfl,
      splitTokens, if_pos rfl, hrest]
    rfl

/-! ### Lines -/

/-- Splitting a line into tokens fails exactly if it has an odd number of quotes, and then
because a quote is not terminated. Otherwise the tokens, one behind the other, are the line
without its quotes and without the white space outside of them. No token has a quote in it.
A token is empty exactly if it comes from a section with nothing in it, and what is in front
of that section ends with white space or with the quote of another section, or there is
nothing in front of it. -/
theorem tokenize_loses_nothing (line : String) :
    (∀ error, tokenize line = .error error ↔
      error = .unterminatedQuote ∧ Odd (line.toList.count '"')) ∧
    (¬ Odd (line.toList.count '"') → ∃ tokens, tokenize line = .ok tokens ∧
      String.join tokens = String.ofList (content false line.toList) ∧
      (∀ token ∈ tokens, '"' ∉ token.toList) ∧
      ∀ before after, tokens = before ++ "" :: after ↔
        ∃ front rest, line = front ++ "\"\"" ++ rest ∧ Settled front.toList ∧
          tokenize front = .ok before ∧ tokenize rest = .ok after) := by
  have herror (error : CommandError) : tokenize line = .error error ↔
      error = .unterminatedQuote ∧ Odd (line.toList.count '"') := by
    rw [tokenize, map_eq_error_iff, splitTokens_eq_error_iff]
    simp
  refine ⟨herror, fun heven => ?_⟩
  cases hline : tokenize line with
  | error error => exact absurd ((herror error).mp hline).2 heven
  | ok tokens =>
      have hflatten := flatten_of_splitTokens (tokenize_eq_ok_iff.mp hline)
      rw [List.nil_append, ← List.flatMap_def] at hflatten
      refine ⟨tokens, rfl, ?_, ?_, fun before after => ?_⟩
      · apply String.toList_inj.mp
        simpa using hflatten
      · intro token htoken hquote
        apply @quote_notMem_content false line.toList
        rw [← hflatten]
        exact List.mem_flatMap_of_mem htoken hquote
      · rw [← tokenize_eq_append_iff, hline, Except.ok.injEq]

/-- The quotes of a section glued to a word are no token of their own, a section that stands
by itself is one even if it is empty. -/
example : tokenize "ab\"\" \"\" \"c d\"\"\"" = .ok ["ab", "", "c d", ""] := by decide

end PolySampler.Console
