import PolySampler.Proofs.Console.Tokens

/-!
Writing tokens so that they are read again. A token that holds no quote may be written
between quotes, and bare if it is not empty and holds no white space. With white space
between them the tokens come back as they were, empty ones and blank ones too.
-/

namespace PolySampler.Console

def IsBlank (text : String) : Prop :=
  ∀ c ∈ text.toList, Text.isBlank c = true

instance : DecidablePred IsBlank :=
  fun text => List.decidableBAll (fun c => Text.isBlank c = true) text.toList

/-- How a token may be written. -/
inductive Written : (token text : String) → Prop
  | bare {token : String} (hne : token ≠ "") (hquote : '"' ∉ token.toList)
      (hblank : ∀ c ∈ token.toList, Text.isBlank c = false) : Written token token
  | quoted {token : String} (hquote : '"' ∉ token.toList) :
      Written token ("\"" ++ token ++ "\"")

/-- Tokens written one behind the other, with white space between them. -/
inductive Joined : (tokens : List String) → (text : String) → Prop
  | nil : Joined [] ""
  | single {token text : String} (hwritten : Written token text) : Joined [token] text
  | cons {token text gap rest : String} {tokens : List String} (hwritten : Written token text)
      (hgap : IsBlank gap) (hne : gap ≠ "") (hrest : Joined tokens rest) :
      Joined (token :: tokens) (text ++ gap ++ rest)

theorem splitTokens_quoted (part token rest : List Char) (hquote : '"' ∉ token) :
    splitTokens true part (token ++ '"' :: rest) =
      (splitTokens false [] rest).map ((part ++ token) :: ·) := by
  induction token generalizing part with
  | nil => rw [List.nil_append, List.append_nil, splitTokens, if_pos rfl]
  | cons c token ih =>
      obtain ⟨hc, htoken⟩ := not_or.mp (List.mem_cons.not.mp hquote)
      rw [List.cons_append, splitTokens, if_neg (Ne.symm hc), ih _ htoken, List.append_assoc]
      rfl

theorem splitTokens_bare (part token rest : List Char) (hquote : '"' ∉ token)
    (hblank : ∀ c ∈ token, Text.isBlank c = false) :
    splitTokens false part (token ++ rest) = splitTokens false (part ++ token) rest := by
  induction token generalizing part with
  | nil => rw [List.nil_append, List.append_nil]
  | cons c token ih =>
      obtain ⟨hc, htoken⟩ := not_or.mp (List.mem_cons.not.mp hquote)
      obtain ⟨hkept, hrest⟩ := List.forall_mem_cons.mp hblank
      rw [List.cons_append, splitTokens, if_neg (Ne.symm hc), if_neg (by simp [hkept]),
        ih _ htoken hrest, List.append_assoc]
      rfl

variable {token text : String} {tokens : List String}

/-- However a token is written, it is read as itself. -/
theorem Written.splitTokens (h : Written token text) {gap : List Char}
    (hgap : ∀ c ∈ gap, Text.isBlank c = true) :
    splitTokens false [] (text.toList ++ gap) = .ok [token.toList] := by
  cases h with
  | bare hne hquote hblank =>
      rw [splitTokens_bare _ _ _ hquote hblank, splitTokens_of_blank _ _ hgap, List.nil_append,
        flushPart, if_neg (by simpa using hne)]
  | quoted hquote =>
      have htext : ("\"" ++ token ++ "\"").toList ++ gap =
          '"' :: (token.toList ++ '"' :: gap) := by
        simp
      rw [htext, Console.splitTokens, if_pos rfl, splitTokens_quoted _ _ _ hquote,
        splitTokens_of_blank _ _ hgap]
      rfl

theorem settled_append {gap : List Char} (text : List Char) (hne : gap ≠ [])
    (hgap : ∀ c ∈ gap, Text.isBlank c = true) : Settled (text ++ gap) := by
  rw [Settled, List.getLast?_append_of_ne_nil _ hne]
  exact fun c hc => .inr (hgap c (List.mem_of_mem_getLast? hc))

/-- Behind the white space that follows a token nothing of it is left over, so the tokens
are read one by one. -/
theorem Joined.splitTokens (h : Joined tokens text) {trailing : List Char}
    (htrailing : ∀ c ∈ trailing, Text.isBlank c = true) :
    splitTokens false [] (text.toList ++ trailing) = .ok (tokens.map String.toList) := by
  induction h with
  | nil => exact splitTokens_of_blank [] trailing htrailing
  | single hwritten => exact hwritten.splitTokens htrailing
  | @cons token text gap rest tokens hwritten hgap hne hrest ih =>
      have hne' : gap.toList ≠ [] := by simpa using hne
      have hsettled := settled_append text.toList hne' hgap
      rw [String.toList_append, String.toList_append, List.append_assoc,
        splitTokens_append (hwritten.splitTokens hgap) hsettled (fun _ => rfl), ih]
      rfl

theorem Joined.tokenize (h : Joined tokens text) {leading trailing : String}
    (hleading : IsBlank leading) (htrailing : IsBlank trailing) :
    tokenize (leading ++ text ++ trailing) = .ok tokens := by
  have hsettled : Settled leading.toList := by
    rcases eq_or_ne leading.toList [] with hnil | hne
    · rw [hnil]
      exact settled_nil
    · exact settled_append [] hne hleading
  rw [tokenize_eq_ok_iff, String.toList_append, String.toList_append, List.append_assoc,
    splitTokens_append (splitTokens_of_blank [] _ hleading) hsettled (fun _ => rfl),
    h.splitTokens htrailing]
  rfl

/-- Tokens that hold no quotes, each written between quotes, or bare if it is not empty and
holds no white space, and joined by any runs of white space that are not empty, are read
as they were, whatever white space is in front of them and behind them. So a path without
quotes, be it empty or blank, is loaded as it stands between quotes. -/
theorem joined_tokens_are_read {leading trailing : String} (hleading : IsBlank leading)
    (htrailing : IsBlank trailing) :
    (∀ tokens text, Joined tokens text → tokenize (leading ++ text ++ trailing) = .ok tokens) ∧
    ∀ gap path, IsBlank gap → gap ≠ "" → '"' ∉ path.toList →
      Command.parse (leading ++ ("load_instrument" ++ gap ++ ("\"" ++ path ++ "\"")) ++ trailing) =
        .ok (some (.loadInstrument path)) := by
  refine ⟨fun tokens text h => h.tokenize hleading htrailing, fun gap path hgap hne hquote => ?_⟩
  have hkeyword : Written "load_instrument" "load_instrument" :=
    .bare (by decide) (by decide) (by simp [Text.isBlank, Text.blankRanges])
  have hjoined : Joined ["load_instrument", path]
      ("load_instrument" ++ gap ++ ("\"" ++ path ++ "\"")) :=
    .cons hkeyword hgap hne (.single (.quoted hquote))
  rw [Command.parse, hjoined.tokenize hleading htrailing]
  rfl

/-- An empty token, a blank one and a bare one, behind a space and in front of a line feed;
and a path of a single space. -/
theorem blank_path_is_loaded :
    IsBlank " " ∧ IsBlank "\n" ∧ Joined ["", " ", "x"] "\"\" \" \"\u2003x" ∧
    tokenize " \"\" \" \"\u2003x\n" = .ok ["", " ", "x"] ∧
    Command.parse " load_instrument\t\" \"\n" = .ok (some (.loadInstrument " ")) := by
  have hleading : IsBlank " " := by decide
  have htrailing : IsBlank "\n" := by decide
  have hjoined : Joined ["", " ", "x"] ("\"\"" ++ " " ++ ("\" \"" ++ "\u2003" ++ "x")) :=
    .cons (.quoted (by decide)) (by decide) (by decide)
      (.cons (.quoted (by decide)) (by decide) (by decide)
        (.single (.bare (by decide) (by decide) (by simp [Text.isBlank, Text.blankRanges]))))
  obtain ⟨hread, hparse⟩ := joined_tokens_are_read hleading htrailing
  exact ⟨hleading, htrailing, hjoined, hread _ _ hjoined,
    hparse "\t" " " (by decide) (by decide) (by decide)⟩

end PolySampler.Console
