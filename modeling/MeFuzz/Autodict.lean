import MeFuzz.ForkserverHandshake

namespace MeFuzz.ForkserverBuilder.Tokens

/-!
# Automatic dictionaries

A section of tokens is read to its end where it is made of complete tokens with
their lengths before them.  The new ones are then behind those there were, each
once and in the order in which they came first.
-/

/-- Tokens that are not there yet, each where it comes first. -/
def newOnes (tokens : Tokens) (added : List Bytes) : List Bytes :=
  (added.filter fun token => token ∉ tokens.tokensVec).eraseDups

theorem tokensVec_addToken
    {tokens : Tokens}
    {token : Bytes} :
    (tokens.addToken token).tokensVec =
      if token ∈ tokens.tokensVec then tokens.tokensVec
      else tokens.tokensVec ++ [token] := by
  unfold addToken
  by_cases isThere : token ∈ tokens.tokensSet
  · rw [if_pos isThere, if_pos ((tokens.same token).mp isThere)]
  · rw [if_neg isThere, if_neg fun isToken => isThere ((tokens.same token).mpr isToken)]

theorem newOnes_cons
    {tokens : Tokens}
    {token : Bytes}
    {rest : List Bytes} :
    tokens.tokensVec ++ tokens.newOnes (token :: rest) =
      (tokens.addToken token).tokensVec ++
        (tokens.addToken token).newOnes rest := by
  unfold newOnes
  rw [tokensVec_addToken]
  by_cases isThere : token ∈ tokens.tokensVec
  · simp [isThere]
  · rw [if_neg isThere, List.filter_cons_of_pos (by simpa using isThere),
      List.eraseDups_cons, List.filter_filter, List.append_assoc]
    congr 3
    apply List.filter_congr
    intro other _
    by_cases isToken : other = token <;> simp [isToken]

theorem tokensVec_addEntries
    {entries : List Bytes}
    {tokens : Tokens} :
    (entries.foldl addEntry tokens).tokensVec =
      tokens.tokensVec ++ tokens.newOnes (entries.filter (· ≠ [])) := by
  induction entries generalizing tokens with
  | nil =>
      simp [newOnes]
  | cons entry rest ih =>
      rw [List.foldl_cons, ih, addEntry]
      by_cases isEmpty : entry = []
      · rw [if_pos isEmpty, List.filter_cons_of_neg (by simpa using isEmpty)]
      · rw [if_neg isEmpty, List.filter_cons_of_pos (by simpa using isEmpty),
          newOnes_cons]

theorem parseAutodict_of_dictionary
    {tokens : Tokens}
    {slice : Bytes}
    {entries : List Bytes}
    (isDictionary : IsDictionary slice entries) :
    ∃ parsed,
      tokens.parseAutodict slice slice.length = some parsed ∧
      parsed.tokensVec =
        tokens.tokensVec ++ tokens.newOnes (entries.filter (· ≠ [])) :=
  ⟨_, parseAutodict_eq_some.mpr ⟨entries, isDictionary, rfl⟩,
    tokensVec_addEntries⟩

/-- A token of five bytes that ends after two of them. -/
theorem truncated_token_panics :
    ¬∃ parsed, Tokens.new.parseAutodict [5, 1, 2] 3 = some parsed := by
  rintro ⟨parsed, parses⟩
  cases parses

/--
Tokens of a length that fits a byte are read from their encoding.  Other bytes are
read to their end where they are complete tokens, among which empty ones are
skipped; otherwise the parser panics.
-/
theorem autodict_is_parsed (tokens : Tokens) :
    (∀ listed : List Bytes,
      (∀ token ∈ listed, 1 ≤ token.length ∧ token.length ≤ 255) →
      ∃ parsed,
        tokens.parseAutodict (encodeDictionary listed)
            (encodeDictionary listed).length = some parsed ∧
        parsed.tokensVec = tokens.tokensVec ++ tokens.newOnes listed) ∧
    (∀ slice entries,
      IsDictionary slice entries →
      ∃ parsed,
        tokens.parseAutodict slice slice.length = some parsed ∧
        parsed.tokensVec =
          tokens.tokensVec ++ tokens.newOnes (entries.filter (· ≠ []))) ∧
    ∀ slice,
      (¬∃ entries, IsDictionary slice entries) →
        tokens.parseAutodict slice slice.length = none := by
  refine ⟨?_, fun slice entries => parseAutodict_of_dictionary, ?_⟩
  · intro listed fit
    have isDictionary : IsDictionary (encodeDictionary listed) listed :=
      ⟨rfl, fun token isToken => Nat.lt_succ_of_le (fit token isToken).2⟩
    have areTokens : listed.filter (· ≠ []) = listed := by
      rw [List.filter_eq_self]
      intro token isToken
      simpa using List.length_pos_iff.mp (fit token isToken).1
    obtain ⟨parsed, parses, isVec⟩ :=
      @parseAutodict_of_dictionary tokens _ _ isDictionary
    rw [areTokens] at isVec
    exact ⟨parsed, parses, isVec⟩
  · intro slice isOther
    by_contra isSome
    obtain ⟨parsed, parses⟩ := Option.ne_none_iff_exists'.mp isSome
    obtain ⟨entries, isDictionary, -⟩ := parseAutodict_eq_some.mp parses
    exact isOther ⟨entries, isDictionary⟩

/-- A token that comes twice is added once. -/
theorem autodict_is_parsed_repeated :
    ∃ parsed,
      Tokens.new.parseAutodict [1, 7, 2, 7, 8, 1, 7] 7 = some parsed ∧
      parsed.tokensVec = [[7], [7, 8]] := by
  obtain ⟨parsed, parses, isVec⟩ :=
    (autodict_is_parsed Tokens.new).1 [[7], [7, 8], [7]] (by decide)
  exact ⟨parsed, parses, isVec⟩

end MeFuzz.ForkserverBuilder.Tokens
