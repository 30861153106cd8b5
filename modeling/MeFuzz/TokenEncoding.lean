import MeFuzz.ByteStream
import MeFuzz.Procedures

namespace MeFuzz.TokenEncoding

open Procedure

/-!
# Encoding inputs by their tokens

The encoder gives each token that it has not seen before the next number.  Two
tables lead from the tokens to their numbers and back.  The decoder takes any
numbers, modulo the size of the tables.
-/

/-- Why there is no encoding or decoding. -/
inductive Failure where
  | tokenizer (message : String)
  | illegalState (message : String)
  | panicked
  deriving Repr, DecidableEq

/-- `Tokenizer::tokenize`. -/
abbrev Tokenizer :=
  Bytes → Except Failure (List String)

/-- `TokenInputEncoderDecoder`. -/
structure TokenInputEncoderDecoder where
  tokenTable : String → Option UInt32
  idTable : UInt32 → Option String
  nextId : UInt32

/-- `as_bytes`. -/
def asBytes (tok : String) : Bytes :=
  tok.toList.flatMap String.utf8EncodeChar

namespace TokenInputEncoderDecoder

/-- `TokenInputEncoderDecoder::new`. -/
def new : TokenInputEncoderDecoder where
  tokenTable _ := none
  idTable _ := none
  nextId := 0

/-- The tables with a new token. -/
def insertToken
    (coder : TokenInputEncoderDecoder)
    (tok : String) : TokenInputEncoderDecoder :=
  { coder with
    tokenTable := Function.update coder.tokenTable tok (some coder.nextId)
    idTable := Function.update coder.idTable coder.nextId (some tok) }

/-- One pass of the loop of `encode`; the count of the tokens may overflow. -/
def encodeToken
    (tok : String) :
    Procedure Failure TokenInputEncoderDecoder UInt32 := do
  let coder ← get
  match coder.tokenTable tok with
  | some id => pure id
  | none =>
      set (coder.insertToken tok)
      if coder.nextId.toNat + 1 = 2 ^ 32 then throw .panicked
      modify fun coder => { coder with nextId := coder.nextId + 1 }
      pure coder.nextId

/-- `encode`. -/
def encode
    (tokenizer : Tokenizer)
    (bytes : Bytes) :
    Procedure Failure TokenInputEncoderDecoder (List UInt32) := do
  let tokens ← liftM (tokenizer bytes)
  tokens.mapM encodeToken

/-- One pass of the loop of `decode`; there is no remainder modulo zero. -/
def decodeId
    (coder : TokenInputEncoderDecoder)
    (id : UInt32) :
    Procedure Failure Bytes Unit := do
  if coder.nextId = 0 then throw .panicked
  match coder.idTable (id % coder.nextId) with
  | none => throw (.illegalState s!"Id {id} not in the decoder table")
  | some tok => modify fun bytes => bytes ++ asBytes tok ++ [32]

/-- `decode`. -/
def decode
    (coder : TokenInputEncoderDecoder)
    (codes : List UInt32) :
    Procedure Failure Bytes Unit :=
  forM codes coder.decodeId

end TokenInputEncoderDecoder

open TokenInputEncoderDecoder

/-- The tables are inverse, and have all numbers below the next one. -/
structure WellFormed (coder : TokenInputEncoderDecoder) : Prop where
  named :
    ∀ {tok id}, coder.tokenTable tok = some id →
      id < coder.nextId ∧ coder.idTable id = some tok
  filled : ∀ {id}, id < coder.nextId → ∃ tok, coder.idTable id = some tok

/-- A number stands for a token. -/
def Means
    (coder : TokenInputEncoderDecoder)
    (id : UInt32)
    (tok : String) : Prop :=
  id < coder.nextId ∧ coder.idTable id = some tok

/-- What the numbers stood for before, they stand for after. -/
def Grows (before after : TokenInputEncoderDecoder) : Prop :=
  ∀ {id tok}, Means before id tok → Means after id tok

theorem wellFormed_new :
    WellFormed new where
  named found := by
    cases found
  filled below := by
    exact absurd below (by simp [new])

theorem lt_succ_iff
    {id next : UInt32}
    (room : next.toNat + 1 ≠ 2 ^ 32) :
    id < next + 1 ↔ id < next ∨ id = next := by
  have bound := next.toNat_lt
  have one : (1 : UInt32).toNat = 1 := rfl
  rw [UInt32.lt_iff_toNat_lt, UInt32.lt_iff_toNat_lt, ← UInt32.toNat_inj,
    UInt32.toNat_add]
  omega

/-- The tables with a new token, which is counted. -/
def withToken
    (coder : TokenInputEncoderDecoder)
    (tok : String) : TokenInputEncoderDecoder :=
  { coder.insertToken tok with nextId := coder.nextId + 1 }

section

variable {coder : TokenInputEncoderDecoder}
variable {tok : String}

theorem means_withToken
    (room : coder.nextId.toNat + 1 ≠ 2 ^ 32) :
    Means (withToken coder tok) coder.nextId tok :=
  ⟨(lt_succ_iff room).mpr (.inr rfl), by simp [withToken, insertToken]⟩

theorem grows_withToken
    (room : coder.nextId.toNat + 1 ≠ 2 ^ 32) :
    Grows coder (withToken coder tok) := by
  rintro id other ⟨below, found⟩
  have different : id ≠ coder.nextId := by
    rintro rfl
    exact UInt32.lt_irrefl _ below
  exact ⟨(lt_succ_iff room).mpr (.inl below),
    by simpa [withToken, insertToken, different] using found⟩

theorem wellFormed_withToken
    (wellFormed : WellFormed coder)
    (room : coder.nextId.toNat + 1 ≠ 2 ^ 32) :
    WellFormed (withToken coder tok) where
  named {other id} found := by
    by_cases same : other = tok
    · subst same
      obtain rfl : coder.nextId = id := by
        simpa [withToken, insertToken] using found
      exact means_withToken room
    · have before : coder.tokenTable other = some id := by
        simpa [withToken, insertToken, same] using found
      exact grows_withToken room (wellFormed.named before)
  filled {id} below := by
    rcases (lt_succ_iff room).mp below with earlier | rfl
    · obtain ⟨other, found⟩ := wellFormed.filled earlier
      exact ⟨other, (grows_withToken room ⟨earlier, found⟩).2⟩
    · exact ⟨tok, (means_withToken room).2⟩

end

/-- What one pass of the loop, or all of it, does to the tables. -/
structure Encoded
    (before : TokenInputEncoderDecoder)
    (tokens : List String)
    (codes : List UInt32)
    (after : TokenInputEncoderDecoder) : Prop where
  wellFormed : WellFormed after
  grows : Grows before after
  means : List.Forall₂ (Means after) codes tokens
  next : tokens = [] → after = before

variable {coder : TokenInputEncoderDecoder}

theorem encodeToken_spec
    (wellFormed : WellFormed coder)
    (tok : String) :
    (∃ id after,
      outcome (encodeToken tok) coder = (.ok id, after) ∧
        Encoded coder [tok] [id] after) ∨
    ∃ after, outcome (encodeToken tok) coder = (.error .panicked, after) := by
  unfold encodeToken
  cases found : coder.tokenTable tok with
  | some id =>
      refine .inl ⟨id, coder, by simp [outcome_bind, found], wellFormed,
        fun means => means, ?_, by simp⟩
      exact .cons (wellFormed.named found) .nil
  | none =>
      by_cases room : coder.nextId.toNat + 1 = 2 ^ 32
      · refine .inr ⟨coder.insertToken tok, ?_⟩
        simp only [outcome_bind, outcome_get, found, outcome_set, if_pos room,
          outcome_throw]
      · refine .inl ⟨coder.nextId, withToken coder tok, ?_,
          wellFormed_withToken wellFormed room, grows_withToken room, ?_,
          by simp⟩
        · simp only [outcome_bind, outcome_get, found, outcome_set, if_neg room]
          rfl
        · exact .cons (means_withToken room) .nil

theorem mapM_encodeToken_spec
    (wellFormed : WellFormed coder)
    (tokens : List String) :
    (∃ codes after,
      outcome (tokens.mapM encodeToken) coder = (.ok codes, after) ∧
        Encoded coder tokens codes after) ∨
    ∃ after,
      outcome (tokens.mapM encodeToken) coder = (.error .panicked, after) := by
  induction tokens generalizing coder with
  | nil =>
      exact .inl ⟨[], coder, rfl, wellFormed, fun means => means, .nil,
        fun _ => rfl⟩
  | cons tok rest ih =>
      rw [List.mapM_cons]
      rcases encodeToken_spec wellFormed tok with
        ⟨id, middle, isFirst, first⟩ | ⟨after, panics⟩
      · rw [outcome_bind_ok isFirst]
        rcases ih first.wellFormed with
          ⟨codes, after, areOthers, others⟩ | ⟨after, panics⟩
        · refine .inl ⟨id :: codes, after, ?_, others.wellFormed,
            fun means => others.grows (first.grows means), ?_, by simp⟩
          · rw [outcome_bind_ok areOthers]
            rfl
          · obtain ⟨means, _⟩ := List.forall₂_cons.mp first.means
            exact .cons (others.grows means) others.means
        · exact .inr ⟨after, outcome_bind_error panics⟩
      · exact .inr ⟨after, outcome_bind_error panics⟩

/-- The tokens, each followed by a space. -/
def spaced (tokens : List String) : Bytes :=
  tokens.flatMap fun tok => asBytes tok ++ [32]

theorem ne_zero_of_lt
    {id next : UInt32}
    (below : id < next) :
    next ≠ 0 := by
  rintro rfl
  exact UInt32.not_lt_zero below

theorem outcome_decodeId_of_means
    {id : UInt32}
    {tok : String}
    (means : Means coder id tok)
    (bytes : Bytes) :
    outcome (coder.decodeId id) bytes =
      (.ok (), bytes ++ asBytes tok ++ [32]) := by
  obtain ⟨below, found⟩ := means
  have remainder : id % coder.nextId = id := UInt32.mod_eq_of_lt below
  simp [decodeId, ne_zero_of_lt below, remainder, found]

theorem outcome_decodeId
    (wellFormed : WellFormed coder)
    (some : coder.nextId ≠ 0)
    (id : UInt32)
    (bytes : Bytes) :
    ∃ after, outcome (coder.decodeId id) bytes = (.ok (), after) := by
  have below : id % coder.nextId < coder.nextId :=
    UInt32.mod_lt id (UInt32.pos_iff_ne_zero.mpr some)
  obtain ⟨tok, found⟩ := wellFormed.filled below
  exact ⟨_, by simp [decodeId, some, found]; rfl⟩

theorem outcome_decode_of_means
    {codes : List UInt32}
    {tokens : List String}
    (means : List.Forall₂ (Means coder) codes tokens)
    (bytes : Bytes) :
    outcome (coder.decode codes) bytes = (.ok (), bytes ++ spaced tokens) := by
  unfold decode
  induction means generalizing bytes with
  | nil =>
      simp [spaced]
  | cons first others ih =>
      rw [List.forM_cons, outcome_bind_ok (outcome_decodeId_of_means first bytes),
        ih]
      simp [spaced]

theorem outcome_decode
    (wellFormed : WellFormed coder)
    (some : coder.nextId ≠ 0)
    (codes : List UInt32)
    (bytes : Bytes) :
    ∃ after, outcome (coder.decode codes) bytes = (.ok (), after) := by
  unfold decode
  induction codes generalizing bytes with
  | nil =>
      exact ⟨bytes, rfl⟩
  | cons id rest ih =>
      obtain ⟨middle, first⟩ := outcome_decodeId wellFormed some id bytes
      rw [List.forM_cons, outcome_bind_ok first]
      exact ih middle

theorem outcome_decode_of_none
    (none : coder.nextId = 0)
    (id : UInt32)
    (rest : List UInt32)
    (bytes : Bytes) :
    outcome (coder.decode (id :: rest)) bytes = (.error .panicked, bytes) := by
  have panics : outcome (coder.decodeId id) bytes = (.error .panicked, bytes) := by
    simp only [decodeId, if_pos none]
    rfl
  exact outcome_bind_error panics

theorem decode_returns_iff
    (wellFormed : WellFormed coder)
    (codes : List UInt32)
    (bytes : Bytes) :
    (outcome (coder.decode codes) bytes).1 = .ok () ↔
      codes = [] ∨ coder.nextId ≠ 0 := by
  constructor
  · intro returns
    by_contra neither
    obtain ⟨some, none⟩ := not_or.mp neither
    obtain ⟨id, rest, rfl⟩ := List.exists_cons_of_ne_nil some
    rw [outcome_decode_of_none (not_not.mp none)] at returns
    cases returns
  · rintro (rfl | some)
    · rfl
    · obtain ⟨after, returns⟩ := outcome_decode wellFormed some codes bytes
      rw [returns]

/-- A call of `encode`. -/
structure Call where
  tokenizer : Tokenizer
  bytes : Bytes
  result : Except Failure (List UInt32)

/-- A call that has returned or failed, with no panic. -/
def Step : StepRelation TokenInputEncoderDecoder Call :=
  fun coder call next =>
    outcome (encode call.tokenizer call.bytes) coder = (call.result, next) ∧
      call.result ≠ .error .panicked

/-- The call has met a token. -/
def Call.MeetsToken (call : Call) : Prop :=
  ∃ tok rest, call.tokenizer call.bytes = .ok (tok :: rest)

variable {call : Call}

theorem step_cases
    {coder next : TokenInputEncoderDecoder}
    (wellFormed : WellFormed coder)
    (step : Step coder call next) :
    (∃ tokens codes,
      call.tokenizer call.bytes = .ok tokens ∧ call.result = .ok codes ∧
        Encoded coder tokens codes next) ∨
    ∃ failure,
      call.tokenizer call.bytes = .error failure ∧
        call.result = .error failure ∧ next = coder := by
  obtain ⟨taken, returned⟩ := step
  unfold encode at taken
  cases tokenized : call.tokenizer call.bytes with
  | error failure =>
      rw [tokenized, outcome_bind_error (outcome_lift _)] at taken
      obtain ⟨result, rfl⟩ := Prod.mk.inj taken
      exact .inr ⟨failure, rfl, result.symm, rfl⟩
  | ok tokens =>
      rw [tokenized, outcome_bind_ok (outcome_lift _)] at taken
      rcases mapM_encodeToken_spec wellFormed tokens with
        ⟨codes, after, encodes, encoded⟩ | ⟨after, panics⟩
      · obtain ⟨result, rfl⟩ := Prod.mk.inj (encodes.symm.trans taken)
        exact .inl ⟨tokens, codes, rfl, result.symm, encoded⟩
      · exact absurd (Prod.mk.inj (panics.symm.trans taken)).1.symm returned

/-- What the calls so far have left. -/
structure Kept
    (seen : List Call)
    (coder : TokenInputEncoderDecoder) : Prop where
  wellFormed : WellFormed coder
  means :
    ∀ call ∈ seen, ∀ codes, call.result = .ok codes →
      ∃ tokens, call.tokenizer call.bytes = .ok tokens ∧
        List.Forall₂ (Means coder) codes tokens
  some : coder.nextId ≠ 0 ↔ ∃ call ∈ seen, call.MeetsToken

theorem kept_new :
    Kept [] new where
  wellFormed := wellFormed_new
  means := by simp
  some := by simp [new]

theorem some_iff_of_encoded
    {coder next : TokenInputEncoderDecoder}
    {tokens : List String}
    {codes : List UInt32}
    (tokenized : call.tokenizer call.bytes = .ok tokens)
    (encoded : Encoded coder tokens codes next) :
    next.nextId ≠ 0 ↔ coder.nextId ≠ 0 ∨ call.MeetsToken := by
  cases tokens with
  | nil =>
      rw [encoded.next rfl]
      simp [Call.MeetsToken, tokenized]
  | cons tok rest =>
      have some : next.nextId ≠ 0 := by
        obtain ⟨id, _, means, _⟩ :=
          List.forall₂_cons_right_iff.mp encoded.means
        exact ne_zero_of_lt means.1
      exact iff_of_true some (.inr ⟨tok, rest, tokenized⟩)

theorem kept_step
    {seen : List Call}
    {coder next : TokenInputEncoderDecoder}
    (kept : Kept seen coder)
    (step : Step coder call next) :
    Kept (seen ++ [call]) next := by
  have oneMore :
      (∃ other ∈ seen ++ [call], other.MeetsToken) ↔
        coder.nextId ≠ 0 ∨ call.MeetsToken := by
    rw [kept.some]
    simp [or_and_right, exists_or]
  rcases step_cases kept.wellFormed step with
    ⟨tokens, codes, tokenized, result, encoded⟩ |
    ⟨failure, tokenized, result, rfl⟩
  · refine ⟨encoded.wellFormed, ?_, ?_⟩
    · intro other member otherCodes otherResult
      rcases List.mem_append.mp member with earlier | last
      · obtain ⟨others, otherTokenized, means⟩ :=
          kept.means other earlier otherCodes otherResult
        exact ⟨others, otherTokenized, means.imp fun _ _ => encoded.grows⟩
      · obtain rfl := List.mem_singleton.mp last
        obtain rfl := Except.ok.inj (result.symm.trans otherResult)
        exact ⟨tokens, tokenized, encoded.means⟩
    · rw [oneMore]
      exact some_iff_of_encoded tokenized encoded
  · refine ⟨kept.wellFormed, ?_, ?_⟩
    · intro other member otherCodes otherResult
      rcases List.mem_append.mp member with earlier | last
      · exact kept.means other earlier otherCodes otherResult
      · obtain rfl := List.mem_singleton.mp last
        cases result.symm.trans otherResult
    · rw [oneMore]
      simp [Call.MeetsToken, tokenized]

theorem kept_run
    {calls : List Call}
    {final : TokenInputEncoderDecoder}
    (run : Run Step new calls final) :
    Kept calls final :=
  run.history kept_new fun _ _ kept step => kept_step kept step

/--
After any calls of `encode`, what they have returned is decoded to the tokens that
they have met, each followed by a space.  Other numbers are decoded without a
failure just if there are none of them, or a call has met a token.
-/
theorem decodes_inputs_iff
    {calls : List Call}
    {final : TokenInputEncoderDecoder}
    (run : Run Step new calls final) :
    (∀ call ∈ calls, ∀ codes, call.result = .ok codes →
      ∃ tokens, call.tokenizer call.bytes = .ok tokens ∧
        ∀ bytes,
          outcome (final.decode codes) bytes =
            (.ok (), bytes ++ spaced tokens)) ∧
    ∀ codes bytes,
      (outcome (final.decode codes) bytes).1 = .ok () ↔
        codes = [] ∨ ∃ call ∈ calls, call.MeetsToken := by
  have kept := kept_run run
  constructor
  · intro call member codes result
    obtain ⟨tokens, tokenized, means⟩ := kept.means call member codes result
    exact ⟨tokens, tokenized, outcome_decode_of_means means⟩
  · intro codes bytes
    rw [decode_returns_iff kept.wellFormed, kept.some]

/-- A call that has met a word twice. -/
def Call.words : Call where
  tokenizer _ := .ok ["if", "x", "if"]
  bytes := []
  result := .ok [0, 1, 0]

/-- The tables after that call. -/
def afterWords : TokenInputEncoderDecoder :=
  withToken (withToken new "if") "x"

theorem step_words :
    Step new Call.words afterWords :=
  ⟨rfl, by simp [Call.words]⟩

/-- The words are decoded, and so is any number. -/
theorem decodes_words :
    (∀ bytes,
      outcome (afterWords.decode [0, 1, 0]) bytes =
        (.ok (), bytes ++ spaced ["if", "x", "if"])) ∧
    (outcome (afterWords.decode [1000]) []).1 = .ok () := by
  have decodes := decodes_inputs_iff (.single step_words)
  obtain ⟨tokens, tokenized, decoded⟩ :=
    decodes.1 Call.words (List.mem_singleton.mpr rfl) [0, 1, 0] rfl
  obtain rfl : ["if", "x", "if"] = tokens := Except.ok.inj tokenized
  exact ⟨decoded,
    (decodes.2 [1000] []).mpr
      (.inr ⟨Call.words, List.mem_singleton.mpr rfl, "if", ["x", "if"], rfl⟩)⟩

/-- Tables without a token panic at the first number. -/
theorem empty_table_panics :
    Run Step new [] new ∧
      outcome (new.decode [0]) [] = (.error .panicked, []) :=
  ⟨.nil new, outcome_decode_of_none rfl 0 [] []⟩

end MeFuzz.TokenEncoding
