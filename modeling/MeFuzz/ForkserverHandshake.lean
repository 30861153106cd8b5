import MeFuzz.ForkserverBuilder

namespace MeFuzz.ForkserverBuilder

open Procedure ByteStream

/-!
# What builder and target agree on

However the pipe delivers the words of the target, an executor that was built has
taken its options and its map size as they were announced and loaded every token of
its dictionary, unless the builder gave up with an error or an assertion on the way.
-/

/-- Tokens with their lengths before them; the empty one is only its length. -/
def encodeDictionary (entries : List Bytes) : Bytes :=
  entries.flatMap fun entry => UInt8.ofNat entry.length :: entry

/-- The bytes are a dictionary with these entries. -/
structure IsDictionary (bytes : Bytes) (entries : List Bytes) : Prop where
  encoded : bytes = encodeDictionary entries
  short : ∀ entry ∈ entries, entry.length < 256

namespace Tokens

/-- Add an entry that is not empty. -/
def addEntry (tokens : Tokens) (entry : Bytes) : Tokens :=
  if entry = [] then tokens else tokens.addToken entry

variable {tokens : Tokens}

theorem mem_addToken
    {token other : Bytes} :
    other ∈ (tokens.addToken token).tokensVec ↔
      other ∈ tokens.tokensVec ∨ other = token := by
  unfold addToken
  split
  · rename_i isThere
    rw [tokens.same] at isThere
    constructor
    · exact .inl
    · rintro (before | rfl)
      · exact before
      · exact isThere
  · simp

theorem mem_addEntries
    {entries : List Bytes}
    {token : Bytes} :
    token ∈ (entries.foldl addEntry tokens).tokensVec ↔
      token ∈ tokens.tokensVec ∨ token ∈ entries ∧ token ≠ [] := by
  induction entries generalizing tokens with
  | nil =>
      simp
  | cons entry rest ih =>
      rw [List.foldl_cons, ih, addEntry]
      by_cases isEmpty : entry = []
      · rw [if_pos isEmpty, List.mem_cons, isEmpty]
        constructor
        · rintro (before | ⟨isLater, notEmpty⟩)
          · exact .inl before
          · exact .inr ⟨.inr isLater, notEmpty⟩
        · rintro (before | ⟨isFirst | isLater, notEmpty⟩)
          · exact .inl before
          · exact absurd isFirst notEmpty
          · exact .inr ⟨isLater, notEmpty⟩
      · rw [if_neg isEmpty, mem_addToken, List.mem_cons]
        constructor
        · rintro ((before | rfl) | ⟨isLater, notEmpty⟩)
          · exact .inl before
          · exact .inr ⟨.inl rfl, isEmpty⟩
          · exact .inr ⟨.inr isLater, notEmpty⟩
        · rintro (before | ⟨isFirst | isLater, notEmpty⟩)
          · exact .inl (.inl before)
          · exact .inl (.inr isFirst)
          · exact .inr ⟨isLater, notEmpty⟩

/-- From an entry on, a dictionary is read to its end. -/
theorem parseAutodictFrom_of_dictionary
    {slice before : Bytes}
    {entries : List Bytes}
    {fuel : Nat}
    {tokens : Tokens}
    (split : slice = before ++ encodeDictionary entries)
    (short : ∀ entry ∈ entries, entry.length < 256)
    (enough : (encodeDictionary entries).length < fuel) :
    parseAutodictFrom slice slice.length fuel before.length tokens =
      some (entries.foldl addEntry tokens) := by
  induction entries generalizing before fuel tokens with
  | nil =>
      obtain ⟨fuel, rfl⟩ := Nat.exists_eq_succ_of_ne_zero (Nat.ne_zero_of_lt enough)
      have atEnd : slice.length = before.length := by
        rw [split]
        simp [encodeDictionary]
      rw [parseAutodictFrom, if_pos atEnd.le, if_pos atEnd.symm]
      rfl
  | cons entry rest ih =>
      obtain ⟨fuel, rfl⟩ := Nat.exists_eq_succ_of_ne_zero (Nat.ne_zero_of_lt enough)
      have encoded :
          encodeDictionary (entry :: rest) =
            UInt8.ofNat entry.length :: (entry ++ encodeDictionary rest) := by
        simp [encodeDictionary]
      have isShort : entry.length < 256 := short entry List.mem_cons_self
      have isLength : (UInt8.ofNat entry.length).toNat = entry.length := by
        simpa using Nat.mod_eq_of_lt isShort
      rw [encoded] at split enough
      have notAtEnd : ¬slice.length ≤ before.length := by
        rw [split]
        simp
      have here : slice[before.length]? = some (UInt8.ofNat entry.length) := by
        rw [split]
        simp
      have onwards :
          slice =
            (before ++ UInt8.ofNat entry.length :: entry) ++
              encodeDictionary rest := by
        simp [split]
      have behind :
          (before ++ UInt8.ofNat entry.length :: entry).length =
            before.length + 1 + entry.length := by
        simp
        omega
      have later :=
        @ih (before ++ UInt8.ofNat entry.length :: entry) fuel
          (tokens.addEntry entry) onwards
          (fun other isLater => short other (List.mem_cons_of_mem _ isLater))
          (by simp at enough; omega)
      rw [behind] at later
      rw [parseAutodictFrom, if_neg notAtEnd, here]
      simp only [isLength, List.foldl_cons]
      by_cases isEmpty : entry = []
      · subst isEmpty
        exact later
      · have positive : 0 < entry.length := List.length_pos_iff.mpr isEmpty
        have inside : ¬slice.length < before.length + 1 + entry.length := by
          rw [onwards]
          simp
          omega
        have isEntry :
            (slice.drop (before.length + 1)).take entry.length = entry := by
          have parts :
              slice =
                (before ++ [UInt8.ofNat entry.length]) ++
                  (entry ++ encodeDictionary rest) := by
            simp [split]
          rw [parts, List.drop_left' (by simp), List.take_left]
        have isAdded : tokens.addEntry entry = tokens.addToken entry :=
          if_neg isEmpty
        rw [if_pos positive, if_neg inside, isEntry]
        rw [isAdded] at later ⊢
        exact later

/-- What was read to its end is a dictionary. -/
theorem dictionary_of_parseAutodictFrom
    {slice : Bytes}
    {fuel head : Nat}
    {tokens parsed : Tokens}
    (parses : parseAutodictFrom slice slice.length fuel head tokens = some parsed) :
    ∃ entries,
      IsDictionary (slice.drop head) entries ∧
        parsed = entries.foldl addEntry tokens := by
  induction fuel generalizing head tokens with
  | zero =>
      cases parses
  | succ fuel ih =>
      rw [parseAutodictFrom] at parses
      split at parses
      · rename_i atEnd
        split at parses
        · obtain rfl := Option.some.inj parses
          exact ⟨[], ⟨List.drop_eq_nil_of_le atEnd, by simp⟩, rfl⟩
        · cases parses
      · rename_i notAtEnd
        have inside : head < slice.length := Nat.not_le.mp notAtEnd
        rw [List.getElem?_eq_getElem inside] at parses
        have isHead :
            slice.drop head = slice[head] :: slice.drop (head + 1) :=
          List.drop_eq_getElem_cons inside
        dsimp only at parses
        have isByte := slice[head].toNat_lt
        split at parses
        · rename_i positive
          split at parses
          · cases parses
          · rename_i fits
            obtain ⟨entries, ⟨encoded, short⟩, rfl⟩ := ih parses
            have taken :
                ((slice.drop (head + 1)).take slice[head].toNat).length =
                  slice[head].toNat := by
              simp
              omega
            refine
              ⟨(slice.drop (head + 1)).take slice[head].toNat :: entries,
                ⟨?_, ?_⟩, ?_⟩
            · have behind :
                  slice.drop (head + 1 + slice[head].toNat) =
                    (slice.drop (head + 1)).drop slice[head].toNat :=
                List.drop_drop.symm
              rw [isHead, encodeDictionary, List.flatMap_cons, taken,
                ← encodeDictionary, ← encoded, behind, UInt8.ofNat_toNat,
                List.cons_append, List.take_append_drop]
            · intro entry isEntry
              cases List.mem_cons.mp isEntry with
              | inl isFirst =>
                  rw [isFirst, taken]
                  exact isByte
              | inr isLater =>
                  exact short entry isLater
            · have notEmpty :
                  (slice.drop (head + 1)).take slice[head].toNat ≠ [] := by
                rw [← List.length_pos_iff, taken]
                exact positive
              rw [List.foldl_cons, addEntry, if_neg notEmpty]
        · rename_i isZero
          obtain ⟨entries, ⟨encoded, short⟩, rfl⟩ := ih parses
          refine ⟨[] :: entries, ⟨?_, ?_⟩, rfl⟩
          · have isNil : slice[head] = 0 := by
              apply UInt8.toNat_inj.mp
              simpa using isZero
            rw [isHead, encoded, isNil]
            rfl
          · intro entry isEntry
            cases List.mem_cons.mp isEntry with
            | inl isFirst =>
                rw [isFirst]
                decide
            | inr isLater =>
                exact short entry isLater

theorem parseAutodict_eq_some
    {slice : Bytes}
    {tokens parsed : Tokens} :
    tokens.parseAutodict slice slice.length = some parsed ↔
      ∃ entries,
        IsDictionary slice entries ∧ parsed = entries.foldl addEntry tokens := by
  constructor
  · intro parses
    simpa using dictionary_of_parseAutodictFrom parses
  · rintro ⟨entries, ⟨encoded, short⟩, rfl⟩
    exact
      @parseAutodictFrom_of_dictionary slice [] entries _ tokens encoded short
        (by rw [← encoded]; exact Nat.lt_succ_self _)

theorem parseAutodict_eq_none
    {slice : Bytes}
    (panics : tokens.parseAutodict slice slice.length = none) :
    ¬∃ entries, IsDictionary slice entries := by
  rintro ⟨entries, isDictionary⟩
  have parses :=
    (@parseAutodict_eq_some slice tokens _).mpr ⟨entries, isDictionary, rfl⟩
  cases panics.symm.trans parses

end Tokens

/-- A step that takes bytes from the pipe and does nothing else. -/
structure Reads (before : State) (bytes : Bytes) (after : State) : Prop where
  stream : before.stPipe.flatten = bytes ++ after.stPipe.flatten
  builder : after.builder = before.builder
  replies : after.replies = before.replies

theorem flatten_of_readOnce
    {size : Nat}
    {chunks rest : Chunks}
    {bytes : Bytes}
    (taken : readOnce size chunks = some (bytes, rest)) :
    chunks.flatten = bytes ++ rest.flatten ∧ bytes.length ≤ size := by
  cases chunks with
  | nil =>
      cases taken
  | cons chunk later =>
      rw [readOnce] at taken
      split at taken
      · rename_i whole
        obtain ⟨rfl, rfl⟩ := Prod.mk.inj (Option.some.inj taken)
        exact ⟨rfl, whole⟩
      · obtain ⟨rfl, rfl⟩ := Prod.mk.inj (Option.some.inj taken)
        refine ⟨?_, List.length_take_le _ _⟩
        rw [List.flatten_cons, List.flatten_cons, ← List.append_assoc,
          List.take_append_drop]

theorem read_cases (size : Nat) (state : State) :
    (∃ next, outcome (read size) state = (.error .os, next)) ∨
      ∃ bytes next,
        outcome (read size) state = (.ok bytes, next) ∧
          Reads state bytes next ∧ bytes.length ≤ size := by
  unfold read
  rw [outcome_bind, outcome_get]
  dsimp only
  by_cases fails : state.failing.headD false = true
  · rw [if_pos fails]
    exact .inl ⟨_, rfl⟩
  · rw [if_neg fails]
    cases taken : readOnce size state.stPipe with
    | none =>
        exact .inr ⟨[], _, rfl, ⟨rfl, rfl, rfl⟩, Nat.zero_le _⟩
    | some found =>
        obtain ⟨bytes, rest⟩ := found
        obtain ⟨stream, short⟩ := flatten_of_readOnce taken
        exact .inr ⟨bytes, _, rfl, ⟨stream, rfl, rfl⟩, short⟩

theorem toNeBytes_fromNeBytes
    {bytes : Bytes}
    (isWord : bytes.length = 4) :
    toNeBytes (fromNeBytes bytes) = bytes := by
  have bound := BigEndian.decode_lt bytes.reverse
  rw [List.length_reverse, isWord] at bound
  have isDecoded :
      (fromNeBytes bytes).toNat = BigEndian.decode bytes.reverse := by
    rw [fromNeBytes, BitVec.toNat_ofNat]
    exact Nat.mod_eq_of_lt bound
  have back := BigEndian.encode_decode bytes.reverse
  rw [List.length_reverse, isWord] at back
  rw [toNeBytes, isDecoded, back, List.reverse_reverse]

theorem readSt_cases (state : State) :
    (∃ next, outcome readSt state = (.error .os, next)) ∨
      ∃ bytes next,
        outcome readSt state =
            (.ok (bytes.length,
              fromNeBytes (bytes ++ List.replicate (4 - bytes.length) 0)),
              next) ∧
          Reads state bytes next := by
  obtain ⟨next, fails⟩ | ⟨bytes, next, reads, stream, -⟩ := read_cases 4 state
  · exact .inl ⟨next, outcome_bind_error fails⟩
  · exact .inr ⟨bytes, next, outcome_bind_ok reads, stream⟩

theorem readStSize_cases (size : Nat) (state : State) :
    (∃ next, outcome (readStSize size) state = (.error .os, next)) ∨
      ∃ bytes next,
        outcome (readStSize size) state =
            (.ok (bytes.length,
              bytes ++ List.replicate (size - bytes.length) 0), next) ∧
          Reads state bytes next := by
  obtain ⟨next, fails⟩ | ⟨bytes, next, reads, stream, -⟩ := read_cases size state
  · exact .inl ⟨next, outcome_bind_error fails⟩
  · exact .inr ⟨bytes, next, outcome_bind_ok reads, stream⟩

/-- The target announces the size of its map. -/
def AnnouncesMapSize (status : Word) : Prop :=
  HasOption status fsOptEnabled ∧ HasOption status fsOptMapsize

instance (status : Word) : Decidable (AnnouncesMapSize status) :=
  inferInstanceAs (Decidable (_ ∧ _))

/-- The announced map is larger than the one that was configured. -/
def MapTooLarge (builder : Builder) (status : Word) : Prop :=
  AnnouncesMapSize status ∧
    ∃ configured,
      builder.mapSize = some configured ∧
        configured < roundUp (fsOptGetMapsize status)

theorem roundUp_spec (mapSize : Nat) :
    mapSize ≤ roundUp mapSize ∧ 64 ∣ roundUp mapSize ∧
      roundUp mapSize < mapSize + 64 := by
  unfold roundUp
  rw [Nat.shiftRight_eq_div_pow, Nat.shiftLeft_eq]
  split <;> omega

/-- The builder after it took over the announced map size. -/
def Builder.withMapSize (builder : Builder) (status : Word) : Builder :=
  if AnnouncesMapSize status then
    { builder with
      realMapSize := fsOptGetMapsize status
      mapSize := some (roundUp (fsOptGetMapsize status)) }
  else builder

theorem takeMapSize_cases (status : Word) (state : State) :
    (MapTooLarge state.builder status ∧
      ∃ next, outcome (takeMapSize status) state = (.error .panicked, next)) ∨
      outcome (takeMapSize status) state =
        (.ok (), { state with builder := state.builder.withMapSize status }) := by
  unfold takeMapSize Builder.withMapSize
  by_cases announces : AnnouncesMapSize status
  · have bits : HasOption status fsOptEnabled ∧ HasOption status fsOptMapsize :=
      announces
    rw [if_pos bits, if_pos announces, outcome_bind, outcome_modify]
    dsimp only
    rw [outcome_bind, outcome_get]
    dsimp only
    by_cases small :
        (state.builder.mapSize.any fun configured =>
          configured < roundUp (fsOptGetMapsize status)) = true
    · refine .inl ⟨⟨announces, ?_⟩, ?_⟩
      · simpa only [Option.any_eq_true, decide_eq_true_eq] using small
      · rw [if_pos small]
        exact ⟨_, rfl⟩
    · refine .inr ?_
      rw [if_neg small]
      rfl
  · have bits : ¬(HasOption status fsOptEnabled ∧ HasOption status fsOptMapsize) :=
      announces
    rw [if_neg bits, if_neg announces]
    exact .inr rfl

/-- The word that asks for these options. -/
def optionsWord (shdmem autodict : Bool) : Word :=
  fsOptEnabled ||| (if shdmem then fsOptShdmemFuzz else 0) |||
    (if autodict then fsOptAutodict else 0)

theorem optionsWord_shdmem (shdmem autodict : Bool) :
    HasOption (optionsWord shdmem autodict) (fsOptEnabled ||| fsOptShdmemFuzz) ↔
      shdmem = true := by
  cases shdmem <;> cases autodict <;> decide

theorem optionsWord_autodict (shdmem autodict : Bool) :
    HasOption (optionsWord shdmem autodict) (fsOptEnabled ||| fsOptAutodict) ↔
      autodict = true := by
  cases shdmem <;> cases autodict <;> decide

theorem optionsWord_autodict_only (shdmem autodict : Bool) :
    HasOption (optionsWord shdmem autodict) fsOptAutodict ↔ autodict = true := by
  cases shdmem <;> cases autodict <;> decide

theorem optionsWord_eq_enabled (shdmem autodict : Bool) :
    optionsWord shdmem autodict = fsOptEnabled ↔
      shdmem = false ∧ autodict = false := by
  cases shdmem <;> cases autodict <;> decide

theorem sendStatus_eq
    (status : Word)
    (map autotokens : Bool) :
    sendStatus status map autotokens =
      optionsWord (decide (HasOption status fsOptShdmemFuzz) && map)
        (decide (HasOption status fsOptAutodict) && autotokens) := by
  unfold sendStatus optionsWord
  by_cases shdmem : HasOption status fsOptShdmemFuzz ∧ map = true <;>
    by_cases autodict : HasOption status fsOptAutodict ∧ autotokens = true <;>
    simp only [shdmem, autodict, Bool.and_eq_true, decide_eq_true_eq] <;> rfl

/-- A dictionary, after its length in a word, at the beginning of a stream. -/
structure SendsDictionary (stream bytes rest : Bytes) : Prop where
  stream_eq :
    stream = toNeBytes (BitVec.ofNat 32 bytes.length) ++ (bytes ++ rest)
  size : 2 ≤ bytes.length ∧ bytes.length ≤ 0xffffff

theorem toNat_of_toInt
    {word : Word}
    (size : 2 ≤ word.toInt ∧ word.toInt ≤ 0xffffff) :
    2 ≤ word.toNat ∧ word.toNat ≤ 0xffffff := by
  rw [BitVec.toInt_eq_toNat_cond] at size
  split at size <;> omega

/-- The dictionary is loaded as a whole, unless that fails. -/
theorem loadAutodict_cases
    {state : State}
    {tokens : Tokens}
    (hasTokens : state.builder.autotokens = some tokens) :
    (∃ failure next,
      outcome loadAutodict state = (.error failure, next) ∧
        (failure = .panicked →
          ∃ bytes rest,
            SendsDictionary state.stPipe.flatten bytes rest ∧
              ¬∃ entries, IsDictionary bytes entries)) ∨
      ∃ bytes entries next,
        outcome loadAutodict state = (.ok (), next) ∧
          SendsDictionary state.stPipe.flatten bytes next.stPipe.flatten ∧
          IsDictionary bytes entries ∧
          next.replies = state.replies ∧
          next.builder =
            { state.builder with
              autotokens := some (entries.foldl Tokens.addEntry tokens) } := by
  unfold loadAutodict
  obtain ⟨next, fails⟩ | ⟨length, next, reads, first⟩ := readSt_cases state
  · rw [outcome_bind_error fails]
    exact .inl ⟨_, _, rfl, nofun⟩
  rw [outcome_bind_ok reads]
  dsimp only
  by_cases whole : length.length = 4
  swap
  · rw [if_pos whole]
    exact .inl ⟨_, _, rfl, nofun⟩
  have isLength := toNeBytes_fromNeBytes whole
  rw [if_neg (not_not.mpr whole)]
  simp only [whole, Nat.sub_self, List.replicate_zero, List.append_nil]
  generalize fromNeBytes length = word at isLength ⊢
  by_cases size : 2 ≤ word.toInt ∧ word.toInt ≤ 0xffffff
  swap
  · rw [if_pos size]
    exact .inl ⟨_, _, rfl, nofun⟩
  rw [if_neg (not_not.mpr size)]
  obtain ⟨last, fails⟩ | ⟨bytes, last, reads, second⟩ :=
    readStSize_cases word.toNat next
  · rw [outcome_bind_error fails]
    exact .inl ⟨_, _, rfl, nofun⟩
  rw [outcome_bind_ok reads]
  dsimp only
  by_cases complete : bytes.length = word.toNat
  swap
  · rw [if_pos complete]
    exact .inl ⟨_, _, rfl, nofun⟩
  have isSize : word = BitVec.ofNat 32 bytes.length := by
    rw [complete, BitVec.ofNat_toNat, BitVec.setWidth_eq]
  have sends :
      SendsDictionary state.stPipe.flatten bytes last.stPipe.flatten := by
    refine ⟨?_, ?_⟩
    · rw [first.stream, second.stream, ← isLength, isSize]
    · rw [complete]
      exact toNat_of_toInt size
  have stillTokens : last.builder.autotokens = some tokens := by
    rw [second.builder, first.builder, hasTokens]
  rw [if_neg (not_not.mpr complete), outcome_bind, outcome_get]
  simp only [stillTokens, ← complete, Nat.sub_self, List.replicate_zero,
    List.append_nil]
  cases parses : tokens.parseAutodict bytes bytes.length with
  | none =>
      exact
        .inl ⟨_, _, rfl, fun _ =>
          ⟨bytes, _, sends, Tokens.parseAutodict_eq_none parses⟩⟩
  | some parsed =>
      obtain ⟨entries, isDictionary, rfl⟩ := Tokens.parseAutodict_eq_some.mp parses
      refine .inr ⟨bytes, entries, _, rfl, sends, isDictionary, ?_, ?_⟩
      · exact second.replies.trans first.replies
      · dsimp only
        rw [second.builder, first.builder]

/-- The target announces that it can do this. -/
def Offers (status option : Word) : Prop :=
  HasOption status fsOptEnabled ∧ HasOption status option

instance (status option : Word) : Decidable (Offers status option) :=
  inferInstanceAs (Decidable (_ ∧ _))

/-- A target does what the first word that it reads asks for. -/
def TargetTakes (replies : List Word) (option : Word) : Prop :=
  ∃ word ∈ replies.head?, HasOption word (fsOptEnabled ||| option)

theorem useShmem_eq
    (status : Word)
    (map : Bool)
    (state : State) :
    outcome (useShmem status map) state =
      (.ok (),
        { state with
          builder :=
            { state.builder with
              usesShmemTestcase :=
                state.builder.usesShmemTestcase ||
                  (decide (HasOption status fsOptShdmemFuzz) && map) } }) := by
  unfold useShmem
  by_cases both : HasOption status fsOptShdmemFuzz ∧ map = true
  · rw [if_pos both, outcome_modify]
    simp [both]
  · rw [if_neg both, outcome_pure]
    have notBoth : (decide (HasOption status fsOptShdmemFuzz) && map) = false := by
      simpa using both
    rw [notBoth, Bool.or_false]

/-- A reply that was sent, and the dictionary that it asked for. -/
structure Replied (shdmem autodict : Bool) (before after : State) : Prop where
  replies :
    after.replies =
      before.replies ++
        if shdmem = false ∧ autodict = false then []
        else [optionsWord shdmem autodict]
  usesShmemTestcase :
    after.builder.usesShmemTestcase = before.builder.usesShmemTestcase
  mapSize : after.builder.mapSize = before.builder.mapSize
  tokens :
    autodict = true →
      ∀ tokens, before.builder.autotokens = some tokens →
        ∃ bytes entries,
          SendsDictionary before.stPipe.flatten bytes after.stPipe.flatten ∧
            IsDictionary bytes entries ∧
            after.builder.autotokens =
              some (entries.foldl Tokens.addEntry tokens)

/-- What is sent at the beginning of a stream is not a dictionary. -/
def BadDictionary (stream : Bytes) : Prop :=
  ∃ bytes rest,
    SendsDictionary stream bytes rest ∧ ¬∃ entries, IsDictionary bytes entries

theorem reply_cases
    (system : System)
    {status : Word}
    {map shdmem autodict : Bool}
    {state : State}
    (isShdmem : (decide (HasOption status fsOptShdmemFuzz) && map) = shdmem)
    (isAutodict :
      (decide (HasOption status fsOptAutodict) &&
        state.builder.autotokens.isSome) = autodict) :
    (∃ failure next,
      outcome (reply system status map) state = (.error failure, next) ∧
        (failure = .panicked →
          autodict = true ∧ BadDictionary state.stPipe.flatten)) ∨
      ∃ next,
        outcome (reply system status map) state = (.ok (), next) ∧
          Replied shdmem autodict state next := by
  unfold reply
  rw [outcome_bind, outcome_get]
  simp only [sendStatus_eq, isShdmem, isAutodict]
  by_cases nothing : shdmem = false ∧ autodict = false
  · have nothingToSend := (optionsWord_eq_enabled shdmem autodict).mpr nothing
    rw [if_neg (not_not.mpr nothingToSend)]
    refine .inr ⟨state, rfl, ?_, rfl, rfl, ?_⟩
    · rw [if_pos nothing, List.append_nil]
    · intro isTrue
      cases nothing.2.symm.trans isTrue
  rw [if_pos (mt (optionsWord_eq_enabled shdmem autodict).mp nothing)]
  cases canWrite : system.written with
  | none =>
      have fails :
          outcome (writeCtl system (optionsWord shdmem autodict)) state =
            (.error .os, state) := by
        unfold writeCtl
        rw [canWrite]
        rfl
      rw [outcome_bind_error fails]
      exact .inl ⟨_, _, rfl, nofun⟩
  | some sendLen =>
      have sends :
          outcome (writeCtl system (optionsWord shdmem autodict)) state =
            (.ok sendLen,
              { state with
                replies := state.replies ++ [optionsWord shdmem autodict] }) := by
        unfold writeCtl
        rw [canWrite]
        rfl
      rw [outcome_bind_ok sends]
      by_cases whole : sendLen = 4
      swap
      · rw [if_pos whole]
        exact .inl ⟨_, _, rfl, nofun⟩
      rw [if_neg (not_not.mpr whole)]
      cases autodict with
      | false =>
          have notAsked : ¬HasOption (optionsWord shdmem false) fsOptAutodict := by
            rw [optionsWord_autodict_only]
            exact Bool.false_ne_true
          rw [if_neg notAsked]
          refine .inr ⟨_, rfl, ?_, rfl, rfl, nofun⟩
          rw [if_neg nothing]
      | true =>
          have asked : HasOption (optionsWord shdmem true) fsOptAutodict :=
            (optionsWord_autodict_only shdmem true).mpr rfl
          obtain ⟨-, hasTokens⟩ := Bool.and_eq_true_iff.mp isAutodict
          obtain ⟨tokens, hasTokens⟩ := Option.isSome_iff_exists.mp hasTokens
          rw [if_pos asked]
          obtain ⟨failure, next, fails, panics⟩ |
              ⟨bytes, entries, next, loads, isSent, isDictionary, replies,
                builder⟩ :=
            @loadAutodict_cases
              { state with
                replies := state.replies ++ [optionsWord shdmem true] }
              tokens hasTokens
          · exact .inl ⟨failure, next, fails, fun isPanic => ⟨rfl, panics isPanic⟩⟩
          · refine .inr ⟨next, loads, ?_, ?_, ?_, ?_⟩
            · rw [replies, if_neg nothing]
            · rw [builder]
            · rw [builder]
            · intro _ others isTokens
              obtain rfl := Option.some.inj (hasTokens.symm.trans isTokens)
              exact ⟨bytes, entries, isSent, isDictionary, by rw [builder]⟩

variable {shdmem autodict : Bool}

theorem Replied.targetTakes_shdmem
    {before after : State}
    (replied : Replied shdmem autodict before after)
    (isFirst : before.replies = []) :
    TargetTakes after.replies fsOptShdmemFuzz ↔ shdmem = true := by
  rw [TargetTakes, replied.replies, isFirst, List.nil_append]
  by_cases nothing : shdmem = false ∧ autodict = false
  · rw [if_pos nothing, nothing.1]
    simp
  · rw [if_neg nothing, ← optionsWord_shdmem shdmem autodict]
    simp

theorem Replied.targetTakes_autodict
    {before after : State}
    (replied : Replied shdmem autodict before after)
    (isFirst : before.replies = []) :
    TargetTakes after.replies fsOptAutodict ↔ autodict = true := by
  rw [TargetTakes, replied.replies, isFirst, List.nil_append]
  by_cases nothing : shdmem = false ∧ autodict = false
  · rw [if_pos nothing, nothing.2]
    simp
  · rw [if_neg nothing, ← optionsWord_autodict shdmem autodict]
    simp

/-- Note that the testcases are in shared memory. -/
def State.withShmem (state : State) (shdmem : Bool) : State :=
  { state with
    builder :=
      { state.builder with
        usesShmemTestcase := state.builder.usesShmemTestcase || shdmem } }

theorem agree_cases
    (system : System)
    {status : Word}
    {map shdmem autodict : Bool}
    {state : State}
    (isShdmem : (decide (Offers status fsOptShdmemFuzz) && map) = shdmem)
    (isAutodict :
      (decide (Offers status fsOptAutodict) &&
        state.builder.autotokens.isSome) = autodict) :
    (∃ failure next,
      outcome (agree system status map) state = (.error failure, next) ∧
        (failure = .panicked →
          autodict = true ∧ BadDictionary state.stPipe.flatten)) ∨
      ∃ next,
        outcome (agree system status map) state = (.ok (), next) ∧
          Replied shdmem autodict (state.withShmem shdmem) next := by
  unfold agree
  by_cases answers :
      HasOption status fsOptEnabled ∧
        (HasOption status fsOptShdmemFuzz ∨ HasOption status fsOptAutodict)
  · have offers :
        ∀ option,
          decide (Offers status option) = decide (HasOption status option) := by
      intro option
      rw [decide_eq_decide]
      exact and_iff_right answers.1
    rw [offers] at isShdmem isAutodict
    rw [if_pos answers, outcome_bind, useShmem_eq, isShdmem]
    exact @reply_cases system status map shdmem autodict
      (state.withShmem shdmem) isShdmem isAutodict
  · have offersNothing :
        ¬Offers status fsOptShdmemFuzz ∧ ¬Offers status fsOptAutodict :=
      ⟨fun offers => answers ⟨offers.1, .inl offers.2⟩,
        fun offers => answers ⟨offers.1, .inr offers.2⟩⟩
    rw [decide_eq_false offersNothing.1, Bool.false_and] at isShdmem
    rw [decide_eq_false offersNothing.2, Bool.false_and] at isAutodict
    subst isShdmem isAutodict
    rw [if_neg answers]
    refine .inr ⟨state, rfl, ?_, ?_, rfl, nofun⟩
    · exact (List.append_nil _).symm
    · exact (Bool.or_false _).symm

/--
What a builder and a target have agreed on.  Nothing resets what an earlier build
noted about shared memory.
-/
structure Agreement
    (before : State)
    (status : Word)
    (rest : Bytes)
    (after : State) : Prop where
  hello : before.stPipe.flatten = toNeBytes status ++ rest
  usesShmemTestcase :
    before.builder.usesShmemTestcase = false →
      (after.builder.usesShmemTestcase = true ↔
        Offers status fsOptShdmemFuzz ∧ before.builder.shmemProvider = true)
  shdmemTaken :
    TargetTakes after.replies fsOptShdmemFuzz ↔
      Offers status fsOptShdmemFuzz ∧ before.builder.shmemProvider = true
  autodictTaken :
    TargetTakes after.replies fsOptAutodict ↔
      Offers status fsOptAutodict ∧ before.builder.autotokens.isSome = true
  mapSize :
    AnnouncesMapSize status →
      ∃ size,
        after.builder.mapSize = some size ∧
          fsOptGetMapsize status ≤ size ∧ 64 ∣ size ∧
          size < fsOptGetMapsize status + 64
  sameMapSize :
    ¬AnnouncesMapSize status → after.builder.mapSize = before.builder.mapSize
  tokens :
    Offers status fsOptAutodict →
      ∀ tokens, before.builder.autotokens = some tokens →
        ∃ bytes entries loaded,
          SendsDictionary rest bytes after.stPipe.flatten ∧
            IsDictionary bytes entries ∧
            after.builder.autotokens = some loaded ∧
            ∀ token,
              token ∈ loaded.tokensVec ↔
                token ∈ tokens.tokensVec ∨ token ∈ entries ∧ token ≠ []

/-- What the target sends makes the builder panic. -/
def Panics (state : State) : Prop :=
  ∃ status rest,
    state.stPipe.flatten = toNeBytes status ++ rest ∧
      (MapTooLarge state.builder status ∨
        Offers status fsOptAutodict ∧ state.builder.autotokens.isSome = true ∧
          BadDictionary rest)

variable {status : Word}

theorem Builder.withMapSize_mapSize
    {builder : Builder}
    (announces : AnnouncesMapSize status) :
    (builder.withMapSize status).mapSize =
      some (roundUp (fsOptGetMapsize status)) := by
  rw [withMapSize, if_pos announces]

theorem Builder.withMapSize_of_not
    {builder : Builder}
    (silent : ¬AnnouncesMapSize status) :
    builder.withMapSize status = builder :=
  if_neg silent

@[simp] theorem Builder.withMapSize_autotokens (builder : Builder) (status : Word) :
    (builder.withMapSize status).autotokens = builder.autotokens := by
  unfold withMapSize
  split <;> rfl

@[simp] theorem Builder.withMapSize_usesShmemTestcase
    (builder : Builder)
    (status : Word) :
    (builder.withMapSize status).usesShmemTestcase =
      builder.usesShmemTestcase := by
  unfold withMapSize
  split <;> rfl

theorem Replied.agreement
    {rest : Bytes}
    {start before after : State}
    (replied : Replied shdmem autodict (before.withShmem shdmem) after)
    (hello : start.stPipe.flatten = toNeBytes status ++ rest)
    (isRest : before.stPipe.flatten = rest)
    (isFirst : before.replies = [])
    (isBuilder : before.builder = start.builder.withMapSize status)
    (isShdmem :
      (decide (Offers status fsOptShdmemFuzz) && start.builder.shmemProvider) =
        shdmem)
    (isAutodict :
      (decide (Offers status fsOptAutodict) &&
        start.builder.autotokens.isSome) = autodict) :
    Agreement start status rest after := by
  have shdmemOffered :
      shdmem = true ↔
        Offers status fsOptShdmemFuzz ∧ start.builder.shmemProvider = true := by
    rw [← isShdmem, Bool.and_eq_true_iff, decide_eq_true_iff]
  have autodictOffered :
      autodict = true ↔
        Offers status fsOptAutodict ∧ start.builder.autotokens.isSome = true := by
    rw [← isAutodict, Bool.and_eq_true_iff, decide_eq_true_iff]
  have sameSize : after.builder.mapSize = before.builder.mapSize := replied.mapSize
  refine ⟨hello, ?_, ?_, ?_, ?_, ?_, ?_⟩
  · intro isFresh
    rw [← shdmemOffered, replied.usesShmemTestcase]
    simp [State.withShmem, isBuilder, isFresh]
  · exact (replied.targetTakes_shdmem isFirst).trans shdmemOffered
  · exact (replied.targetTakes_autodict isFirst).trans autodictOffered
  · intro announces
    rw [sameSize, isBuilder, Builder.withMapSize_mapSize announces]
    exact ⟨_, rfl, roundUp_spec _⟩
  · intro silent
    rw [sameSize, isBuilder, Builder.withMapSize_of_not silent]
  · intro offers tokens hasTokens
    have sameTokens : before.builder.autotokens = some tokens := by
      rw [isBuilder, Builder.withMapSize_autotokens, hasTokens]
    have isSome : start.builder.autotokens.isSome = true :=
      Option.isSome_of_eq_some hasTokens
    obtain ⟨bytes, entries, isSent, isDictionary, loaded⟩ :=
      replied.tokens (autodictOffered.mpr ⟨offers, isSome⟩) tokens sameTokens
    refine ⟨bytes, entries, _, ?_, isDictionary, loaded, ?_⟩
    · rw [← isRest]
      exact isSent
    · intro token
      exact Tokens.mem_addEntries

/--
The builder agrees with the target, or it fails; it panics only for a map or a
dictionary that it cannot take.
-/
theorem handshake_is_understood
    (system : System)
    {state : State}
    (isFirst : state.replies = []) :
    match outcome (buildHelper system) state with
    | (.ok _, next) => ∃ status rest, Agreement state status rest next
    | (.error failure, _) => failure = .panicked → Panics state := by
  unfold buildHelper
  by_cases noFile : (!system.inputFile) = true
  · rw [if_pos noFile]
    exact nofun
  rw [if_neg noFile, outcome_bind, outcome_get]
  dsimp only
  by_cases noShmem : (state.builder.shmemProvider && !system.newShmem) = true
  · rw [if_pos noShmem]
    exact nofun
  rw [if_neg noShmem]
  by_cases noProgram : state.builder.program = none
  · rw [if_pos noProgram]
    exact nofun
  rw [if_neg noProgram]
  by_cases notSpawned : (!system.spawned) = true
  · rw [if_pos notSpawned]
    exact nofun
  rw [if_neg notSpawned]
  obtain ⟨next, fails⟩ | ⟨hello, next, reads, first⟩ := readSt_cases state
  · rw [outcome_bind_error fails]
    exact nofun
  rw [outcome_bind_ok reads]
  dsimp only
  by_cases whole : hello.length = 4
  swap
  · rw [if_pos whole]
    exact nofun
  rw [if_neg (not_not.mpr whole)]
  simp only [whole, Nat.sub_self, List.replicate_zero, List.append_nil]
  have isHello := toNeBytes_fromNeBytes whole
  generalize fromNeBytes hello = status at isHello ⊢
  have begins :
      state.stPipe.flatten = toNeBytes status ++ next.stPipe.flatten := by
    rw [first.stream, isHello]
  obtain ⟨tooLarge, last, panics⟩ | takes := takeMapSize_cases status next
  · rw [outcome_bind_error panics]
    rw [first.builder] at tooLarge
    exact fun _ => ⟨status, _, begins, .inl tooLarge⟩
  rw [outcome_bind_ok takes]
  have sameTokens :
      (next.builder.withMapSize status).autotokens.isSome =
        state.builder.autotokens.isSome := by
    rw [Builder.withMapSize_autotokens, first.builder]
  generalize isShdmem :
    (decide (Offers status fsOptShdmemFuzz) && state.builder.shmemProvider) =
      shdmem
  generalize isAutodict :
    (decide (Offers status fsOptAutodict) &&
      state.builder.autotokens.isSome) = autodict
  obtain ⟨failure, last, fails, panics⟩ | ⟨last, agrees, replied⟩ :=
    @agree_cases system status state.builder.shmemProvider shdmem autodict
      { next with builder := next.builder.withMapSize status } isShdmem
      (by rw [sameTokens, isAutodict])
  · rw [outcome_bind_error fails]
    intro isPanic
    obtain ⟨isTrue, isBad⟩ := panics isPanic
    rw [← isAutodict, Bool.and_eq_true_iff, decide_eq_true_iff] at isTrue
    exact ⟨status, _, begins, .inr ⟨isTrue.1, isTrue.2, isBad⟩⟩
  · rw [outcome_bind_ok agrees]
    refine
      ⟨status, _, replied.agreement begins rfl (first.replies.trans isFirst)
        ?_ isShdmem isAutodict⟩
    rw [first.builder]

/-- A system on which nothing fails. -/
def System.ready : System where
  inputFile := true
  newShmem := true
  spawned := true
  written := some 4

/-- A builder for a target that will send this. -/
def State.start (builder : Builder) (stPipe : Chunks) : State where
  builder := builder
  stPipe := stPipe
  failing := []
  replies := []

/-- A builder with everything that a target may offer. -/
def Builder.full : Builder where
  program := some "target"
  usesShmemTestcase := false
  autotokens := some Tokens.new
  shmemProvider := true
  mapSize := some 128
  realMapSize := 0

/-- A target with a map of 100 entries, shared memory and a dictionary. -/
def fullTarget : Chunks :=
  [[0xc7, 0, 0, 0xd1], [4, 0, 0, 0], [1, 65, 1, 66]]

theorem handshake_is_understood_full :
    ∃ next,
      outcome (buildHelper .ready) (.start .full fullTarget) = (.ok true, next) ∧
        next.builder.mapSize = some 128 ∧
        ∃ status rest, Agreement (.start .full fullTarget) status rest next := by
  have understood :=
    @handshake_is_understood .ready (.start .full fullTarget) rfl
  have ran :
      outcome (buildHelper .ready) (.start .full fullTarget) =
        (.ok true, (outcome (buildHelper .ready) (.start .full fullTarget)).2) :=
    rfl
  rw [ran] at understood
  exact ⟨_, ran, rfl, understood⟩

/--
A target whose map is too large, one that sends half of a token, and one without
options after a builder has built an executor for a target with all of them.
-/
theorem builder_panics :
    (∃ next,
      outcome (buildHelper .ready) (.start .full [[0xff, 1, 0, 0xc0]]) =
        (.error .panicked, next)) ∧
      (∃ next,
        outcome (buildHelper .ready)
            (.start .full [[1, 0, 0, 0x90], [2, 0, 0, 0], [5, 65]]) =
          (.error .panicked, next)) ∧
      ∃ first second,
        outcome (buildHelper .ready) (.start .full fullTarget) =
            (.ok true, first) ∧
          outcome (buildHelper .ready)
              (.start { first.builder with program := some "other" }
                [[0, 0, 0, 0]]) =
            (.ok true, second) ∧
          second.replies = [] ∧
          second.builder.usesShmemTestcase = true :=
  ⟨⟨_, rfl⟩, ⟨_, rfl⟩, ⟨_, _, rfl, rfl, rfl, rfl⟩⟩

end MeFuzz.ForkserverBuilder
