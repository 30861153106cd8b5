import MeFuzz.Autodict
import MeFuzz.EscapedText

namespace MeFuzz.Dictionary

open ForkserverBuilder (Tokens)

/-!
# Dictionary files

A line of a dictionary is a token in quotes, with a name in front of it or not.
The reader finds the first quote by its position in bytes, and looks for the last
one at the position that the last byte has, counted in characters.
-/

/-- A text, by its characters. -/
abbrev Text := List Char

/-- `str::len`, in bytes. -/
def utf8Len (text : Text) : Nat :=
  (text.map Char.utf8Size).sum

/-- `as_bytes`. -/
def asBytes (text : Text) : Bytes :=
  text.flatMap String.utf8EncodeChar

/-- `char::is_whitespace`. -/
def isWhitespace (c : Char) : Bool :=
  (9 ≤ c.toNat ∧ c.toNat ≤ 13) ∨ c.toNat = 0x20 ∨ c.toNat = 0x85 ∨
    c.toNat = 0xa0 ∨ c.toNat = 0x1680 ∨
    (0x2000 ≤ c.toNat ∧ c.toNat ≤ 0x200a) ∨ c.toNat = 0x2028 ∨
    c.toNat = 0x2029 ∨ c.toNat = 0x202f ∨ c.toNat = 0x205f ∨ c.toNat = 0x3000

/-- `trim_start` and `trim_end`. -/
def trim (text : Text) : Text :=
  (text.dropWhile isWhitespace).rdropWhile isWhitespace

/-- `str::find`: the position of a character, in bytes. -/
def find (sought : Char) : Text → Option Nat
  | [] => none
  | c :: rest =>
      if c = sought then some 0
      else (find sought rest).map (c.utf8Size + ·)

/-- The text behind some bytes, where they end with a character. -/
def dropBytes : Text → Nat → Option Text
  | text, 0 => some text
  | [], _ + 1 => none
  | c :: rest, count + 1 =>
      if c.utf8Size ≤ count + 1 then dropBytes rest (count + 1 - c.utf8Size)
      else none

/-- The text of some bytes, where they end with a character. -/
def takeBytes : Text → Nat → Option Text
  | _, 0 => some []
  | [], _ + 1 => none
  | c :: rest, count + 1 =>
      if c.utf8Size ≤ count + 1 then
        (takeBytes rest (count + 1 - c.utf8Size)).map (c :: ·)
      else none

/-- `str::get` of a range of bytes. -/
def get (text : Text) (start stop : Nat) : Option Text :=
  if start ≤ stop then do
    let rest ← dropBytes text start
    takeBytes rest (stop - start)
  else none

/-- `Error::illegal_argument` for a line. -/
def illegal {Value : Type} (message : String) (line : Text) : Except Failure Value :=
  .error (.illegalArgument (message ++ String.ofList line))

/-- The body of the loop of `add_from_file`, for a line that is not skipped. -/
def addQuoted (tokens : Tokens) (line : Text) : Except Failure Tokens :=
  match find '"' line with
  | none => illegal "Illegal line: " line
  | some posQuote =>
      if utf8Len line = 0 then .error .panicked
      else if (line)[utf8Len line - 1]? ≠ some '"' then illegal "Illegal line: " line
      else
        match get line (posQuote + 1) (utf8Len line - 1) with
        | none => illegal "Illegal line: " line
        | some item =>
            if item.isEmpty then .ok tokens
            else
              match strDecode (asBytes item) with
              | .ok token => .ok (tokens.addToken token)
              | .error .panicked => .error .panicked
              | .error _ => illegal "Illegal line (hex decoding): " line

/-- The body of the loop of `add_from_file`, behind the trimming. -/
def addTrimmed (tokens : Tokens) (line : Text) : Except Failure Tokens :=
  if line.isEmpty ∨ line.head? = some '#' then .ok tokens
  else addQuoted tokens line

/-- The body of the loop of `add_from_file`. -/
def addLine (tokens : Tokens) (line : Text) : Except Failure Tokens :=
  addTrimmed tokens (trim line)

/-- The loop of `add_from_file`; tokens that were added stay. -/
def addLines : Tokens → List Text → Except Failure Unit × Tokens
  | tokens, [] => (.ok (), tokens)
  | tokens, line :: rest =>
      match addLine tokens line with
      | .ok tokens => addLines tokens rest
      | .error failure => (.error failure, tokens)

/-- A line without its end. -/
def stripReturn (line : Text) : Text :=
  if line.getLast? = some '\r' then line.dropLast else line

/-- `BufRead::lines`, with what was read of the line so far. -/
def linesFrom : Text → Text → List Text
  | [], [] => []
  | current, [] => [current]
  | current, '\n' :: rest => stripReturn current :: linesFrom [] rest
  | current, c :: rest => linesFrom (current ++ [c]) rest

/-- `add_from_file`, for a file that is UTF-8. -/
def addFromFile (tokens : Tokens) (file : Text) : Except Failure Unit × Tokens :=
  addLines tokens (linesFrom [] file)

section

variable {front back text : Text}

theorem utf8Len_append :
    utf8Len (front ++ back) = utf8Len front + utf8Len back := by
  rw [utf8Len, List.map_append, List.sum_append]
  rfl

theorem utf8Len_cons
    {c : Char} :
    utf8Len (c :: text) = c.utf8Size + utf8Len text := by
  rw [utf8Len, List.map_cons, List.sum_cons]
  rfl

theorem length_le_utf8Len :
    text.length ≤ utf8Len text := by
  induction text with
  | nil =>
      exact le_rfl
  | cons c rest ih =>
      have positive := c.utf8Size_pos
      rw [utf8Len_cons, List.length_cons]
      omega

/-- There are only characters of one byte. -/
def IsAscii (text : Text) : Prop :=
  ∀ c ∈ text, c.toNat ≤ 127

theorem utf8Len_eq_length_iff :
    utf8Len text = text.length ↔ IsAscii text := by
  induction text with
  | nil =>
      simp [utf8Len, IsAscii]
  | cons c rest ih =>
      have positive := c.utf8Size_pos
      have longer := @length_le_utf8Len rest
      have single : c.utf8Size = 1 ↔ c.toNat ≤ 127 := Char.utf8Size_eq_one_iff
      have split :
          IsAscii (c :: rest) ↔ c.toNat ≤ 127 ∧ IsAscii rest := by
        simp [IsAscii]
      rw [utf8Len_cons, List.length_cons, split, ← ih, ← single]
      omega

theorem find_append
    {sought : Char}
    (isFirst : sought ∉ front) :
    find sought (front ++ sought :: back) = some (utf8Len front) := by
  induction front with
  | nil =>
      rw [List.nil_append, find, if_pos rfl]
      rfl
  | cons c rest ih =>
      have isOther : c ≠ sought := fun same => isFirst (same ▸ List.mem_cons_self)
      have later : sought ∉ rest := fun isThere =>
        isFirst (List.mem_cons_of_mem _ isThere)
      rw [List.cons_append, find, if_neg isOther, ih later,
        utf8Len_cons]
      rfl

theorem find_eq_none
    {sought : Char}
    (isNowhere : sought ∉ text) :
    find sought text = none := by
  induction text with
  | nil =>
      rfl
  | cons c rest ih =>
      have isOther : c ≠ sought := fun same => isNowhere (same ▸ List.mem_cons_self)
      rw [find, if_neg isOther,
        ih fun isThere =>
          isNowhere (List.mem_cons_of_mem _ isThere)]
      rfl

theorem dropBytes_append :
    dropBytes (front ++ back) (utf8Len front) = some back := by
  induction front with
  | nil =>
      cases back <;> rfl
  | cons c rest ih =>
      obtain ⟨size, isSize⟩ :=
        Nat.exists_eq_succ_of_ne_zero (Nat.ne_of_gt c.utf8Size_pos)
      rw [utf8Len_cons, List.cons_append, isSize, Nat.succ_add, dropBytes,
        if_pos (by omega)]
      rw [show size + utf8Len rest + 1 - c.utf8Size = utf8Len rest by omega]
      exact ih

theorem takeBytes_append :
    takeBytes (front ++ back) (utf8Len front) = some front := by
  induction front with
  | nil =>
      cases back <;> rfl
  | cons c rest ih =>
      obtain ⟨size, isSize⟩ :=
        Nat.exists_eq_succ_of_ne_zero (Nat.ne_of_gt c.utf8Size_pos)
      rw [utf8Len_cons, List.cons_append, isSize, Nat.succ_add, takeBytes,
        if_pos (by omega)]
      rw [show size + utf8Len rest + 1 - c.utf8Size = utf8Len rest by omega,
        ih]
      rfl

end

/-- A name without quotes, and text in quotes up to the end of the line. -/
structure Quoted (line name text : Text) : Prop where
  isLine : line = name ++ '"' :: (text ++ ['"'])
  quoteFree : '"' ∉ name

/-- A line that is skipped: an empty one or a comment. -/
def IsSkipped (line : Text) : Prop :=
  line = [] ∨ line.head? = some '#'

section

variable {tokens : Tokens}
variable {line name text : Text}

theorem Quoted.ne_nil
    (quoted : Quoted line name text) :
    line ≠ [] := by
  rw [quoted.isLine]
  simp

theorem getLast_line
    {last : Char}
    {back : Text} :
    (name ++ '"' :: (back ++ [last])).getLast? = some last := by
  have isSnoc :
      name ++ '"' :: (back ++ [last]) = (name ++ '"' :: back) ++ [last] := by
    simp
  rw [isSnoc, List.getLast?_concat]

theorem Quoted.find
    (quoted : Quoted line name text) :
    find '"' line = some (utf8Len name) := by
  rw [quoted.isLine]
  exact find_append quoted.quoteFree

theorem utf8Len_quote :
    utf8Len ['"'] = 1 :=
  rfl

theorem Quoted.get
    (quoted : Quoted line name text) :
    get line (utf8Len name + 1) (utf8Len line - 1) = some text := by
  have front : utf8Len name + 1 = utf8Len (name ++ ['"']) := by
    rw [utf8Len_append, utf8Len_quote]
  have isLine : line = (name ++ ['"']) ++ (text ++ ['"']) := by
    rw [quoted.isLine]
    simp
  have total : utf8Len line = utf8Len name + 1 + utf8Len text + 1 := by
    rw [isLine, utf8Len_append, utf8Len_append, utf8Len_append, utf8Len_quote]
    omega
  have between : utf8Len line - 1 - (utf8Len name + 1) = utf8Len text := by
    omega
  rw [Dictionary.get, if_pos (by omega), between, front, isLine, dropBytes_append]
  exact takeBytes_append

theorem utf8Len_ne_zero
    (isLine : line ≠ []) :
    utf8Len line ≠ 0 := by
  have longer := @length_le_utf8Len line
  have positive := List.length_pos_iff.mpr isLine
  omega

theorem addQuoted_of_not_ascii
    (notAscii : ¬IsAscii line) :
    ∃ message, addQuoted tokens line = .error (.illegalArgument message) := by
  have isLine : line ≠ [] := by
    rintro rfl
    exact notAscii fun c isThere => absurd isThere List.not_mem_nil
  have longer : line.length < utf8Len line :=
    lt_of_le_of_ne length_le_utf8Len fun same =>
      notAscii (utf8Len_eq_length_iff.mp same.symm)
  have isBehind : (line)[utf8Len line - 1]? = none :=
    List.getElem?_eq_none (by omega)
  unfold addQuoted
  cases find '"' line with
  | none =>
      exact ⟨_, rfl⟩
  | some posQuote =>
      dsimp only
      rw [if_neg (utf8Len_ne_zero isLine), isBehind, if_pos (by simp)]
      exact ⟨_, rfl⟩

theorem addQuoted_of_quoted
    (isAscii : IsAscii line)
    (quoted : Quoted line name text) :
    addQuoted tokens line =
      if text.isEmpty then .ok tokens
      else
        match strDecode (asBytes text) with
        | .ok token => .ok (tokens.addToken token)
        | .error .panicked => .error .panicked
        | .error _ => illegal "Illegal line (hex decoding): " line := by
  have isLast : (line)[utf8Len line - 1]? = some '"' := by
    rw [utf8Len_eq_length_iff.mpr isAscii, ← List.getLast?_eq_getElem?,
      quoted.isLine, getLast_line]
  unfold addQuoted
  rw [quoted.find]
  dsimp only
  rw [if_neg (utf8Len_ne_zero quoted.ne_nil), isLast, if_neg (by simp), quoted.get]

theorem addQuoted_of_not_quoted
    (isAscii : IsAscii line)
    (notQuoted : ∀ name text, ¬Quoted line name text) :
    ∃ message, addQuoted tokens line = .error (.illegalArgument message) := by
  unfold addQuoted
  by_cases isThere : '"' ∈ line
  · obtain ⟨front, back, isLine, quoteFree⟩ := List.eq_append_cons_of_mem isThere
    have isFound : find '"' line = some (utf8Len front) := by
      rw [isLine]
      exact find_append quoteFree
    have notEmpty : line ≠ [] := List.ne_nil_of_mem isThere
    rw [isFound]
    dsimp only
    rw [if_neg (utf8Len_ne_zero notEmpty), utf8Len_eq_length_iff.mpr isAscii,
      ← List.getLast?_eq_getElem?]
    by_cases isLast : line.getLast? = some '"'
    · have isOnly : back = [] := by
        rcases List.eq_nil_or_concat back with isNil | ⟨text, last, rfl⟩
        · exact isNil
        · rw [List.concat_eq_append] at isLine
          rw [isLine, getLast_line] at isLast
          rw [Option.some.inj isLast] at isLine
          exact absurd ⟨isLine, quoteFree⟩ (notQuoted front text)
      have isShort : ¬utf8Len front + 1 ≤ line.length - 1 := by
        have longer := @length_le_utf8Len front
        rw [isLine, isOnly, List.length_append]
        simp only [List.length_cons, List.length_nil]
        omega
      rw [isLast, if_neg (by simp), get, if_neg isShort]
      exact ⟨_, rfl⟩
    · rw [if_pos isLast]
      exact ⟨_, rfl⟩
  · rw [find_eq_none isThere]
    exact ⟨_, rfl⟩

theorem Quoted.text_eq
    {otherName otherText : Text}
    (quoted : Quoted line name text)
    (other : Quoted line otherName otherText) :
    otherText = text := by
  have sameLen := Option.some.inj (other.find.symm.trans quoted.find)
  have isOther := other.get
  rw [sameLen, quoted.get] at isOther
  exact (Option.some.inj isOther).symm

theorem addTrimmed_of_not_skipped
    (notSkipped : ¬IsSkipped line) :
    addTrimmed tokens line = addQuoted tokens line := by
  unfold IsSkipped at notSkipped
  rw [addTrimmed, if_neg (by simpa using notSkipped)]

/--
A trimmed line is read as it should be: quoted text that follows the grammar is
added, an empty one adds nothing, and any other line is refused.
-/
structure ReadsLine (tokens : Tokens) (line : Text) : Prop where
  skips : IsSkipped line → addTrimmed tokens line = .ok tokens
  adds :
    ¬IsSkipped line → ∀ name text out,
      Quoted line name text → text ≠ [] → Escaped (asBytes text) out →
        addTrimmed tokens line = .ok (tokens.addToken out)
  addsNothing :
    ¬IsSkipped line → ∀ name,
      Quoted line name [] → addTrimmed tokens line = .ok tokens
  refuses :
    ¬IsSkipped line →
      (∀ name text,
        Quoted line name text →
          text ≠ [] ∧ ∀ out, ¬Escaped (asBytes text) out) →
      ∃ message, addTrimmed tokens line = .error (.illegalArgument message)

/--
The quoted text of a line does not end in an escape.  Where the line is not ASCII,
its text has to be refused anyway.
-/
def IsReadable (line : Text) : Prop :=
  ¬IsSkipped line → ∀ name text, Quoted line name text →
    (IsAscii line → ¬EndsInEscape (asBytes text)) ∧
    (¬IsAscii line → text ≠ [] ∧ ∀ out, ¬Escaped (asBytes text) out)

theorem addQuoted_error
    (isAscii : IsAscii line)
    (quoted : Quoted line name text)
    (notEmpty : text ≠ [])
    (notEscaped : ∀ out, ¬Escaped (asBytes text) out)
    (notOpen : ¬EndsInEscape (asBytes text)) :
    ∃ message, addQuoted tokens line = .error (.illegalArgument message) := by
  obtain ⟨message, fails⟩ := strDecode_error notEscaped notOpen
  rw [addQuoted_of_quoted isAscii quoted, if_neg (by simpa using notEmpty), fails]
  exact ⟨_, rfl⟩

theorem ReadsLine.isReadable
    (reads : ReadsLine tokens line) :
    IsReadable line := by
  intro notSkipped name text quoted
  constructor
  · intro isAscii ends
    obtain ⟨out, decodes⟩ := ends.strDecode
    have notEmpty : text ≠ [] := by
      rintro rfl
      exact ends.ne_nil rfl
    obtain ⟨message, fails⟩ := reads.refuses notSkipped (by
      intro otherName otherText other
      rw [quoted.text_eq other]
      exact ⟨notEmpty, fun out => ends.not_escaped⟩)
    rw [addTrimmed_of_not_skipped notSkipped, addQuoted_of_quoted isAscii quoted,
      if_neg (by simpa using notEmpty), decodes] at fails
    cases fails
  · intro notAscii
    obtain ⟨message, fails⟩ := @addQuoted_of_not_ascii tokens line notAscii
    rw [← addTrimmed_of_not_skipped notSkipped] at fails
    constructor
    · rintro rfl
      cases (reads.addsNothing notSkipped name quoted).symm.trans fails
    · intro out escaped
      by_cases isEmpty : text = []
      · rw [isEmpty] at quoted
        cases (reads.addsNothing notSkipped name quoted).symm.trans fails
      · cases
          (reads.adds notSkipped name text out quoted isEmpty escaped).symm.trans fails

theorem IsReadable.readsLine
    (readable : IsReadable line) :
    ReadsLine tokens line where
  skips := by
    intro isSkipped
    unfold IsSkipped at isSkipped
    rw [addTrimmed, if_pos (by simpa using isSkipped)]
  adds := by
    intro notSkipped name text out quoted notEmpty escaped
    by_cases isAscii : IsAscii line
    · rw [addTrimmed_of_not_skipped notSkipped, addQuoted_of_quoted isAscii quoted,
        if_neg (by simpa using notEmpty), strDecode_of_escaped escaped]
    · exact absurd escaped (((readable notSkipped name text quoted).2 isAscii).2 out)
  addsNothing := by
    intro notSkipped name quoted
    by_cases isAscii : IsAscii line
    · rw [addTrimmed_of_not_skipped notSkipped, addQuoted_of_quoted isAscii quoted]
      rfl
    · exact absurd rfl ((readable notSkipped name [] quoted).2 isAscii).1
  refuses := by
    intro notSkipped isOther
    rw [addTrimmed_of_not_skipped notSkipped]
    by_cases isAscii : IsAscii line
    · by_cases isQuoted : ∃ name text, Quoted line name text
      · obtain ⟨name, text, quoted⟩ := isQuoted
        obtain ⟨notEmpty, notEscaped⟩ := isOther name text quoted
        exact addQuoted_error isAscii quoted notEmpty notEscaped
          ((readable notSkipped name text quoted).1 isAscii)
      · exact addQuoted_of_not_quoted isAscii fun name text quoted =>
          isQuoted ⟨name, text, quoted⟩
    · exact addQuoted_of_not_ascii isAscii

theorem addQuoted_ne_panicked :
    addQuoted tokens line ≠ .error .panicked := by
  intro panics
  by_cases isAscii : IsAscii line
  · by_cases isQuoted : ∃ name text, Quoted line name text
    · obtain ⟨name, text, quoted⟩ := isQuoted
      rw [addQuoted_of_quoted isAscii quoted] at panics
      split at panics
      · cases panics
      · split at panics
        · cases panics
        · rename_i decodes
          exact strDecode_ne_panicked decodes
        · cases panics
    · obtain ⟨message, fails⟩ :=
        @addQuoted_of_not_quoted tokens line isAscii fun name text quoted =>
          isQuoted ⟨name, text, quoted⟩
      cases panics.symm.trans fails
  · obtain ⟨message, fails⟩ := @addQuoted_of_not_ascii tokens line isAscii
    cases panics.symm.trans fails

theorem addLine_ne_panicked :
    addLine tokens line ≠ .error .panicked := by
  unfold addLine addTrimmed
  split
  · exact nofun
  · exact addQuoted_ne_panicked

/-- No line makes the reader panic. -/
theorem addLines_ne_panicked
    {lines : List Text} :
    (addLines tokens lines).1 ≠ .error .panicked := by
  induction lines generalizing tokens with
  | nil =>
      exact nofun
  | cons line rest ih =>
      rw [addLines]
      cases reads : addLine tokens line with
      | ok added =>
          exact ih
      | error failure =>
          rintro panics
          obtain rfl := Except.error.inj panics
          exact addLine_ne_panicked reads

theorem addLines_append
    {done rest : List Text}
    {now : Tokens}
    (reads : addLines tokens done = (.ok (), now)) :
    addLines tokens (done ++ rest) = addLines now rest := by
  induction done generalizing tokens with
  | nil =>
      rw [(Prod.mk.inj reads).2, List.nil_append]
  | cons line later ih =>
      rw [addLines] at reads
      rw [List.cons_append, addLines]
      cases added : addLine tokens line with
      | ok next =>
          rw [added] at reads
          exact ih reads
      | error failure =>
          rw [added] at reads
          cases reads

/-- A quoted letter of two bytes is refused, and an open escape is accepted. -/
theorem quoted_letter_is_not_read :
    ¬ReadsLine Tokens.new (trim ['"', 'ä', '"']) ∧
      ¬∀ out, strDecode [backslash] = .ok out ↔ Escaped [backslash] out := by
  constructor
  · intro reads
    have notSkipped : ¬IsSkipped (trim ['"', 'ä', '"']) := by
      rintro (isNil | isComment)
      · cases isNil
      · cases isComment
    have quoted : Quoted (trim ['"', 'ä', '"']) [] ['ä'] :=
      ⟨rfl, List.not_mem_nil⟩
    have escaped : Escaped (asBytes ['ä']) [0xc3, 0xa4] :=
      .plain (by decide) (.plain (by decide) .nil)
    have added := reads.adds notSkipped [] ['ä'] _ quoted (by simp) escaped
    cases added
  · intro follows
    cases (follows []).mp rfl

/--
Text is decoded by the grammar where it does not end in an escape, and lines are
read as they should be where they are readable.  A file is read line by line, and
none makes the reader panic.
-/
theorem dictionary_is_parsed_iff
    (item : Bytes)
    (tokens : Tokens)
    (line file : Text) :
    ((∀ out, strDecode item = .ok out ↔ Escaped item out) ↔ ¬EndsInEscape item) ∧
    (ReadsLine tokens (trim line) ↔ IsReadable (trim line)) ∧
    (∀ done rest now,
      linesFrom [] file = done ++ line :: rest →
      addLines tokens done = (.ok (), now) →
        addFromFile tokens file =
          match addTrimmed now (trim line) with
          | .ok next => addLines next rest
          | .error failure => (.error failure, now)) ∧
    (addFromFile tokens file).1 ≠ .error .panicked := by
  refine
    ⟨decodes_iff, ⟨ReadsLine.isReadable, IsReadable.readsLine⟩, ?_,
      addLines_ne_panicked⟩
  intro done rest now areLines reads
  rw [addFromFile, areLines, addLines_append reads]
  rfl

end

end MeFuzz.Dictionary
