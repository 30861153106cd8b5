import MeFuzz.ByteStream

namespace MeFuzz.Dictionary

/-!
# Escaped text

A token of a dictionary is written with escapes: a backslash, and either an `x`
with two hexadecimal digits or any other byte.  The decoder reads byte by byte
and remembers what an escape still waits for.  It does not look at this at the
end of the text.
-/

/-- What makes the functions of this module return early, or panic. -/
inductive Failure where
  | panicked
  | illegalArgument (message : String)
  deriving DecidableEq

/-- `b'\\'`. -/
def backslash : UInt8 := 92

/-- `from_hex`. -/
def fromHex (hex : UInt8) : Except Failure UInt8 :=
  if 48 ≤ hex ∧ hex ≤ 57 then .ok (hex - 48)
  else if 65 ≤ hex ∧ hex ≤ 70 then .ok (hex - 55)
  else if 97 ≤ hex ∧ hex ≤ 102 then .ok (hex - 87)
  else .error (.illegalArgument "Invalid hex character")

/-- The variables of `str_decode`. -/
structure Decoder where
  token : Bytes
  takeNext : Bool
  takeNextTwo : Nat
  decoded : UInt8
  deriving DecidableEq

namespace Decoder

/-- The variables before the loop. -/
def initial : Decoder where
  token := []
  takeNext := false
  takeNextTwo := 0
  decoded := 0

/-- `decoded += …`, which panics where it overflows. -/
def addDecoded
    (decoder : Decoder)
    (low : UInt8) : Except Failure UInt8 :=
  if decoder.decoded.toNat + low.toNat < 256 then .ok (decoder.decoded + low)
  else .error .panicked

/-- The body of the loop. -/
def step (decoder : Decoder) (c : UInt8) : Except Failure Decoder :=
  if decoder.takeNextTwo = 1 then do
    let high ← fromHex c
    pure { decoder with decoded := high <<< 4, takeNextTwo := 2 }
  else if decoder.takeNextTwo = 2 then do
    let decoded ← decoder.addDecoded (← fromHex c)
    pure
      { decoder with
        decoded
        token := decoder.token ++ [decoded]
        takeNextTwo := 0 }
  else if c ≠ backslash ∨ decoder.takeNext then
    if decoder.takeNext ∧ (c = 120 ∨ c = 88) then
      pure { decoder with takeNextTwo := 1, takeNext := false }
    else
      pure { decoder with token := decoder.token ++ [c], takeNext := false }
  else pure { decoder with takeNext := true }

/-- The loop. -/
def run (decoder : Decoder) (item : Bytes) : Except Failure Decoder :=
  item.foldlM step decoder

end Decoder

/-- `str_decode`. -/
def strDecode (item : Bytes) : Except Failure Bytes := do
  let decoder ← Decoder.initial.run item
  pure decoder.token

/-- `x` or `X`. -/
def IsX (c : UInt8) : Prop :=
  c = 120 ∨ c = 88

instance (c : UInt8) : Decidable (IsX c) :=
  inferInstanceAs (Decidable (_ ∨ _))

/-- A text of complete escapes and other bytes, and what it stands for. -/
inductive Escaped : Bytes → Bytes → Prop where
  | nil : Escaped [] []
  | plain {c : UInt8} {rest out : Bytes} :
      c ≠ backslash → Escaped rest out → Escaped (c :: rest) (c :: out)
  | other {c : UInt8} {rest out : Bytes} :
      ¬IsX c → Escaped rest out → Escaped (backslash :: c :: rest) (c :: out)
  | hex {x hi lo high low : UInt8} {rest out : Bytes} :
      IsX x → fromHex hi = .ok high → fromHex lo = .ok low → Escaped rest out →
        Escaped (backslash :: x :: hi :: lo :: rest) ((high <<< 4 + low) :: out)

/-- An escape that is not complete. -/
inductive Partial : Bytes → Prop where
  | backslash : Partial [Dictionary.backslash]
  | hex {x : UInt8} : IsX x → Partial [Dictionary.backslash, x]
  | digit {x hi high : UInt8} :
      IsX x → fromHex hi = .ok high → Partial [Dictionary.backslash, x, hi]

/-- The last escape of a text is not complete. -/
def EndsInEscape (item : Bytes) : Prop :=
  ∃ front out part, Escaped front out ∧ Partial part ∧ item = front ++ part

namespace Decoder

variable {decoder after : Decoder}
variable {item front out : Bytes}

/-- Nothing is waited for. -/
structure Idle (decoder : Decoder) : Prop where
  takeNext : decoder.takeNext = false
  takeNextTwo : decoder.takeNextTwo = 0

theorem initial_idle : initial.Idle :=
  ⟨rfl, rfl⟩

theorem run_nil :
    decoder.run [] = .ok decoder :=
  rfl

theorem run_cons
    {c : UInt8}
    {rest : Bytes} :
    decoder.run (c :: rest) = decoder.step c >>= fun next => next.run rest :=
  List.foldlM_cons

theorem run_cons_ok
    {c : UInt8}
    {rest : Bytes}
    (steps : decoder.step c = .ok after) :
    decoder.run (c :: rest) = after.run rest := by
  rw [run_cons, steps]
  rfl

theorem run_append
    {back : Bytes}
    (runs : decoder.run front = .ok after) :
    decoder.run (front ++ back) = after.run back := by
  unfold run at runs ⊢
  rw [List.foldlM_append, runs]
  rfl

theorem step_plain
    {c : UInt8}
    (idle : decoder.Idle)
    (isPlain : c ≠ backslash) :
    decoder.step c = .ok { decoder with token := decoder.token ++ [c] } := by
  cases decoder with
  | mk token takeNext takeNextTwo decoded =>
      obtain ⟨rfl, rfl⟩ := idle
      simp [step, isPlain, pure, Except.pure]

theorem step_backslash
    (idle : decoder.Idle) :
    decoder.step backslash = .ok { decoder with takeNext := true } := by
  cases decoder with
  | mk token takeNext takeNextTwo decoded =>
      obtain ⟨rfl, rfl⟩ := idle
      rfl

theorem step_other
    {c : UInt8}
    (idle : decoder.Idle)
    (isOther : ¬IsX c) :
    ({ decoder with takeNext := true } : Decoder).step c =
      .ok { decoder with token := decoder.token ++ [c] } := by
  cases decoder with
  | mk token takeNext takeNextTwo decoded =>
      obtain ⟨rfl, rfl⟩ := idle
      unfold IsX at isOther
      simp [step, isOther, pure, Except.pure]

theorem step_x
    {x : UInt8}
    (idle : decoder.Idle)
    (isX : IsX x) :
    ({ decoder with takeNext := true } : Decoder).step x =
      .ok { decoder with takeNextTwo := 1 } := by
  cases decoder with
  | mk token takeNext takeNextTwo decoded =>
      obtain ⟨rfl, rfl⟩ := idle
      unfold IsX at isX
      simp [step, isX, pure, Except.pure]

theorem fromHex_lt
    {hex value : UInt8}
    (isDigit : fromHex hex = .ok value) :
    value.toNat < 16 := by
  unfold fromHex at isDigit
  split at isDigit
  · cases isDigit
    rename_i isDecimal
    simp only [UInt8.le_iff_toNat_le] at isDecimal
    rw [UInt8.toNat_sub_of_le _ _ (UInt8.le_iff_toNat_le.mpr isDecimal.1)]
    simp only [UInt8.reduceToNat] at *
    omega
  · split at isDigit
    · cases isDigit
      rename_i isUpper
      simp only [UInt8.le_iff_toNat_le, UInt8.reduceToNat] at isUpper
      rw [UInt8.toNat_sub_of_le _ _ (UInt8.le_iff_toNat_le.mpr (by
        simp only [UInt8.reduceToNat]
        omega))]
      simp only [UInt8.reduceToNat]
      omega
    · split at isDigit
      · cases isDigit
        rename_i isLower
        simp only [UInt8.le_iff_toNat_le, UInt8.reduceToNat] at isLower
        rw [UInt8.toNat_sub_of_le _ _ (UInt8.le_iff_toNat_le.mpr (by
          simp only [UInt8.reduceToNat]
          omega))]
        simp only [UInt8.reduceToNat]
        omega
      · cases isDigit

theorem fromHex_error
    {hex : UInt8}
    {failure : Failure}
    (fails : fromHex hex = .error failure) :
    failure = .illegalArgument "Invalid hex character" := by
  unfold fromHex at fails
  split at fails
  · cases fails
  · split at fails
    · cases fails
    · split at fails
      · cases fails
      · cases fails
        rfl

theorem step_high
    {hi high : UInt8}
    (isDigit : fromHex hi = .ok high) :
    ({ decoder with takeNextTwo := 1 } : Decoder).step hi =
      .ok { decoder with decoded := high <<< 4, takeNextTwo := 2 } := by
  simp [step, isDigit, pure, Except.pure, bind, Except.bind]

theorem step_high_error
    {hi : UInt8}
    {failure : Failure}
    (fails : fromHex hi = .error failure) :
    ({ decoder with takeNextTwo := 1 } : Decoder).step hi = .error failure := by
  simp [step, fails, bind, Except.bind]

theorem addDecoded_eq
    {high low : UInt8}
    (isHigh : high.toNat < 16)
    (isLow : low.toNat < 16) :
    ({ decoder with decoded := high <<< 4, takeNextTwo := 2 } : Decoder).addDecoded
        low =
      .ok (high <<< 4 + low) := by
  have shifted : (high <<< 4).toNat = high.toNat * 16 := by
    have sixteen : 2 ^ (4 % 8) = 16 := rfl
    rw [UInt8.toNat_shiftLeft]
    simp only [UInt8.reduceToNat, Nat.shiftLeft_eq, sixteen]
    omega
  rw [addDecoded, if_pos]
  dsimp only
  omega

theorem step_low
    {high lo low : UInt8}
    (isHigh : high.toNat < 16)
    (isDigit : fromHex lo = .ok low) :
    ({ decoder with decoded := high <<< 4, takeNextTwo := 2 } : Decoder).step lo =
      .ok
        { decoder with
          decoded := high <<< 4 + low
          token := decoder.token ++ [high <<< 4 + low]
          takeNextTwo := 0 } := by
  have added := @addDecoded_eq decoder _ _ isHigh (fromHex_lt isDigit)
  simp [step, isDigit, added, pure, Except.pure, bind, Except.bind]

theorem step_low_error
    {high lo : UInt8}
    {failure : Failure}
    (fails : fromHex lo = .error failure) :
    ({ decoder with decoded := high <<< 4, takeNextTwo := 2 } : Decoder).step lo =
      .error failure := by
  simp [step, fails, bind, Except.bind]

end Decoder

namespace Decoder

variable {decoder after : Decoder}
variable {item front out : Bytes}

theorem step_idle
    (decoder : Decoder)
    (c : UInt8)
    (idle : decoder.Idle) :
    ({ decoder with token := decoder.token ++ [c] } : Decoder).Idle :=
  ⟨idle.takeNext, idle.takeNextTwo⟩

theorem run_escaped
    (escaped : Escaped item out)
    (idle : decoder.Idle) :
    ∃ after,
      decoder.run item = .ok after ∧ after.Idle ∧
      after.token = decoder.token ++ out := by
  induction escaped generalizing decoder with
  | nil =>
      exact ⟨decoder, rfl, idle, (List.append_nil _).symm⟩
  | plain isPlain _ ih =>
      obtain ⟨after, runs, afterIdle, isToken⟩ :=
        @ih { decoder with token := decoder.token ++ [_] }
          ⟨idle.takeNext, idle.takeNextTwo⟩
      refine ⟨after, ?_, afterIdle, ?_⟩
      · rw [run_cons_ok (step_plain idle isPlain), runs]
      · rw [isToken, List.append_assoc, List.singleton_append]
  | other isOther _ ih =>
      obtain ⟨after, runs, afterIdle, isToken⟩ :=
        @ih { decoder with token := decoder.token ++ [_] }
          ⟨idle.takeNext, idle.takeNextTwo⟩
      refine ⟨after, ?_, afterIdle, ?_⟩
      · rw [run_cons_ok (step_backslash idle),
          run_cons_ok (step_other idle isOther), runs]
      · rw [isToken, List.append_assoc, List.singleton_append]
  | hex isX isHigh isLow _ ih =>
      obtain ⟨after, runs, afterIdle, isToken⟩ :=
        @ih
          { decoder with
            decoded := _
            token := decoder.token ++ [_]
            takeNextTwo := 0 }
          ⟨idle.takeNext, rfl⟩
      refine ⟨after, ?_, afterIdle, ?_⟩
      · rw [run_cons_ok (step_backslash idle), run_cons_ok (step_x idle isX),
          run_cons_ok (step_high isHigh),
          run_cons_ok (step_low (fromHex_lt isHigh) isLow), runs]
      · rw [isToken, List.append_assoc, List.singleton_append]

theorem run_partial
    {part : Bytes}
    (isPartial : Partial part)
    (idle : decoder.Idle) :
    ∃ after,
      decoder.run part = .ok after ∧ ¬after.Idle ∧ after.token = decoder.token := by
  cases isPartial with
  | backslash =>
      refine ⟨_, run_cons_ok (step_backslash idle), fun stillIdle => ?_, rfl⟩
      cases stillIdle.takeNext
  | hex isX =>
      refine ⟨{ decoder with takeNextTwo := 1 }, ?_, fun stillIdle => ?_, rfl⟩
      · rw [run_cons_ok (step_backslash idle), run_cons_ok (step_x idle isX), run_nil]
      · cases stillIdle.takeNextTwo
  | @digit x hi high isX isDigit =>
      refine
        ⟨{ decoder with decoded := high <<< 4, takeNextTwo := 2 }, ?_,
          fun stillIdle => ?_, rfl⟩
      · rw [run_cons_ok (step_backslash idle), run_cons_ok (step_x idle isX),
          run_cons_ok (step_high isDigit), run_nil]
      · cases stillIdle.takeNextTwo

theorem endsInEscape_append
    {pre rest : Bytes}
    (longer : ∀ {front out}, Escaped front out → ∃ out, Escaped (pre ++ front) out)
    (ends : EndsInEscape rest) :
    EndsInEscape (pre ++ rest) := by
  obtain ⟨front, out, part, escaped, isPartial, rfl⟩ := ends
  obtain ⟨out, escaped⟩ := longer escaped
  exact ⟨pre ++ front, out, part, escaped, isPartial,
    (List.append_assoc pre front part).symm⟩

/-- How the run over a text can end. -/
inductive Ending (decoder : Decoder) (item : Bytes) : Prop where
  | complete (out : Bytes) : Escaped item out → Ending decoder item
  | incomplete : EndsInEscape item → Ending decoder item
  | failed (message : String) :
      decoder.run item = .error (.illegalArgument message) → Ending decoder item

theorem Ending.behind
    {pre rest : Bytes}
    (runs : decoder.run pre = .ok after)
    (longer :
      ∀ {front out}, Escaped front out → ∃ out, Escaped (pre ++ front) out)
    (ending : after.Ending rest) :
    decoder.Ending (pre ++ rest) := by
  cases ending with
  | complete out escaped =>
      obtain ⟨out, escaped⟩ := longer escaped
      exact .complete out escaped
  | incomplete ends =>
      exact .incomplete (endsInEscape_append longer ends)
  | failed message fails =>
      exact .failed message (by rw [run_append runs, fails])

theorem ending_hex
    {x : UInt8}
    {rest : Bytes}
    (idle : decoder.Idle)
    (isX : IsX x)
    (later :
      ∀ item : Bytes, item.length ≤ rest.length →
        ∀ decoder : Decoder, decoder.Idle → decoder.Ending item) :
    decoder.Ending (backslash :: x :: rest) := by
  match rest with
  | [] =>
      exact .incomplete ⟨[], [], _, .nil, .hex isX, rfl⟩
  | hi :: rest =>
      cases isHigh : fromHex hi with
      | error failure =>
          obtain rfl := fromHex_error isHigh
          refine .failed "Invalid hex character" ?_
          rw [run_cons_ok (step_backslash idle), run_cons_ok (step_x idle isX),
            run_cons, step_high_error isHigh]
          rfl
      | ok high =>
          match rest with
          | [] =>
              exact .incomplete ⟨[], [], _, .nil, .digit isX isHigh, rfl⟩
          | lo :: rest =>
              cases isLow : fromHex lo with
              | error failure =>
                  obtain rfl := fromHex_error isLow
                  refine .failed "Invalid hex character" ?_
                  rw [run_cons_ok (step_backslash idle),
                    run_cons_ok (step_x idle isX),
                    run_cons_ok (step_high isHigh), run_cons,
                    step_low_error isLow]
                  rfl
              | ok low =>
                  have runs :
                      decoder.run [backslash, x, hi, lo] =
                        .ok
                          { decoder with
                            decoded := high <<< 4 + low
                            token := decoder.token ++ [high <<< 4 + low]
                            takeNextTwo := 0 } := by
                    rw [run_cons_ok (step_backslash idle),
                      run_cons_ok (step_x idle isX),
                      run_cons_ok (step_high isHigh),
                      run_cons_ok (step_low (fromHex_lt isHigh) isLow), run_nil]
                  exact
                    @Ending.behind _ _ [backslash, x, hi, lo] rest runs
                      (fun escaped => ⟨_, .hex isX isHigh isLow escaped⟩)
                      (later rest (by simp only [List.length_cons]; omega) _
                        ⟨idle.takeNext, rfl⟩)

theorem ending
    (idle : decoder.Idle) :
    decoder.Ending item := by
  induction length : item.length using Nat.strong_induction_on
    generalizing item decoder with
  | h size ih =>
      subst length
      match item with
      | [] =>
          exact .complete [] .nil
      | c :: rest =>
          by_cases isPlain : c ≠ backslash
          · have later :=
              ih rest.length (Nat.lt_succ_self _)
                (step_idle decoder c idle) rfl
            exact
              @Ending.behind _ _ [c] rest (run_cons_ok (step_plain idle isPlain))
                (fun escaped => ⟨_, .plain isPlain escaped⟩) later
          · obtain rfl := not_not.mp isPlain
            match rest with
            | [] =>
                exact .incomplete ⟨[], [], _, .nil, .backslash, rfl⟩
            | c :: rest =>
                by_cases isX : IsX c
                · exact ending_hex idle isX fun item isShort decoder idle =>
                    ih item.length
                      (by simp only [List.length_cons]; omega) idle rfl
                · have later :=
                    ih rest.length
                      (by simp only [List.length_cons]; omega)
                      (step_idle decoder c idle) rfl
                  have runs :
                      decoder.run [backslash, c] =
                        .ok { decoder with token := decoder.token ++ [c] } := by
                    rw [run_cons_ok (step_backslash idle),
                      run_cons_ok (step_other idle isX), run_nil]
                  exact
                    @Ending.behind _ _ [backslash, c] rest runs
                      (fun escaped => ⟨_, .other isX escaped⟩) later

end Decoder

section

variable {item out : Bytes}

theorem strDecode_of_escaped
    (escaped : Escaped item out) :
    strDecode item = .ok out := by
  obtain ⟨after, runs, -, isToken⟩ :=
    Decoder.run_escaped escaped Decoder.initial_idle
  rw [strDecode, runs]
  exact congrArg Except.ok isToken

theorem EndsInEscape.run
    (ends : EndsInEscape item) :
    ∃ after, Decoder.initial.run item = .ok after ∧ ¬after.Idle := by
  obtain ⟨front, out, part, escaped, isPartial, rfl⟩ := ends
  obtain ⟨middle, runsFront, idle, -⟩ :=
    Decoder.run_escaped escaped Decoder.initial_idle
  obtain ⟨after, runs, notIdle, -⟩ := Decoder.run_partial isPartial idle
  exact ⟨after, (Decoder.run_append runsFront).trans runs, notIdle⟩

theorem EndsInEscape.not_escaped
    (ends : EndsInEscape item) :
    ¬Escaped item out := by
  intro escaped
  obtain ⟨after, runs, notIdle⟩ := ends.run
  obtain ⟨same, runsToo, idle, -⟩ :=
    Decoder.run_escaped escaped Decoder.initial_idle
  obtain rfl := Except.ok.inj (runsToo.symm.trans runs)
  exact notIdle idle

theorem EndsInEscape.ne_nil
    (ends : EndsInEscape item) :
    item ≠ [] := by
  rintro rfl
  exact ends.not_escaped .nil

/-- An escape that is not complete is accepted. -/
theorem EndsInEscape.strDecode
    (ends : EndsInEscape item) :
    ∃ out, strDecode item = .ok out := by
  obtain ⟨after, runs, -⟩ := ends.run
  refine ⟨after.token, ?_⟩
  rw [Dictionary.strDecode, runs]
  rfl

theorem strDecode_error
    (notEscaped : ∀ out, ¬Escaped item out)
    (notOpen : ¬EndsInEscape item) :
    ∃ message, strDecode item = .error (.illegalArgument message) := by
  cases @Decoder.ending _ item Decoder.initial_idle with
  | complete out escaped =>
      exact absurd escaped (notEscaped out)
  | incomplete ends =>
      exact absurd ends notOpen
  | failed message fails =>
      refine ⟨message, ?_⟩
      rw [strDecode, fails]
      rfl

theorem strDecode_ne_panicked :
    strDecode item ≠ .error .panicked := by
  intro panics
  by_cases isEscaped : ∃ out, Escaped item out
  · obtain ⟨out, escaped⟩ := isEscaped
    cases (strDecode_of_escaped escaped).symm.trans panics
  · by_cases ends : EndsInEscape item
    · obtain ⟨out, decodes⟩ := ends.strDecode
      cases decodes.symm.trans panics
    · obtain ⟨message, fails⟩ :=
        strDecode_error (fun out escaped => isEscaped ⟨out, escaped⟩) ends
      cases fails.symm.trans panics

/-- The decoder follows the grammar on text that does not end in an escape. -/
theorem decodes_iff :
    (∀ out, strDecode item = .ok out ↔ Escaped item out) ↔ ¬EndsInEscape item := by
  constructor
  · intro follows ends
    obtain ⟨out, decodes⟩ := ends.strDecode
    exact ends.not_escaped ((follows out).mp decodes)
  · intro notOpen out
    refine ⟨fun decodes => ?_, strDecode_of_escaped⟩
    by_cases isEscaped : ∃ out, Escaped item out
    · obtain ⟨same, escaped⟩ := isEscaped
      obtain rfl := Except.ok.inj ((strDecode_of_escaped escaped).symm.trans decodes)
      exact escaped
    · obtain ⟨message, fails⟩ :=
        strDecode_error (fun out escaped => isEscaped ⟨out, escaped⟩) notOpen
      cases decodes.symm.trans fails

end

end MeFuzz.Dictionary
