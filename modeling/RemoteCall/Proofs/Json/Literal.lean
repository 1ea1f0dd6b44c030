import RemoteCall.Json.Literal

/-!
# Reading back JSON strings

Every octet is read back from its escape, and therefore every text from its
string, whatever characters it holds.
-/

namespace RemoteCall.Json

open Ascii

/-! ## Control characters -/

/-- The two digits of an octet below `0x20` denote that octet. -/
theorem hexNumber_of_control (code : Fin 32) :
    hexNumber? [zero, zero, ofHexDigit (code.val / 16), ofHexDigit (code.val % 16)]
      = some code.val := by
  decide +revert

theorem codeOctets_of_control (code : Fin 32) :
    codeOctets code.val = [UInt8.ofNat code.val] := by
  decide +revert

theorem content_escape {letter byte : UInt8} (denotes : shortEscape? letter = some byte)
    (noCode : letter ≠ lowerU) (taken rest : Bytes) :
    content .plain taken (backslash :: letter :: rest) = content .plain (byte :: taken) rest := by
  have notQuote : backslash ≠ quote := by decide
  simp only [content, if_neg notQuote, if_pos, if_neg noCode, denotes]

/-- An escape by number stands for the control character of that number. -/
theorem content_control {byte : UInt8} (control : byte.toNat < 32) (taken rest : Bytes) :
    content .plain taken
        (backslash :: lowerU :: zero :: zero :: ofHexDigit (byte.toNat / 16)
          :: ofHexDigit (byte.toNat % 16) :: rest)
      = content .plain (byte :: taken) rest := by
  have number := hexNumber_of_control ⟨byte.toNat, control⟩
  have code := codeOctets_of_control ⟨byte.toNat, control⟩
  have notTrailing : isTrailing byte.toNat = false := by simp [isTrailing]; omega
  have notLeading : isLeading byte.toNat = false := by simp [isLeading]; omega
  have notQuote : backslash ≠ quote := by decide
  simp only at number code
  simp [content, number, code, notTrailing, notLeading, notQuote]

/-! ## Strings -/

/-- An octet is read back from the way it stands in a string. -/
theorem content_escaped (byte : UInt8) (taken rest : Bytes) :
    content .plain taken (escaped byte ++ rest) = content .plain (byte :: taken) rest := by
  unfold escaped
  split
  next isQuote =>
      subst isQuote
      exact content_escape (by decide) (by decide) taken rest
  next notQuote =>
  split
  next isBackslash =>
      subst isBackslash
      exact content_escape (by decide) (by decide) taken rest
  next notBackslash =>
  split
  next printable =>
      have notControl : ¬ byte < 0x20 := by simpa using printable
      simp [content, notQuote, notBackslash, notControl]
  next notPrintable =>
  have control : byte.toNat < 32 := by
    have below : byte < 0x20 := by simpa using notPrintable
    exact UInt8.lt_iff_toNat_lt.1 below
  -- Five of the control characters have a letter of their own.
  repeat
    split
    next isLetter =>
        subst isLetter
        exact content_escape (by decide) (by decide) taken rest
  exact content_control control taken rest

theorem content_flatMap_escaped (octets taken rest : Bytes) :
    content .plain taken (octets.flatMap escaped ++ quote :: rest)
      = .ok (taken.reverse ++ octets, rest) := by
  induction octets generalizing taken with
  | nil => simp [content]
  | cons byte octets ih =>
      rw [List.flatMap_cons, List.append_assoc, content_escaped, ih]
      simp

/-- A text is read back from its string, after the opening quote. -/
theorem text_flatMap_escaped (chars : String) (rest : Bytes) :
    text ((Utf8.encode chars).flatMap escaped ++ quote :: rest) = .ok (chars, rest) := by
  unfold text
  rw [content_flatMap_escaped]
  simp [bind, Except.bind]

theorem literal_append (chars : String) (rest : Bytes) :
    literal chars ++ rest
      = quote :: ((Utf8.encode chars).flatMap escaped ++ quote :: rest) := by
  simp [literal]

end RemoteCall.Json
