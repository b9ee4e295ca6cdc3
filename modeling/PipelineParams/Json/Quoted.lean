import PipelineParams.Json.Error
import PipelineParams.Text.Hex

/-! # Strings

A string stands between quotes.  A backslash starts an escape: one of eight short ones, or `u` with
four hexadecimal digits for a code unit; two code units that form a surrogate pair are one character.

* `skipString` steps over a string and checks its form only, so half a surrogate pair passes.
* `readString` reads its text, and half a pair is a fault.

Both start behind the opening quote and stop behind the closing one.
-/

namespace PipelineParams.Json

/-! ## Code units -/

/-- What is wrong where four hexadecimal digits are due: the text ends within four bytes, or one of
its next four bytes is no digit. -/
def hexFault (cs : List Char) : Error :=
  if (String.ofList cs).utf8ByteSize < 4 then .endInString else .invalidEscape

def codeUnit (cs : List Char) : Except Error (Nat × List Char) :=
  match Text.readHex 0 4 cs with
  | some unit => .ok unit
  | none => .error (hexFault cs)

theorem length_of_codeUnit {cs : List Char} {n : Nat} {rest : List Char}
    (h : codeUnit cs = .ok (n, rest)) : rest.length + 4 = cs.length := by
  unfold codeUnit at h
  split at h
  next read =>
    cases h
    exact Text.length_of_readHex read
  · cases h

def isHighSurrogate (n : Nat) : Bool := 0xD800 ≤ n && n ≤ 0xDBFF

def isLowSurrogate (n : Nat) : Bool := 0xDC00 ≤ n && n ≤ 0xDFFF

def ofSurrogates (high low : Nat) : Char :=
  Char.ofNat (0x10000 + (high - 0xD800) * 0x400 + (low - 0xDC00))

/-- The second half of a surrogate pair, in an escape of its own, and the character of the pair. -/
def lowHalf (high : Nat) : List Char → Except Error (Char × List Char)
  | [] => .error .endInString
  | c :: cs =>
    if c = '\\' then
      match cs with
      | [] => .error .endInString
      | u :: cs =>
        if u = 'u' then
          match codeUnit cs with
          | .error e => .error e
          | .ok (low, rest) =>
            if isLowSurrogate low then .ok (ofSurrogates high low, rest) else .error .loneSurrogate
        else .error .brokenSurrogatePair
    else .error .brokenSurrogatePair

/-- The character named by the digits behind `\u`, with a second escape for the rest of a pair. -/
def unicodeEscape (cs : List Char) : Except Error (Char × List Char) :=
  match codeUnit cs with
  | .error e => .error e
  | .ok (n, rest) =>
    -- the second half of a pair is no character without the first one before it
    if isLowSurrogate n then .error .loneSurrogate
    else if isHighSurrogate n then lowHalf n rest
    else .ok (Char.ofNat n, rest)

theorem length_of_lowHalf {high : Nat} {cs : List Char} {c : Char} {rest : List Char}
    (h : lowHalf high cs = .ok (c, rest)) : rest.length < cs.length := by
  unfold lowHalf at h
  split at h
  · cases h
  · split at h
    · split at h
      · cases h
      · split at h
        · split at h
          · cases h
          next eq =>
            split at h
            · simp only [Except.ok.injEq, Prod.mk.injEq] at h
              obtain ⟨_, rfl⟩ := h
              have := length_of_codeUnit eq
              simp only [List.length_cons]
              omega
            · cases h
        · cases h
    · cases h

theorem length_of_unicodeEscape {cs : List Char} {c : Char} {rest : List Char}
    (h : unicodeEscape cs = .ok (c, rest)) : rest.length < cs.length := by
  unfold unicodeEscape at h
  split at h
  · cases h
  next eq =>
    have unit := length_of_codeUnit eq
    split at h
    · cases h
    · split at h
      · have := length_of_lowHalf h
        omega
      · simp only [Except.ok.injEq, Prod.mk.injEq] at h
        obtain ⟨_, rfl⟩ := h
        omega

def shortEscape? (c : Char) : Option Char :=
  if c = '"' then some '"'
  else if c = '\\' then some '\\'
  else if c = '/' then some '/'
  else if c = 'b' then some '\x08'
  else if c = 'f' then some '\x0c'
  else if c = 'n' then some '\n'
  else if c = 'r' then some '\r'
  else if c = 't' then some '\t'
  else none

/-! ## Stepping over a string -/

def skipEscape : List Char → Except Error (List Char)
  | [] => .error .endInString
  | c :: cs =>
    -- the code unit itself does not matter here
    if c = 'u' then (codeUnit cs).map (·.2)
    else if (shortEscape? c).isSome then .ok cs
    else .error .invalidEscape

theorem length_of_skipEscape {cs r : List Char} (h : skipEscape cs = .ok r) :
    r.length < cs.length := by
  cases cs with
  | nil => cases h
  | cons c cs =>
    rw [skipEscape] at h
    split at h
    · cases eq : codeUnit cs with
      | error e => rw [eq] at h; cases h
      | ok p =>
        rw [eq] at h
        cases h
        have := length_of_codeUnit (show codeUnit cs = .ok (p.1, p.2) from eq)
        simp only [List.length_cons]
        omega
    · split at h
      · cases h; exact Nat.lt_succ_self _
      · cases h

def skipString : List Char → Except Error (List Char)
  | [] => .error .endInString
  | c :: cs =>
    if c = '"' then .ok cs
    else if c = '\\' then
      match _ : skipEscape cs with
      | .error fault => .error fault
      | .ok rest => skipString rest
    else if c.val < 0x20 then .error .bareControl
    else skipString cs
termination_by cs => cs.length
decreasing_by
  all_goals simp only [List.length_cons]
  · exact Nat.lt_succ_of_lt (length_of_skipEscape ‹_›)
  · exact Nat.lt_succ_self _

theorem length_of_skipString {cs r : List Char} (h : skipString cs = .ok r) :
    r.length < cs.length := by
  fun_induction skipString cs with
  | case1 => cases h
  | case2 cs => cases h; exact Nat.lt_succ_self _
  | case3 => cases h
  | case4 cs rest eq _ ih =>
    exact Nat.lt_succ_of_lt (Nat.lt_trans (ih h) (length_of_skipEscape eq))
  | case5 => cases h
  | case6 c cs _ _ _ ih => exact Nat.lt_succ_of_lt (ih h)

/-! ## Reading a string -/

def readEscape : List Char → Except Error (Char × List Char)
  | [] => .error .endInString
  | c :: cs =>
    if c = 'u' then unicodeEscape cs
    else
      match shortEscape? c with
      | some meant => .ok (meant, cs)
      | none => .error .invalidEscape

theorem length_of_readEscape {cs : List Char} {c : Char} {r : List Char}
    (h : readEscape cs = .ok (c, r)) : r.length < cs.length := by
  cases cs with
  | nil => cases h
  | cons d cs =>
    rw [readEscape] at h
    split at h
    · exact Nat.lt_succ_of_lt (length_of_unicodeEscape h)
    · split at h
      · cases h; exact Nat.lt_succ_self _
      · cases h

/-- Reads the rest of a string; `done` holds the characters read so far, the last one first. -/
def readChars (done : List Char) : List Char → Except Error (List Char × List Char)
  | [] => .error .endInString
  | c :: cs =>
    if c = '"' then .ok (done.reverse, cs)
    else if c = '\\' then
      match _ : readEscape cs with
      | .error fault => .error fault
      | .ok (meant, rest) => readChars (meant :: done) rest
    else if c.val < 0x20 then .error .bareControl
    else readChars (c :: done) cs
termination_by cs => cs.length
decreasing_by
  all_goals simp only [List.length_cons]
  · exact Nat.lt_succ_of_lt (length_of_readEscape ‹_›)
  · exact Nat.lt_succ_self _

theorem length_of_readChars {done cs text r : List Char} (h : readChars done cs = .ok (text, r)) :
    r.length < cs.length := by
  fun_induction readChars done cs with
  | case1 => cases h
  | case2 done cs => cases h; exact Nat.lt_succ_self _
  | case3 => cases h
  | case4 done cs meant rest eq _ ih =>
    exact Nat.lt_succ_of_lt (Nat.lt_trans (ih h) (length_of_readEscape eq))
  | case5 => cases h
  | case6 done c cs _ _ _ ih => exact Nat.lt_succ_of_lt (ih h)

def readString (cs : List Char) : Except Error (String × List Char) :=
  match readChars [] cs with
  | .error e => .error e
  | .ok (text, rest) => .ok (String.ofList text, rest)

theorem length_of_readString {cs : List Char} {text : String} {r : List Char}
    (h : readString cs = .ok (text, r)) : r.length < cs.length := by
  unfold readString at h
  split at h
  · cases h
  next eq =>
    cases h
    exact length_of_readChars eq

end PipelineParams.Json
