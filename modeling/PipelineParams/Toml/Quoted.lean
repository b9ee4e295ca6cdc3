import PipelineParams.Text.Hex
import PipelineParams.Toml.Value

/-! # Text in configuration files

Text stands between double quotes, where a backslash starts an escape, or between single quotes, where
every character stands for itself.  Either quote written three times delimits text of several lines;
up to two more quotes at its end belong to the text.

* `readBasic` and `readLiteral` read text of one line, from behind its opening quote.
* `readBasicLines` and `readLiteralLines` read text of several lines, from behind its opening quotes.
* `text` reads any of the four.
-/

namespace PipelineParams.Toml

/-! ## Escapes -/

/-- The character with a given code point, unless that is half a surrogate pair. -/
def scalar? (n : Nat) : Option Char :=
  if n < 0xD800 ∨ (0xDFFF < n ∧ n < 0x110000) then some (Char.ofNat n) else none

def shortEscape? (c : Char) : Option Char :=
  if c = '"' then some '"'
  else if c = '\\' then some '\\'
  else if c = 'b' then some '\x08'
  else if c = 'f' then some '\x0c'
  else if c = 'n' then some '\n'
  else if c = 'r' then some '\r'
  else if c = 't' then some '\t'
  else none

def hexLength? (c : Char) : Option Nat :=
  if c = 'u' then some 4 else if c = 'U' then some 8 else none

def readEscape : List Char → Except Malformed (Char × List Char)
  | [] => .error .malformed
  | c :: cs =>
    match hexLength? c with
    | some count =>
      match Text.readHex 0 count cs with
      | none => .error .malformed
      | some (n, rest) =>
        match scalar? n with
        | some named => .ok (named, rest)
        | none => .error .malformed
    | none =>
      match shortEscape? c with
      | some meant => .ok (meant, cs)
      | none => .error .malformed

theorem length_of_readEscape {cs : List Char} {c : Char} {r : List Char}
    (h : readEscape cs = .ok (c, r)) : r.length < cs.length := by
  cases cs with
  | nil => cases h
  | cons d cs =>
    rw [readEscape] at h
    split at h
    · split at h
      · cases h
      next read =>
        split at h
        · cases h
          have := Text.length_of_readHex read
          simp only [List.length_cons]
          omega
        · cases h
    · split at h
      · cases h; exact Nat.lt_succ_self _
      · cases h

/-! ## One line -/

def readBasic (done : List Char) : List Char → Except Malformed (List Char × List Char)
  | [] => .error .malformed
  | c :: cs =>
    if c = '"' then .ok (done.reverse, cs)
    else if c = '\\' then
      match _ : readEscape cs with
      | .error e => .error e
      | .ok (meant, rest) => readBasic (meant :: done) rest
    else if isPrintable c then readBasic (c :: done) cs
    else .error .malformed
termination_by cs => cs.length
decreasing_by
  all_goals simp only [List.length_cons]
  · exact Nat.lt_succ_of_lt (length_of_readEscape ‹_›)
  · exact Nat.lt_succ_self _

theorem length_of_readBasic {done cs text r : List Char} (h : readBasic done cs = .ok (text, r)) :
    r.length < cs.length := by
  fun_induction readBasic done cs with
  | case1 => cases h
  | case2 done cs => cases h; exact Nat.lt_succ_self _
  | case3 => cases h
  | case4 done cs meant rest eq _ ih =>
    exact Nat.lt_succ_of_lt (Nat.lt_trans (ih h) (length_of_readEscape eq))
  | case5 done c cs _ _ _ ih => exact Nat.lt_succ_of_lt (ih h)
  | case6 => cases h

def readLiteral (done : List Char) : List Char → Except Malformed (List Char × List Char)
  | [] => .error .malformed
  | c :: cs =>
    if c = '\'' then .ok (done.reverse, cs)
    else if isPrintable c then readLiteral (c :: done) cs
    else .error .malformed

theorem length_of_readLiteral {done cs text r : List Char}
    (h : readLiteral done cs = .ok (text, r)) : r.length < cs.length := by
  induction cs generalizing done with
  | nil => cases h
  | cons c cs ih =>
    rw [readLiteral] at h
    split at h
    · cases h; exact Nat.lt_succ_self _
    · split at h
      · exact Nat.lt_succ_of_lt (ih h)
      · cases h

/-! ## Several lines -/

def dropLines : List Char → List Char
  | [] => []
  | c :: cs =>
    if isBlank c ∨ c = '\n' then dropLines cs
    else if c = '\r' then
      match cs with
      | [] => [c]
      | d :: rest => if d = '\n' then dropLines rest else c :: d :: rest
    else c :: cs

theorem length_dropLines_le (cs : List Char) : (dropLines cs).length ≤ cs.length := by
  fun_induction dropLines cs with
  | case1 => exact Nat.le_refl _
  | case2 c cs _ ih => exact Nat.le_succ_of_le ih
  | case3 => exact Nat.le_refl _
  | case4 _ rest ih => exact Nat.le_succ_of_le (Nat.le_succ_of_le ih)
  | case5 => exact Nat.le_refl _
  | case6 => exact Nat.le_refl _

/-- What is behind a backslash at the end of a line: the next character that is neither a blank nor a
line break. -/
def lineEnd? (cs : List Char) : Option (List Char) :=
  (lineBreak? (dropBlank isBlank cs)).map dropLines

theorem length_of_lineEnd? {cs rest : List Char} (h : lineEnd? cs = some rest) :
    rest.length < cs.length := by
  obtain ⟨next, broken, rfl⟩ := Option.map_eq_some_iff.1 h
  have := length_of_lineBreak? broken
  have := length_dropBlank_le isBlank cs
  have := length_dropLines_le next
  omega

def quoteRun (quote : Char) (cs : List Char) : Nat := (cs.takeWhile (· = quote)).length

theorem quoteRun_pos (quote : Char) (cs : List Char) : 0 < quoteRun quote (quote :: cs) := by
  simp [quoteRun]

/-- What a run of quotes does inside text of several lines. -/
inductive RunEnd where
  /-- The quotes belong to the text and the text goes on. -/
  | goesOn (quotes : Nat)
  /-- The last three quotes end the text, the others belong to it. -/
  | ends (quotes : Nat)
  | tooMany
  deriving DecidableEq

/-- Fewer than three quotes go on, three to five end the text. -/
def RunEnd.ofLength (n : Nat) : RunEnd :=
  if n < 3 then .goesOn n else if n ≤ 5 then .ends (n - 3) else .tooMany

def readBasicLines (done cs : List Char) : Except Malformed (List Char × List Char) :=
  match cs with
  | [] => .error .malformed
  | c :: rest =>
    if c = '"' then
      let n := quoteRun '"' (c :: rest)
      -- a run of quotes is taken as a whole: up to two of them belong to the text
      match RunEnd.ofLength n with
      | .goesOn k => readBasicLines (List.replicate k '"' ++ done) ((c :: rest).drop n)
      | .ends k => .ok ((List.replicate k '"' ++ done).reverse, (c :: rest).drop n)
      | .tooMany => .error .malformed
    else if c = '\\' then
      -- a backslash at the end of a line takes the line break and the blanks behind it with it
      match _ : lineEnd? rest with
      | some next => readBasicLines done next
      | none =>
        match _ : readEscape rest with
        | .error e => .error e
        | .ok (meant, next) => readBasicLines (meant :: done) next
    else
      match _ : lineBreak? (c :: rest) with
      -- either kind of line break becomes a line feed
      | some next => readBasicLines ('\n' :: done) next
      | none => if isPrintable c then readBasicLines (c :: done) rest else .error .malformed
termination_by cs.length
decreasing_by
  · have := quoteRun_pos '"' rest
    subst c
    simp only [List.length_drop, List.length_cons]
    omega
  · exact Nat.lt_succ_of_lt (length_of_lineEnd? ‹_›)
  · exact Nat.lt_succ_of_lt (length_of_readEscape ‹_›)
  · exact length_of_lineBreak? ‹_›
  · exact Nat.lt_succ_self _

theorem length_of_readBasicLines {done cs text r : List Char}
    (h : readBasicLines done cs = .ok (text, r)) : r.length < cs.length := by
  fun_induction readBasicLines done cs with
  | case1 => cases h
  | case2 done rest n k _ ih =>
    have := quoteRun_pos '"' rest
    have := ih h
    simp only [List.length_drop, List.length_cons] at *
    omega
  | case3 done rest n k _ =>
    have := quoteRun_pos '"' rest
    cases h
    simp only [List.length_drop, List.length_cons]
    omega
  | case4 => cases h
  | case5 done rest next eq _ ih =>
    exact Nat.lt_succ_of_lt (Nat.lt_trans (ih h) (length_of_lineEnd? eq))
  | case6 => cases h
  | case7 done rest _ meant next eq _ ih =>
    exact Nat.lt_succ_of_lt (Nat.lt_trans (ih h) (length_of_readEscape eq))
  | case8 done c rest _ _ next eq ih => exact Nat.lt_trans (ih h) (length_of_lineBreak? eq)
  | case9 done c rest _ _ _ _ ih => exact Nat.lt_succ_of_lt (ih h)
  | case10 => cases h

def readLiteralLines (done cs : List Char) : Except Malformed (List Char × List Char) :=
  match cs with
  | [] => .error .malformed
  | c :: rest =>
    if c = '\'' then
      let n := quoteRun '\'' (c :: rest)
      match RunEnd.ofLength n with
      | .goesOn k => readLiteralLines (List.replicate k '\'' ++ done) ((c :: rest).drop n)
      | .ends k => .ok ((List.replicate k '\'' ++ done).reverse, (c :: rest).drop n)
      | .tooMany => .error .malformed
    else
      match _ : lineBreak? (c :: rest) with
      | some next => readLiteralLines ('\n' :: done) next
      | none => if isPrintable c then readLiteralLines (c :: done) rest else .error .malformed
termination_by cs.length
decreasing_by
  · have := quoteRun_pos '\'' rest
    subst c
    simp only [List.length_drop, List.length_cons]
    omega
  · exact length_of_lineBreak? ‹_›
  · exact Nat.lt_succ_self _

theorem length_of_readLiteralLines {done cs text r : List Char}
    (h : readLiteralLines done cs = .ok (text, r)) : r.length < cs.length := by
  fun_induction readLiteralLines done cs with
  | case1 => cases h
  | case2 done rest n k _ ih =>
    have := quoteRun_pos '\'' rest
    have := ih h
    simp only [List.length_drop, List.length_cons] at *
    omega
  | case3 done rest n k _ =>
    have := quoteRun_pos '\'' rest
    cases h
    simp only [List.length_drop, List.length_cons]
    omega
  | case4 => cases h
  | case5 done c rest _ next eq ih => exact Nat.lt_trans (ih h) (length_of_lineBreak? eq)
  | case6 done c rest _ _ _ ih => exact Nat.lt_succ_of_lt (ih h)
  | case7 => cases h

/-! ## Any of them -/

/-- The text behind the two quotes that make three of the one before them. -/
def threefold? (quote : Char) : List Char → Option (List Char)
  | a :: b :: cs => if a = quote ∧ b = quote then some ((lineBreak? cs).getD cs) else none
  | _ => none

theorem length_of_threefold? {quote : Char} {cs rest : List Char}
    (h : threefold? quote cs = some rest) : rest.length < cs.length := by
  unfold threefold? at h
  split at h
  next a b cs =>
    split at h
    · cases h
      simp only [List.length_cons]
      cases broken : lineBreak? cs with
      | none => simp only [Option.getD_none]; omega
      | some next =>
        have := length_of_lineBreak? broken
        simp only [Option.getD_some]
        omega
    · cases h
  · cases h

/-- Reads text that may not span lines, from its opening quote. -/
def readLine : List Char → Except Malformed (List Char × List Char)
  | [] => .error .malformed
  | c :: cs =>
    if c = '"' then readBasic [] cs
    else if c = '\'' then readLiteral [] cs
    else .error .malformed

def readText : List Char → Except Malformed (List Char × List Char)
  | [] => .error .malformed
  | c :: cs =>
    match threefold? c cs with
    | some body =>
      if c = '"' then readBasicLines [] body
      else if c = '\'' then readLiteralLines [] body
      else .error .malformed
    | none => readLine (c :: cs)

theorem length_of_readLine {cs text r : List Char} (h : readLine cs = .ok (text, r)) :
    r.length < cs.length := by
  cases cs with
  | nil => cases h
  | cons c cs =>
    rw [readLine] at h
    split at h
    · exact Nat.lt_succ_of_lt (length_of_readBasic h)
    · split at h
      · exact Nat.lt_succ_of_lt (length_of_readLiteral h)
      · cases h

theorem length_of_readText {cs text r : List Char} (h : readText cs = .ok (text, r)) :
    r.length < cs.length := by
  cases cs with
  | nil => cases h
  | cons c cs =>
    rw [readText] at h
    split at h
    next body opened =>
      have := length_of_threefold? opened
      split at h
      · have := length_of_readBasicLines h
        simp only [List.length_cons]
        omega
      · split at h
        · have := length_of_readLiteralLines h
          simp only [List.length_cons]
          omega
        · cases h
    · exact length_of_readLine h

def text : Reader String where
  run cs :=
    match readText cs with
    | .error e => .error e
    | .ok (chars, rest) => .ok (String.ofList chars, rest)
  shorter := by
    intro cs a rest h
    split at h
    · cases h
    next read =>
      cases h
      exact length_of_readText read

end PipelineParams.Toml
