import Mathlib.Tactic.SplitIfs
import PipelineParams.Toml.Printer

/-! # Text survives being written

Whatever form a text is written in, reading gives the text back and stops right behind it.

* `basicChar_cases` — a character between double quotes is written as an escape that denotes it, or
  as itself.
* `fits_textForm` — the form that is chosen for a text can hold it.
* `readText_writeText` — what is written for a text is read back.

Text of several lines is the hard part.  The reader takes a run of quotes as a whole, and the quotes
that end the text join the run of those before them.  So the inductions carry the quotes that have
been written and not yet read (`readBasicLines_pending`, `readLiteralLines_pending`); there are never
more than two of them, and with the three at the end that makes at most five.
-/

namespace PipelineParams.Toml

/-! ## Characters -/

theorem isPrintable_of_not_isControl {c : Char} (notControl : isControl c = false) :
    isPrintable c = true := by
  simp only [isControl, Bool.or_eq_false_iff, Bool.and_eq_false_iff, decide_eq_false_iff_not,
    beq_eq_false_iff_ne, bne_eq_false_iff_eq, UInt32.not_lt] at notControl
  simp only [isPrintable, Bool.or_eq_true, Bool.and_eq_true, beq_iff_eq, bne_iff_ne,
    decide_eq_true_eq]
  obtain ⟨large | tab, notDelete⟩ := notControl
  · exact .inr ⟨large, notDelete⟩
  · exact .inl tab

theorem lineBreak?_eq_none {c : Char} {cs : List Char} (notFeed : c ≠ '\n') (notReturn : c ≠ '\r') :
    lineBreak? (c :: cs) = none := by
  rw [lineBreak?]
  · intro tail same
    exact notFeed (List.cons.inj same).1
  · intro tail same
    exact notReturn (List.cons.inj same).1

theorem hexDigit?_hexDigit (n : Nat) : Text.hexDigit? (hexDigit n) = some (n % 16) := by
  have digits : ∀ d, d < 16 → Text.hexDigit? (Nat.digitChar d).toUpper = some d := by decide
  exact digits (n % 16) (Nat.mod_lt n (by decide))

/-- A control character is written by its code point, with two leading zeros. -/
theorem readEscape_control {c : Char} (control : isControl c = true) (rest : List Char) :
    readEscape ('u' :: '0' :: '0' :: hexDigit (c.toNat / 16) :: hexDigit c.toNat :: rest) =
      .ok (c, rest) := by
  have small : c.toNat < 128 := by
    simp only [isControl, Bool.or_eq_true, Bool.and_eq_true, decide_eq_true_eq, beq_iff_eq,
      UInt32.lt_iff_toNat_lt, ← UInt32.toNat_inj] at control
    show c.val.toNat < 128
    rcases control with ⟨low, -⟩ | delete
    · exact Nat.lt_trans low (by decide)
    · rw [delete]
      decide
  have zero : Text.hexDigit? '0' = some 0 := by decide
  have value : ((0 * 16 + 0) * 16 + c.toNat / 16 % 16) * 16 + c.toNat % 16 = c.toNat := by omega
  have hex : Text.readHex 0 4
      ('0' :: '0' :: hexDigit (c.toNat / 16) :: hexDigit c.toNat :: rest) = some (c.toNat, rest) := by
    simp only [Text.readHex, zero, hexDigit?_hexDigit, value]
  have named : scalar? c.toNat = some c := by
    rw [scalar?, if_pos (by omega), Char.ofNat_toNat]
  rw [readEscape]
  simp only [hexLength?, ↓reduceIte, hex, named]

theorem lineEnd?_eq_none {c : Char} {cs : List Char} (solid : isBlank c = false) (notFeed : c ≠ '\n')
    (notReturn : c ≠ '\r') : lineEnd? (c :: cs) = none := by
  rw [lineEnd?, dropBlank_cons solid, lineBreak?_eq_none notFeed notReturn]
  rfl

/-- An escape is read as `c`, and its backslash does not end a line. -/
structure Escapes (esc : List Char) (c : Char) : Prop where
  read : ∀ rest, readEscape (esc ++ rest) = .ok (c, rest)
  notEnd : ∀ rest, lineEnd? (esc ++ rest) = none

structure Plain (c : Char) : Prop where
  ne_quote : c ≠ '"'
  ne_backslash : c ≠ '\\'
  printable : isPrintable c = true
  ne_feed : c ≠ '\n'
  ne_return : c ≠ '\r'

/-- A character between double quotes is written as an escape, or it is plain and written as itself. -/
theorem basicChar_cases (c : Char) :
    (∃ esc, basicChar c = '\\' :: esc ∧ Escapes esc c) ∨ (basicChar c = [c] ∧ Plain c) := by
  have short : ∀ {e : Char}, hexLength? e = none → shortEscape? e = some c → isBlank e = false →
      e ≠ '\n' → e ≠ '\r' → Escapes [e] c := by
    intro e notHex known solid notFeed notReturn
    refine ⟨fun rest => ?_, fun rest => lineEnd?_eq_none solid notFeed notReturn⟩
    rw [List.singleton_append, readEscape]
    simp only [notHex, known]
  rw [basicChar]
  split_ifs with backspace tab feed formFeed return' quote backslash control
  · subst backspace; exact .inl ⟨['b'], rfl, short rfl rfl rfl (by decide) (by decide)⟩
  · subst tab; exact .inl ⟨['t'], rfl, short rfl rfl rfl (by decide) (by decide)⟩
  · subst feed; exact .inl ⟨['n'], rfl, short rfl rfl rfl (by decide) (by decide)⟩
  · subst formFeed; exact .inl ⟨['f'], rfl, short rfl rfl rfl (by decide) (by decide)⟩
  · subst return'; exact .inl ⟨['r'], rfl, short rfl rfl rfl (by decide) (by decide)⟩
  · subst quote; exact .inl ⟨['"'], rfl, short rfl rfl rfl (by decide) (by decide)⟩
  · subst backslash; exact .inl ⟨['\\'], rfl, short rfl rfl rfl (by decide) (by decide)⟩
  · refine .inl ⟨_, rfl, readEscape_control control, fun rest => ?_⟩
    exact lineEnd?_eq_none (by decide) (by decide) (by decide)
  · have printable := isPrintable_of_not_isControl (Bool.not_eq_true _ ▸ control)
    exact .inr ⟨rfl, quote, backslash, printable, feed, return'⟩

/-! ## One line -/

theorem readBasic_backslash {done cs rest : List Char} {c : Char}
    (escape : readEscape cs = .ok (c, rest)) :
    readBasic done ('\\' :: cs) = readBasic (c :: done) rest := by
  rw [readBasic, if_neg (by decide), if_pos rfl]
  split
  next fault => cases escape.symm.trans fault
  next escape' =>
    obtain ⟨rfl, rfl⟩ := Prod.mk.inj (Except.ok.inj (escape.symm.trans escape'))
    rfl

theorem readBasic_basicChar (done : List Char) (c : Char) (rest : List Char) :
    readBasic done (basicChar c ++ rest) = readBasic (c :: done) rest := by
  rcases basicChar_cases c with ⟨esc, written, escapes⟩ | ⟨written, plain⟩
  · rw [written, List.cons_append, readBasic_backslash (escapes.read rest)]
  · rw [written, List.singleton_append, readBasic, if_neg plain.ne_quote, if_neg plain.ne_backslash,
      if_pos plain.printable]

theorem readBasic_flatMap (done cs rest : List Char) :
    readBasic done (cs.flatMap basicChar ++ '"' :: rest) = .ok (done.reverse ++ cs, rest) := by
  induction cs generalizing done with
  | nil => rw [List.flatMap_nil, List.nil_append, readBasic, if_pos rfl, List.append_nil]
  | cons c cs ih =>
    rw [List.flatMap_cons, List.append_assoc, readBasic_basicChar, ih]
    simp

theorem readLiteral_append {cs : List Char} (noQuote : '\'' ∉ cs)
    (printable : ∀ c ∈ cs, isPrintable c = true) (done rest : List Char) :
    readLiteral done (cs ++ '\'' :: rest) = .ok (done.reverse ++ cs, rest) := by
  induction cs generalizing done with
  | nil => rw [List.nil_append, readLiteral, if_pos rfl, List.append_nil]
  | cons c cs ih =>
    simp only [List.mem_cons, not_or] at noQuote
    rw [List.cons_append, readLiteral, if_neg (Ne.symm noQuote.1),
      if_pos (printable c List.mem_cons_self),
      ih noQuote.2 fun d member => printable d (List.mem_cons_of_mem c member)]
    simp

/-! ## Runs of quotes -/

theorem quoteRun_replicate {q d : Char} (other : d ≠ q) (k : Nat) (rest : List Char) :
    quoteRun q (List.replicate k q ++ d :: rest) = k := by
  have quotes : ∀ c ∈ List.replicate k q, decide (c = q) = true := by
    intro c member
    simp [List.eq_of_mem_replicate member]
  rw [quoteRun, List.takeWhile_append_of_pos quotes, List.takeWhile_cons_of_neg (by simpa using other)]
  simp

theorem replicate_append_cons (q : Char) (k : Nat) (cs : List Char) :
    List.replicate k q ++ q :: cs = List.replicate (k + 1) q ++ cs := by
  rw [List.replicate_succ', List.append_assoc]
  rfl

theorem drop_replicate (q : Char) (k : Nat) (cs : List Char) :
    (List.replicate k q ++ cs).drop k = cs := by
  rw [List.drop_append_of_le_length (by simp), List.drop_replicate, Nat.sub_self]
  rfl

theorem ofLength_of_le_two {k : Nat} (few : k ≤ 2) : RunEnd.ofLength k = .goesOn k := by
  rw [RunEnd.ofLength, if_pos (by omega)]

theorem ofLength_add_three {k : Nat} (few : k ≤ 2) : RunEnd.ofLength (k + 3) = .ends k := by
  rw [RunEnd.ofLength, if_neg (by omega), if_pos (by omega), Nat.add_sub_cancel]

/-! ## Several lines between double quotes -/

variable {d : Char} {done rest : List Char}

/-- The quotes that have been written are read as soon as something else follows. -/
theorem readBasicLines_flush {run : Nat} (few : run ≤ 2) (other : d ≠ '"') :
    readBasicLines done (List.replicate run '"' ++ d :: rest) =
      readBasicLines (List.replicate run '"' ++ done) (d :: rest) := by
  cases run with
  | zero => rfl
  | succ k =>
    have run := quoteRun_replicate other (k + 1) rest
    have drop := drop_replicate '"' (k + 1) (d :: rest)
    rw [List.replicate_succ, List.cons_append] at run drop ⊢
    rw [readBasicLines, if_pos rfl]
    simp only [run, drop, ofLength_of_le_two few, List.replicate_succ]

theorem readBasicLines_close {run : Nat} (few : run ≤ 2) (other : d ≠ '"') :
    readBasicLines done (List.replicate (run + 3) '"' ++ d :: rest) =
      .ok ((List.replicate run '"' ++ done).reverse, d :: rest) := by
  have run' := quoteRun_replicate other (run + 3) rest
  have drop := drop_replicate '"' (run + 3) (d :: rest)
  rw [List.replicate_succ, List.cons_append] at run' drop ⊢
  rw [readBasicLines, if_pos rfl]
  simp only [run', drop, ofLength_add_three few]

theorem readBasicLines_feed :
    readBasicLines done ('\n' :: rest) = readBasicLines ('\n' :: done) rest := by
  rw [readBasicLines]
  rfl

theorem readBasicLines_backslash {esc : List Char} {c : Char} (escapes : Escapes esc c) :
    readBasicLines done ('\\' :: (esc ++ rest)) = readBasicLines (c :: done) rest := by
  rw [readBasicLines, if_neg (by decide), if_pos rfl]
  split
  next ended => cases (escapes.notEnd rest).symm.trans ended
  next =>
    split
    next fault => cases (escapes.read rest).symm.trans fault
    next read =>
      obtain ⟨rfl, rfl⟩ := Prod.mk.inj (Except.ok.inj ((escapes.read rest).symm.trans read))
      rfl

theorem readBasicLines_plain {c : Char} (plain : Plain c) :
    readBasicLines done (c :: rest) = readBasicLines (c :: done) rest := by
  rw [readBasicLines, if_neg plain.ne_quote, if_neg plain.ne_backslash]
  split
  next broken => cases (lineBreak?_eq_none plain.ne_feed plain.ne_return).symm.trans broken
  next => rw [if_pos plain.printable]

/-- A character that is written behind quotes is read with them. -/
theorem readBasicLines_basicChar {run : Nat} (few : run ≤ 2) (done : List Char) (c : Char)
    (rest : List Char) :
    readBasicLines done (List.replicate run '"' ++ (basicChar c ++ rest)) =
      readBasicLines (c :: (List.replicate run '"' ++ done)) rest := by
  rcases basicChar_cases c with ⟨esc, written, escapes⟩ | ⟨written, plain⟩
  · rw [written, List.cons_append, readBasicLines_flush few (by decide),
      readBasicLines_backslash escapes]
  · rw [written, List.singleton_append, readBasicLines_flush few plain.ne_quote,
      readBasicLines_plain plain]

/-- Reading goes on behind `run` quotes that have been written and not yet read. -/
theorem readBasicLines_pending (other : d ≠ '"') {run : Nat} (few : run ≤ 2)
    (done cs rest : List Char) :
    readBasicLines done
        (List.replicate run '"' ++ (basicLinesChars run cs ++ '"' :: '"' :: '"' :: d :: rest)) =
      .ok (done.reverse ++ (List.replicate run '"' ++ cs), d :: rest) := by
  induction cs generalizing run done with
  | nil =>
    rw [basicLinesChars, List.nil_append, replicate_append_cons, replicate_append_cons,
      replicate_append_cons, readBasicLines_close few other]
    simp
  | cons c cs ih =>
    -- behind a character that is no quote in a run, no quotes are pending
    have next : ∀ done, readBasicLines done (basicLinesChars 0 cs ++ '"' :: '"' :: '"' :: d :: rest) =
        .ok (done.reverse ++ cs, d :: rest) := fun done => ih (Nat.zero_le 2) done
    rw [basicLinesChars]
    split
    next quote =>
      subst quote
      split
      next full =>
        -- the third quote in a row is escaped, and counting starts anew behind it
        have escaped : basicChar '"' = ['\\', '"'] := by decide
        have read := readBasicLines_basicChar few done '"'
        rw [escaped] at read
        rw [List.cons_append, List.cons_append]
        have behind := next ('"' :: (List.replicate run '"' ++ done))
        exact (read _).trans (behind.trans (by simp))
      next room =>
        rw [List.cons_append, replicate_append_cons, ih (by omega), replicate_append_cons]
    next notQuote =>
      split
      next feed =>
        subst feed
        rw [List.cons_append, readBasicLines_flush few (by decide), readBasicLines_feed, next]
        simp
      next =>
        rw [List.append_assoc, readBasicLines_basicChar few, next]
        simp

/-! ## Several lines between single quotes -/

theorem readLiteralLines_flush {run : Nat} (few : run ≤ 2) (other : d ≠ '\'') :
    readLiteralLines done (List.replicate run '\'' ++ d :: rest) =
      readLiteralLines (List.replicate run '\'' ++ done) (d :: rest) := by
  cases run with
  | zero => rfl
  | succ k =>
    have run := quoteRun_replicate other (k + 1) rest
    have drop := drop_replicate '\'' (k + 1) (d :: rest)
    rw [List.replicate_succ, List.cons_append] at run drop ⊢
    rw [readLiteralLines, if_pos rfl]
    simp only [run, drop, ofLength_of_le_two few, List.replicate_succ]

theorem readLiteralLines_close {run : Nat} (few : run ≤ 2) (other : d ≠ '\'') :
    readLiteralLines done (List.replicate (run + 3) '\'' ++ d :: rest) =
      .ok ((List.replicate run '\'' ++ done).reverse, d :: rest) := by
  have run' := quoteRun_replicate other (run + 3) rest
  have drop := drop_replicate '\'' (run + 3) (d :: rest)
  rw [List.replicate_succ, List.cons_append] at run' drop ⊢
  rw [readLiteralLines, if_pos rfl]
  simp only [run', drop, ofLength_add_three few]

theorem readLiteralLines_feed :
    readLiteralLines done ('\n' :: rest) = readLiteralLines ('\n' :: done) rest := by
  rw [readLiteralLines]
  rfl

theorem readLiteralLines_plain {c : Char} (other : c ≠ '\'') (printable : isPrintable c = true)
    (notFeed : c ≠ '\n') : readLiteralLines done (c :: rest) = readLiteralLines (c :: done) rest := by
  have notReturn : c ≠ '\r' := by
    rintro rfl
    cases printable
  rw [readLiteralLines, if_neg other]
  split
  next broken => cases (lineBreak?_eq_none notFeed notReturn).symm.trans broken
  next => rw [if_pos printable]

theorem hasRun_replicate {q : Char} {run : Nat} (full : 2 < run) (cs : List Char) :
    hasRun q (List.replicate run q ++ cs) = true := by
  obtain ⟨more, rfl⟩ := Nat.exists_eq_add_of_lt full
  rw [show 2 + more + 1 = more + 1 + 1 + 1 by omega]
  simp [List.replicate_succ, hasRun]

theorem run_le_two {q : Char} {run : Nat} {cs : List Char}
    (noRun : hasRun q (List.replicate run q ++ cs) = false) : run ≤ 2 := by
  refine Nat.le_of_not_lt fun many => ?_
  rw [hasRun_replicate many] at noRun
  cases noRun

theorem hasRun_tail {q c : Char} {cs : List Char} (absent : hasRun q (c :: cs) = false) :
    hasRun q cs = false := by
  cases cs with
  | nil => rfl
  | cons a cs =>
    cases cs with
    | nil => rfl
    | cons b cs =>
      rw [hasRun, Bool.or_eq_false_iff] at absent
      exact absent.2

theorem hasRun_of_append {q : Char} (front : List Char) {cs : List Char}
    (absent : hasRun q (front ++ cs) = false) : hasRun q cs = false := by
  induction front with
  | nil => exact absent
  | cons c front ih => exact ih (hasRun_tail absent)

/-- As between double quotes, but no run of quotes that is written is longer than two. -/
theorem readLiteralLines_pending (other : d ≠ '\'') {run : Nat} {cs : List Char}
    (noRun : hasRun '\'' (List.replicate run '\'' ++ cs) = false)
    (printable : ∀ c ∈ cs, isPrintable c = true ∨ c = '\n') (done rest : List Char) :
    readLiteralLines done
        (List.replicate run '\'' ++ (cs ++ '\'' :: '\'' :: '\'' :: d :: rest)) =
      .ok (done.reverse ++ (List.replicate run '\'' ++ cs), d :: rest) := by
  have few : run ≤ 2 := run_le_two noRun
  induction cs generalizing run done with
  | nil =>
    rw [List.nil_append, replicate_append_cons, replicate_append_cons, replicate_append_cons,
      readLiteralLines_close few other]
    simp
  | cons c cs ih =>
    have printable' : ∀ d ∈ cs, isPrintable d = true ∨ d = '\n' :=
      fun d member => printable d (List.mem_cons_of_mem c member)
    by_cases quote : c = '\''
    · subst quote
      rw [List.cons_append, replicate_append_cons, replicate_append_cons]
      rw [replicate_append_cons] at noRun
      exact ih noRun printable' done (run_le_two noRun)
    · have noRun' : hasRun '\'' (List.replicate 0 '\'' ++ cs) = false :=
        hasRun_tail (hasRun_of_append _ noRun)
      have next : ∀ done, readLiteralLines done (cs ++ '\'' :: '\'' :: '\'' :: d :: rest) =
          .ok (done.reverse ++ cs, d :: rest) := fun done => ih noRun' printable' done (Nat.zero_le 2)
      have step : readLiteralLines (List.replicate run '\'' ++ done)
          (c :: (cs ++ '\'' :: '\'' :: '\'' :: d :: rest)) =
          readLiteralLines (c :: (List.replicate run '\'' ++ done))
            (cs ++ '\'' :: '\'' :: '\'' :: d :: rest) := by
        by_cases feed : c = '\n'
        · subst feed
          exact readLiteralLines_feed
        · exact readLiteralLines_plain quote
            ((printable c List.mem_cons_self).resolve_right feed) feed
      rw [List.cons_append, readLiteralLines_flush few quote, step, next]
      simp

/-! ## Any form -/

/-- A form can hold a text as it is written.  The forms with escapes can hold every text. -/
def Fits : TextForm → List Char → Prop
  | .literal, cs => '\'' ∉ cs ∧ ∀ c ∈ cs, isPrintable c = true
  | .literalLines, cs => hasRun '\'' cs = false ∧ ∀ c ∈ cs, isPrintable c = true ∨ c = '\n'
  | .basic, _ => True
  | .basicLines, _ => True

theorem printable_or_feed {cs : List Char}
    (noControl : (cs.any fun c => isControl c && c != '\n') = false) :
    ∀ c ∈ cs, isPrintable c = true ∨ c = '\n' := by
  intro c member
  by_cases feed : c = '\n'
  · exact .inr feed
  · have := List.any_eq_false.1 noControl c member
    exact .inl (isPrintable_of_not_isControl (by simpa [feed] using this))

theorem fits_textForm (cs : List Char) : Fits (textForm cs) cs := by
  rw [textForm]
  split_ifs with basic literal basicLines literalLines feeds
  · trivial
  · simp only [Bool.and_eq_true, Bool.not_eq_true', List.contains_eq_mem,
      decide_eq_false_iff_not] at literal
    obtain ⟨⟨noControl, noFeed⟩, noQuote⟩ := literal
    refine ⟨noQuote, fun c member => (printable_or_feed noControl c member).resolve_right ?_⟩
    rintro rfl
    exact noFeed member
  · trivial
  · simp only [Bool.and_eq_true, Bool.not_eq_true'] at literalLines
    exact ⟨literalLines.2, printable_or_feed literalLines.1⟩
  · trivial
  · trivial

/-- Text in one of the two forms of one line. -/
theorem readLine_writeForm {form : TextForm} {cs : List Char} (fits : Fits form cs)
    (line : form = .basic ∨ form = .literal) (rest : List Char) :
    readLine (writeForm form cs ++ rest) = .ok (cs, rest) := by
  rcases line with rfl | rfl
  · have read := readBasic_flatMap [] cs rest
    simpa [writeForm, readLine] using read
  · have read := readLiteral_append fits.1 fits.2 [] rest
    simpa [writeForm, readLine] using read

/-- Behind the three quotes that open text of several lines, a line feed is dropped.  It is written
where the text has one, and otherwise the text does not begin with a line break. -/
theorem threefold?_lineBreak (q : Char) (cs : List Char) {body : List Char}
    (start : '\n' ∉ cs → lineBreak? body = none) :
    threefold? q (q :: q :: ((if cs.contains '\n' then ['\n'] else []) ++ body)) = some body := by
  rw [threefold?, if_pos ⟨rfl, rfl⟩]
  split_ifs with feeds
  · rfl
  · have noFeed : '\n' ∉ cs := by simpa using feeds
    rw [List.nil_append, start noFeed]
    rfl

theorem lineBreak?_basicLinesChars {cs : List Char} (noFeed : '\n' ∉ cs) (rest : List Char) :
    lineBreak? (basicLinesChars 0 cs ++ '"' :: rest) = none := by
  cases cs with
  | nil => exact lineBreak?_eq_none (by decide) (by decide)
  | cons c cs =>
    simp only [List.mem_cons, not_or] at noFeed
    rw [basicLinesChars]
    split_ifs with quote full feed
    · cases full
    · exact lineBreak?_eq_none (by decide) (by decide)
    · exact absurd feed.symm noFeed.1
    · rcases basicChar_cases c with ⟨esc, written, -⟩ | ⟨written, plain⟩
      · rw [written]
        exact lineBreak?_eq_none (by decide) (by decide)
      · rw [written]
        exact lineBreak?_eq_none plain.ne_feed plain.ne_return

theorem lineBreak?_literalLines {cs : List Char} (noFeed : '\n' ∉ cs)
    (printable : ∀ c ∈ cs, isPrintable c = true ∨ c = '\n') (rest : List Char) :
    lineBreak? (cs ++ '\'' :: rest) = none := by
  cases cs with
  | nil => exact lineBreak?_eq_none (by decide) (by decide)
  | cons c cs =>
    simp only [List.mem_cons, not_or] at noFeed
    have printable' := (printable c List.mem_cons_self).resolve_right (Ne.symm noFeed.1)
    refine lineBreak?_eq_none (Ne.symm noFeed.1) ?_
    rintro rfl
    cases printable'

theorem threefold?_eq_none {q a : Char} (other : a ≠ q) (cs : List Char) :
    threefold? q (a :: cs) = none := by
  cases cs with
  | nil => rfl
  | cons b cs =>
    rw [threefold?, if_neg]
    exact fun same => other same.1

/-- A quote that closes text of one line is no second opening quote. -/
theorem threefold?_of_close {q : Char} (other : d ≠ q) : threefold? q (q :: d :: rest) = none := by
  rw [threefold?, if_neg]
  exact fun same => other same.2

theorem readText_of_not_threefold {c : Char} {cs : List Char} (once : threefold? c cs = none) :
    readText (c :: cs) = readLine (c :: cs) := by
  rw [readText, once]

theorem readText_writeForm {form : TextForm} {cs : List Char} (fits : Fits form cs)
    (notBasic : d ≠ '"') (notLiteral : d ≠ '\'') :
    readText (writeForm form cs ++ d :: rest) = .ok (cs, d :: rest) := by
  cases form with
  | basic =>
    have once : threefold? '"' (cs.flatMap basicChar ++ '"' :: d :: rest) = none := by
      cases cs with
      | nil => exact threefold?_of_close notBasic
      | cons c cs =>
        rcases basicChar_cases c with ⟨esc, written, -⟩ | ⟨written, plain⟩
        · rw [List.flatMap_cons, written]
          exact threefold?_eq_none (by decide) _
        · rw [List.flatMap_cons, written]
          exact threefold?_eq_none plain.ne_quote _
    have read := readLine_writeForm fits (.inl rfl) (d :: rest)
    rw [writeForm, List.append_assoc, List.cons_append] at read ⊢
    rw [← read]
    exact readText_of_not_threefold once
  | literal =>
    have once : threefold? '\'' (cs ++ '\'' :: d :: rest) = none := by
      cases cs with
      | nil => exact threefold?_of_close notLiteral
      | cons c cs =>
        refine threefold?_eq_none ?_ _
        rintro rfl
        exact fits.1 List.mem_cons_self
    have read := readLine_writeForm fits (.inr rfl) (d :: rest)
    rw [writeForm, List.append_assoc, List.cons_append] at read ⊢
    rw [← read]
    exact readText_of_not_threefold once
  | basicLines =>
    have opened := threefold?_lineBreak '"' cs fun noFeed =>
      lineBreak?_basicLinesChars noFeed ('"' :: '"' :: d :: rest)
    have read := readBasicLines_pending notBasic (Nat.zero_le 2) [] cs rest
    simp only [writeForm, List.append_assoc, List.cons_append, List.nil_append] at read opened ⊢
    rw [readText, opened]
    exact read
  | literalLines =>
    have opened := threefold?_lineBreak '\'' cs fun noFeed =>
      lineBreak?_literalLines noFeed fits.2 ('\'' :: '\'' :: d :: rest)
    have noRun : hasRun '\'' (List.replicate 0 '\'' ++ cs) = false := fits.1
    have read := readLiteralLines_pending notLiteral noRun fits.2 [] rest
    simp only [writeForm, List.append_assoc, List.cons_append, List.nil_append] at read opened ⊢
    rw [readText, opened]
    exact read

/-- What is written for a text is read back, if what follows is no quote. -/
theorem readText_writeText (s : String) (notBasic : d ≠ '"') (notLiteral : d ≠ '\'') :
    readText (writeText s ++ d :: rest) = .ok (s.toList, d :: rest) :=
  readText_writeForm (fits_textForm s.toList) notBasic notLiteral

end PipelineParams.Toml
