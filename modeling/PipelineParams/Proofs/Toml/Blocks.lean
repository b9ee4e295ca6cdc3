import PipelineParams.Proofs.Toml.Key
import PipelineParams.Toml.Document

/-! # Blocks survive being written

A written file is read back as the statements that its blocks stand for: a header and one assignment
for each setting, in the order of the blocks.

* `run_writeSetting` — a setting is read as the value that it holds (`Setting.value`).
* `readStatements_block` — a block is read as its statements (`Block.statements`).
* `parse_writeBlocks` — a file is what the sections of its blocks define together.

Nothing that is written has a comment, a carriage return or a blank where the reader could stop
early, so each part is read in one step and what follows it does not matter but for its first
character.
-/

namespace PipelineParams.Toml

variable {d : Char} {rest : List Char}

/-! ## Text as a value -/

theorem exists_quote_writeText (s : String) :
    ∃ q cs, writeText s = q :: cs ∧ (q = '"' ∨ q = '\'') := by
  rw [writeText]
  cases textForm s.toList with
  | basic => exact ⟨'"', _, rfl, .inl rfl⟩
  | literal => exact ⟨'\'', _, rfl, .inr rfl⟩
  | basicLines => exact ⟨'"', _, rfl, .inl rfl⟩
  | literalLines => exact ⟨'\'', _, rfl, .inr rfl⟩

theorem run_scalar_writeText (s : String) (notBasic : d ≠ '"') (notLiteral : d ≠ '\'')
    (rest : List Char) :
    scalar.run (writeText s ++ d :: rest) = .ok (.string s, d :: rest) := by
  have read : text.run (writeText s ++ d :: rest) = .ok (s, d :: rest) := by
    rw [text]
    dsimp only
    rw [readText_writeText s notBasic notLiteral]
    simp
  obtain ⟨q, cs, written, quote⟩ := exists_quote_writeText s
  rw [written] at read ⊢
  rw [scalar]
  dsimp only [List.cons_append] at read ⊢
  rw [if_pos quote, PipelineParams.Reader.map]
  dsimp only
  rw [read]

/-- Text is read however many brackets are open around it. -/
theorem run_valueWithin_writeText (depth : Nat) (s : String) (notBasic : d ≠ '"')
    (notLiteral : d ≠ '\'') (rest : List Char) :
    (valueWithin depth).run (writeText s ++ d :: rest) = .ok (.string s, d :: rest) := by
  have read := run_scalar_writeText s notBasic notLiteral rest
  cases depth with
  | zero => exact read
  | succ depth =>
    obtain ⟨q, cs, written, quote⟩ := exists_quote_writeText s
    have notList : q ≠ '[' := by rcases quote with rfl | rfl <;> decide
    have notTable : q ≠ '\x7b' := by rcases quote with rfl | rfl <;> decide
    rw [written] at read ⊢
    rw [valueWithin, nested]
    dsimp only [List.cons_append] at read ⊢
    rw [if_neg notList, if_neg notTable, read]

/-! ## Arrays -/

theorem dropPadding_of_isBlank {c : Char} (blank : isBlank c = true) (cs : List Char) :
    dropPadding (c :: cs) = dropPadding cs := by
  rw [dropPadding, if_pos blank]

theorem dropPadding_feed (cs : List Char) : dropPadding ('\n' :: cs) = dropPadding cs := by
  rw [dropPadding]
  rfl

theorem dropPadding_of_solid {c : Char} (solid : isBlank c = false) (notComment : c ≠ '#')
    (notFeed : c ≠ '\n') (notReturn : c ≠ '\r') (cs : List Char) :
    dropPadding (c :: cs) = c :: cs := by
  rw [dropPadding, if_neg (by simp [solid]), if_neg notComment]
  split
  next broken => cases (lineBreak?_eq_none notFeed notReturn).symm.trans broken
  next => rfl

theorem dropPadding_writeText (s : String) (cs : List Char) :
    dropPadding (writeText s ++ cs) = writeText s ++ cs := by
  obtain ⟨q, tail, written, quote⟩ := exists_quote_writeText s
  rw [written, List.cons_append]
  rcases quote with rfl | rfl
  · exact dropPadding_of_solid (by decide) (by decide) (by decide) (by decide) _
  · exact dropPadding_of_solid (by decide) (by decide) (by decide) (by decide) _

variable {item : Reader Value} {done : List Value} {cs : List Char}

theorem readItems_close (close : dropPadding cs = ']' :: rest) :
    readItems item done cs = .ok (done.reverse, rest) := by
  rw [readItems]
  split
  next head => cases close.symm.trans head
  next head =>
    obtain ⟨rfl, rfl⟩ := List.cons.inj (close.symm.trans head)
    rw [if_pos rfl]

/-- What happens behind an item that has been read. -/
theorem readItems_of_run {c e : Char} {next behind : List Char} {v : Value}
    (start : dropPadding cs = c :: next) (open' : c ≠ ']')
    (read : item.run (c :: next) = .ok (v, behind)) (separator : dropPadding behind = e :: rest) :
    readItems item done cs =
      if e = ']' then .ok ((v :: done).reverse, rest)
      else if e = ',' then readItems item (v :: done) rest
      else .error .malformed := by
  conv => lhs; rw [readItems]
  split
  next head => cases start.symm.trans head
  next head =>
    obtain ⟨rfl, rfl⟩ := List.cons.inj (start.symm.trans head)
    rw [if_neg open']
    split
    next fault => cases read.symm.trans fault
    next read' =>
      obtain ⟨rfl, rfl⟩ := Prod.mk.inj (Except.ok.inj (read.symm.trans read'))
      split
      next head => cases separator.symm.trans head
      next head =>
        obtain ⟨rfl, rfl⟩ := List.cons.inj (separator.symm.trans head)
        rfl

/-- A text in an array, in front of the separator `e`. -/
theorem readItems_writeText {depth : Nat} {s : String} {e : Char}
    (start : dropPadding cs = writeText s ++ e :: rest) (separator : e = ']' ∨ e = ',') :
    readItems (valueWithin depth) done cs =
      if e = ']' then .ok ((.string s :: done).reverse, rest)
      else if e = ',' then readItems (valueWithin depth) (.string s :: done) rest
      else .error .malformed := by
  obtain ⟨q, tail, written, quote⟩ := exists_quote_writeText s
  have open' : q ≠ ']' := by rcases quote with rfl | rfl <;> decide
  have notBasic : e ≠ '"' := by rcases separator with rfl | rfl <;> decide
  have notLiteral : e ≠ '\'' := by rcases separator with rfl | rfl <;> decide
  have read := run_valueWithin_writeText depth s notBasic notLiteral rest
  have behind : dropPadding (e :: rest) = e :: rest := by
    rcases separator with rfl | rfl
    · exact dropPadding_of_solid (by decide) (by decide) (by decide) (by decide) _
    · exact dropPadding_of_solid (by decide) (by decide) (by decide) (by decide) _
  rw [written, List.cons_append] at start read
  exact readItems_of_run start open' read behind

theorem readItems_last {depth : Nat} {s : String}
    (start : dropPadding cs = writeText s ++ ']' :: rest) :
    readItems (valueWithin depth) done cs = .ok ((.string s :: done).reverse, rest) := by
  rw [readItems_writeText start (.inl rfl), if_pos rfl]

theorem readItems_comma {depth : Nat} {s : String}
    (start : dropPadding cs = writeText s ++ ',' :: rest) :
    readItems (valueWithin depth) done cs =
      readItems (valueWithin depth) (.string s :: done) rest := by
  rw [readItems_writeText start (.inr rfl), if_neg (by decide), if_pos rfl]

/-- The items of an array with a line for each, from behind the line break before the first one. -/
theorem readItems_lines (depth : Nat) (items : List String) (done : List Value) (rest : List Char) :
    readItems (valueWithin depth) done
        ('\n' :: (items.flatMap (fun s => [' ', ' ', ' ', ' '] ++ writeText s ++ [',', '\n']) ++
          ']' :: rest)) =
      .ok (done.reverse ++ items.map .string, rest) := by
  induction items generalizing done with
  | nil =>
    have close : dropPadding ('\n' :: ']' :: rest) = ']' :: rest := by
      rw [dropPadding_feed]
      exact dropPadding_of_solid (by decide) (by decide) (by decide) (by decide) _
    rw [List.flatMap_nil, List.nil_append, readItems_close close]
    simp
  | cons s items ih =>
    have start : ∀ tail, dropPadding ('\n' :: ' ' :: ' ' :: ' ' :: ' ' :: (writeText s ++ tail)) =
        writeText s ++ tail := by
      intro tail
      have space : isBlank ' ' = true := by decide
      rw [dropPadding_feed, dropPadding_of_isBlank space, dropPadding_of_isBlank space,
        dropPadding_of_isBlank space, dropPadding_of_isBlank space, dropPadding_writeText]
    simp only [List.flatMap_cons, List.append_assoc, List.cons_append, List.nil_append] at ih ⊢
    rw [readItems_comma (start _), ih]
    simp

theorem run_array {depth : Nat} {items : List Value} {behind : List Char}
    (read : readItems (valueWithin depth) [] cs = .ok (items, behind)) :
    (valueWithin (depth + 1)).run ('[' :: cs) = .ok (.array items, behind) := by
  rw [valueWithin, nested]
  dsimp only
  rw [if_pos rfl, read]

/-! ## Settings -/

def Setting.value : Setting → Value
  | .text s => .string s
  | .flag b => .boolean b
  | .texts items => .array (items.map .string)

theorem exists_solid_write (s : Setting) : ∃ c cs, s.write = c :: cs ∧ isBlank c = false := by
  cases s with
  | text s =>
    obtain ⟨q, cs, written, quote⟩ := exists_quote_writeText s
    exact ⟨q, cs, written, by rcases quote with rfl | rfl <;> decide⟩
  | flag b => cases b <;> exact ⟨_, _, rfl, by decide⟩
  | texts items =>
    rcases items with _ | ⟨s, _ | ⟨t, items⟩⟩ <;> exact ⟨'[', _, rfl, by decide⟩

/-- A setting is read up to the end of its line. -/
theorem run_writeSetting (s : Setting) (rest : List Char) :
    value.run (s.write ++ '\n' :: rest) = .ok (s.value, '\n' :: rest) := by
  cases s with
  | text s => exact run_valueWithin_writeText 79 s (by decide) (by decide) rest
  | flag b => cases b <;> rfl
  | texts items =>
    rcases items with _ | ⟨s, _ | ⟨t, items⟩⟩
    · refine run_array (readItems_close ?_)
      exact dropPadding_of_solid (by decide) (by decide) (by decide) (by decide) _
    · have start : dropPadding (writeText s ++ ']' :: '\n' :: rest) =
          writeText s ++ ']' :: '\n' :: rest := dropPadding_writeText s _
      have written : (Setting.texts [s]).write ++ '\n' :: rest =
          '[' :: (writeText s ++ ']' :: '\n' :: rest) := by
        simp [Setting.write]
      rw [written]
      exact run_array (readItems_last start)
    · have read := readItems_lines 78 (s :: t :: items) [] ('\n' :: rest)
      have written : (Setting.texts (s :: t :: items)).write ++ '\n' :: rest =
          '[' :: '\n' :: ((s :: t :: items).flatMap
            (fun s => [' ', ' ', ' ', ' '] ++ writeText s ++ [',', '\n']) ++
              ']' :: '\n' :: rest) := by
        simp [Setting.write]
      rw [written]
      exact run_array read

/-! ## Lines -/

theorem expectChar_of_ne {c e : Char} (other : c ≠ e) (cs : List Char) :
    expectChar e (c :: cs) = .error .malformed := by
  rw [expectChar, if_neg other]

theorem StartsKey.not_bracket {c : Char} (start : StartsKey c) : c ≠ '[' :=
  start.ne (by decide) (by decide) (by decide)

theorem StartsKey.not_startsEmptyLine {c : Char} (start : StartsKey c) :
    startsEmptyLine c = false := by
  have comment := start.ne (by decide : isBareChar '#' = false) (by decide) (by decide)
  have feed := start.ne (by decide : isBareChar '\n' = false) (by decide) (by decide)
  have return' := start.ne (by decide : isBareChar '\r' = false) (by decide) (by decide)
  simp [startsEmptyLine, comment, feed, return']

theorem endLine_feed (rest : List Char) : endLine ('\n' :: rest) = .ok rest := rfl

theorem readStatements_empty (done : List Statement) (rest : List Char) :
    readStatements done ('\n' :: rest) = readStatements done rest := by
  conv => lhs; rw [readStatements]
  have head : dropBlank isBlank ('\n' :: rest) = '\n' :: rest := rfl
  split
  next head' => cases head.symm.trans head'
  next head' =>
    obtain ⟨rfl, rfl⟩ := List.cons.inj (head.symm.trans head')
    rw [if_pos (by decide)]
    split
    next fault => cases (endLine_feed rest).symm.trans fault
    next ended =>
      obtain rfl := Except.ok.inj ((endLine_feed rest).symm.trans ended)
      rfl

/-- A line that defines something is read up to its line break. -/
theorem readStatements_of_statement {done : List Statement} {c : Char} {cs : List Char}
    {s : Statement} (solid : isBlank c = false) (some_statement : startsEmptyLine c = false)
    (read : readStatement (c :: cs) = .ok (s, '\n' :: rest)) :
    readStatements done (c :: cs) = readStatements (s :: done) rest := by
  conv => lhs; rw [readStatements]
  have head : dropBlank isBlank (c :: cs) = c :: cs := dropBlank_cons solid cs
  split
  next head' => cases head.symm.trans head'
  next head' =>
    obtain ⟨rfl, rfl⟩ := List.cons.inj (head.symm.trans head')
    rw [if_neg (by simp [some_statement])]
    split
    next fault => cases read.symm.trans fault
    next read' =>
      obtain ⟨rfl, rfl⟩ := Prod.mk.inj (Except.ok.inj (read.symm.trans read'))
      split
      next fault => cases (endLine_feed rest).symm.trans fault
      next ended =>
        obtain rfl := Except.ok.inj ((endLine_feed rest).symm.trans ended)
        rfl

theorem readAssignment_writeSetting (s : String × Setting) (rest : List Char) :
    readAssignment value (writeSetting s ++ rest) = .ok (([s.1], s.2.value), '\n' :: rest) := by
  have head : dropBlank isBlank (' ' :: '=' :: ' ' :: (s.2.write ++ '\n' :: rest)) =
      '=' :: ' ' :: (s.2.write ++ '\n' :: rest) := rfl
  have keys : path.run (writePath [s.1] ++ ' ' :: '=' :: ' ' :: (s.2.write ++ '\n' :: rest)) =
      .ok ([s.1], '=' :: ' ' :: (s.2.write ++ '\n' :: rest)) :=
    run_writePath (List.cons_ne_nil _ _) (by simp [pathLimit]) (by decide) head (by decide)
  have blank : dropBlank isBlank (' ' :: (s.2.write ++ '\n' :: rest)) = s.2.write ++ '\n' :: rest := by
    obtain ⟨c, cs, written, solid⟩ := exists_solid_write s.2
    rw [written, dropBlank, List.dropWhile_cons_of_pos (by decide), ← dropBlank, List.cons_append,
      dropBlank_cons solid]
  have written : writeSetting s ++ rest =
      writePath [s.1] ++ ' ' :: '=' :: ' ' :: (s.2.write ++ '\n' :: rest) := by
    simp [writeSetting, writePath]
  have behind : dropBlank isBlank ('\n' :: rest) = '\n' :: rest := rfl
  rw [written, readAssignment, keys]
  dsimp only
  rw [if_pos rfl, blank, run_writeSetting]
  dsimp only
  rw [behind]

theorem readStatements_writeSetting (done : List Statement) (s : String × Setting)
    (rest : List Char) :
    readStatements done (writeSetting s ++ rest) =
      readStatements (.assign [s.1] s.2.value :: done) rest := by
  have read := readAssignment_writeSetting s rest
  obtain ⟨c, cs, written, start⟩ := exists_start_writeKey s.1
  have front : ∃ tail, writeSetting s ++ rest = c :: tail := by
    rw [writeSetting, written]
    exact ⟨_, rfl⟩
  obtain ⟨tail, front⟩ := front
  rw [front] at read ⊢
  apply readStatements_of_statement start.not_isBlank start.not_startsEmptyLine
  rw [readStatement, expectChar_of_ne start.not_bracket]
  dsimp only
  rw [read]

structure IsPath (keys : List String) : Prop where
  ne_nil : keys ≠ []
  short : keys.length < pathLimit

theorem exists_start_writePath {keys : List String} (isPath : IsPath keys) :
    ∃ c cs, writePath keys = c :: cs ∧ StartsKey c := by
  rcases keys with _ | ⟨key, _ | ⟨next, keys⟩⟩
  · exact absurd rfl isPath.ne_nil
  · exact exists_start_writeKey key
  · obtain ⟨c, cs, written, start⟩ := exists_start_writeKey key
    refine ⟨c, cs ++ '.' :: writePath (next :: keys), ?_, start⟩
    rw [writePath, written, List.cons_append]

theorem readStatements_header (done : List Statement) {keys : List String} (isPath : IsPath keys)
    (rest : List Char) :
    readStatements done ('[' :: (writePath keys ++ ']' :: '\n' :: rest)) =
      readStatements (.table keys :: done) rest := by
  have read : path.run (writePath keys ++ ']' :: '\n' :: rest) = .ok (keys, ']' :: '\n' :: rest) :=
    run_writePath isPath.ne_nil isPath.short (by decide) rfl (by decide)
  obtain ⟨c, cs, written, start⟩ := exists_start_writePath isPath
  rw [written, List.cons_append] at read ⊢
  apply readStatements_of_statement (by decide) (by decide)
  have close : expectChar ']' (']' :: '\n' :: rest) = .ok ('\n' :: rest) := rfl
  rw [readStatement, expectChar, if_pos rfl]
  dsimp only
  rw [readHeader, expectChar_of_ne start.not_bracket]
  dsimp only
  rw [readHeaderPath, read]
  dsimp only
  rw [close]

/-! ## Blocks -/

def Block.statements (b : Block) : List Statement :=
  .table b.path :: b.settings.map fun s => .assign [s.1] s.2.value

theorem readStatements_settings (done : List Statement) (settings : List (String × Setting))
    (rest : List Char) :
    readStatements done (settings.flatMap writeSetting ++ rest) =
      readStatements ((settings.map fun s => .assign [s.1] s.2.value).reverse ++ done) rest := by
  induction settings generalizing done with
  | nil => rfl
  | cons s settings ih =>
    rw [List.flatMap_cons, List.append_assoc, readStatements_writeSetting, ih]
    simp

theorem readStatements_block (done : List Statement) {b : Block} (isPath : IsPath b.path)
    (rest : List Char) :
    readStatements done (b.write ++ rest) = readStatements (b.statements.reverse ++ done) rest := by
  have written : b.write ++ rest =
      '[' :: (writePath b.path ++ ']' :: '\n' :: (b.settings.flatMap writeSetting ++ rest)) := by
    simp [Block.write]
  rw [written, readStatements_header done isPath, readStatements_settings]
  simp [Block.statements]

theorem readStatements_writeBlocks (done : List Statement) {bs : List Block}
    (paths : ∀ b ∈ bs, IsPath b.path) :
    readStatements done (writeBlocks bs) = .ok (done.reverse ++ bs.flatMap Block.statements) := by
  have finish : ∀ done, readStatements done [] = .ok done.reverse := by
    intro done
    rw [readStatements]
    rfl
  induction bs generalizing done with
  | nil => simp [writeBlocks, finish]
  | cons b bs ih =>
    have isPath := paths b List.mem_cons_self
    have ih := fun done => ih done fun b' member => paths b' (List.mem_cons_of_mem b member)
    cases bs with
    | nil =>
      have read := readStatements_block done isPath []
      rw [List.append_nil, finish] at read
      rw [writeBlocks, read]
      simp
    | cons next bs =>
      rw [writeBlocks, readStatements_block done isPath, readStatements_empty, ih]
      simp

/-! ## Sections -/

def Block.toSection (b : Block) : Section where
  header := .table b.path
  assignments := b.settings.map fun s => ([s.1], s.2.value)

theorem sectionsFrom_settings (header : Header) (done : List (List String × Value))
    (settings : List (String × Setting)) (rest : List Statement) :
    sectionsFrom header done ((settings.map fun s => .assign [s.1] s.2.value) ++ rest) =
      sectionsFrom header ((settings.map fun s => ([s.1], s.2.value)).reverse ++ done) rest := by
  induction settings generalizing done with
  | nil => rfl
  | cons s settings ih =>
    rw [List.map_cons, List.cons_append, sectionsFrom, ih]
    simp

theorem sectionsFrom_blocks (header : Header) (done : List (List String × Value))
    (bs : List Block) :
    sectionsFrom header done (bs.flatMap Block.statements) =
      ⟨header, done.reverse⟩ :: bs.map Block.toSection := by
  induction bs generalizing header done with
  | nil => rfl
  | cons b bs ih =>
    rw [List.flatMap_cons, Block.statements, List.cons_append, sectionsFrom, sectionsFrom_settings,
      ih]
    simp [Block.toSection]

/-- A written file is what the sections of its blocks define together. -/
theorem parse_writeBlocks {bs : List Block} (paths : ∀ b ∈ bs, IsPath b.path)
    {table : List (String × Value)}
    (defined : ofSections (⟨.root, []⟩ :: bs.map Block.toSection) = some table) :
    parse (String.ofList (writeBlocks bs)) = .ok table := by
  have noMark : dropMark (writeBlocks bs) = writeBlocks bs := by
    rcases bs with _ | ⟨b, _ | ⟨next, bs⟩⟩
    · rfl
    · rfl
    · rfl
  rw [parse, String.toList_ofList, noMark, readStatements_writeBlocks [] paths]
  dsimp only
  rw [List.reverse_nil, List.nil_append, sections, sectionsFrom_blocks, List.reverse_nil, defined]

end PipelineParams.Toml
