import AssetLift.Text.Utf8
import AssetLift.Yaml.Reader

/-!
# Tokens of a configuration document

A document is a sequence of tokens. Indentation opens and closes block collections, so some tokens
stand for no characters; a key is known as one only when the colon after it is met, and its token
is then put in front of what has been read.

* `Token` — the tokens.
* `Scan` — the state of reading.
* `tokens` — the tokens of a document, and why there are no more if reading failed.
-/

namespace AssetLift

namespace Yaml

/-- A tag: a handle that stands for a namespace, and a name in it. -/
structure Tag where
  handle : Option String
  suffix : String
  deriving DecidableEq

/-- A token. -/
inductive Token where
  /-- The version that a document is written in. -/
  | version (major : Nat)
  /-- What the handle of tags stands for. -/
  | handle (name target : String)
  /-- A directive without a meaning. -/
  | remark
  | documentStart
  | documentEnd
  | streamEnd
  | blockListStart
  | blockMapStart
  | blockEnd
  | flowListStart
  | flowListEnd
  | flowMapStart
  | flowMapEnd
  | key
  | value
  | blockEntry
  | flowEntry
  | alias (name : String)
  | anchor (name : String)
  | tag (tag : Tag)
  | scalar (text : List CodePoint) (plain : Bool)
  deriving DecidableEq

/-! ## Characters -/

/-- Characters a document may hold. -/
def isPrintable (c : Char) : Bool :=
  c = '\t' || c = '\n' || c = '\r' || (' ' ≤ c && c ≤ '~') || c = '\u0085'
    || ('\u00a0' ≤ c && c ≤ '\ud7ff') || ('\ue000' ≤ c && c ≤ '\ufffd') || '\uffff' < c

/-- Stands for the end of a document, which holds no such character. -/
def ending : Char := '\x00'

/-- Line breaks. -/
def isBreak (c : Char) : Bool :=
  c = '\n' || c = '\r' || c = '\u0085' || c = '\u2028' || c = '\u2029'

/-- Whether a character ends a line, or is the end. -/
def isBreakOrEnd (c : Char) : Bool := isBreak c || c = ending

/-- Whether a character is a blank, ends a line, or is the end. -/
def isGap (c : Char) : Bool := c = ' ' || c = '\t' || isBreakOrEnd c

/-- Whether a character is a space, ends a line, or is the end. -/
def isSpaceOrEnd (c : Char) : Bool := c = ' ' || isBreakOrEnd c

/-- Characters of the names of anchors and tag handles. -/
def isNameChar (c : Char) : Bool :=
  ('0' ≤ c && c ≤ '9') || ('A' ≤ c && c ≤ 'Z') || ('a' ≤ c && c ≤ 'z') || c = '-' || c = '_'

/-! ## The state of reading -/

/-- A place where a key may have started. -/
structure KeyStart where
  /-- How many tokens were read before it. -/
  tokenCount : Nat
  /-- Nothing but a key can start here. -/
  required : Bool
  index : Nat
  line : Nat
  column : Nat

/-- The state of reading a document. -/
structure Scan where
  rest : List Char
  index : Nat := 0
  line : Nat := 0
  column : Nat := 0
  /-- The tokens read so far. -/
  tokens : List Token := []
  /-- How many flow collections are open. -/
  flowLevel : Nat := 0
  /-- The column of the innermost block collection. -/
  indent : Int := -1
  /-- The columns of the block collections around it. -/
  outer : List Int := []
  /-- Whether a key may start here. -/
  keyAllowed : Bool := true
  /-- Where a key may have started, for each number of open flow collections. -/
  keyStarts : List (Nat × KeyStart) := []

namespace Scan

/-- Reading may fail. -/
abbrev Step := StateT Scan (Except Fault)

/-- Gives up. -/
def reject : Step α := throw .malformed

/-- The character `n` places on. -/
def peekAt (n : Nat) : Step Char := do return ((← get).rest[n]?).getD ending

/-- The next character. -/
def peek : Step Char := peekAt 0

/-- Moves one character on. -/
def advance (s : Scan) : Scan :=
  match s.rest with
  | [] => s
  | c :: rest =>
    if c = '\n' || c = '\u0085' || c = '\u2028' || c = '\u2029'
        || (c = '\r' && rest.head? ≠ some '\n') then
      { s with rest, index := s.index + 1, line := s.line + 1, column := 0 }
    else if c = '\ufeff' then { s with rest, index := s.index + 1 }
    else { s with rest, index := s.index + 1, column := s.column + 1 }

/-- Moves `n` characters on. -/
def forward : Nat → Step Unit
  | 0 => return ()
  | n + 1 => do
    modify advance
    forward n

/-- Moves on over the characters of a class, and gives them. -/
def takeWhile (p : Char → Bool) : Step (List Char) := do
  let taken := (← get).rest.takeWhile p
  forward taken.length
  return taken

/-- Moves on over a line break, and gives how it is read; nothing if there is none. -/
def lineBreak : Step (List Char) := do
  match (← get).rest with
  | '\r' :: '\n' :: _ =>
    forward 2
    return ['\n']
  | c :: _ =>
    if c = '\u2028' || c = '\u2029' then
      forward 1
      return [c]
    else if isBreak c then
      forward 1
      return ['\n']
    else return []
  | [] => return []

/-- Whether a line of three marks that separates documents stands here. -/
def atSeparator : Step Bool := do
  match (← get).rest with
  | a :: b :: c :: rest =>
    return (a = b && b = c && (a = '-' || a = '.')) && isGap (rest.head?.getD ending)
  | _ => return false

/-- Adds a token. -/
def push (t : Token) : Step Unit := modify fun s => { s with tokens := s.tokens ++ [t] }

/-- Puts a token in front of those read since a place. -/
def insertAt (count : Nat) (t : Token) : Step Unit :=
  modify fun s => { s with tokens := s.tokens.take count ++ t :: s.tokens.drop count }

/-- Says whether a key may start here. -/
def allowKey (allowed : Bool) : Step Unit := modify fun s => { s with keyAllowed := allowed }

/-! ## Keys -/

/-- Forgets where a key may have started. -/
def dropKey : Step Unit := do
  let s ← get
  match s.keyStarts.lookup s.flowLevel with
  | none => return ()
  | some k =>
    if k.required then reject
    set { s with keyStarts := s.keyStarts.filter (·.1 ≠ s.flowLevel) }

/-- Notes that a key may start here. -/
def saveKey : Step Unit := do
  let s ← get
  let required := s.flowLevel = 0 ∧ s.indent = s.column
  if s.keyAllowed then
    dropKey
    modify fun s =>
      { s with keyStarts :=
        (s.flowLevel, ⟨s.tokens.length, decide required, s.index, s.line, s.column⟩)
          :: s.keyStarts }

/-- How long a key may be. -/
def maxKeyLength : Nat := 1024

/-- Whether a key that started somewhere can no longer end here. -/
def isStale (s : Scan) (k : KeyStart) : Bool :=
  k.line ≠ s.line || maxKeyLength < s.index - k.index

/-- Forgets the places that are no starts of keys any more. -/
def dropStaleKeys : Step Unit := do
  let s ← get
  let stale := s.keyStarts.filter fun e => isStale s e.2
  if stale.any (·.2.required) then reject
  set { s with keyStarts := s.keyStarts.filter fun e => !isStale s e.2 }

/-! ## Indentation -/

/-- Closes the block collections that are further in than a column. -/
def unwindFor : Nat → Int → Step Unit
  | 0, _ => return ()
  | fuel + 1, column => do
    let s ← get
    if s.flowLevel = 0 ∧ column < s.indent then
      set { s with
        indent := s.outer.headD (-1)
        outer := s.outer.tail
        tokens := s.tokens ++ [Token.blockEnd] }
      unwindFor fuel column

/-- Closes the block collections that are further in than a column. -/
def unwind (column : Int) : Step Unit := do unwindFor ((← get).outer.length + 1) column

/-- Opens a block collection at a column that is further in than the last; says whether it did. -/
def indentTo (column : Nat) : Step Bool := do
  let s ← get
  if s.indent < column then
    set { s with indent := (column : Int), outer := s.indent :: s.outer }
    return true
  else return false

/-! ## Blanks and comments -/

/-- Moves on to the next token, over at most `fuel` lines. -/
def skipLines : Nat → Step Unit
  | 0 => return ()
  | fuel + 1 => do
    let _ ← takeWhile (· = ' ')
    if (← peek) = '#' then
      let _ ← takeWhile (!isBreakOrEnd ·)
    if (← lineBreak).isEmpty then return ()
    if (← get).flowLevel = 0 then allowKey true
    skipLines fuel

/-- Moves on to the next token. A byte order mark in front of everything is skipped. -/
def skipToToken : Step Unit := do
  if (← get).index = 0 ∧ (← peek) = '\ufeff' then forward 1
  skipLines ((← get).rest.length + 1)

/-! ## Scalars -/

/-- A line break inside a scalar: a single one is read as a blank, of more the first is dropped. -/
def fold (first : List Char) (more : List Char) : List Char :=
  if first ≠ ['\n'] then first ++ more
  else if more.isEmpty then [' ']
  else more

/-- The line breaks between two stretches of a plain scalar, over at most `fuel` characters; none
at the end of the document's text. -/
def plainBreaks : Nat → Step (Option (List Char))
  | 0 => return some []
  | fuel + 1 => do
    if ← atSeparator then return none
    plainBlanks fuel
where
  plainBlanks : Nat → Step (Option (List Char))
    | 0 => return some []
    | fuel + 1 => do
      let c ← peek
      if c = ' ' then
        forward 1
        plainBlanks fuel
      else if isBreak c then
        let b ← lineBreak
        if ← atSeparator then return none
        return (b ++ ·) <$> (← plainBlanks fuel)
      else return some []

/-- The blanks between two stretches of a plain scalar, as they are read. -/
def plainSpaces : Step (List Char) := do
  let blanks ← takeWhile (· = ' ')
  if isBreak (← peek) then
    let first ← lineBreak
    allowKey true
    match ← plainBreaks ((← get).rest.length + 2) with
    | none => return []
    | some more => return fold first more
  else return blanks

/-- How many characters belong to a stretch of a plain scalar. -/
def plainLength (inFlow : Bool) : List Char → Nat
  | [] => 0
  | c :: rest =>
    let next := rest.head?.getD ending
    if isGap c then 0
    else if c = ':' && (isGap next || (inFlow && ",[]\x7b\x7d".toList.contains next)) then 0
    else if inFlow && ",?[]\x7b\x7d".toList.contains c then 0
    else 1 + plainLength inFlow rest

/-- The stretches of a plain scalar that is further in than a column. -/
def plainFor (column : Int) : Nat → List Char → Step (List Char)
  | 0, _ => return []
  | fuel + 1, spaces => do
    let s ← get
    let length := plainLength (0 < s.flowLevel) s.rest
    if (← peek) = '#' || length = 0 then return []
    else
      allowKey false
      let text := s.rest.take length
      forward length
      let next ← plainSpaces
      let s ← get
      if next.isEmpty || (← peek) = '#' || (s.flowLevel = 0 && s.column < column) then
        return spaces ++ text
      else return spaces ++ text ++ (← plainFor column fuel next)

/-- A plain scalar. -/
def plain : Step Unit := do
  saveKey
  allowKey false
  let s ← get
  let text ← plainFor (s.indent + 1) (s.rest.length + 1) []
  push (.scalar (text.map CodePoint.ofChar) true)

/-- The line breaks inside a quoted scalar, over at most `fuel` lines. -/
def quotedBreaks : Nat → Step (List Char)
  | 0 => return []
  | fuel + 1 => do
    if ← atSeparator then reject
    let _ ← takeWhile fun c => c = ' ' || c = '\t'
    if isBreak (← peek) then
      let b ← lineBreak
      return b ++ (← quotedBreaks fuel)
    else return []

/-- The blanks inside a quoted scalar, as they are read. -/
def quotedSpaces : Step (List Char) := do
  let blanks ← takeWhile fun c => c = ' ' || c = '\t'
  let c ← peek
  if c = ending then reject
  else if isBreak c then
    let first ← lineBreak
    return fold first (← quotedBreaks ((← get).rest.length + 1))
  else return blanks

/-- What a character stands for after a backslash. -/
def escapes : List (Char × Char) :=
  [('0', '\x00'), ('a', '\x07'), ('b', '\x08'), ('t', '\t'), ('\t', '\t'), ('n', '\n'),
    ('v', '\x0b'), ('f', '\x0c'), ('r', '\r'), ('e', '\x1b'), (' ', ' '), ('"', '"'),
    ('\\', '\\'), ('/', '/'), ('N', '\u0085'), ('_', '\u00a0'), ('L', '\u2028'),
    ('P', '\u2029')]

/-- How many digits follow a letter that names a character by its number. -/
def escapeDigits : List (Char × Nat) := [('x', 2), ('u', 4), ('U', 8)]

/-- The code point that an escape names by its number. -/
def numbered (digits : Nat) : Step CodePoint := do
  let text := (← get).rest.take digits
  if text.length < digits || text.any (fun c => (Bytes.hexValue? c).isNone) then reject
  let n := Bytes.hexNumber text
  if h : n < 0x110000 then
    forward digits
    return ⟨n, h⟩
  else if n < 0x80000000 then throw (.badValue "chr() arg not in range(0x110000)")
  else throw .tooLarge

/-- What an escape stands for, the backslash already read. -/
def escape : Step (List CodePoint) := do
  let c ← peek
  match escapes.lookup c, escapeDigits.lookup c with
  | some e, _ =>
    forward 1
    return [CodePoint.ofChar e]
  | none, some digits =>
    forward 1
    return [← numbered digits]
  | none, none =>
    if isBreak c then
      let _ ← lineBreak
      return (← quotedBreaks ((← get).rest.length + 1)).map CodePoint.ofChar
    else reject

/-- The characters of a quoted scalar up to the next blank or its end. -/
def quotedText (quote : Char) : Nat → Step (List CodePoint)
  | 0 => return []
  | fuel + 1 => do
    let text := (← takeWhile fun c => !(c = '\'' || c = '"' || c = '\\' || isGap c)).map
      CodePoint.ofChar
    let c ← peek
    if quote = '\'' ∧ c = '\'' ∧ (← peekAt 1) = '\'' then
      forward 2
      return text ++ CodePoint.ofChar '\'' :: (← quotedText quote fuel)
    else if (c = '\'' ∨ c = '"') ∧ c ≠ quote ∨ (quote = '\'' ∧ c = '\\') then
      forward 1
      return text ++ CodePoint.ofChar c :: (← quotedText quote fuel)
    else if c = '\\' then
      forward 1
      let e ← escape
      return text ++ e ++ (← quotedText quote fuel)
    else return text

/-- A quoted scalar up to its closing quote. -/
def quotedFor (quote : Char) : Nat → Step (List CodePoint)
  | 0 => reject
  | fuel + 1 => do
    let text ← quotedText quote ((← get).rest.length + 1)
    if (← peek) = quote then return text
    else
      let spaces := (← quotedSpaces).map CodePoint.ofChar
      return text ++ spaces ++ (← quotedFor quote fuel)

/-- A quoted scalar. -/
def quoted (quote : Char) : Step Unit := do
  saveKey
  allowKey false
  forward 1
  let text ← quotedFor quote ((← get).rest.length + 1)
  forward 1
  push (.scalar text false)

/-! ## Block scalars -/

/-- What a block scalar does with the line breaks at its end. -/
inductive Chomping where
  | strip
  | clip
  | keep
  deriving DecidableEq

/-- The marks after a block scalar's first character. -/
def blockIndicators : Step (Chomping × Option Nat) := do
  let chomp? (c : Char) : Option Chomping :=
    if c = '+' then some .keep else if c = '-' then some .strip else none
  let digit? (c : Char) : Option Nat :=
    if '1' ≤ c && c ≤ '9' then some (c.toNat - 48) else none
  let a ← peek
  if a = '0' then reject
  let (chomping, increment) ← match chomp? a, digit? a with
    | some chomping, _ => do
      forward 1
      let b ← peek
      if b = '0' then reject
      match digit? b with
      | some n =>
        forward 1
        pure (chomping, some n)
      | none => pure (chomping, none)
    | none, some n => do
      forward 1
      match chomp? (← peek) with
      | some chomping =>
        forward 1
        pure (chomping, some n)
      | none => pure (.clip, some n)
    | none, none => pure (.clip, none)
  let c ← peek
  if c = ' ' || isBreakOrEnd c then return (chomping, increment) else reject

/-- The rest of a line, which holds nothing but a comment. -/
def lineEnd : Step Unit := do
  let _ ← takeWhile (· = ' ')
  if (← peek) = '#' then
    let _ ← takeWhile (!isBreakOrEnd ·)
  if isBreakOrEnd (← peek) then
    let _ ← lineBreak
  else reject

/-- The empty lines at the start of a block scalar, and the widest indentation among them. -/
def blockIndentation : Nat → Nat → Step (List Char × Nat)
  | 0, widest => return ([], widest)
  | fuel + 1, widest => do
    let c ← peek
    if c = ' ' then
      forward 1
      blockIndentation fuel (max widest (← get).column)
    else if isBreak c then
      let b ← lineBreak
      let (more, widest) ← blockIndentation fuel widest
      return (b ++ more, widest)
    else return ([], widest)

/-- Moves on over blanks up to a column. -/
def indentUpTo (column : Nat) : Step Unit := do
  let s ← get
  forward ((s.rest.take (column - s.column)).takeWhile (· = ' ')).length

/-- The empty lines inside a block scalar. -/
def blockBreaks (column : Nat) : Nat → Step (List Char)
  | 0 => return []
  | fuel + 1 => do
    indentUpTo column
    if isBreak (← peek) then
      let b ← lineBreak
      return b ++ (← blockBreaks column fuel)
    else return []

/-- Whether a character is a blank inside a line. -/
def isInlineBlank (c : Char) : Bool := c = ' ' || c = '\t'

/-- The lines of a block scalar at a column, and the line breaks after the last of them. -/
def blockLines (folded : Bool) (column : Nat) :
    Nat → List Char → Step (List Char × List Char × List Char)
  | 0, breaks => return ([], [], breaks)
  | fuel + 1, breaks => do
    if (← get).column ≠ column ∨ (← peek) = ending then return ([], [], breaks)
    else
      let leading := !isInlineBlank (← peek)
      let text ← takeWhile (!isBreakOrEnd ·)
      let b ← lineBreak
      let more ← blockBreaks column ((← get).rest.length + 1)
      let next ← peek
      if (← get).column = column ∧ next ≠ ending then
        let joint :=
          if folded && b = ['\n'] && leading && !isInlineBlank next then
            if more.isEmpty then [' '] else []
          else b
        let (rest, lastBreak, after) ← blockLines folded column fuel more
        return (breaks ++ text ++ joint ++ rest, lastBreak, after)
      else return (breaks ++ text, b, more)

/-- A block scalar. -/
def block (folded : Bool) : Step Unit := do
  allowKey true
  dropKey
  forward 1
  let (chomping, increment) ← blockIndicators
  lineEnd
  let s ← get
  let least := (max 1 (s.indent + 1)).toNat
  let fuel := s.rest.length + 1
  let (breaks, column) ← match increment with
    | none => do
      let (breaks, widest) ← blockIndentation fuel 0
      pure (breaks, max least widest)
    | some n => do
      let column := least + n - 1
      pure (← blockBreaks column fuel, column)
  let (text, lastBreak, after) ← blockLines folded column fuel breaks
  let ending := match chomping with
    | .strip => []
    | .clip => lastBreak
    | .keep => lastBreak ++ after
  push (.scalar ((text ++ ending).map CodePoint.ofChar) false)

/-! ## Names and tags -/

/-- The name of an anchor or alias, its mark already read. -/
def anchorName : Step String := do
  forward 1
  let name ← takeWhile isNameChar
  let c ← peek
  if name.isEmpty || !(isGap c || "?:,]\x7d%@\x60".toList.contains c) then reject
  return String.ofList name

/-- The bytes that escapes with a percent sign write, at most `fuel`. -/
def percentBytes : Nat → Step Bytes
  | 0 => return []
  | fuel + 1 => do
    match (← get).rest with
    | '%' :: a :: b :: _ =>
      match Bytes.hexValue? a, Bytes.hexValue? b with
      | some high, some low =>
        forward 3
        return UInt8.ofNat (16 * high + low) :: (← percentBytes fuel)
      | _, _ => reject
    | '%' :: _ => reject
    | _ => return []

/-- Whether a character of a tag's name stands for itself. -/
def isTagChar (c : Char) : Bool := isNameChar c || ";/?:@&=+$,.!~*'()[]".toList.contains c

/-- The name of a tag from here on, in at most `fuel` stretches. -/
def tagNameFor : Nat → Step (List Char)
  | 0 => return []
  | fuel + 1 => do
    let stretch ← takeWhile isTagChar
    if (← peek) = '%' then
      match Utf8.decode (← percentBytes ((← get).rest.length + 1)) with
      | .ok decoded => return stretch ++ decoded.toList ++ (← tagNameFor fuel)
      | .error _ => reject
    else return stretch

/-- The name of a tag inside its namespace. -/
def tagName : Step String := do
  let c ← peek
  if !(isTagChar c || c = '%') then reject
  return String.ofList (← tagNameFor ((← get).rest.length + 1))

/-- The handle of a tag, which an exclamation mark starts. One that no space follows ends in
another. -/
def tagHandle : Step String := do
  if (← peek) ≠ '!' then reject
  forward 1
  if (← peek) = ' ' then return "!"
  let name ← takeWhile isNameChar
  if (← peek) ≠ '!' then reject
  forward 1
  return String.ofList ('!' :: name ++ ['!'])

/-- A tag. -/
def tag : Step Unit := do
  saveKey
  allowKey false
  let c ← peekAt 1
  let t : Tag ←
    if c = '<' then do
      forward 2
      let name ← tagName
      if (← peek) ≠ '>' then reject
      forward 1
      pure ⟨none, name⟩
    else if isGap c then do
      forward 1
      pure ⟨none, "!"⟩
    else do
      let word := ((← get).rest.drop 1).takeWhile (!isSpaceOrEnd ·)
      if word.contains '!' then
        let handle ← tagHandle
        pure ⟨some handle, ← tagName⟩
      else
        forward 1
        pure ⟨some "!", ← tagName⟩
  if isSpaceOrEnd (← peek) then push (.tag t) else reject

/-! ## Directives -/

/-- A number of digits. -/
def number : Step Nat := do
  let digits ← takeWhile Char.isDigit
  if digits.isEmpty then reject
  return digits.foldl (fun n c => n * 10 + (c.toNat - 48)) 0

/-- The version in a directive. -/
def versionDirective : Step Token := do
  let _ ← takeWhile (· = ' ')
  let major ← number
  if (← peek) ≠ '.' then reject
  forward 1
  let _ ← number
  if isSpaceOrEnd (← peek) then return .version major else reject

/-- The handle in a directive, and what it stands for. -/
def handleDirective : Step Token := do
  let _ ← takeWhile (· = ' ')
  let name ← tagHandle
  if (← peek) ≠ ' ' then reject
  let _ ← takeWhile (· = ' ')
  let target ← tagName
  if isSpaceOrEnd (← peek) then return .handle name target else reject

/-- A directive line. -/
def directive : Step Unit := do
  unwind (-1)
  dropKey
  allowKey false
  forward 1
  let name ← takeWhile isNameChar
  if name.isEmpty || !isSpaceOrEnd (← peek) then reject
  let t ← match String.ofList name with
    | "YAML" => versionDirective
    | "TAG" => handleDirective
    | _ => do
      let _ ← takeWhile (!isBreakOrEnd ·)
      pure .remark
  lineEnd
  push t

/-! ## Marks -/

/-- A line that separates documents. -/
def separator (t : Token) : Step Unit := do
  unwind (-1)
  dropKey
  allowKey false
  forward 3
  push t

/-- Opens a flow collection. -/
def flowStart (t : Token) : Step Unit := do
  saveKey
  modify fun s => { s with flowLevel := s.flowLevel + 1 }
  allowKey true
  forward 1
  push t

/-- Closes a flow collection. -/
def flowEnd (t : Token) : Step Unit := do
  dropKey
  modify fun s => { s with flowLevel := s.flowLevel - 1 }
  allowKey false
  forward 1
  push t

/-- A comma in a flow collection. -/
def flowComma : Step Unit := do
  allowKey true
  dropKey
  forward 1
  push .flowEntry

/-- Opens a block collection here, where a key is allowed. -/
def openBlock (t : Token) : Step Unit := do
  let s ← get
  if s.flowLevel = 0 then
    if !s.keyAllowed then reject
    if ← indentTo s.column then push t

/-- The dash of a list entry. -/
def dash : Step Unit := do
  openBlock .blockListStart
  allowKey true
  dropKey
  forward 1
  push .blockEntry

/-- The question mark of a key. -/
def question : Step Unit := do
  openBlock .blockMapStart
  allowKey ((← get).flowLevel = 0)
  dropKey
  forward 1
  push .key

/-- The colon of a value. What stands before it in the same line is its key. -/
def colon : Step Unit := do
  let s ← get
  match s.keyStarts.lookup s.flowLevel with
  | some k =>
    set { s with keyStarts := s.keyStarts.filter (·.1 ≠ s.flowLevel) }
    insertAt k.tokenCount .key
    if s.flowLevel = 0 then
      if ← indentTo k.column then insertAt k.tokenCount .blockMapStart
    allowKey false
  | none =>
    openBlock .blockMapStart
    allowKey (s.flowLevel = 0)
    dropKey
  forward 1
  push .value

/-! ## The whole document -/

/-- Whether a plain scalar can start with a character, given the next one. -/
def startsPlain (inFlow : Bool) (c next : Char) : Bool :=
  !(isGap c || "-?:,[]\x7b\x7d#&*!|>'\"%@\x60".toList.contains c)
    || (!isGap next && (c = '-' || (!inFlow && (c = '?' || c = ':'))))

/-- Reads the next token; says whether it was the last. -/
def next : Step Bool := do
  skipToToken
  dropStaleKeys
  unwind (← get).column
  let s ← get
  let c ← peek
  let after ← peekAt 1
  let inFlow := 0 < s.flowLevel
  if c = ending then
    unwind (-1)
    dropKey
    push .streamEnd
    return true
  else if c = '%' ∧ s.column = 0 then directive
  else if c = '-' ∧ s.column = 0 ∧ (← atSeparator) then separator .documentStart
  else if c = '.' ∧ s.column = 0 ∧ (← atSeparator) then separator .documentEnd
  else if c = '[' then flowStart .flowListStart
  else if c = '\x7b' then flowStart .flowMapStart
  else if c = ']' then flowEnd .flowListEnd
  else if c = '\x7d' then flowEnd .flowMapEnd
  else if c = ',' then flowComma
  else if c = '-' ∧ isGap after then dash
  else if c = '?' ∧ (inFlow ∨ isGap after) then question
  else if c = ':' ∧ (inFlow ∨ isGap after) then colon
  else if c = '*' then
    saveKey
    allowKey false
    push (.alias (← anchorName))
  else if c = '&' then
    saveKey
    allowKey false
    push (.anchor (← anchorName))
  else if c = '!' then tag
  else if c = '|' ∧ !inFlow then block false
  else if c = '>' ∧ !inFlow then block true
  else if c = '\'' ∨ c = '"' then quoted c
  else if startsPlain inFlow c after then plain
  else reject
  return false

/-- How many tokens are certain: those before the first that may still turn out to be a key. -/
def certain (s : Scan) : Nat :=
  (s.keyStarts.filter fun e => !isStale s e.2).foldl (fun n e => min n e.2.tokenCount)
    s.tokens.length

/-- Reads tokens up to the last, at most `fuel`. When reading fails, the tokens that are certain are
given with the fault. -/
def all : Nat → Scan → List Token × Option Fault
  | 0, s => (s.tokens, some .malformed)
  | fuel + 1, s =>
    match next.run s with
    | .ok (true, s) => (s.tokens, none)
    | .ok (false, s) => all fuel s
    | .error f => (s.tokens.take (certain s), some f)

end Scan

/-- The tokens of a document, and the fault that ends them. -/
def tokens (text : List Char) : List Token × Option Fault :=
  if text.all isPrintable then Scan.all (text.length + 2) { rest := text }
  else ([], some .malformed)

end Yaml

end AssetLift
