import AssetLift.Text.Blank

/-!
# Parameters of actions

A tag may name an action and carry parameters for it, an expression in brackets after the action's
name. The output runs no actions, but parameters that no expression can be are refused.

* `Action.parts` — the words, numbers, texts, brackets and signs of an expression.
* `Action.check` — whether parts follow one another as those of an expression do.
* `Action.defect?` — what is wrong with parameters.
-/

namespace AssetLift

namespace Action

/-- What is wrong with an expression. -/
inductive Defect where
  /-- A text is not closed in its line. -/
  | openText (line : Nat)
  /-- A text over several lines is not closed. -/
  | openBlock (line : Nat)
  /-- A backslash does not end its line. -/
  | strayBackslash
  /-- A bracket closes nothing. -/
  | unmatched (closing : Char)
  /-- A bracket closes another kind of bracket. -/
  | mismatched (closing opening : Char)
  /-- A bracket stays open. -/
  | neverClosed (opening : Char)
  /-- Letters follow a number. -/
  | badNumber
  /-- A number starts with a zero. -/
  | leadingZero
  /-- Two operands follow one another in brackets. -/
  | missingComma
  /-- An equals sign stands in brackets. -/
  | equalsSign
  /-- Parts do not follow one another. -/
  | disorder
  deriving DecidableEq

/-- The wording of each defect. -/
def Defect.message : Defect → String
  | .openText line => s!"unterminated string literal (detected at line {line})"
  | .openBlock line => s!"unterminated triple-quoted string literal (detected at line {line})"
  | .strayBackslash => "unexpected character after line continuation character"
  | .unmatched closing => s!"unmatched '{closing}'"
  | .mismatched closing opening =>
    s!"closing parenthesis '{closing}' does not match opening parenthesis '{opening}'"
  | .neverClosed opening => s!"'{opening}' was never closed"
  | .badNumber => "invalid decimal literal"
  | .leadingZero =>
    "leading zeros in decimal integer literals are not permitted; " ++
      "use an 0o prefix for octal integers"
  | .missingComma => "invalid syntax. Perhaps you forgot a comma?"
  | .equalsSign => "invalid syntax. Maybe you meant '==' or ':=' instead of '='?"
  | .disorder => "invalid syntax"

/-- A part of an expression. -/
inductive Part where
  | opening (bracket : Char)
  | closing (bracket : Char)
  | comma
  | colon
  | equals
  | word (text : String)
  | number
  | text
  /-- A sign between operands; some can also stand in front of one. -/
  | sign (leading : Bool)
  /-- A character that is no part of expressions. -/
  | stray
  deriving DecidableEq

/-! ## Parts -/

/-- The bracket that an opening bracket waits for. -/
def closingOf : List (Char × Char) := [('(', ')'), ('\x7b', '\x7d'), ('[', ']')]

/-- Whether a character belongs to a word. -/
def isWordChar (c : Char) : Bool := c.isAlphanum || c = '_' || 128 ≤ c.toNat

/-- The characters of a text up to its closing quote and what follows, or none. -/
def textEnd? (quote : Char) : List Char → Option (List Char)
  | [] => none
  | '\\' :: _ :: rest => textEnd? quote rest
  | c :: rest => if c = quote then some rest else if c = '\n' then none else textEnd? quote rest

/-- What follows the three quotes that close a text over several lines. -/
def blockEnd? (quote : Char) : List Char → Option (List Char)
  | [] => none
  | '\\' :: _ :: rest => blockEnd? quote rest
  | c :: rest =>
    if [c] ++ rest.take 2 = [quote, quote, quote] then some (rest.drop 2)
    else blockEnd? quote rest

/-- What follows a text whose quote has been read. -/
def afterText (line : Nat) (quote : Char) (cs : List Char) : Except Defect (List Char) :=
  if cs.take 2 = [quote, quote] then
    match blockEnd? quote (cs.drop 2) with
    | some rest => .ok rest
    | none => .error (.openBlock (line + cs.count '\n'))
  else
    match textEnd? quote cs with
    | some rest => .ok rest
    | none => .error (.openText line)

/-- Letters that may stand before a quote. -/
def textMarks : List String := ["r", "u", "b", "f", "br", "rb", "fr", "rf"]

/-- Words that stand between operands. -/
def joiningWords : List String := ["and", "or", "in", "is", "if", "else", "for", "not"]

/-- Words that stand in front of an operand. -/
def leadingWords : List String := ["not", "await"]

/-- Words that no expression holds. -/
def foreignWords : List String :=
  ["assert", "break", "class", "continue", "def", "del", "elif", "except", "finally", "from",
    "global", "import", "nonlocal", "pass", "raise", "return", "try", "while", "with"]

/-- Checks the digits and letters of a number. -/
def checkNumber (cs : List Char) : Except Defect Unit := do
  let digits := cs.takeWhile fun c => c.isDigit || c = '_'
  let rest := cs.drop digits.length
  if digits.getLast? = some '_' then throw .badNumber
  if digits.head? = some '0' && digits.any (· ≠ '0') && rest.isEmpty then throw .leadingZero
  match rest.map Char.toLower with
  | [] => return ()
  | ['j'] => return ()
  | '.' :: more => if more.any (fun c => !(c.isDigit || c = 'e' || c = 'j')) then throw .badNumber
  | 'e' :: more => if more.isEmpty || more.any (!Char.isDigit ·) then throw .badNumber
  | c :: more =>
    let based := digits = ['0'] && (c = 'x' || c = 'o' || c = 'b') && !more.isEmpty
    if !based || more.any (fun d => !d.isAlphanum) then throw .badNumber

/-- A bracket that closes, and the brackets then open. -/
def close (c : Char) : List Char → Except Defect (List Char)
  | [] => .error (.unmatched c)
  | o :: others =>
    if closingOf.lookup o = some c then .ok others else .error (.mismatched c o)

/-- Signs of more than one character. -/
def longSigns : List String := ["...", "**", "//", "<<", ">>", "<=", ">=", "==", "!=", "->", ":="]

/-- The part that a word is. -/
def partOfWord (word : String) : Part :=
  if foreignWords.contains word then .stray else .word word

/-- The parts of an expression from a line on, with the brackets open before them, and those open
at its end; at most `fuel` parts. -/
def partsFrom : Nat → Nat → List Char → List Char → Except Defect (List Part × List Char)
  | 0, _, opened, _ => .ok ([], opened)
  | fuel + 1, line, opened, cs =>
    let add (p : Part) (opened : List Char) (rest : List Char) :=
      (fun (ps, o) => (p :: ps, o)) <$> partsFrom fuel line opened rest
    match cs with
    | [] => .ok ([], opened)
    | c :: rest =>
      if c = '\n' then partsFrom fuel (line + 1) opened rest
      else if Blank.isBlank c then partsFrom fuel line opened rest
      else if c = '#' then partsFrom fuel line opened (rest.dropWhile (· ≠ '\n'))
      else if c = '\\' then .error .strayBackslash
      else if (closingOf.lookup c).isSome then add (.opening c) (c :: opened) rest
      else if closingOf.any (·.2 = c) then do
        let opened ← close c opened
        add (.closing c) opened rest
      else if c = '\'' || c = '"' then do
        let after ← afterText line c rest
        add .text opened after
      else if c.isDigit || (c = '.' && rest.head?.any Char.isDigit) then do
        let more := rest.takeWhile fun c => isWordChar c || c = '.'
        checkNumber (if c = '.' then '0' :: c :: more else c :: more)
        add .number opened (rest.drop more.length)
      else if isWordChar c then
        let more := rest.takeWhile isWordChar
        let word := String.ofList (c :: more)
        match rest.drop more.length with
        | quote :: after =>
          if (quote = '\'' || quote = '"') && textMarks.contains word.toLower then do
            let after ← afterText line quote after
            add .text opened after
          else add (partOfWord word) opened (quote :: after)
        | [] => add (partOfWord word) opened []
      else
        match longSigns.find? fun s => s.toList.isPrefixOf cs with
        | some s =>
          let p :=
            if s = "..." then Part.number
            else if s = "->" || (s = ":=" && opened.isEmpty) then .stray
            else .sign false
          add p opened (cs.drop s.length)
        | none =>
          if c = ',' then add .comma opened rest
          else if c = ':' then add .colon opened rest
          else if c = '=' then add .equals opened rest
          else if "+-~*".toList.contains c then add (.sign true) opened rest
          else if "/%@&|^<>.".toList.contains c then add (.sign false) opened rest
          else add .stray opened rest

/-- The parts of an expression, and the brackets open at its end. -/
def parts (cs : List Char) : Except Defect (List Part × List Char) :=
  partsFrom (cs.length + 1) 1 [] cs

/-! ## Order -/

/-- What can come next. -/
inductive Place where
  /-- An operand, or the end of what has just been opened. -/
  | start
  /-- An operand, or the end, after a comma. -/
  | item
  /-- An operand. -/
  | operand
  /-- Anything but an operand; two texts may follow one another. -/
  | after (text : Bool)
  deriving DecidableEq

/-- The place after a part, and the brackets then open. -/
def step (brackets : List Char) (place : Place) (p : Part) :
    Except Defect (List Char × Place) :=
  let adjacent : Except Defect (List Char × Place) :=
    .error (if brackets.isEmpty then .disorder else .missingComma)
  match place, p with
  | .after _, .opening c =>
    if c = '\x7b' then adjacent else .ok (c :: brackets, .start)
  | .after isText, .text => if isText then .ok (brackets, place) else adjacent
  | .after _, .number => adjacent
  | .after _, .word w => if joiningWords.contains w then .ok (brackets, .operand) else adjacent
  | .after _, .sign _ => .ok (brackets, .operand)
  | .after _, .comma => .ok (brackets, .item)
  | .after _, .colon =>
    if brackets.head? = some '\x7b' then .ok (brackets, .operand) else .error .disorder
  | .after _, .equals => .error (if brackets.isEmpty then .disorder else .equalsSign)
  | .after _, .closing _ => .ok (brackets.tail, .after false)
  | _, .opening c => .ok (c :: brackets, .start)
  | _, .text => .ok (brackets, .after true)
  | _, .number => .ok (brackets, .after false)
  | _, .word w =>
    if leadingWords.contains w then .ok (brackets, .operand)
    else if joiningWords.contains w then .error .disorder
    else .ok (brackets, .after false)
  | _, .sign true => .ok (brackets, .operand)
  | .start, .closing _ => .ok (brackets.tail, .after false)
  | .item, .closing _ => .ok (brackets.tail, .after false)
  | _, _ => .error .disorder

/-- Checks that parts follow one another as those of an expression do. -/
def check (brackets : List Char) (place : Place) : List Part → Except Defect Unit
  | [] =>
    match brackets, place with
    | c :: _, _ => .error (.neverClosed c)
    | [], .after _ => .ok ()
    | [], .item => .ok ()
    | [], _ => .error .disorder
  | p :: ps => do
    let (brackets, place) ← step brackets place p
    check brackets place ps

/-- What is wrong with an expression. Brackets that stay open count more than a missing comma. -/
def expressionDefect? (cs : List Char) : Option Defect :=
  match parts cs with
  | .error d => some d
  | .ok (ps, opened) =>
    match check [] .operand ps, opened with
    | .ok _, _ => none
    | .error .disorder, _ => some .disorder
    | .error _, c :: _ => some (.neverClosed c)
    | .error d, [] => some d

/-! ## Parameters -/

/-- The expression of parameters: the brackets after a name, if there is nothing else. -/
def expression (cs : List Char) : List Char :=
  match cs.span fun c => isWordChar c || c = '.' with
  | (_, []) => "()".toList
  | (_, '(' :: inner) =>
    if inner.getLast? = some ')' && !inner.contains '\n' then '(' :: inner else cs
  | _ => cs

/-- What is wrong with parameters, and the expression that it is about. -/
def defect? (parameters : List Char) : Option (List Char × Defect) :=
  let e := expression (Blank.trimChars parameters)
  (expressionDefect? e).map fun d => (e, d)

end Action

end AssetLift
