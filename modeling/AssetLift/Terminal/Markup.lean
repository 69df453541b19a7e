import AssetLift.Terminal.Action
import AssetLift.Terminal.Style
import AssetLift.Text.Emoji
import AssetLift.Text.Quoted

/-!
# Markup

Text for a terminal may carry tags in brackets that choose a style until a closing tag. The output
has no styles, so reading markup drops its tags, and fails on a closing tag that closes nothing. A
backslash before a tag makes it a text. A text may name emoji.

* `Markup.pieces` — the texts and tags of markup.
* `Markup.plain` — the text that markup shows.
* `Markup.escape` — the markup that shows a text.
-/

namespace AssetLift

namespace Markup

/-- A part of markup. A tag has a position, counted in characters. -/
inductive Piece where
  | text (cs : List Char)
  | tag (position : Nat) (content : List Char)
  deriving DecidableEq

/-- Why markup cannot be read. -/
inductive Fault where
  /-- A closing tag names a style that is not open. -/
  | unmatched (content : String) (position : Nat)
  /-- A closing tag stands where no style is open. -/
  | nothingOpen (position : Nat)
  /-- The parameters of an action hold an expression that is none. -/
  | badParameters (expression parameters : String) (defect : Action.Defect)
  /-- A part of a colour has no digits. -/
  | noDigits
  deriving DecidableEq

/-- The wording of each fault. -/
def Fault.message : Fault → String
  | .unmatched content position =>
    s!"closing tag '[{content}]' at position {position} doesn't match any open tag"
  | .nothingOpen position => s!"closing tag '[/]' at position {position} has nothing to close"
  | .badParameters expression parameters defect =>
    s!"error parsing {Quoted.render expression} in {Quoted.render parameters}; " ++ defect.message
  | .noDigits => "invalid literal for int() with base 10: ''"

/-- Whether a tag can start with a character. -/
def startsTag (c : Char) : Bool := c.isLower || c = '#' || c = '/' || c = '@'

/-- The content of the tag whose bracket has just been opened, and what follows it. -/
def tagContent? (cs : List Char) : Option (List Char × List Char) :=
  match cs with
  | [] => none
  | c :: rest =>
    if startsTag c then
      match rest.span fun c => c ≠ ']' && c ≠ '[' with
      | (more, ']' :: after) => some (c :: more, after)
      | _ => none
    else none

/-- The number of backslashes and the content of the tag that stands at the front, and what follows
it. -/
def escapedTag? (cs : List Char) : Option (Nat × List Char × List Char) :=
  match cs.span (· = '\\') with
  | (slashes, '[' :: rest) =>
    (tagContent? rest).map fun (content, after) => (slashes.length, content, after)
  | _ => none

/-- The characters up to the next tag, and what follows; at most `fuel` runs. -/
def untilTag : Nat → List Char → List Char × List Char
  | 0, cs => (cs, [])
  | fuel + 1, cs =>
    if cs.isEmpty || (escapedTag? cs).isSome then ([], cs)
    else
      let run := max 1 (cs.takeWhile (· = '\\')).length
      let (more, rest) := untilTag fuel (cs.drop run)
      (cs.take run ++ more, rest)

/-- The parts of markup from a position on; at most `fuel` tags. -/
def piecesFrom : Nat → Nat → List Char → List Piece
  | 0, _, _ => []
  | fuel + 1, position, cs =>
    let (run, rest) := untilTag (cs.length + 1) cs
    match escapedTag? rest with
    | none => [.text run]
    | some (slashes, content, after) =>
      let start := position + run.length
      let tag :=
        if slashes % 2 = 1 then Piece.text ('[' :: content ++ [']'])
        else Piece.tag (start + slashes) content
      .text run :: .text (List.replicate (slashes / 2) '\\') :: tag ::
        piecesFrom fuel (start + slashes + content.length + 2) after

/-- The parts of markup. -/
def pieces (s : String) : List Piece := piecesFrom (s.length + 1) 0 s.toList

/-- A text in which a backslash before a bracket is left out. -/
def unescape : List Char → List Char
  | [] => []
  | '\\' :: '[' :: rest => '[' :: unescape rest
  | c :: rest => c :: unescape rest

/-- A tag that is open: the normal form of its style, and its parameters. -/
structure Tag where
  style : String
  parameters : Option (List Char) := none
  deriving DecidableEq

/-- The normal form of a style. -/
def styleName (cs : List Char) : Except Fault String :=
  (Style.normalize cs).mapError fun _ => .noDigits

/-- The tag that a content opens; its parameters follow an equals sign. -/
def Tag.ofContent (content : List Char) : Except Fault Tag := do
  match content.span (· ≠ '=') with
  | (name, _ :: parameters) => return ⟨← styleName name, some parameters⟩
  | (name, []) => return ⟨← styleName name, none⟩

/-- Checks the parameters of an action, whose name starts with an at sign. -/
def Tag.checkAction (t : Tag) : Except Fault Unit :=
  match t.style.startsWith "@", t.parameters with
  | true, some (c :: cs) =>
    match Action.defect? (c :: cs) with
    | some (expression, defect) =>
      .error (.badParameters (String.ofList expression) (String.ofList (c :: cs)) defect)
    | none => .ok ()
  | _, _ => .ok ()

/-- Takes the tag that was opened last among those with a style out of the open ones. -/
def close? (style : String) : List Tag → Option (Tag × List Tag)
  | [] => none
  | t :: others =>
    if t.style = style then some (t, others)
    else (close? style others).map fun (found, rest) => (found, t :: rest)

/-- The tag that a closing tag's content closes, and those then open. -/
def closed (position : Nat) (content : List Char) (opened : List Tag) :
    Except Fault (Tag × List Tag) := do
  match Blank.trimChars ((content.drop 1).takeWhile (· ≠ '=')), opened with
  | [], [] => throw (.nothingOpen position)
  | [], t :: others => return (t, others)
  | name, _ =>
    let style ← styleName name
    match close? style opened with
    | some found => return found
    | none => throw (.unmatched (String.ofList content) position)

/-- The text that parts show, with the tags open before them, the last one first. -/
def shown : List Tag → List Piece → Except Fault (List Char)
  | _, [] => .ok []
  | opened, .text cs :: rest => (Emoji.replace (unescape cs) ++ ·) <$> shown opened rest
  | opened, .tag position content :: rest =>
    if content.head? = some '/' then do
      let (t, others) ← closed position content opened
      t.checkAction
      shown others rest
    else do
      let t ← Tag.ofContent content
      shown (t :: opened) rest

/-- The text that markup shows. -/
def plain (s : String) : Except Fault String := String.ofList <$> shown [] (pieces s)

/-! ## Escaping -/

/-- Escapes the tags in a text; at most `fuel` of them. -/
def escapeFrom : Nat → List Char → List Char
  | 0, cs => cs
  | fuel + 1, cs =>
    let (run, rest) := untilTag (cs.length + 1) cs
    match escapedTag? rest with
    | none => run
    | some (slashes, content, after) =>
      run ++ List.replicate (2 * slashes + 1) '\\' ++ '[' :: content ++
        ']' :: escapeFrom fuel after

/-- A single backslash at the end is doubled, lest it escape what follows. -/
def guardEnd (cs : List Char) : List Char :=
  match cs.reverse with
  | '\\' :: '\\' :: _ => cs
  | '\\' :: _ => cs ++ ['\\']
  | _ => cs

/-- The markup that shows a text. -/
def escape (s : String) : String :=
  String.ofList (guardEnd (escapeFrom (s.length + 1) s.toList))

end Markup

end AssetLift
