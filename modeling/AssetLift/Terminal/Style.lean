import AssetLift.Text.Blank
import AssetLift.Text.Digit
import AssetLift.Text.Lowercase

/-!
# Styles

A style is written in words: attributes, `not` before one that is to be off, a colour, `on` before
the colour behind the text, and `link` before a target. Words that mean the same style have one
normal form, by which tags are matched.

* `Style.parse` — the style that words write.
* `Style.text` — the normal form of a style.
* `Style.normalize` — the normal form of words; words that write no style are put in small letters.
-/

namespace AssetLift

/-- A style. Attributes are kept by their place in `Style.attributeNames`. -/
structure Style where
  attributes : List (Nat × Bool) := []
  colour : Option String := none
  background : Option String := none
  link : Option String := none
  deriving DecidableEq

namespace Style

/-- The attributes of text with their short names, in the order of the normal form. -/
def attributeNames : List (List String) :=
  [["bold", "b"], ["dim", "d"], ["italic", "i"], ["underline", "u"], ["blink"], ["blink2"],
    ["reverse", "r"], ["conceal", "c"], ["strike", "s"], ["underline2", "uu"], ["frame"],
    ["encircle"], ["overline", "o"]]

/-- The place of the attribute that a word names. -/
def attribute? (word : String) : Option Nat := attributeNames.findIdx? (·.contains word)

/-! ## Colours -/

/-- The colours of a terminal that have a name, but for shades of grey. -/
def colourNames : List String :=
  ["black red green yellow blue magenta cyan white bright_black bright_red bright_green",
    "bright_yellow bright_blue bright_magenta bright_cyan bright_white navy_blue dark_blue blue3",
    "blue1 dark_green deep_sky_blue4 dodger_blue3 dodger_blue2 green4 spring_green4 turquoise4",
    "deep_sky_blue3 dodger_blue1 green3 spring_green3 dark_cyan light_sea_green deep_sky_blue2",
    "deep_sky_blue1 spring_green2 cyan3 dark_turquoise turquoise2 green1 spring_green1",
    "medium_spring_green cyan2 cyan1 dark_red deep_pink4 purple4 purple3 blue_violet orange4",
    "medium_purple4 slate_blue3 royal_blue1 chartreuse4 dark_sea_green4 pale_turquoise4",
    "steel_blue steel_blue3 cornflower_blue chartreuse3 cadet_blue sky_blue3 steel_blue1",
    "pale_green3 sea_green3 aquamarine3 medium_turquoise chartreuse2 sea_green2 sea_green1",
    "aquamarine1 dark_magenta dark_violet purple light_pink4 plum4 medium_purple3 slate_blue1",
    "yellow4 wheat4 medium_purple light_slate_blue dark_olive_green3 dark_sea_green",
    "light_sky_blue3 sky_blue2 dark_sea_green3 sky_blue1 chartreuse1 light_green pale_green1",
    "red3 medium_violet_red magenta3 dark_orange3 indian_red hot_pink3 medium_orchid3",
    "medium_orchid medium_purple2 dark_goldenrod light_salmon3 rosy_brown medium_purple1 gold3",
    "dark_khaki navajo_white3 light_steel_blue3 light_steel_blue yellow3 dark_sea_green2",
    "light_cyan3 light_sky_blue1 green_yellow dark_olive_green2 dark_sea_green1 pale_turquoise1",
    "deep_pink3 magenta2 hot_pink2 orchid medium_orchid1 orange3 light_pink3 pink3 plum3 violet",
    "light_goldenrod3 tan misty_rose3 thistle3 plum2 khaki3 light_goldenrod2 light_yellow3",
    "light_steel_blue1 yellow2 dark_olive_green1 honeydew2 light_cyan1 red1 deep_pink2",
    "deep_pink1 magenta1 orange_red1 indian_red1 hot_pink dark_orange salmon1 light_coral",
    "pale_violet_red1 orchid2 orchid1 orange1 sandy_brown light_salmon1 light_pink1 pink1 plum1",
    "gold1 navajo_white1 misty_rose1 thistle1 yellow1 light_goldenrod1 khaki1 wheat1 cornsilk1",
    "dark_slate_gray2 light_slate_grey light_slate_gray dark_slate_gray3 dark_slate_gray1"]

/-- The shades of grey that have a name, in hundredths of white. -/
def greys : List Nat :=
  [0, 3, 7, 11, 15, 19, 23, 27, 30, 35, 37, 39, 42, 46, 50, 53, 54, 58, 62, 63, 66, 69, 70, 74, 78,
    82, 84, 85, 89, 93, 100]

/-- Whether a word in small letters is the name of a colour. -/
def isColourName (word : String) : Bool :=
  word = "default" || colourNames.any (fun row => (row.splitOn " ").contains word)
    || greys.any fun n => word = s!"grey{n}" || word = s!"gray{n}"

/-- Why words write no style. -/
inductive Fault where
  /-- They do not follow the rules of styles. -/
  | unknown
  /-- A part of a colour has no digits. -/
  | noDigits
  deriving DecidableEq

/-- The text between a start and an end. -/
def between? (start : String) (stop : Char) (word : List Char) : Option (List Char) :=
  if start.toList.isPrefixOf word then
    match (word.drop start.length).reverse with
    | c :: inner => if c = stop then some inner.reverse else none
    | [] => none
  else none

/-- Checks the parts of a colour: three numbers up to 255. -/
def checkParts (inner : List Char) : Except Fault Unit := do
  if inner.isEmpty || inner.any (fun c => c ≠ ',' && !Digit.isDigit c) then throw .unknown
  let parts := Blank.splitChars ',' inner
  if parts.length ≠ 3 then throw .unknown
  if parts.any (·.isEmpty) then throw .noDigits
  if parts.any (fun p => 255 < (Digit.number? p).getD 0) then throw .unknown

/-- Whether a character is a digit of a colour's six. -/
def isColourDigit (c : Char) : Bool := ('0' ≤ c && c ≤ '9') || ('a' ≤ c && c ≤ 'f')

/-- The colour that a word writes, in small letters: by its name, six digits, a number, or three
parts. -/
def colourOf (word : List Char) : Except Fault String := do
  let word := Lowercase.ofChars word
  let text := String.ofList word
  if isColourName text then return text
  match word, between? "color(" ')' word, between? "rgb(" ')' word with
  | '#' :: digits, _, _ =>
    if digits.length = 6 && digits.all isColourDigit then return text else throw .unknown
  | _, some digits, _ =>
    if 1 ≤ digits.length && digits.length ≤ 3 && digits.all Char.isDigit
        && (Digit.number? digits).getD 0 ≤ 255 then return text
    else throw .unknown
  | _, none, some inner =>
    checkParts inner
    return text
  | _, none, none => throw .unknown

/-! ## Reading -/

/-- Sets an attribute. -/
def setAttribute (s : Style) (place : Nat) (isOn : Bool) : Style :=
  { s with attributes := (place, isOn) :: s.attributes.filter (·.1 ≠ place) }

/-- Reads words over a style. -/
def parseWords (s : Style) : List (List Char) → Except Fault Style
  | [] => .ok s
  | word :: rest =>
    match String.ofList (Lowercase.ofChars word) with
    | "on" =>
      match rest with
      | [] => .error .unknown
      | behind :: rest => do
        let c ← colourOf behind
        parseWords { s with background := some c } rest
    | "not" =>
      match rest with
      | [] => .error .unknown
      | word :: rest =>
        match attribute? (String.ofList word) with
        | some place => parseWords (s.setAttribute place false) rest
        | none => .error .unknown
    | "link" =>
      match rest with
      | [] => .error .unknown
      | target :: rest => parseWords { s with link := some (String.ofList target) } rest
    | name =>
      match attribute? name with
      | some place => parseWords (s.setAttribute place true) rest
      | none => do
        let c ← colourOf word
        parseWords { s with colour := some c } rest

/-- The words of a text. -/
def words (cs : List Char) : List (List Char) :=
  (Blank.splitChars ' ' (cs.map fun c => if Blank.isBlank c then ' ' else c)).filter (· ≠ [])

/-- The style that a text writes. -/
def parse (cs : List Char) : Except Fault Style :=
  if Blank.trimChars cs = "none".toList then .ok {} else parseWords {} (words cs)

/-! ## The normal form -/

/-- The words of the attributes that a style sets. -/
def attributeWords (s : Style) : List String :=
  attributeNames.zipIdx.filterMap fun (names, place) =>
    (s.attributes.lookup place).map fun isOn =>
      if isOn then names.headD "" else "not " ++ names.headD ""

/-- The normal form of a style. -/
def text (s : Style) : String :=
  let parts := s.attributeWords ++ s.colour.toList ++
    s.background.toList.map ("on " ++ ·) ++ s.link.toList.map ("link " ++ ·)
  if parts.isEmpty then "none" else " ".intercalate parts

/-- The normal form of a text. -/
def normalize (cs : List Char) : Except Fault String :=
  match parse cs with
  | .ok s => .ok s.text
  | .error .unknown => .ok (String.ofList (Lowercase.ofChars (Blank.trimChars cs)))
  | .error f => .error f

end Style

end AssetLift
