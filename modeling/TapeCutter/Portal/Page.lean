import TapeCutter.Portal.Snapshot

/-! The pages of the portal. The status page is a template with placeholders in
double braces, which are replaced one after another, so a value may bring in a
placeholder that a later replacement finds. -/
namespace TapeCutter.Portal

/-- Lines with a line break behind each. -/
def pageText (lines : List String) : String := String.join (lines.map (· ++ "\n"))

/-- The page before anybody has opened the portal. -/
def captiveLines : List String :=
  ["<!DOCTYPE html>",
    "<html>",
    "<head>",
    "<title>Resistor Cutter</title>",
    "<meta name=\"viewport\" content=\"width=device-width, initial-scale=1.0\">",
    "<meta http-equiv=\"refresh\" content=\"0; url=http://www.neverssl.com/?redirect=true\">",
    "</head>",
    "<body>",
    "<h1><a href=\"http://www.neverssl.com/?redirect=true\">Open resistor cutter status</a></h1>",
    "</body>",
    "</html>"]

def captivePage : String := pageText captiveLines

/-- The page for the device, once the portal has been opened. -/
def successLines : List String :=
  ["<!DOCTYPE html>",
    "<html>",
    "<head>",
    "<title>Success</title>",
    "<meta http-equiv=\"refresh\" content=\"0; url=http://www.neverssl.com/?redirect=true\">",
    "</head>",
    "<body>Success</body>",
    "</html>"]

def successPage : String := pageText successLines

/-- The names of the values on the status page. -/
inductive Field where
  | resistorsPerKit
  | kits
  | runningClass
  | runningText
  | progress
deriving DecidableEq

namespace Field

def name : Field → String
  | resistorsPerKit => "resistorsPerKit"
  | kits => "kits"
  | runningClass => "runningClass"
  | runningText => "runningText"
  | progress => "progress"

/-- The order in which the fields are replaced. -/
def all : List Field := [resistorsPerKit, kits, runningClass, runningText, progress]

theorem mem_all (field : Field) : field ∈ all := by
  cases field <;> decide

/-- What stands for the field on the page without values. -/
def placeholder (field : Field) : List Char :=
  ['\x7b', '\x7b'] ++ field.name.toList ++ ['\x7d', '\x7d']

end Field

/-- A part of the status page: fixed text, or the place of a field. -/
inductive Part where
  | text (text : String)
  | field (field : Field)
deriving DecidableEq

/-- The status page down to its first value. -/
def openingLines : List String :=
  ["<!DOCTYPE html>",
    "<html>",
    "<head>",
    "<title>Resistor Cutter</title>",
    "<meta name=\"viewport\" content=\"width=device-width, initial-scale=1.0\">",
    "<meta http-equiv=\"refresh\" content=\"1\">",
    "<style>",
    "body \x7b display: flex; flex-direction: column; align-items: center; font-family: sans-serif; \x7d",
    ".row \x7b display: flex; justify-content: center; margin: 5px; border: 2px solid black; border-radius: 8px; \x7d",
    ".row > div \x7b width: 200px; height: 125px; display: flex; flex-direction: column; justify-content: center; align-items: center; \x7d",
    ".row h2 \x7b margin-bottom: -10px; color: darkgrey; \x7d",
    ".cutting \x7b background: #98ff98; \x7d",
    ".notCutting \x7b background: #ff9898; \x7d",
    ".paused \x7b background: #ffcc98; \x7d",
    "</style>",
    "</head>",
    "<body>",
    "<h1>Resistor Cutter Status</h1>",
    "<div class=\"row\">"]

def templateParts : List Part :=
  [.text (pageText openingLines),
    .text "<div style=\"border-right: 1px solid black;\"><h2>Resistors Per Kit</h2><h1>",
    .field .resistorsPerKit,
    .text "</h1></div>\n<div><h2>Kits</h2><h1>",
    .field .kits,
    .text "</h1></div>\n</div>\n<div class=\"row ",
    .field .runningClass,
    .text "\">\n<div><h1>",
    .field .runningText,
    .text "</h1>",
    .field .progress,
    .text "</div>\n</div>\n</body>\n</html>\n"]

/-- The page with a text in the place of every field. -/
def fillParts (value : Field → List Char) (parts : List Part) : List Char :=
  parts.flatMap fun
    | .text text => text.toList
    | .field field => value field

/-- The status page without its values. -/
def template : List Char := fillParts Field.placeholder templateParts

/-- Every occurrence of a pattern replaced, from left to right, none of them
overlapping. The first argument counts the characters that still belong to the
occurrence before. -/
def replaceAll (pattern new : List Char) : Nat → List Char → List Char
  | _, [] => []
  | skip + 1, _ :: rest => replaceAll pattern new skip rest
  | 0, c :: rest =>
      if pattern.isPrefixOf (c :: rest) then
        new ++ replaceAll pattern new (pattern.length - 1) rest
      else c :: replaceAll pattern new 0 rest

/-- What the page shows of the progress. -/
def progressText : Option UInt8 → String
  | some percent => "<h2>" ++ Text.decimal percent.toNat ++ "%</h2>"
  | none => ""

def Snapshot.value (snapshot : Snapshot) : Field → String
  | .resistorsPerKit => Text.decimal snapshot.resistorsPerKit.toNat
  | .kits => Text.decimal snapshot.kits.toNat
  | .runningClass => snapshot.runningClass.text
  | .runningText => snapshot.runningText.text
  | .progress => progressText snapshot.progress

/-- The status page with the values filled in, one field after another. -/
def mainPage (snapshot : Snapshot) : String :=
  String.ofList (Field.all.foldl
    (fun page field => replaceAll field.placeholder (snapshot.value field).toList 0 page) template)

end TapeCutter.Portal
