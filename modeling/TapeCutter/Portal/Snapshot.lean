import TapeCutter.Json.Fields
import TapeCutter.Json.Text
import TapeCutter.StatusReport
import TapeCutter.Text.Bounded

/-! The status as visitors see it, on the page and as JSON. -/
namespace TapeCutter.Portal

open Json

structure Snapshot where
  resistorsPerKit : UInt8
  kits : UInt8
  /-- The style class. -/
  runningClass : Text.Bounded 16
  /-- The words. -/
  runningText : Text.Bounded 16
  progress : Option UInt8
deriving DecidableEq

namespace Snapshot

def ofReport (report : StatusReport) : Snapshot where
  resistorsPerKit := report.quantityPerKit
  kits := report.kitCount
  runningClass := .ofPieces [report.status.styleClass]
  runningText := .ofPieces [report.status.label]
  progress := report.percent

def keys : List String := ["resistorsPerKit", "kits", "runningClass", "runningText", "progress"]

/-- The progress is left out when there is none. -/
def toJson (snapshot : Snapshot) : Json :=
  record (keys.zip ([nat snapshot.resistorsPerKit.toNat, nat snapshot.kits.toNat,
    text snapshot.runningClass.text, text snapshot.runningText.text] ++
    (snapshot.progress.map fun percent => nat percent.toNat).toList))

/-- A progress that is missing or null is none. -/
def progress? : Option Json → Option (Option UInt8)
  | none => some none
  | some value => if value.isNull then some none else value.uint8?.map some

def ofJson? (value : Json) : Option Snapshot :=
  match value.fields? keys with
  | some [some resistorsPerKit, some kits, some runningClass, some runningText, progress] => do
      return ⟨← resistorsPerKit.uint8?, ← kits.uint8?, ← runningClass.bounded?,
        ← runningText.bounded?, ← progress? progress⟩
  | _ => none

def render (snapshot : Snapshot) : String := snapshot.toJson.render

def ofText? (s : String) : Option Snapshot := (Json.ofText? s).bind ofJson?

end Snapshot

end TapeCutter.Portal
