import TapeCutter.Proofs.Portal.Service
import TapeCutter.Proofs.Portal.Substitution

/-! The status page with its values. It is its template with every field in its place, whatever
the order of the replacements, as long as the two texts of the snapshot hold no two opening
braces in a row. The words for a status never do, and the page of a report tells all that is in
the report. -/
namespace TapeCutter.Portal

/-! The template of the status page. -/

set_option maxRecDepth 1024 in
theorem sealed_openingLines : ∀ line ∈ openingLines, Sealed line.toList := by
  simp only [openingLines, List.forall_mem_cons, List.not_mem_nil, false_implies, implies_true,
    and_true]
  and_intros
  all_goals exact sealed_ofList (by decide +kernel)

/-- No line of the template ends in the middle of a brace, so nothing that is put in can make up
an opening one. -/
theorem isSealed_templateParts : ∀ part ∈ templateParts, part.IsSealed := by
  simp only [templateParts, List.forall_mem_cons, List.not_mem_nil, false_implies, implies_true,
    and_true, true_and, Part.IsSealed]
  refine ⟨sealed_pageText sealed_openingLines, ?_⟩
  and_intros
  all_goals exact sealed_ofList (by decide +kernel)

theorem delimited_templateParts : Delimited (fun _ c => c ≠ '\x7b') templateParts := by
  simp only [templateParts, Delimited, firstOf, and_true]
  and_intros
  all_goals exact ⟨_, rfl, by decide⟩

theorem filled_nil (value : Field → List Char) : filled value [] = Field.placeholder := rfl

theorem filled_of_forall_mem {value : Field → List Char} {done : List Field}
    (hAll : ∀ field, field ∈ done) : filled value done = value :=
  funext fun field => if_pos (hAll field)

/-- Values that hold no two braces in a row are filled in as at once, in any order. -/
theorem replaceEach_template {value : Field → List Char} (hValues : ∀ field, Calm (value field))
    {order : List Field} (hAll : ∀ field, field ∈ order) :
    replaceEach value order template = fillParts value templateParts := by
  have hRun := replaceEach_fillParts order [] isSealed_templateParts delimited_templateParts hValues
  rwa [filled_nil, List.append_nil,
    filled_of_forall_mem fun field => List.mem_reverse.mpr (hAll field)] at hRun

/-- The template is filled in part by part. -/
theorem fillIn_template {value : Field → List Char} {fields : List Field}
    (hAll : ∀ field, field ∈ fields) :
    fillIn fields value 0 template = fillParts value templateParts := by
  have hNone : ∀ field ∈ ([] : List Field), Calm (value field) := nofun
  have hPass := fillIn_fillParts fields isSealed_templateParts delimited_templateParts hNone
  rwa [filled_nil, List.append_nil, filled_of_forall_mem hAll] at hPass

/-! The values of a snapshot. -/

/-- The characters in the place of a field. -/
def Snapshot.chars (snapshot : Snapshot) (field : Field) : List Char :=
  (snapshot.value field).toList

/-- A percentage is shown in a heading of its own. -/
theorem toList_progressText_some (percent : UInt8) :
    (progressText (some percent)).toList =
      "<h2>".toList ++ (Text.digits percent.toNat ++ "%</h2>".toList) := by
  rw [progressText, String.toList_append, String.toList_append, Text.toList_decimal,
    List.append_assoc]

/-- The heading tells the percentage, and whether there is one. -/
theorem progressText_injective {progress other : Option UInt8}
    (hText : progressText progress = progressText other) : progress = other := by
  have hChars := congrArg String.toList hText
  cases progress with
  | none =>
      cases other with
      | none => rfl
      | some percent =>
          rw [toList_progressText_some] at hChars
          exact nomatch hChars
  | some percent =>
      cases other with
      | none =>
          rw [toList_progressText_some] at hChars
          exact nomatch hChars
      | some later =>
          rw [toList_progressText_some, toList_progressText_some] at hChars
          have hDigits := List.append_cancel_right (List.append_cancel_left hChars)
          exact congrArg some (UInt8.toNat_inj.mp (Text.digits_injective hDigits))

namespace Snapshot

/-- What the places of a page are to show of a snapshot. -/
structure Supplies (snapshot : Snapshot) (value : Field → String) : Prop where
  resistorsPerKit : Text.IsNumeral (value .resistorsPerKit) snapshot.resistorsPerKit.toNat
  kits : Text.IsNumeral (value .kits) snapshot.kits.toNat
  runningClass : value .runningClass = snapshot.runningClass.text
  runningText : value .runningText = snapshot.runningText.text
  no_progress : snapshot.progress = none → value .progress = ""
  progress : ∀ percent, snapshot.progress = some percent →
    ∃ numeral, Text.IsNumeral numeral percent.toNat ∧
      value .progress = "<h2>" ++ numeral ++ "%</h2>"

/-- The values that are put in are the numerals and the words of the snapshot. -/
theorem supplies_value (snapshot : Snapshot) : snapshot.Supplies snapshot.value where
  resistorsPerKit := Text.isNumeral_decimal _
  kits := Text.isNumeral_decimal _
  runningClass := rfl
  runningText := rfl
  no_progress hNone := congrArg progressText hNone
  progress _ hSome := ⟨_, Text.isNumeral_decimal _, congrArg progressText hSome⟩

/-- No value opens a placeholder, unless one of the two words from outside does. -/
theorem calm_chars {snapshot : Snapshot} (hClass : ¬ Opens snapshot.runningClass.text)
    (hText : ¬ Opens snapshot.runningText.text) (field : Field) : Calm (snapshot.chars field) := by
  have hBrace : ('\x7b').isDigit = false := by decide
  cases field with
  | resistorsPerKit => exact calm_of_not_mem (Text.not_mem_decimal hBrace _)
  | kits => exact calm_of_not_mem (Text.not_mem_decimal hBrace _)
  | runningClass => exact calm_toList_iff.mpr hClass
  | runningText => exact calm_toList_iff.mpr hText
  | progress =>
      rw [chars, value]
      cases snapshot.progress with
      | none => decide
      | some percent =>
          refine calm_of_not_mem ?_
          rw [toList_progressText_some]
          simp [Text.not_mem_digits hBrace]

theorem value_ofReport (report : StatusReport) :
    (ofReport report).value .runningClass = report.status.styleClass ∧
      (ofReport report).value .runningText = report.status.label :=
  ⟨(tells_ofReport report).runningClass, (tells_ofReport report).runningText⟩

/-- The words for a status are short and hold no braces. -/
theorem not_opens_ofReport (report : StatusReport) :
    ¬ Opens (ofReport report).runningClass.text ∧ ¬ Opens (ofReport report).runningText.text := by
  rw [(tells_ofReport report).runningClass, (tells_ofReport report).runningText, ← calm_toList_iff,
    ← calm_toList_iff]
  cases report.status <;> decide

end Snapshot

/-- The character behind a place. -/
def Field.closer : Field → Char
  | .runningClass => '"'
  | _ => '<'

/-- What stands behind a placeholder in the template ends its value, because no value but the
progress contains it. -/
theorem closer_not_mem_chars (report : StatusReport) {field : Field} (hField : field ≠ .progress) :
    field.closer ∉ (Snapshot.ofReport report).chars field := by
  have hDigit : ('<').isDigit = false := by decide
  cases field with
  | resistorsPerKit => exact Text.not_mem_decimal hDigit _
  | kits => exact Text.not_mem_decimal hDigit _
  | runningClass =>
      rw [Snapshot.chars, (Snapshot.value_ofReport report).1]
      cases report.status <;> decide
  | runningText =>
      rw [Snapshot.chars, (Snapshot.value_ofReport report).2]
      cases report.status <;> decide
  | progress => exact absurd rfl hField

/-- The status page down to the progress. -/
def frontParts : List Part := templateParts.take 10

theorem fillParts_templateParts (value : Field → List Char) :
    fillParts value templateParts =
      fillParts value frontParts ++
        (value .progress ++ fillParts value (templateParts.drop 11)) := by
  have hEnd : templateParts.drop 10 = .field .progress :: templateParts.drop 11 := rfl
  rw [← fillParts_field, ← hEnd, frontParts, fillParts, fillParts, fillParts, ← List.flatMap_append,
    List.take_append_drop]

/-- Two pages can be compared place by place in front of the progress. -/
theorem delimited_frontParts (report other : StatusReport) :
    Delimited (fun field c => c ∉ (Snapshot.ofReport report).chars field ∧
      c ∉ (Snapshot.ofReport other).chars field) frontParts := by
  have hCloser (field : Field) (hField : field ≠ .progress) :=
    And.intro (closer_not_mem_chars report hField) (closer_not_mem_chars other hField)
  simp only [frontParts, templateParts, List.take_succ_cons, List.take_zero, Delimited, firstOf,
    and_true]
  and_intros
  · exact ⟨_, rfl, hCloser .resistorsPerKit nofun⟩
  · exact ⟨_, rfl, hCloser .kits nofun⟩
  · exact ⟨_, rfl, hCloser .runningClass nofun⟩
  · exact ⟨_, rfl, hCloser .runningText nofun⟩

/-- A page that is filled in tells all of its values. -/
theorem values_of_page {report other : StatusReport}
    (hPage : fillParts (Snapshot.ofReport report).chars templateParts =
      fillParts (Snapshot.ofReport other).chars templateParts) (field : Field) :
    (Snapshot.ofReport report).value field = (Snapshot.ofReport other).value field := by
  -- The progress has tags of its own, but nothing behind it that could differ.
  rw [fillParts_templateParts, fillParts_templateParts] at hPage
  obtain ⟨hFront, hEnd⟩ := eq_of_fillParts_append_eq (delimited_frontParts report other) hPage
  refine String.toList_inj.mp ?_
  cases field with
  | progress => exact List.append_cancel_right hEnd
  | resistorsPerKit => exact hFront .resistorsPerKit (by decide)
  | kits => exact hFront .kits (by decide)
  | runningClass => exact hFront .runningClass (by decide)
  | runningText => exact hFront .runningText (by decide)

/-- The values of a page tell the report. -/
theorem report_eq_of_value {report other : StatusReport} (hValues : ∀ field,
    (Snapshot.ofReport report).value field = (Snapshot.ofReport other).value field) :
    report = other := by
  have hQuantity : report.quantityPerKit = other.quantityPerKit :=
    UInt8.toNat_inj.mp (Text.decimal_injective (hValues .resistorsPerKit))
  have hKits : report.kitCount = other.kitCount :=
    UInt8.toNat_inj.mp (Text.decimal_injective (hValues .kits))
  have hStatus : report.status = other.status := by
    have hClass := hValues .runningClass
    rw [(Snapshot.value_ofReport report).1, (Snapshot.value_ofReport other).1] at hClass
    exact Run.Status.styleClass_injective hClass
  have hPercent : report.percent = other.percent := progressText_injective (hValues .progress)
  cases report
  cases other
  simp only at hQuantity hKits hStatus hPercent
  rw [hQuantity, hKits, hStatus, hPercent]

/-- The page that is sent is the template with every part filled in once. -/
theorem toList_mainPage {snapshot : Snapshot} (hClass : ¬ Opens snapshot.runningClass.text)
    (hText : ¬ Opens snapshot.runningText.text) :
    (mainPage snapshot).toList = fillParts snapshot.chars templateParts := by
  rw [← replaceEach_template (Snapshot.calm_chars hClass hText) Field.mem_all]
  exact String.toList_ofList

/-- A page is its template with every field in its place: the two counts as numerals, the two
texts as they are, and the progress with a percent sign, or nothing. One pass over the template
that never looks at a value gives the same, and so do replacements in any order. All that is
asked is that the two texts hold no two opening braces in a row, and then the page holds none
either. The texts made for a report are of this kind, and two reports have the same page only
if they are the same. -/
theorem filled_in_at_once :
    (∀ snapshot : Snapshot,
      ¬ Opens snapshot.runningClass.text → ¬ Opens snapshot.runningText.text →
        let page := (mainPage snapshot).toList
        snapshot.Supplies snapshot.value ∧
          page = fillIn Field.all snapshot.chars 0 template ∧
          page = fillParts snapshot.chars templateParts ∧
          (∀ order, (∀ field, field ∈ order) →
            replaceEach snapshot.chars order template = page) ∧
          ¬ Opens (mainPage snapshot)) ∧
      (∀ report, let snapshot := Snapshot.ofReport report
        ¬ Opens snapshot.runningClass.text ∧ ¬ Opens snapshot.runningText.text) ∧
      ∀ report other : StatusReport,
        mainPage (.ofReport report) = mainPage (.ofReport other) ↔ report = other := by
  refine ⟨?_, Snapshot.not_opens_ofReport, fun report other => ⟨fun hPages => ?_, ?_⟩⟩
  · intro snapshot hClass hText page
    have hValues : ∀ field, Calm (snapshot.chars field) := Snapshot.calm_chars hClass hText
    have hPage : page = fillParts snapshot.chars templateParts := toList_mainPage hClass hText
    refine ⟨snapshot.supplies_value, ?_, hPage, fun order hAll => ?_, ?_⟩
    · rw [hPage, fillIn_template Field.mem_all]
    · rw [hPage, replaceEach_template hValues hAll]
    · rw [← calm_toList_iff]
      change Calm page
      rw [hPage]
      exact calm_fillParts isSealed_templateParts delimited_templateParts hValues
  · obtain ⟨hClass, hText⟩ := Snapshot.not_opens_ofReport report
    obtain ⟨hOtherClass, hOtherText⟩ := Snapshot.not_opens_ofReport other
    refine report_eq_of_value (values_of_page ?_)
    rw [← toList_mainPage hClass hText, hPages, toList_mainPage hOtherClass hOtherText]
  · exact congrArg fun report => mainPage (.ofReport report)

/-- The texts hold halves of placeholders, and braces at their ends. -/
theorem filled_in_with_halves :
    let snapshot : Snapshot := {
      resistorsPerKit := 7
      kits := 42
      runningClass := ⟨"\x7d\x7dkits\x7b", by decide⟩
      runningText := ⟨"\x7bprogress\x7d\x7d", by decide⟩
      progress := some 35 }
    ¬ Opens snapshot.runningClass.text ∧ ¬ Opens snapshot.runningText.text ∧
      (mainPage snapshot).toList = fillParts snapshot.chars templateParts ∧
      ¬ Opens (mainPage snapshot) := by
  intro snapshot
  have hClass : ¬ Opens snapshot.runningClass.text := calm_toList_iff.mp (by decide)
  have hText : ¬ Opens snapshot.runningText.text := calm_toList_iff.mp (by decide)
  obtain ⟨_, _, hFilled, _, hNone⟩ := filled_in_at_once.1 snapshot hClass hText
  exact ⟨hClass, hText, hFilled, hNone⟩

end TapeCutter.Portal
