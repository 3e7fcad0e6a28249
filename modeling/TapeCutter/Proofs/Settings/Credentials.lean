import TapeCutter.Firmware

/-! The two checks of the network name and the passphrase, one of the settings at power-on
and one by the access point at the end of it. Of the name they say the same. Of the
passphrase the first asks only how long it is, the second also that it is printable, so that
settings can pass at power-on and stop the machine all the same. -/
namespace TapeCutter

/-! The checks look at characters. In UTF-8 they come to the same on the bytes. -/

/-- The bytes of a text in UTF-8. -/
def utf8Bytes (text : String) : List UInt8 := text.toByteArray.data.toList

theorem utf8Bytes_eq (text : String) :
    utf8Bytes text = text.toList.flatMap String.utf8EncodeChar := by
  rw [utf8Bytes, ← String.utf8Encode_toList, List.utf8Encode, List.data_toByteArray,
    List.toList_toArray]

theorem inRange_iff {low high value : Nat} :
    inRange low high value = true ↔ low ≤ value ∧ value ≤ high := by
  rw [inRange, Bool.and_eq_true, decide_eq_true_iff, decide_eq_true_iff]

/-- A character beyond the seven-bit set shows in its first byte. -/
theorem exists_mem_utf8EncodeChar {c : Char} (hBeyond : 128 ≤ c.toNat) :
    ∃ byte ∈ String.utf8EncodeChar c, 128 ≤ byte.toNat := by
  have hValue : c.toNat = c.val.toNat := rfl
  cases hBytes : String.utf8EncodeChar c with
  | nil => exact absurd hBytes String.utf8EncodeChar_ne_nil
  | cons lead rest =>
      refine ⟨lead, List.mem_cons_self, ?_⟩
      simp only [String.utf8EncodeChar] at hBytes
      repeat' split at hBytes
      all_goals
        obtain ⟨rfl, _⟩ := List.cons_eq_cons.mp hBytes
        rw [UInt8.toNat_ofNat']
        omega

/-- A range within the first 128 codes holds a character just if it holds its bytes: any other
character has bytes beyond all of them. -/
theorem inRange_utf8EncodeChar_iff {low high : Nat} (hHigh : high < 128) (c : Char) :
    (∀ byte ∈ String.utf8EncodeChar c, inRange low high byte.toNat = true) ↔
      inRange low high c.toNat = true := by
  simp only [inRange_iff]
  by_cases hBeyond : 128 ≤ c.toNat
  · obtain ⟨lead, hLead, hValue⟩ := exists_mem_utf8EncodeChar hBeyond
    constructor
    · intro hAll
      have hRange := hAll lead hLead
      omega
    · omega
  · have hSeven : c.val.toNat ≤ 127 := Nat.le_of_not_lt hBeyond
    have hValue : c.toNat % 2 ^ 8 = c.toNat := Nat.mod_eq_of_lt (by omega)
    simp only [String.utf8EncodeChar, hSeven, if_true, List.mem_singleton, forall_eq,
      UInt8.toNat_ofNat']
    exact hValue ▸ Iff.rfl

/-- A range within the first 128 codes can be tested on bytes as well as on characters. -/
theorem all_inRange_iff {low high : Nat} (hHigh : high < 128) (text : String) :
    (text.toList.all fun c => inRange low high c.toNat) = true ↔
      ∀ byte ∈ utf8Bytes text, inRange low high byte.toNat = true := by
  simp only [utf8Bytes_eq, List.all_eq_true, List.mem_flatMap]
  constructor
  · rintro hAll byte ⟨c, hMem, hByte⟩
    exact (inRange_utf8EncodeChar_iff hHigh c).mpr (hAll c hMem) byte hByte
  · intro hAll c hMem
    exact (inRange_utf8EncodeChar_iff hHigh c).mp fun byte hByte => hAll byte ⟨c, hMem, hByte⟩

/-- Printable text is text whose bytes are printable. -/
theorem printable_iff (text : String) :
    printable text = true ↔ ∀ byte ∈ utf8Bytes text, 0x20 ≤ byte.toNat ∧ byte.toNat ≤ 0x7E := by
  rw [printable, all_inRange_iff (by decide)]
  simp only [inRange_iff]

/-- The blank is the one printable character that is not visible. -/
theorem visible_iff_printable (text : String) :
    visible text = true ↔ text.toList.contains ' ' = false ∧ printable text = true := by
  have hBlank : ∀ c : Char, c = ' ' ↔ c.toNat = 0x20 := by
    intro c
    exact ⟨fun hEq => congrArg Char.toNat hEq, fun hEq => Char.toNat_inj.mp hEq⟩
  simp only [visible, printable, List.all_eq_true, inRange_iff, List.contains_eq_mem,
    decide_eq_false_iff_not]
  constructor
  · intro hVisible
    refine ⟨fun hMem => ?_, fun c hMem => ?_⟩
    · have hRange := hVisible ' ' hMem
      exact absurd hRange.1 (by decide)
    · have hRange := hVisible c hMem
      omega
  · rintro ⟨hNone, hPrintable⟩ c hMem
    have hRange := hPrintable c hMem
    have hOther : c.toNat ≠ 0x20 := fun hEq => hNone ((hBlank c).mpr hEq ▸ hMem)
    omega

/-! The two checks. -/

namespace NetworkSettings

/-- What is asked of a field at power-on. -/
def Passes (network : NetworkSettings) (field : String) : Prop :=
  ∀ rule ∈ network.rules, rule.field = field → rule.holds = true

theorem passes_of_valid {settings : Settings} (hValid : settings.invalid? = none)
    (field : String) : settings.network.Passes field := by
  intro rule hMem _
  exact settings.invalid?_eq_none_iff.mp hValid rule (List.mem_append_right _ hMem)

theorem passes_ssid_iff (network : NetworkSettings) :
    network.Passes "portal.ssid" ↔
      network.ssid.text ≠ "" ∧ visible network.ssid.text = true := by
  simp [Passes, rules]

/-- The rules look at the length of the password and at nothing else. -/
theorem passes_password_iff (network : NetworkSettings) :
    network.Passes "portal.password" ↔
      inRange 8 62 network.password.text.utf8ByteSize = true := by
  simp [Passes, rules]

/-- The access point asks one thing more. -/
theorem credentialsAccepted_iff (network : NetworkSettings) :
    network.credentialsAccepted = true ↔
      network.Passes "portal.ssid" ∧ network.Passes "portal.password" ∧
        printable network.password.text = true := by
  rw [passes_ssid_iff, passes_password_iff, visible_iff_printable]
  simp only [credentialsAccepted, Bool.and_eq_true, bne_iff_ne, Bool.not_eq_true', and_assoc]

end NetworkSettings

namespace AccessPoint

theorem prepare_of_refused {network : NetworkSettings}
    (hRefused : network.credentialsAccepted = false) (interval : UInt32) :
    prepare network interval = .error (.network .credentials) := by
  rw [prepare, if_neg (Bool.not_eq_true _ ▸ hRefused)]

/-- An access point is prepared just if its credentials are accepted. -/
theorem exists_prepare_eq_ok_iff (network : NetworkSettings) (interval : UInt32) :
    (∃ point, prepare network interval = .ok point) ↔ network.credentialsAccepted = true := by
  cases hAccepted : network.credentialsAccepted with
  | true => exact iff_of_true ⟨_, if_pos hAccepted⟩ rfl
  | false =>
      rw [prepare_of_refused hAccepted]
      exact iff_of_false (fun ⟨_, hOk⟩ => nomatch hOk) Bool.false_ne_true

end AccessPoint

namespace Firmware

/-- Power-on gets as far as the access point with good settings and a panel that works. -/
theorem boot_eq_credentials_iff (settings : Settings) (cable : Panel.Cable) (guardOpen : Bool) :
    boot settings cable guardOpen = .error (.network .credentials) ↔
      settings.invalid? = none ∧
        (({ cable := cable } : Panel.Link).send Panel.setUp).1 = none ∧
          settings.network.credentialsAccepted = false := by
  unfold boot
  cases hValid : settings.invalid? with
  | some cause => simp
  | none =>
      obtain ⟨fault, link⟩ := ({ cable := cable } : Panel.Link).send Panel.setUp
      cases fault with
      | some cause => simp
      | none =>
          -- The first place by the interlock is always free.
          let watch : Interlock.Watch := { guard := { level := guardOpen } }
          obtain ⟨joined, hJoin⟩ : ∃ joined,
              (Console.join settings.menu watch : Except Fault (Console Unit)) = .ok joined :=
            ⟨_, rfl⟩
          dsimp only
          rw [hJoin]
          cases hAccepted : settings.network.credentialsAccepted with
          | true =>
              obtain ⟨point, hPoint⟩ := (AccessPoint.exists_prepare_eq_ok_iff settings.network
                settings.timing.nameService).mpr hAccepted
              rw [hPoint]
              exact iff_of_false nofun fun hAll => nomatch hAll.2.2
          | false =>
              rw [AccessPoint.prepare_of_refused hAccepted]
              exact iff_of_true rfl ⟨rfl, rfl, rfl⟩

/-- The access point takes exactly the names and passphrases that pass at power-on and whose
passphrase is printable. So of settings that are valid it takes those with a printable
passphrase, and with another one, power-on ends at the access point although the settings
were found valid and the panel was set up. -/
theorem stopped_iff_unprintable (settings : Settings) (interval : UInt32) (cable : Panel.Cable)
    (guardOpen : Bool) :
    let network := settings.network
    let printed := ∀ byte ∈ utf8Bytes network.password.text,
      0x20 ≤ byte.toNat ∧ byte.toNat ≤ 0x7E
    ((∃ point, AccessPoint.prepare network interval = .ok point) ↔
        network.Passes "portal.ssid" ∧ network.Passes "portal.password" ∧ printed) ∧
      (settings.invalid? = none →
        ((∃ point, AccessPoint.prepare network interval = .ok point) ↔ printed)) ∧
      (boot settings cable guardOpen = .error (.network .credentials) ↔
        settings.invalid? = none ∧
          (({ cable := cable } : Panel.Link).send Panel.setUp).1 = none ∧ ¬printed) := by
  intro network printed
  have hTaken : network.credentialsAccepted = true ↔
      network.Passes "portal.ssid" ∧ network.Passes "portal.password" ∧ printed := by
    rw [NetworkSettings.credentialsAccepted_iff, printable_iff]
  have hValidTaken : settings.invalid? = none →
      (network.credentialsAccepted = true ↔ printed) := by
    intro hValid
    have hPasses : ∀ field, network.Passes field := NetworkSettings.passes_of_valid hValid
    rw [hTaken]
    exact ⟨fun hAll => hAll.2.2, fun hPrinted => ⟨hPasses _, hPasses _, hPrinted⟩⟩
  rw [AccessPoint.exists_prepare_eq_ok_iff]
  refine ⟨hTaken, hValidTaken, ?_⟩
  rw [boot_eq_credentials_iff, ← Bool.not_eq_true]
  constructor
  · rintro ⟨hValid, hSetUp, hRefused⟩
    exact ⟨hValid, hSetUp, mt (hValidTaken hValid).mpr hRefused⟩
  · rintro ⟨hValid, hSetUp, hUnprintable⟩
    exact ⟨hValid, hSetUp, mt (hValidTaken hValid).mp hUnprintable⟩

/-- Blanks are for the passphrase only. -/
theorem taken_with_blanks :
    let settings : Settings := { network := { password := ⟨"open the door", by decide⟩ } }
    settings.invalid? = none ∧ ∃ point, AccessPoint.prepare settings.network 30 = .ok point := by
  intro settings
  have hValid : settings.invalid? = none := by decide
  have hPrintable : printable settings.network.password.text = true := by decide
  obtain ⟨_, hTaken, _⟩ := stopped_iff_unprintable settings 30 {} false
  exact ⟨hValid, (hTaken hValid).mpr ((printable_iff _).mp hPrintable)⟩

/-- The passphrase has one letter beyond the seven-bit set. -/
theorem stopped_with_valid_settings :
    let settings : Settings := { network := { password := ⟨"Käsekuchen", by decide⟩ } }
    settings.invalid? = none ∧
      AccessPoint.prepare settings.network 30 = .error (.network .credentials) ∧
        boot settings {} false = .error (.network .credentials) := by
  intro settings
  have hValid : settings.invalid? = none := by decide
  have hRefused : settings.network.credentialsAccepted = false := by decide
  exact ⟨hValid, AccessPoint.prepare_of_refused hRefused 30,
    (boot_eq_credentials_iff settings {} false).mpr ⟨hValid, rfl, hRefused⟩⟩

end Firmware

end TapeCutter
