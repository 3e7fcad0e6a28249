import TapeCutter.Fault
import TapeCutter.Settings.Basic

/-! What settings a machine accepts. The whole file is checked at power-on; the
access point checks its own name and passphrase again, by rules that differ in
which bytes a passphrase may hold. -/
namespace TapeCutter

/-- A field, and whether its value is in range. -/
structure Rule where
  field : String
  holds : Bool

def inRange (low high value : Nat) : Bool := low ≤ value && value ≤ high

/-- Every character is a visible one of the seven-bit set. The blank is not visible. -/
def visible (text : String) : Bool := text.toList.all fun c => inRange 0x21 0x7E c.toNat

/-- Every character is a visible one of the seven-bit set, or the blank. -/
def printable (text : String) : Bool := text.toList.all fun c => inRange 0x20 0x7E c.toNat

def MenuSettings.rules (menu : MenuSettings) : List Rule :=
  [⟨"menu.max_quantity_per_kit", menu.maxQuantityPerKit != 0⟩,
    ⟨"menu.max_kit_count", menu.maxKitCount != 0⟩,
    ⟨"menu.vertical_repeat_ms", inRange 1 5000 menu.verticalRepeat.toNat⟩,
    ⟨"menu.horizontal_repeat_ms", inRange 1 5000 menu.horizontalRepeat.toNat⟩]

/-- The margin stays below half of full scale, so that the two deflections of a
wiper cannot overlap. -/
def StickSettings.rules (stick : StickSettings) : List Rule :=
  [⟨"joystick.deflection_margin", stick.fullScale != 0 && stick.margin < stick.fullScale / 2⟩]

/-- The loop keeps pace with name service, and the watchdog outlasts the start
of the access point. -/
def TimingSettings.rules (timing : TimingSettings) : List Rule :=
  [⟨"timing.tick_interval_ms", inRange 1 20 timing.tick.toNat⟩,
    ⟨"timing.dns_interval_ms", timing.nameService != 0⟩,
    ⟨"timing.watchdog_timeout_ms", 1000 ≤ timing.watchdog⟩]

def NetworkSettings.rules (network : NetworkSettings) : List Rule :=
  [⟨"portal.ssid", network.ssid.text != "" && visible network.ssid.text⟩,
    ⟨"portal.password", inRange 8 62 network.password.text.utf8ByteSize⟩,
    ⟨"portal.channel", inRange 1 13 network.channel.toNat⟩,
    ⟨"portal.max_clients", network.maxClients != 0⟩]

def Settings.rules (settings : Settings) : List Rule :=
  settings.menu.rules ++ settings.stick.rules ++ settings.timing.rules ++ settings.network.rules

/-- The first field out of range. -/
def Settings.invalid? (settings : Settings) : Option InvalidSetting :=
  (settings.rules.find? fun rule => !rule.holds).map fun rule => ⟨rule.field⟩

/-- Settings are valid just if they keep all rules; the first that they break is the one that is
told. -/
theorem Settings.invalid?_eq_none_iff (settings : Settings) :
    settings.invalid? = none ↔ ∀ rule ∈ settings.rules, rule.holds = true := by
  simp only [invalid?, Option.map_eq_none_iff, List.find?_eq_none, Bool.not_eq_true,
    Bool.not_eq_false']

/-- The access point takes a name without blanks, and a passphrase of printable
characters. -/
def NetworkSettings.credentialsAccepted (network : NetworkSettings) : Bool :=
  network.ssid.text != "" &&
    !network.ssid.text.toList.contains ' ' && printable network.ssid.text &&
    inRange 8 62 network.password.text.utf8ByteSize && printable network.password.text

end TapeCutter
