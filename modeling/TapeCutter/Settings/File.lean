import TapeCutter.Json.Fields
import TapeCutter.Json.Text
import TapeCutter.Settings.Basic

/-! The settings file: JSON records nested as the settings are, with the keys in
the order of declaration. Every key must be given. -/
namespace TapeCutter

open Json

namespace Address

def toJson (address : Address) : Json := .array (address.bytes.map fun byte => nat byte.toNat)

/-- Exactly four bytes. -/
def ofJson? : Json → Option Address
  | .array [a, b, c, d] => do return ⟨← a.uint8?, ← b.uint8?, ← c.uint8?, ← d.uint8?⟩
  | _ => none

end Address

namespace MenuSettings

def keys : List String :=
  ["max_quantity_per_kit", "max_kit_count", "vertical_repeat_ms", "horizontal_repeat_ms"]

def toJson (menu : MenuSettings) : Json :=
  record (keys.zip [nat menu.maxQuantityPerKit.toNat, nat menu.maxKitCount.toNat,
    nat menu.verticalRepeat.toNat, nat menu.horizontalRepeat.toNat])

def ofJson? (value : Json) : Option MenuSettings :=
  match value.fields? keys with
  | some [some quantity, some kits, some vertical, some horizontal] => do
      return ⟨← quantity.uint8?, ← kits.uint8?, ← vertical.uint32?, ← horizontal.uint32?⟩
  | _ => none

end MenuSettings

namespace StickSettings

def keys : List String := ["adc_max", "deflection_margin"]

def toJson (stick : StickSettings) : Json :=
  record (keys.zip [nat stick.fullScale.toNat, nat stick.margin.toNat])

def ofJson? (value : Json) : Option StickSettings :=
  match value.fields? keys with
  | some [some fullScale, some margin] => do return ⟨← fullScale.uint16?, ← margin.uint16?⟩
  | _ => none

end StickSettings

namespace TimingSettings

def keys : List String := ["tick_interval_ms", "dns_interval_ms", "watchdog_timeout_ms"]

def toJson (timing : TimingSettings) : Json :=
  record (keys.zip [nat timing.tick.toNat, nat timing.nameService.toNat,
    nat timing.watchdog.toNat])

def ofJson? (value : Json) : Option TimingSettings :=
  match value.fields? keys with
  | some [some tick, some nameService, some watchdog] => do
      return ⟨← tick.uint32?, ← nameService.uint32?, ← watchdog.uint32?⟩
  | _ => none

end TimingSettings

namespace NetworkSettings

def keys : List String := ["ssid", "password", "channel", "max_clients", "ip", "dns_ttl_secs"]

def toJson (network : NetworkSettings) : Json :=
  record (keys.zip [text network.ssid.text, text network.password.text,
    nat network.channel.toNat, nat network.maxClients.toNat, network.address.toJson,
    nat network.answerLifetime.toNat])

def ofJson? (value : Json) : Option NetworkSettings :=
  match value.fields? keys with
  | some [some ssid, some password, some channel, some clients, some address, some lifetime] => do
      return ⟨← ssid.bounded?, ← password.bounded?, ← channel.uint8?, ← clients.uint8?,
        ← Address.ofJson? address, ← lifetime.uint32?⟩
  | _ => none

end NetworkSettings

namespace Settings

def keys : List String := ["menu", "joystick", "timing", "portal"]

def toJson (settings : Settings) : Json :=
  record (keys.zip [settings.menu.toJson, settings.stick.toJson, settings.timing.toJson,
    settings.network.toJson])

def ofJson? (value : Json) : Option Settings :=
  match value.fields? keys with
  | some [some menu, some stick, some timing, some network] => do
      return ⟨← MenuSettings.ofJson? menu, ← StickSettings.ofJson? stick,
        ← TimingSettings.ofJson? timing, ← NetworkSettings.ofJson? network⟩
  | _ => none

/-- The text of a settings file. -/
def render (settings : Settings) : String := settings.toJson.render

/-- The settings a file holds. -/
def ofText? (file : String) : Option Settings := (Json.ofText? file).bind ofJson?

end Settings

end TapeCutter
