import TapeCutter.Text.Decimal

/-! Everything that can go wrong, by cause, and the wording of each cause. -/
namespace TapeCutter

/-- A setting is outside its range. The field is named as in the settings file. -/
structure InvalidSetting where
  field : String
deriving DecidableEq

inductive DisplayFault where
  /-- A transfer over the serial bus failed. -/
  | bus
  /-- The reset line or the data/command line could not be driven. -/
  | line
deriving DecidableEq

inductive NetworkFault where
  | accessPoint
  | webServer
  | nameServer
  /-- The network name or the passphrase was refused. -/
  | credentials
deriving DecidableEq

/-- A step of the board setup failed with a return code. -/
inductive BoardFault where
  | converter (code : Int)
  | inputs (code : Int)
  | interruptService (code : Int)
  | interruptHandler (code : Int)
deriving DecidableEq

inductive DnsFault where
  /-- Shorter than a header, or the question runs off the end. -/
  | truncated
  /-- The packet is a response. -/
  | notAQuery
  /-- A label is too long or compressed, or the name is too long. -/
  | badName
  /-- The reply does not fit the room given for it. -/
  | noRoom
deriving DecidableEq

inductive Fault where
  | setting (cause : InvalidSetting)
  | display (cause : DisplayFault)
  | network (cause : NetworkFault)
  /-- Every interlock observer slot is taken. -/
  | observersExhausted
  | board (cause : BoardFault)
  | dns (cause : DnsFault)
deriving DecidableEq

def InvalidSetting.message (fault : InvalidSetting) : String :=
  "validation failed: " ++ fault.field

def DisplayFault.message : DisplayFault → String
  | bus => "SPI transfer failed"
  | line => "control pin write failed"

def NetworkFault.message : NetworkFault → String
  | accessPoint => "soft-AP start failed"
  | webServer => "HTTP server start failed"
  | nameServer => "captive DNS bind failed"
  | credentials => "invalid AP credentials"

def BoardFault.message : BoardFault → String
  | converter code => "ADC1 init failed (rc=" ++ Text.signedDecimal code ++ ")"
  | inputs code => "GPIO config failed (rc=" ++ Text.signedDecimal code ++ ")"
  | interruptService code =>
      "GPIO ISR service install failed (rc=" ++ Text.signedDecimal code ++ ")"
  | interruptHandler code => "GPIO ISR handler add failed (rc=" ++ Text.signedDecimal code ++ ")"

def DnsFault.message : DnsFault → String
  | truncated => "packet truncated"
  | notAQuery => "packet is not a query"
  | badName => "malformed question name"
  | noRoom => "reply buffer too small"

/-- The cause's own message behind the name of its part of the machine. -/
def Fault.message : Fault → String
  | setting cause => "config: " ++ cause.message
  | display cause => "display: " ++ cause.message
  | network cause => "portal: " ++ cause.message
  | observersExhausted => "interlock: no free subscriber slot"
  | board cause => "hw_init: " ++ cause.message
  | dns cause => "dns: " ++ cause.message

end TapeCutter
