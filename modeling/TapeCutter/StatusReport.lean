import TapeCutter.Run.Status

/-! What the machine publishes about itself. -/
namespace TapeCutter

/-- The two dials, the run status and, during a run, how far it is. -/
structure StatusReport where
  quantityPerKit : UInt8 := 1
  kitCount : UInt8 := 1
  status : Run.Status := .idle
  percent : Option UInt8 := none
deriving DecidableEq

end TapeCutter
