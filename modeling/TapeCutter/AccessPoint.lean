import TapeCutter.Dns.Resolver
import TapeCutter.Portal.Http
import TapeCutter.Settings.Rules

/-! The network the machine opens: the portal, and the resolver that gives every
name the address of the portal. -/
namespace TapeCutter

structure AccessPoint where
  network : NetworkSettings
  /-- The least time between two passes of the resolver. -/
  nameInterval : UInt32
  portal : Portal
  /-- Present once the access point has been started. -/
  resolver : Option Dns.Resolver := none
deriving DecidableEq

namespace AccessPoint

/-- Nothing is started yet. A bad name or passphrase is refused here. -/
def prepare (network : NetworkSettings) (nameInterval : UInt32) : Except Fault AccessPoint :=
  if network.credentialsAccepted then
    .ok { network := network, nameInterval := nameInterval, portal := .ofSettings network }
  else .error (.network .credentials)

def start (point : AccessPoint) : AccessPoint × List Log.Line :=
  let network := point.network
  let resolver : Dns.Resolver :=
    { address := network.address
      lifetime := network.answerLifetime
      interval := point.nameInterval }
  ({ point with resolver := some resolver },
    [Log.info ("AP(sim): '" ++ network.ssid.text ++ "' channel " ++
        Text.decimal network.channel.toNat ++ " max_clients " ++
        Text.decimal network.maxClients.toNat),
      Log.info ("AP: '" ++ network.ssid.text ++ "' up at " ++ network.address.url.text)])

/-- Name service, as often as the control loop comes by. -/
def poll (point : AccessPoint) (now : UInt32) : List Dns.Datagram × AccessPoint :=
  match point.resolver with
  | none => ([], point)
  | some resolver =>
      let (replies, resolver) := resolver.poll now
      (replies, { point with resolver := some resolver })

def handle (point : AccessPoint) (report : StatusReport) (host target : String) :
    Portal.HttpReply × AccessPoint × List Log.Line :=
  let (reply, portal, lines) := point.portal.handle report host target
  (reply, { point with portal := portal }, lines)

end AccessPoint

end TapeCutter
