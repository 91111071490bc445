import Provisioner.Provision.Session

namespace Provisioner

def ProbeSettings.policy (p : ProbeSettings) : AttemptPolicy := ⟨p.maxRetries, p.delayMs⟩

namespace Site

variable {δ κ : Type} (site : Site δ κ)

def ping (s : Session δ κ) : Attempt DaemonError Unit × Session δ κ :=
  let (r, s) := ((site.call .ping : Run δ κ DaemonError _) >>= fun r => Site.demand r id).apply s
  (⟨r, site.daemon.interrupted s.daemon⟩, s)

def probeWith (policy : AttemptPolicy) : Run δ κ ProvisionError Unit :=
  .ofFun fun s =>
    let (r, clock, s) := policy.run site.ping s.clock s
    (r.mapError .connectivity, { s with clock })

def probe : Run δ κ ProvisionError Unit := site.probeWith site.settings.probe.policy

end Site

end Provisioner
