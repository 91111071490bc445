import Provisioner.Provision.ImageSupply
import Provisioner.Provision.Init
import Provisioner.Provision.Lifecycle
import Provisioner.Provision.Probe
import Provisioner.Provision.Staging

namespace Provisioner

structure Outcome where
  containerId : String
  /-- The container was kept as it was. -/
  reused : Bool
  deriving DecidableEq, Repr

namespace Site

variable {δ κ : Type} (site : Site δ κ)

def status : Run δ κ ProvisionError (Option ContainerRecord) := do
  site.probe
  site.resolve site.settings.containerName

def stageFile (id what source dest : String) : Run δ κ ProvisionError Unit := do
  (site.stage id source dest).orFail (.fileStage site.settings.containerName source dest)
  site.say
    s!"{what} {source} successfully copied to the Docker container {site.settings.containerName}"

def furnish (id : String) (config : InitConfig) : Run δ κ ProvisionError Unit := do
  site.stageFile id "SSH key" config.sshKey site.settings.sshKeyDir
  site.stageFile id "Ansible inventory" config.inventory site.settings.inventoryDir
  (site.runInit id config).orFail (.exec site.settings.containerName)
  site.say s!"Ansible container {site.settings.containerName} successfully initialized"

def run (config : InitConfig) : Run δ κ ProvisionError Outcome := do
  site.probe
  let _ ← site.ensureImage site.settings.imageReference
  let found ← site.resolve site.settings.containerName
  match ← site.reconcile (.ofRecord found) with
  | .reuse id => return ⟨id, true⟩
  | .fresh id =>
    site.furnish id config
    return ⟨id, false⟩

end Site

end Provisioner
