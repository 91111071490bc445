import Provisioner.Provision.Session

namespace Provisioner.Console

variable {ω ο : Type} [Writer ω] [Writer ο]

def screen : Console (TerminalOn ω) where
  ask q t := (Terminal.askYesNo q).apply t
  write bs t := let (r, screen) := Writer.write bs t.screen; (r, { t with screen })
  flush t := let (r, screen) := Writer.flush t.screen; (r, { t with screen })

def split : Console (TerminalOn ω × ο) where
  ask q s := let (r, t) := (Terminal.askYesNo q).apply s.1; (r, t, s.2)
  write bs s := let (r, out) := Writer.write bs s.2; (r, s.1, out)
  flush s := let (r, out) := Writer.flush s.2; (r, s.1, out)

end Provisioner.Console
