import Provisioner.Engine.Exchange
import Provisioner.Tar.Header

namespace Provisioner.Engine

def frameHeader : Nat := 8

def frames : Bytes → Feed Bytes
  | [] => {}
  | kind :: tail =>
    if 2 < kind then { items := [kind :: tail] }
    else
      let length := Tar.bigEndian (Tar.slice 3 4 tail)
      let content := tail.drop (frameHeader - 1)
      if tail.length < frameHeader - 1 then { failure := some (.api .execOutput leftover) }
      else if content.length < length then
        if content.isEmpty then {} else { failure := some (.api .execOutput leftover) }
      else
        let rest := frames (content.drop length)
        { rest with items := content.take length :: rest.items }
termination_by bytes => bytes.length
decreasing_by simp only [List.length_drop, List.length_cons]; omega

end Provisioner.Engine
