namespace Provisioner

structure Inventory where
  proxies : List String
  monitoring : Option String
  deriving DecidableEq, Repr

namespace Inventory

def access : String := "ansible_connection=ssh ansible_user=ubuntu"

def host (address : String) : String := s!"{address} {access}\n"

def text (inv : Inventory) : String :=
  let last := match inv.monitoring with
    | none => ""
    | some address => "[monitoring]\n" ++ host address
  "[proxies]\n" ++ String.join (inv.proxies.map host) ++ "\n" ++ last

end Inventory

end Provisioner
