import Provisioner.Engine.Shape

namespace Provisioner.Engine.Shape

def port : Shape :=
  object
    [maybe "IP" text, given "PrivatePort" (word 16), maybe "PublicPort" (word 16),
     maybe "Type" (choice ["tcp", "udp", "sctp"])]
    ["PrivatePort"] ()

def portBinding : Shape := record (each ["HostIp", "HostPort"] text)

/-- The bindings of each port; a port without any may have null for them. -/
def portMap : Shape := dictionaryOf (orNull (listOf portBinding))

def endpointAddresses : Shape :=
  record (each ["IPv4Address", "IPv6Address"] text ++ [maybe "LinkLocalIPs" texts])

def endpoint : Shape :=
  record
    ([maybe "IPAMConfig" endpointAddresses, maybe "Links" texts, maybe "MacAddress" text,
      maybe "Aliases" texts, maybe "DriverOpts" labels, maybe "GwPriority" real] ++
     each ["NetworkID", "EndpointID", "Gateway", "IPAddress"] text ++
     [maybe "IPPrefixLen" integer] ++ each ["IPv6Gateway", "GlobalIPv6Address"] text ++
     [maybe "GlobalIPv6PrefixLen" integer, maybe "DNSNames" texts])

def address : Shape := record [maybe "Addr" text, maybe "PrefixLen" integer]

def networkSettings : Shape :=
  record
    (each ["Bridge", "SandboxID"] text ++
     [maybe "HairpinMode" flag, maybe "LinkLocalIPv6Address" text,
      maybe "LinkLocalIPv6PrefixLen" integer, maybe "Ports" portMap, maybe "SandboxKey" text] ++
     each ["SecondaryIPAddresses", "SecondaryIPv6Addresses"] (listOf address) ++
     each ["EndpointID", "Gateway", "GlobalIPv6Address"] text ++
     [maybe "GlobalIPv6PrefixLen" integer, maybe "IPAddress" text, maybe "IPPrefixLen" integer] ++
     each ["IPv6Gateway", "MacAddress"] text ++ [maybe "Networks" (dictionaryOf endpoint)])

def mountKinds : List String := ["bind", "cluster", "image", "npipe", "tmpfs", "volume"]

def mountPoint : Shape :=
  record
    ([maybe "Type" (choice mountKinds)] ++
     each ["Name", "Source", "Destination", "Driver", "Mode"] text ++
     [maybe "RW" flag, maybe "Propagation" text])

end Provisioner.Engine.Shape
