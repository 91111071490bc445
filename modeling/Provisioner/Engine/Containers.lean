import Provisioner.Engine.Images
import Provisioner.Engine.Network

namespace Provisioner.Engine

namespace Shape

def healthProbe : Shape :=
  record [maybe "Start" text, maybe "End" text, maybe "ExitCode" integer, maybe "Output" text]

def health : Shape :=
  record
    [maybe "Status" (choice ["none", "starting", "healthy", "unhealthy"]),
     maybe "FailingStreak" integer, maybe "Log" (listOf healthProbe)]

def states : List String :=
  ["created", "running", "paused", "restarting", "exited", "removing", "dead"]

def containerState : Shape :=
  record
    ([maybe "Status" (choice states)] ++
     each ["Running", "Paused", "Restarting", "OOMKilled", "Dead"] flag ++
     [maybe "Pid" integer, maybe "ExitCode" integer] ++
     each ["Error", "StartedAt", "FinishedAt"] text ++ [maybe "Health" health])

def throttle : Shape := record [maybe "Path" text, maybe "Rate" integer]

def deviceRequest : Shape :=
  record
    [maybe "Driver" text, maybe "Count" integer, maybe "DeviceIDs" texts,
     maybe "Capabilities" (listOf texts), maybe "Options" labels]

def propagations : List String := ["private", "rprivate", "shared", "rshared", "slave", "rslave"]

def mount : Shape :=
  record
    [maybe "Target" text, maybe "Source" text, maybe "Type" (choice mountKinds),
     maybe "ReadOnly" flag, maybe "Consistency" text,
     maybe "BindOptions" (record ([maybe "Propagation" (choice propagations)] ++
       each ["NonRecursive", "CreateMountpoint", "ReadOnlyNonRecursive",
         "ReadOnlyForceRecursive"] flag)),
     maybe "VolumeOptions" (record [maybe "NoCopy" flag, maybe "Labels" labels,
       maybe "DriverConfig" (record [maybe "Name" text, maybe "Options" labels]),
       maybe "Subpath" text]),
     maybe "ImageOptions" (record [maybe "Subpath" text]),
     maybe "TmpfsOptions" (record [maybe "SizeBytes" integer, maybe "Mode" integer,
       maybe "Options" (listOf texts)])]

def resources : List (Json.RecordField Unit) :=
  [maybe "CpuShares" integer, maybe "Memory" integer, maybe "CgroupParent" text,
   maybe "BlkioWeight" (word 16),
   maybe "BlkioWeightDevice" (listOf (record [maybe "Path" text, maybe "Weight" (word 64)]))] ++
  each ["BlkioDeviceReadBps", "BlkioDeviceWriteBps", "BlkioDeviceReadIOps",
    "BlkioDeviceWriteIOps"] (listOf throttle) ++
  each ["CpuPeriod", "CpuQuota", "CpuRealtimePeriod", "CpuRealtimeRuntime"] integer ++
  [maybe "CpusetCpus" text, maybe "CpusetMems" text,
   maybe "Devices" (listOf (record (each ["PathOnHost", "PathInContainer",
     "CgroupPermissions"] text))),
   maybe "DeviceCgroupRules" texts, maybe "DeviceRequests" (listOf deviceRequest)] ++
  each ["KernelMemoryTCP", "MemoryReservation", "MemorySwap", "MemorySwappiness",
    "NanoCpus"] integer ++
  [maybe "OomKillDisable" flag, maybe "Init" flag, maybe "PidsLimit" integer,
   maybe "Ulimits" (listOf (record [maybe "Name" text, maybe "Soft" integer,
     maybe "Hard" integer]))] ++
  each ["CpuCount", "CpuPercent", "IOMaximumIOps", "IOMaximumBandwidth"] integer

def restartPolicy : Shape :=
  record
    [maybe "Name" (choice ["no", "always", "unless-stopped", "on-failure"]),
     maybe "MaximumRetryCount" integer]

def hostConfig : Shape :=
  record
    (resources ++
     [maybe "Binds" texts, maybe "ContainerIDFile" text,
      maybe "LogConfig" (record [maybe "Type" text, maybe "Config" labels]),
      maybe "NetworkMode" text, maybe "PortBindings" portMap, maybe "RestartPolicy" restartPolicy,
      maybe "AutoRemove" flag, maybe "VolumeDriver" text, maybe "VolumesFrom" texts,
      maybe "Mounts" (listOf mount), maybe "ConsoleSize" (listOf integer),
      maybe "Annotations" labels, maybe "CapAdd" texts, maybe "CapDrop" texts,
      maybe "CgroupnsMode" (choice ["private", "host"])] ++
     each ["Dns", "DnsOptions", "DnsSearch", "ExtraHosts", "GroupAdd"] texts ++
     each ["IpcMode", "Cgroup"] text ++
     [maybe "Links" texts, maybe "OomScoreAdj" integer, maybe "PidMode" text] ++
     each ["Privileged", "PublishAllPorts", "ReadonlyRootfs"] flag ++
     [maybe "SecurityOpt" texts, maybe "StorageOpt" labels, maybe "Tmpfs" labels] ++
     each ["UTSMode", "UsernsMode"] text ++
     [maybe "ShmSize" integer, maybe "Sysctls" labels, maybe "Runtime" text,
      maybe "Isolation" (choice ["default", "process", "hyperv"])] ++
     each ["MaskedPaths", "ReadonlyPaths"] texts)

def healthCheck : Shape :=
  record ([maybe "Test" texts] ++
    each ["Interval", "Timeout", "Retries", "StartPeriod", "StartInterval"] integer)

def containerConfig : Shape :=
  record
    (each ["Hostname", "Domainname", "User"] text ++
     each ["AttachStdin", "AttachStdout", "AttachStderr"] flag ++
     [maybe "ExposedPorts" (dictionaryOf emptyObject)] ++
     each ["Tty", "OpenStdin", "StdinOnce"] flag ++
     [maybe "Env" texts, maybe "Cmd" texts, maybe "Healthcheck" healthCheck,
      maybe "ArgsEscaped" flag, maybe "Image" text, maybe "Volumes" (dictionaryOf emptyObject),
      maybe "WorkingDir" text, maybe "Entrypoint" texts, maybe "NetworkDisabled" flag,
      maybe "MacAddress" text, maybe "OnBuild" texts, maybe "Labels" labels,
      maybe "StopSignal" text, maybe "StopTimeout" integer, maybe "Shell" texts])

def storageDriver : Shape :=
  object [given "Name" text, given "Data" labels] ["Name", "Data"] ()

def inspection : Shape :=
  record
    ([maybe "Id" text, maybe "Created" text, maybe "Path" text, maybe "Args" texts,
      maybe "State" containerState] ++
     each ["Image", "ResolvConfPath", "HostnamePath", "HostsPath", "LogPath", "Name"] text ++
     [maybe "RestartCount" integer, maybe "Driver" text, maybe "Platform" text,
      maybe "ImageManifestDescriptor" descriptor] ++
     each ["MountLabel", "ProcessLabel", "AppArmorProfile"] text ++
     [maybe "ExecIDs" texts, maybe "HostConfig" hostConfig, maybe "GraphDriver" storageDriver,
      maybe "SizeRw" integer, maybe "SizeRootFs" integer, maybe "Mounts" (listOf mountPoint),
      maybe "Config" containerConfig, maybe "NetworkSettings" networkSettings])

end Shape

open Shape Json

def containerListing : Draft → Except Fault ContainerListing :=
  object
    [taken "Id" (optional Draft.asString) fun id c => { c with id := id.getD "" },
     maybe "Names" texts, maybe "Image" text, maybe "ImageID" text,
     maybe "ImageManifestDescriptor" descriptor, maybe "Command" text, maybe "Created" integer,
     maybe "Ports" (listOf port), maybe "SizeRw" integer, maybe "SizeRootFs" integer,
     maybe "Labels" labels,
     taken "State" (optional (oneOf ("" :: states))) fun s c => { c with state := s.getD "" },
     maybe "Status" text,
     maybe "HostConfig" (record [maybe "NetworkMode" text, maybe "Annotations" labels]),
     maybe "NetworkSettings" (record [maybe "Networks" (dictionaryOf endpoint)]),
     maybe "Mounts" (listOf mountPoint)]
    [] ⟨"", ""⟩

def created : Draft → Except Fault String :=
  object [taken "Id" Draft.asString fun id _ => id, maybe "Warnings" texts] ["Id", "Warnings"] ""

def session : Draft → Except Fault String :=
  object [taken "Id" Draft.asString fun id _ => id] ["Id"] ""

end Provisioner.Engine
