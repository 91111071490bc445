import Provisioner.Json.Reader
import Provisioner.Settings.Basic

namespace Provisioner

open Json

def ProbeSettings.fields : List (RecordField ProbeSettings) :=
  [⟨"max_retries", fun d p => do return { p with maxRetries := (← d.asNat UInt32.size).toUInt32 }⟩,
   ⟨"delay_ms", fun d p => do return { p with delayMs := ← d.asNat UInt64.size }⟩]

def PromptSettings.fields : List (RecordField PromptSettings) :=
  [⟨"max_attempts", fun d p => do return { p with maxAttempts := ← d.asNat UInt32.size }⟩,
   ⟨"unanswered_is_decline", fun d p => do return { p with unansweredIsDecline := ← d.asBool }⟩]

def Settings.fields : List (RecordField Settings) :=
  [⟨"image", fun d s => do return { s with image := ← d.asString }⟩,
   ⟨"container_name", fun d s => do return { s with containerName := ← d.asString }⟩,
   ⟨"ssh_key_dir_in_container", fun d s => do return { s with sshKeyDir := ← d.asString }⟩,
   ⟨"inventory_dir_in_container", fun d s => do return { s with inventoryDir := ← d.asString }⟩,
   ⟨"init_script", fun d s => do return { s with initScript := ← d.asString }⟩,
   ⟨"exec_user", fun d s => do return { s with execUser := ← d.asString }⟩,
   ⟨"exec_working_dir", fun d s => do return { s with execWorkingDir := ← d.asString }⟩,
   ⟨"probe", fun d s => do return { s with probe := ← readRecord ProbeSettings.fields {} d }⟩,
   ⟨"prompt", fun d s => do return { s with prompt := ← readRecord PromptSettings.fields {} d }⟩]

def Settings.ofDraft (d : Draft) : Except Fault Settings := readRecord Settings.fields {} d

def Settings.ofText (text : String) : Except Fault Settings := decode Settings.ofDraft text

end Provisioner
