namespace Provisioner.Listing

def rule : String := String.ofList (List.replicate 79 '*') ++ "\n"

def banner : String :=
  rule ++ "*** This utility creates and initializes the Ansible Control Host container ***\n" ++
    rule ++ "\n"

def properties (entries : List (String × String)) : String :=
  "Configuration properties:\n" ++ String.join (entries.map fun e => s!" - {e.1}: {e.2}\n")

end Provisioner.Listing
