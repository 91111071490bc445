import Provisioner.Engine.Exchange

namespace Provisioner.Rehearsal

structure Replies where
  responses : List Engine.Response := []
  requests : List Engine.Request := []

namespace Replies

def exhausted : Engine.Response :=
  ⟨500, Text.bytes (Json.Value.object [("message", .string "no response left")]).compact⟩

def transport : Engine.Transport Replies where
  exchange q s :=
    (s.responses.headD exhausted,
      { responses := s.responses.tail, requests := s.requests ++ [q] })

end Replies

end Provisioner.Rehearsal
