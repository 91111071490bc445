import Provisioner.Engine.Exchange
import Provisioner.Engine.Images

namespace Provisioner.Engine

open Json

def lineFeed : UInt8 := 10

def firstLine (buffer : Bytes) : Bytes := buffer.takeWhile (· != lineFeed)

def afterLine (buffer : Bytes) : Bytes := (buffer.dropWhile (· != lineFeed)).drop 1

def pullFailure (cause : ClientError) : Feed Progress := { failure := some (.api .pullImage cause) }

/-- The messages in a buffer, up to the first that is none or tells of an error. `complete` says
that no more bytes come. -/
def progressFeed (complete : Bool) (buffer : Bytes) : Feed Progress :=
  match buffer with
  | [] => {}
  | b :: bs =>
    match decodeBytes progress (firstLine (b :: bs)) with
    | .ok (.ok p) =>
      let feed := progressFeed complete (afterLine (b :: bs))
      { feed with items := p :: feed.items }
    | .ok (.error text) => pullFailure (.stream text)
    | .error .cut =>
      let left := firstLine (b :: bs) ++ afterLine (b :: bs)
      if complete then if left.isEmpty then {} else pullFailure leftover
      else progressFeed true left
    | .error f => pullFailure (.unreadable f)
termination_by (if complete then 0 else 1, buffer.length)
decreasing_by
  · have h := (List.dropWhile_sublist (· != lineFeed) (l := b :: bs)).length_le
    simp only [List.length_cons] at h
    simp only [afterLine, List.length_drop, List.length_cons]
    apply Prod.Lex.right
    omega
  · rename_i h
    apply Prod.Lex.left
    simp [h]

end Provisioner.Engine
