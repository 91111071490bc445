import Provisioner.Main
import Provisioner.Rehearsal.Answers
import Provisioner.Rehearsal.Replies
import Provisioner.Rehearsal.Script
import Provisioner.Engine.Client
import Provisioner.Tar.Reader
import Provisioner.Proofs.Moves
import Provisioner.Proofs.Account
import Provisioner.Proofs.Counting
import Provisioner.Proofs.Preparation
import Provisioner.Proofs.Blame
import Provisioner.Proofs.Attribution
import Provisioner.Proofs.Words
import Provisioner.Proofs.Reconciliation
import Provisioner.Proofs.Descent
import Provisioner.Proofs.Furnishing
import Provisioner.Proofs.Course
import Provisioner.Proofs.Prompting
import Provisioner.Proofs.Rounds
import Provisioner.Proofs.Refusals
import Provisioner.Proofs.Removal
import Provisioner.Proofs.Paths
import Provisioner.Proofs.Validation
import Provisioner.Proofs.Landing
import Provisioner.Proofs.Ambiguity
import Provisioner.Proofs.Table
import Provisioner.Proofs.Scanning
import Provisioner.Proofs.Chunks
import Provisioner.Proofs.Texts
import Provisioner.Proofs.Extensions
import Provisioner.Proofs.Walking
import Provisioner.Proofs.Overwriting
import Provisioner.Proofs.Octets
import Provisioner.Proofs.Checking
import Provisioner.Proofs.Standing
import Provisioner.Proofs.Edits
import Provisioner.Proofs.Trails
import Provisioner.Proofs.Turns
import Provisioner.Proofs.Answers
import Provisioner.Proofs.Collection
import Provisioner.Proofs.Persistence
import Provisioner.Proofs.Consent
import Provisioner.Proofs.Filters
import Provisioner.Proofs.Repetition
import Provisioner.Proofs.References
import Provisioner.Proofs.Tags
import Provisioner.Proofs.Records
import Provisioner.Proofs.Naming
import Provisioner.Proofs.Curtailment
import Provisioner.Proofs.Reuse
import Provisioner.Proofs.Packing
import Provisioner.Proofs.Recovery
import Provisioner.Proofs.Archiving
import Provisioner.Proofs.Marks
import Provisioner.Proofs.Destinations
import Provisioner.Proofs.Transfers
import Provisioner.Proofs.Merging
import Provisioner.Proofs.Prefixes
import Provisioner.Proofs.Quotes
import Provisioner.Proofs.Separators
import Provisioner.Proofs.Homes
import Provisioner.Proofs.Gathering
import Provisioner.Proofs.Groups
import Provisioner.Proofs.Contents
import Provisioner.Proofs.Endings
import Provisioner.Proofs.Drafting
import Provisioner.Proofs.Keeping
import Provisioner.Proofs.Sparing
import Provisioner.Proofs.Output
import Provisioner.Proofs.Relaying
import Provisioner.Proofs.Supplying
import Provisioner.Proofs.Grammar
import Provisioner.Proofs.Reading
import Provisioner.Proofs.Layouts
import Provisioner.Proofs.Overrides
