import SimpleQuery.Link.Arrivals
import SimpleQuery.Main
import SimpleQuery.Proofs.Chunking
import SimpleQuery.Session.Command
import SimpleQuery.Session.Opening
import SimpleQuery.Stream.Command
import SimpleQuery.Transcript
import SimpleQuery.Proofs.Answering
import SimpleQuery.Proofs.Attempts
import SimpleQuery.Proofs.Fields
import SimpleQuery.Proofs.Frame
import SimpleQuery.Proofs.Refinement
import SimpleQuery.Proofs.Transactions
import SimpleQuery.Proofs.Backend
import SimpleQuery.Proofs.Conversation
import SimpleQuery.Proofs.Calls
import SimpleQuery.Proofs.Lifecycle
import SimpleQuery.Proofs.Finality
import SimpleQuery.Proofs.Prospect
import SimpleQuery.Proofs.Leftover
import SimpleQuery.Proofs.Truncation
import SimpleQuery.Proofs.Demand
import SimpleQuery.Proofs.Account
import SimpleQuery.Proofs.Framing
import SimpleQuery.Proofs.Handshake
import SimpleQuery.Proofs.Sending
import SimpleQuery.Proofs.Startups
import SimpleQuery.Proofs.SideBySide
import SimpleQuery.Proofs.Journal
import SimpleQuery.Proofs.Connecting
import SimpleQuery.Proofs.Invocation
import SimpleQuery.Proofs.OwnFaults
import SimpleQuery.Proofs.Program
import SimpleQuery.Proofs.Constraints
import SimpleQuery.Proofs.Variables
import SimpleQuery.Proofs.Precedence
import SimpleQuery.Proofs.Rebuilding
import SimpleQuery.Proofs.Secrecy
import SimpleQuery.Proofs.Grammar
import SimpleQuery.Proofs.RowGroups
import SimpleQuery.Proofs.Boundaries
import SimpleQuery.Proofs.Shape
import SimpleQuery.Proofs.Locality
import SimpleQuery.Proofs.Asides
import SimpleQuery.Proofs.Terminated
import SimpleQuery.Proofs.Retrying
import SimpleQuery.Proofs.Outgoing
import SimpleQuery.Proofs.Traceless
import SimpleQuery.Proofs.Switching
import SimpleQuery.Proofs.Integers
import SimpleQuery.Proofs.Termination
