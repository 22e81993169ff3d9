import DnsRelay.Main
import DnsRelay.Proofs.Connection
import DnsRelay.Proofs.Forward.Accounting
import DnsRelay.Proofs.Forward.ArrivalOrder
import DnsRelay.Proofs.Forward.Interleaved
import DnsRelay.Proofs.Forward.Outcome
import DnsRelay.Proofs.Forward.Sending
import DnsRelay.Proofs.Forward.Transport
import DnsRelay.Proofs.Listener.Answers
import DnsRelay.Proofs.Listener.Echo
import DnsRelay.Proofs.Name.Chain
import DnsRelay.Proofs.Pending.Ledger
import DnsRelay.Proofs.Message.Draft
import DnsRelay.Proofs.Message.Written
import DnsRelay.Proofs.Route
import DnsRelay.Proofs.Listener.Attempts
import DnsRelay.Proofs.Listener.Learning
import DnsRelay.Proofs.Listener.Transparent
import DnsRelay.Proofs.Message.Refused
import DnsRelay.Proofs.Name.Pattern
import DnsRelay.Proofs.Verdict
import DnsRelay.Proofs.Forward.Unsent
import DnsRelay.Proofs.Forward.Mapped
import DnsRelay.Proofs.Message.Cursor
import DnsRelay.Proofs.Route.History
import DnsRelay.Proofs.Message.Behind
import DnsRelay.Proofs.Route.Judge
import DnsRelay.Proofs.Name.Walk
import DnsRelay.Proofs.Pending.Indexes
import DnsRelay.Proofs.Route.Probe
