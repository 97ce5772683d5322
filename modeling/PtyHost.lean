import PtyHost.Broker.Command
import PtyHost.Broker.NodeTable
import PtyHost.Broker.Slave
import PtyHost.Machine.Floor
import PtyHost.Machine.Probe
import PtyHost.Machine.Rig
import PtyHost.Main
import PtyHost.Proofs.Broker.Transaction
import PtyHost.Proofs.Session.Edit
import PtyHost.Proofs.Session.Passage
import PtyHost.Proofs.Session.Custody
import PtyHost.Proofs.Emulation.Quiet
import PtyHost.Proofs.Emulation.Blocks
import PtyHost.Proofs.Session.Lifecycle
import PtyHost.Proofs.Session.Conservation
import PtyHost.Proofs.Session.Queue
import PtyHost.Proofs.Session.Watch
import PtyHost.Proofs.Session.Monitoring
import PtyHost.Proofs.Session.Resumption
import PtyHost.Proofs.Text.Utf8
import PtyHost.Proofs.Broker.Diagnosis
import PtyHost.Proofs.Session.Retry
import PtyHost.Proofs.Session.Notices
import PtyHost.Proofs.Registry.History
import PtyHost.Proofs.Session.Signals
import PtyHost.Proofs.Session.Stopping
import PtyHost.Proofs.Emulation.Reports
import PtyHost.Proofs.Session.Injection
import PtyHost.Proofs.Session.Deadlines
import PtyHost.Proofs.Session.Display
import PtyHost.Proofs.CommandLine.Crossing
import PtyHost.Proofs.CommandLine.Ending
import PtyHost.Proofs.CommandLine.Window
import PtyHost.Proofs.Broker.Conduct
import PtyHost.Proofs.Emulation.Enclosed
import PtyHost.Proofs.Text.Numeral
import PtyHost.Proofs.Emulation.Captions
import PtyHost.Proofs.Emulation.Requests
import PtyHost.Proofs.Path.Components
import PtyHost.Proofs.Text.Strict
import PtyHost.Proofs.Broker.Naming
import PtyHost.Proofs.Config.Precedence
import PtyHost.Proofs.Path.Tilde
import PtyHost.Proofs.Text.Trimmed
import PtyHost.Proofs.Shell.Detection
import PtyHost.Proofs.Session.ScrollLock
import PtyHost.Proofs.Session.Writes
import PtyHost.Proofs.Session.Titling
import PtyHost.Proofs.Session.Conclusion
import PtyHost.Proofs.Registry.Termination
import PtyHost.Proofs.Input.Forwarding
import PtyHost.Proofs.Pty.Allocation
import PtyHost.Proofs.Broker.Admission
import PtyHost.Proofs.Session.Geometry
import PtyHost.Proofs.Config.SignalName
import PtyHost.Proofs.FileSystem.Scan
