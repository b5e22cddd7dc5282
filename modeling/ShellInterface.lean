import ShellInterface.Chunk.Splice
import ShellInterface.Tcp.Interface
import ShellInterface.Udp.Interface
import ShellInterface.Proofs.Listener.Grants
import ShellInterface.Proofs.Listener.Walkthrough
import ShellInterface.Proofs.Tcp.Conservation
import ShellInterface.Proofs.Tcp.Credit
import ShellInterface.Proofs.Tcp.Delivery
import ShellInterface.Proofs.Tcp.Reservations
import ShellInterface.Proofs.Bitmap
import ShellInterface.Proofs.Ledger
import ShellInterface.Proofs.Success
import ShellInterface.Proofs.Tcp.SessionTable
import ShellInterface.Proofs.Tcp.Success
import ShellInterface.Proofs.Tcp.Progress
import ShellInterface.Proofs.Udp.Progress
import ShellInterface.Proofs.Progress
import ShellInterface.Proofs.Tcp.Connector
import ShellInterface.Proofs.Tcp.Receipts
import ShellInterface.Proofs.Tcp.Records
import ShellInterface.Proofs.Tcp.Payload
import ShellInterface.Proofs.Tcp.Extraction
import ShellInterface.Proofs.Tcp.Drainage
import ShellInterface.Proofs.Tcp.Promptness
import ShellInterface.Proofs.Tcp.Alignment
import ShellInterface.Proofs.Tcp.Protocol
import ShellInterface.Proofs.Udp.Framing
import ShellInterface.Proofs.Udp.Dispatch
import ShellInterface.Proofs.Tcp.Connections
import ShellInterface.Proofs.Tcp.Dispatch
import ShellInterface.Proofs.Tcp.Requests
import ShellInterface.Proofs.Tcp.Interpreter
import ShellInterface.Proofs.Chunk.Splice
import ShellInterface.Proofs.TestPattern.Payload
import ShellInterface.Proofs.ControlRecord
import ShellInterface.Proofs.Bitmap.Updates
import ShellInterface.Proofs.Bitmap.Places
import ShellInterface.Proofs.Udp.Closing
import ShellInterface.Proofs.Monitor
