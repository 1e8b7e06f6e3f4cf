import FileFerry.Gateway.Scripted
import FileFerry.Main
import FileFerry.Proofs.Registry.Table
import FileFerry.Proofs.Pool.Waking
import FileFerry.Proofs.Session.Interpreter
import FileFerry.Proofs.Session.RoundTrip
import FileFerry.Proofs.Session.Deeds
import FileFerry.Proofs.Lockstep.Shown
import FileFerry.Proofs.Server.Shutdown
import FileFerry.Proofs.Conversation.Advisory
import FileFerry.Proofs.Conversation.Entries
import FileFerry.Proofs.Conversation.Upload
import FileFerry.Proofs.Conversation.Memory
import FileFerry.Proofs.Conversation.Progress
import FileFerry.Proofs.Registry.Request
import FileFerry.Proofs.Client.Calls
import FileFerry.Proofs.Conversation.Honesty
import FileFerry.Proofs.Responses
import FileFerry.Proofs.Client.Dialogue
import FileFerry.Proofs.Client.Requests
import FileFerry.Proofs.Senders
import FileFerry.Proofs.Client.Downloads
import FileFerry.Proofs.Gateway.Removal
import FileFerry.Proofs.Client.TypedLines
import FileFerry.Proofs.Client.Steps
import FileFerry.Proofs.Client.Endings
