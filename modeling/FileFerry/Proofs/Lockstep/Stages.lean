import FileFerry.Proofs.Lockstep.Transfers

/-!
# Where the two sides can be at once

Between two prompts a request goes up. It is answered by a line, or it begins a transfer, which a
payload or a verdict ends. `Stage` pairs the phases of the two sides with all that is between them,
and every step leads from a stage to a stage.
-/

set_option autoImplicit false

namespace FileFerry

variable {φ τ δ γ : Type} [Gateway φ] [Gateway γ]

/-- The session sends a file, or has sent it and waits for a command. -/
def Phase.Sends (server : Phase γ) : Prop :=
  server = .command ∨ ∃ entry file, server = .sending entry file

theorem Phase.Sends.eq_command {server : Phase γ} (h : server.Sends) (howes : server.owes = []) :
    server = .command := by
  rcases h with hcommand | ⟨entry, file, hsending⟩
  · exact hcommand
  · have hlen := congrArg List.length howes
    rw [hsending, Phase.owes, List.length_append] at hlen
    simp at hlen

theorem Phase.Sends.ne_receiving {server : Phase γ} (h : server.Sends) : ∀ u, server ≠ .receiving u := by
  rintro u rfl
  rcases h with hcommand | ⟨entry, file, hsending⟩
  · cases hcommand
  · cases hsending

theorem Phase.Sends.ne_closed {server : Phase γ} (h : server.Sends) : server ≠ .closed := by
  rintro rfl
  rcases h with hcommand | ⟨entry, file, hsending⟩
  · cases hcommand
  · cases hsending

/-- The client sends a file, or has sent it and waits for the verdict. -/
def ClientPhase.Sends (client : ClientPhase φ) : Prop :=
  ∃ path, (∃ sent, client = .verdict path sent) ∨ ∃ file, client = .sending path file

theorem ClientPhase.Sends.exists_verdict {client : ClientPhase φ} (h : client.Sends)
    (howes : client.owes = []) : ∃ path sent, client = .verdict path sent := by
  obtain ⟨path, ⟨sent, hverdict⟩ | ⟨file, hsending⟩⟩ := h
  · exact ⟨path, sent, hverdict⟩
  · have hlen := congrArg List.length howes
    rw [hsending, ClientPhase.owes, List.length_append] at hlen
    simp at hlen

/-- Where a client that has not ended and its session can be. `up` and `down` are the bytes that the
session and the client still have to use, in hand or on their way, and `waiting` are the requests
that the session has not taken yet. -/
inductive Stage (client : ClientPhase φ) (server : Phase (Answered γ)) (up down : Bytes) :
    List Text → Prop where
  | prompt (hclient : client = .prompt) (hserver : server = .command) (hup : up = []) (hdown : down = []) :
      Stage client server up down []
  | asked {request : Text} (hclient : Client.Awaits client request) (hrequest : IsRequest request)
      (hserver : server = .command) (hup : up = lineBytes request) (hdown : down = []) :
      Stage client server up down [request]
  | told {line : Text} (hclient : Client.Hears client line) (hline : '\n' ∉ line)
      (hserver : server = .command) (hup : up = []) (hdown : down = lineBytes line) :
      Stage client server up down []
  | downloadTaken {name : Text} {payload rest : Bytes} (hclient : client = .downloadReply name)
      (hserver : server.Sends) (hup : up = [])
      (hdown : down ++ server.owes = lineBytes transferStartLine ++ rest)
      (hcut : cutAtMarker? rest = some (payload, [])) : Stage client server up down []
  | downloading {d : Download φ} {payload : Bytes} (hclient : client = .payload d)
      (hserver : server.Sends) (hup : up = []) (hcut : cutAtMarker? (down ++ server.owes) = some (payload, [])) :
      Stage client server up down []
  | uploadTaken {name : Text} {path : Path} {source : Source} {u : Upload (Answered γ)}
      (hclient : client = .uploadReply name path source) (hserver : server = .receiving u)
      (hfailure : FailureOneLine u.reception.failure) (hup : up = []) (hdown : down = lineBytes readyLine) :
      Stage client server up down []
  | uploading {u : Upload (Answered γ)} {payload : Bytes} (hclient : client.Sends)
      (hserver : server = .receiving u) (hfailure : FailureOneLine u.reception.failure)
      (hcut : cutAtMarker? (up ++ client.owes) = some (payload, [])) (hdown : down = []) :
      Stage client server up down []

namespace System

/-- What the session still has to use of what the client sent. -/
def up (sys : System φ τ δ γ) : Bytes := sys.server.inHand ++ sys.client.output.inFlight

/-- What the client still has to use of what the session sent. -/
def down (sys : System φ τ δ γ) : Bytes := sys.client.inHand ++ sys.server.output.inFlight

theorem up_withClient (sys : System φ τ δ γ) (c : Client φ τ Pipe δ) :
    (sys.withClient c).up = sys.server.inHand ++ c.output.inFlight := rfl

theorem down_withClient (sys : System φ τ δ γ) (c : Client φ τ Pipe δ) :
    (sys.withClient c).down = c.inHand ++ sys.server.output.inFlight := rfl

theorem up_withServer (sys : System φ τ δ γ) (s : Session (Answered γ) Pipe) :
    (sys.withServer s).up = s.inHand ++ sys.client.output.inFlight := rfl

theorem down_withServer (sys : System φ τ δ γ) (s : Session (Answered γ) Pipe) :
    (sys.withServer s).down = sys.client.inHand ++ s.output.inFlight := rfl

/-- The requests that were sent are those that were taken and those in `waiting`. What has come back
since the latest is what the session has said, but for what is on its way. -/
def Logged (sys : System φ τ δ γ) (waiting : List Text) : Prop :=
  sys.sent.add sys.server.output.inFlight =
    Exchanges.begin (sys.handled.map (Prod.map lineBytes id)) (waiting.map lineBytes)

theorem Logged.mem_sent {sys : System φ τ δ γ} {request : Text} (h : sys.Logged [request])
    (hnothing : sys.server.output.inFlight = []) : (lineBytes request, []) ∈ sys.sent := by
  rw [Logged, hnothing, Exchanges.add_nil] at h
  rw [h]
  exact List.mem_cons_self

/-- What holds between a client that has not ended and its session. -/
structure Paired (sys : System φ τ δ γ) (waiting : List Text) : Prop where
  stage : Stage sys.client.phase sys.server.phase sys.up sys.down waiting
  logged : sys.Logged waiting
  typed : ∀ line, .ok line ∈ sys.client.keyboard → newline ∉ line.dropLast
  cwd : newline ∉ sys.server.cwd.bytes

/-- Until the client ends the two sides are paired. -/
def InStep (sys : System φ τ δ γ) : Prop :=
  sys.client.isFinished = true ∨ ∃ waiting, sys.Paired waiting

end System

end FileFerry
