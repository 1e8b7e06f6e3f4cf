import FileFerry.Client.Run
import FileFerry.Proofs.Lines
import FileFerry.Proofs.MarkerSearch
import FileFerry.Proofs.Streams
import FileFerry.Session.Run

/-!
# A client and its session

The two run side by side over two channels that lose nothing and keep the order. Either may take a
step whenever it can, and a read brings any part of what is on its way. What the session's gateway
answers is written down. So are the requests that were sent and the lines that were taken for
commands, each with what came back before the next. None of this has an effect.
-/

set_option autoImplicit false

namespace FileFerry

/-- A channel, as the bytes on their way in it. -/
structure Pipe where
  inFlight : Bytes

namespace Pipe

instance : Writer Pipe where
  write p b := (.ok b.length, ⟨p.inFlight ++ b⟩)
  flush p := (.ok (), p)
  patience _ := 0
  patience_lt _ _ _ he := by cases he

def Holds (p : Pipe) (b : Bytes) : Prop := p.inFlight = b

theorem accepts_holds : Writer.Accepts Holds := by
  constructor
  · intro p b c hp hc
    obtain ⟨x, xs, rfl⟩ := List.exists_cons_of_ne_nil hc
    refine .inl ⟨xs.length, ⟨p.inFlight ++ x :: xs⟩, rfl, ?_⟩
    rw [← List.length_cons (a := x), List.take_length, Holds, hp]
  · intro p b hp
    exact ⟨p, rfl, hp⟩

theorem send_eq (p : Pipe) (b : Bytes) : Writer.send p b = (.ok (), ⟨p.inFlight ++ b⟩) := by
  obtain ⟨⟨after⟩, hsend, hheld⟩ := accepts_holds.send (rfl : Holds p p.inFlight) b
  obtain rfl : after = p.inFlight ++ b := hheld
  exact hsend

/-- What was written between two states of a channel that was not read meanwhile. -/
def added (p p' : Pipe) : Bytes := p'.inFlight.drop p.inFlight.length

theorem added_eq {p p' : Pipe} {b : Bytes} (h : p'.inFlight = p.inFlight ++ b) : p.added p' = b := by
  rw [added, h, List.drop_left]

end Pipe

/-- Lines that went one way, the latest first, each with all that came back before the next. -/
abbrev Exchanges (α : Type) := List (α × Bytes)

namespace Exchanges

variable {α β : Type}

def begin (log : Exchanges α) (lines : List α) : Exchanges α := lines.map (fun line => (line, [])) ++ log

/-- What came back belongs to the latest line. What comes before there is any, as a greeting does,
belongs to none. -/
def add (b : Bytes) : Exchanges α → Exchanges α
  | [] => []
  | (line, back) :: earlier => (line, back ++ b) :: earlier

theorem map_begin (f : α → β) (log : Exchanges α) (lines : List α) :
    (log.begin lines).map (Prod.map f id) = begin (log.map (Prod.map f id)) (lines.map f) := by
  simp [begin]

@[simp] theorem add_nil (log : Exchanges α) : log.add [] = log := by
  cases log <;> simp [add]

theorem add_add (log : Exchanges α) (b c : Bytes) : (log.add b).add c = log.add (b ++ c) := by
  cases log <;> simp [add]

theorem map_add (f : α → β) (log : Exchanges α) (b : Bytes) :
    (log.add b).map (Prod.map f id) = add b (log.map (Prod.map f id)) := by
  cases log <;> simp [add]

end Exchanges

/-- What a gateway says that may come into a line to the client. -/
inductive Answer where
  | error (e : IoError)
  | entries (list : List DirEntry)
  | directory (path : Path)

/-- An answer whose text stays on one line. -/
def Answer.IsOneLine : Answer → Prop
  | error e => '\n' ∉ e.message
  | entries list => ∀ entry ∈ list, '\n' ∉ entry.name
  | directory path => newline ∉ path.bytes

/-- Any gateway with what it has answered. -/
structure Answered (γ : Type) where
  inner : γ
  answers : List Answer

namespace Answered

variable {γ : Type}

/-- The outcome of a call, with its failure or what it brought written down. -/
def note {α : Type} (g : Answered γ) (brought : α → List Answer) (outcome : Except IoError α × γ) :
    Except IoError α × Answered γ :=
  (outcome.1, ⟨outcome.2, g.answers ++ match outcome.1 with
    | .ok a => brought a
    | .error e => [.error e]⟩)

theorem mem_note {α : Type} {g : Answered γ} {brought : α → List Answer} {outcome : Except IoError α × γ}
    {x : Answer} (hx : x ∈ g.answers) : x ∈ (g.note brought outcome).2.answers :=
  List.mem_append_left _ hx

theorem mem_of_note_ok {α : Type} {g g' : Answered γ} {brought : α → List Answer}
    {outcome : Except IoError α × γ} {a : α} (h : g.note brought outcome = (.ok a, g')) {x : Answer}
    (hx : x ∈ brought a) : x ∈ g'.answers := by
  obtain ⟨hresult, rfl⟩ := Prod.mk.inj h
  rw [hresult]
  exact List.mem_append_right _ hx

theorem mem_of_note_error {α : Type} {g g' : Answered γ} {brought : α → List Answer}
    {outcome : Except IoError α × γ} {e : IoError} (h : g.note brought outcome = (.error e, g')) :
    .error e ∈ g'.answers := by
  obtain ⟨hresult, rfl⟩ := Prod.mk.inj h
  rw [hresult]
  exact List.mem_append_right _ List.mem_cons_self

instance [Gateway γ] : Gateway (Answered γ) where
  Handle := Gateway.Handle γ
  home g := Gateway.home g.inner
  «exists» g p := ((Gateway.exists g.inner p).1, { g with inner := (Gateway.exists g.inner p).2 })
  mkdir g p := g.note (fun _ => []) (Gateway.mkdir g.inner p)
  remove g p := g.note (fun _ => []) (Gateway.remove g.inner p)
  chdir g p := g.note (fun dir => [.directory dir]) (Gateway.chdir g.inner p)
  list g p := g.note (fun list => [.entries list]) (Gateway.list g.inner p)
  openFile g p := g.note (fun _ => []) (Gateway.openFile g.inner p)
  create g p := g.note (fun _ => []) (Gateway.create g.inner p)
  write g h b := g.note (fun _ => []) (Gateway.write g.inner h b)
  flush g h := g.note (fun _ => []) (Gateway.flush g.inner h)
  close g h := { g with inner := Gateway.close g.inner h }
  patience g h := Gateway.patience g.inner h
  patience_lt g h b e he hi := Gateway.patience_lt g.inner h b e he hi

end Answered

/-- The line a session takes for a command in its next step. -/
def Session.commandsTaken {γ ω : Type} [Gateway γ] (s : Session γ ω) : List Text :=
  match s.phase, s.input.nextLine with
  | .command, .line content _ => [content]
  | _, _ => []

def Client.requestsSent {φ τ δ : Type} [Gateway φ] (c c' : Client φ τ Pipe δ) : List Bytes :=
  match c.phase, c.output.added c'.output with
  | .prompt, b :: bs => [b :: bs]
  | _, _ => []

theorem Client.requestsSent_of_output {φ τ δ : Type} [Gateway φ] {c c' : Client φ τ Pipe δ} {b : Bytes}
    (hphase : c.phase = .prompt) (hne : b ≠ []) (houtput : c'.output.inFlight = c.output.inFlight ++ b) :
    c.requestsSent c' = [b] := by
  obtain ⟨x, xs, rfl⟩ := List.exists_cons_of_ne_nil hne
  simp only [requestsSent, hphase, Pipe.added_eq houtput]

theorem Client.requestsSent_eq_nil {φ τ δ : Type} [Gateway φ] {c c' : Client φ τ Pipe δ}
    (h : c.phase = .prompt → c'.output = c.output) : c.requestsSent c' = [] := by
  unfold requestsSent
  split
  · rename_i b bs hphase hadded
    rw [h hphase, Pipe.added, List.drop_length] at hadded
    cases hadded
  · rfl

structure System (φ τ δ γ : Type) [Gateway φ] [Gateway γ] where
  client : Client φ τ Pipe δ
  server : Session (Answered γ) Pipe
  /-- Every request that the client sent, with what it has read since. -/
  sent : Exchanges Bytes
  /-- Every line that the server took for a command, with what it has said since. -/
  handled : Exchanges Text

namespace System

variable {φ τ δ γ : Type} [Gateway φ] [Gateway γ]

def start (settings : ClientSettings) (files : φ) (keyboard : List (Except IoError Bytes)) (terminal : τ)
    (canceller : δ) (served : γ) (registry : Registry) : System φ τ δ γ :=
  ⟨.start settings files keyboard terminal ⟨[]⟩ canceller, .start ⟨served, []⟩ registry ⟨[]⟩, [], []⟩

def withClient (sys : System φ τ δ γ) (c : Client φ τ Pipe δ) : System φ τ δ γ :=
  { sys with client := c, sent := sys.sent.begin (sys.client.requestsSent c) }

/-- After a step of the server. What it says belongs to the line that it takes, or took last. -/
def withServer (sys : System φ τ δ γ) (s : Session (Answered γ) Pipe) : System φ τ δ γ :=
  { sys with
    server := s
    handled := (sys.handled.begin sys.server.commandsTaken).add (sys.server.output.added s.output) }

variable [Writer τ] [Canceller δ]

/-- One step of either side, or of the world around them. When one side has ended and all its bytes
were read, the other finds the end of the stream. -/
inductive Step : System φ τ δ γ → System φ τ δ γ → Prop where
  | client {sys : System φ τ δ γ} {c : Client φ τ Pipe δ} (h : sys.client.advance? = some c) :
      Step sys (sys.withClient c)
  | server {sys : System φ τ δ γ} {s : Session (Answered γ) Pipe} (h : sys.server.advance? = some s) :
      Step sys (sys.withServer s)
  | clientReads {sys : System φ τ δ γ} {chunk rest : Bytes} (h : sys.client.advance? = none)
      (hopen : sys.client.isFinished = false) (hbytes : sys.server.output.inFlight = chunk ++ rest)
      (hne : chunk ≠ []) (hlen : chunk.length ≤ chunkSize) :
      Step sys { sys with
        client := { sys.client with pending := sys.client.pending ++ chunk }
        server := { sys.server with output := ⟨rest⟩ }
        sent := sys.sent.add chunk }
  | serverReads {sys : System φ τ δ γ} {chunk rest : Bytes} (h : sys.server.advance? = none)
      (hbytes : sys.client.output.inFlight = chunk ++ rest) (hne : chunk ≠ [])
      (hlen : chunk.length ≤ sys.server.wants) :
      Step sys { sys with
        client := { sys.client with output := ⟨rest⟩ }
        server := { sys.server with input := sys.server.input.supply chunk } }
  | clientEnds {sys : System φ τ δ γ} (h : sys.client.advance? = none) (hclosed : sys.server.phase = .closed)
      (hempty : sys.server.output.inFlight = []) :
      Step sys { sys with client := sys.client.receive (.ok []) }
  | serverEnds {sys : System φ τ δ γ} (h : sys.server.advance? = none)
      (hfinished : sys.client.isFinished = true) (hempty : sys.client.output.inFlight = []) :
      Step sys { sys with server := sys.server.receive (.ok []) }
  /-- Other programs change the files, and other sessions the registry. -/
  | around {sys : System φ τ δ γ} (files : φ) (served : γ) (registry : Registry) :
      Step sys { sys with
        client := { sys.client with files }
        server := { sys.server with gateway := { sys.server.gateway with inner := served }, registry } }

/-- What is asked of the files, and of the lines that are typed. What is left to be sent of a file
holds no marker. -/
structure Provided (sys : System φ τ δ γ) : Prop where
  answers : ∀ a ∈ sys.server.gateway.answers, a.IsOneLine
  downloads : ∀ entry file, sys.server.phase = .sending entry file → ¬ HasMarker file.source.content
  uploads : ∀ path file, sys.client.phase = .sending path file → ¬ HasMarker file.source.content
  lines : ∀ exchange ∈ sys.sent, exchange.1.length ≤ maxLineBytes

/-- The states of a run that keeps to what is asked. -/
inductive Reachable (first : System φ τ δ γ) : System φ τ δ γ → Prop where
  | start (h : first.Provided) : Reachable first first
  | step {sys sys' : System φ τ δ γ} (h : Reachable first sys) (hstep : Step sys sys')
      (hprovided : sys'.Provided) : Reachable first sys'

/-- The server has taken exactly the requests that were sent, and what it said to each is what the
client has read since that request. -/
def Settled (sys : System φ τ δ γ) : Prop := sys.sent = sys.handled.map (Prod.map lineBytes id)

/-- What the client has read since each request is what the session has said to it, but for what is on
its way. Only the latest request may still be on its way, and then nothing has come back to it. -/
def Matched (sys : System φ τ δ γ) : Prop :=
  sys.sent.add sys.server.output.inFlight = sys.handled.map (Prod.map lineBytes id) ∨
    ∃ request, sys.sent = (lineBytes request, []) :: sys.handled.map (Prod.map lineBytes id) ∧
      sys.client.pending = [] ∧ sys.server.output.inFlight = []

/-- Both sides wait for bytes, and none are on their way. -/
def Deadlocked (sys : System φ τ δ γ) : Prop :=
  sys.client.advance? = none ∧ sys.client.isFinished = false ∧ sys.server.advance? = none ∧
    sys.client.output.inFlight = [] ∧ sys.server.output.inFlight = []

end System

end FileFerry
