import FileFerry.Client.Connection
import FileFerry.Command.Basic
import FileFerry.Gateway.Basic
import FileFerry.Net.Address
import FileFerry.Wire.Cancellation

/-! An interactive client between its terminal, its server, the server's cancellation port and the
local files. Like a session it never waits: it goes as far as what the server sent lets it, and
then is given the result of the next read. -/

set_option autoImplicit false

namespace FileFerry

inductive DialFailure where
  | unresolved (source : IoError)
  | unreachable (source : IoError)
  deriving DecidableEq, Repr

inductive RequestFailure where
  | undialled (reason : DialFailure)
  | unsent (source : IoError)
  deriving DecidableEq, Repr

/-- The way to a server's cancellation port: each request has a connection of its own. -/
class Canceller (δ : Type) where
  request : δ → Bytes → Except RequestFailure Unit × δ

/-- A cancellation port that keeps the requests it is sent, or turns them all away. -/
structure RequestLog where
  refusal : Option RequestFailure
  delivered : List Bytes

instance : Canceller RequestLog where
  request log payload :=
    match log.refusal with
    | some reason => (.error reason, log)
    | none => (.ok (), { log with delivered := log.delivered ++ [payload] })

structure ClientSettings where
  host : Text
  port : UInt16
  cancelPort : UInt16
  /-- Where downloads go and uploads come from. -/
  localDir : Path
  deriving Repr

/-- A host and a port as they are shown to the user. -/
def endpointText (host : Text) (port : UInt16) : Text := host ++ ':' :: Decimal.ofNat port.toNat

def DialFailure.error (endpoint : Text) : DialFailure → ClientError
  | unresolved e => .resolve endpoint e
  | unreachable e => .connect endpoint e

def RequestFailure.error (endpoint : Text) : RequestFailure → ClientError
  | undialled reason => reason.error endpoint
  | unsent e => .sendRequest e

/-- A download under way. Without a handle the local file could not be made, and the payload is only
taken in. -/
structure Download (φ : Type) [Gateway φ] where
  name : Text
  path : Path
  handle : Option (Gateway.Handle φ)
  reception : Reception

/-- What a client is about to do, or is waiting for. -/
inductive ClientPhase (φ : Type) [Gateway φ] where
  | greeting
  | prompt
  | reply
  | downloadReply (name : Text)
  | payload (download : Download φ)
  | uploadReply (name : Text) (path : Path) (source : Source)
  | sending (path : Path) (file : Sending)
  /-- What the server says to a file that was sent. -/
  | verdict (path : Path) (sent : Transmission)
  | finished (result : Except ClientError Unit)

structure Client (φ τ κ δ : Type) [Gateway φ] where
  settings : ClientSettings
  files : φ
  /-- The lines still to be typed, each with its newline, or the failure to read one. -/
  keyboard : List (Except IoError Bytes)
  terminal : τ
  output : κ
  canceller : δ
  pending : Bytes
  phase : ClientPhase φ

variable {φ τ κ δ : Type} [Gateway φ]

/-- The lines of a typed text, each with its newline; the last may lack one. -/
def typedLines (b : Bytes) : List (Except IoError Bytes) :=
  match b with
  | [] => []
  | c :: rest =>
    if c = newline then .ok [c] :: typedLines rest
    else match typedLines rest with
      | .ok line :: more => .ok (c :: line) :: more
      | more => .ok [c] :: more

/-- The local file of a download, which takes and drops all bytes if it could not be made. -/
structure LocalSink (φ : Type) [Gateway φ] where
  files : φ
  handle : Option (Gateway.Handle φ)

instance : Writer (LocalSink φ) where
  write s b :=
    match s.handle with
    | none => (.ok b.length, s)
    | some h => ((Gateway.write s.files h b).1, { s with files := (Gateway.write s.files h b).2 })
  flush s :=
    match s.handle with
    | none => (.ok (), s)
    | some h => ((Gateway.flush s.files h).1, { s with files := (Gateway.flush s.files h).2 })
  patience s :=
    match s.handle with
    | none => 0
    | some h => Gateway.patience s.files h
  patience_lt s b e he hi := by
    cases hh : s.handle with
    | none => simp [hh] at he
    | some h =>
      simp only [hh] at he ⊢
      exact Gateway.patience_lt s.files h b e he hi

namespace Client

def start (settings : ClientSettings) (files : φ) (keyboard : List (Except IoError Bytes))
    (terminal : τ) (output : κ) (canceller : δ) : Client φ τ κ δ :=
  ⟨settings, files, keyboard, terminal, output, canceller, [], .greeting⟩

def isFinished (c : Client φ τ κ δ) : Bool :=
  match c.phase with
  | .finished _ => true
  | _ => false

def finish (c : Client φ τ κ δ) (result : Except ClientError Unit) : Client φ τ κ δ :=
  { c with phase := .finished result }

def toPrompt (c : Client φ τ κ δ) : Client φ τ κ δ := { c with phase := .prompt }

variable [Writer τ]

def print (c : Client φ τ κ δ) (t : Text) : Except ClientError Unit × Client φ τ κ δ :=
  match Writer.writeAll c.terminal (Utf8.encode t) with
  | (.error e, terminal) => (.error (.output e), { c with terminal })
  | (.ok (), terminal) =>
    let (result, terminal) := Writer.writeAll terminal [newline]
    (result.mapError .output, { c with terminal })

def tell (c : Client φ τ κ δ) (t : Text) : Client φ τ κ δ :=
  match c.print t with
  | (.ok (), c) => c.toPrompt
  | (.error e, c) => c.finish (.error e)

/-- Stops at a fatal error; shows any other. -/
def report (c : Client φ τ κ δ) (e : ClientError) : Client φ τ κ δ :=
  if e.isFatal then c.finish (.error e) else c.tell e.message

/-- To tell the user something changes nothing but the terminal and what comes next. -/
theorem print_eq (c : Client φ τ κ δ) (t : Text) : ∃ terminal, (c.print t).2 = { c with terminal } := by
  unfold print
  split
  · exact ⟨_, rfl⟩
  · exact ⟨_, rfl⟩

theorem tell_eq (c : Client φ τ κ δ) (t : Text) : ∃ terminal phase, c.tell t = { c with terminal, phase } := by
  obtain ⟨terminal, hprint⟩ := print_eq c t
  unfold tell
  split
  all_goals
    rename_i c' hp
    rw [hp] at hprint
    obtain rfl : c' = _ := hprint
    exact ⟨_, _, rfl⟩

theorem report_eq (c : Client φ τ κ δ) (e : ClientError) :
    ∃ terminal phase, c.report e = { c with terminal, phase } := by
  unfold report
  split
  · exact ⟨_, _, rfl⟩
  · exact tell_eq c _

variable [Writer κ]

/-- Sends a line to the server and goes on to `phase`. -/
def ask (c : Client φ τ κ δ) (line : Text) (phase : ClientPhase φ) : Client φ τ κ δ :=
  match Writer.send c.output (Utf8.encode (line ++ ['\n'])) with
  | (.ok (), output) => { c with output, phase }
  | (.error e, output) => { c with output }.report (.sendRequest e)

/-- What is still to be used: typed lines and received bytes. -/
def inputs (c : Client φ τ κ δ) : List (Except IoError Bytes) × Bytes := (c.keyboard, c.pending)

omit [Writer κ] in
theorem inputs_print (c : Client φ τ κ δ) (t : Text) : (c.print t).2.inputs = c.inputs := by
  unfold print
  split <;> rfl

omit [Writer κ] in
@[simp] theorem inputs_tell (c : Client φ τ κ δ) (t : Text) : (c.tell t).inputs = c.inputs := by
  have h := inputs_print c t
  unfold tell
  split
  · rename_i hp
    rw [hp] at h
    exact h
  · rename_i hp
    rw [hp] at h
    exact h

omit [Writer κ] in
@[simp] theorem inputs_report (c : Client φ τ κ δ) (e : ClientError) :
    (c.report e).inputs = c.inputs := by
  unfold report
  split
  · rfl
  · simp

@[simp] theorem inputs_ask (c : Client φ τ κ δ) (line : Text) (phase : ClientPhase φ) :
    (c.ask line phase).inputs = c.inputs := by
  unfold ask
  split
  · rfl
  · rw [inputs_report]
    rfl

end Client

end FileFerry
