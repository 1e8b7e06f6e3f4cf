import FileFerry.Client.Error
import FileFerry.Stream.Source
import FileFerry.Wire.Line
import FileFerry.Wire.Reception
import FileFerry.Wire.Response
import FileFerry.Wire.Transmission

/-! A client's connection to its server: lines both ways, and payloads both ways. Bytes that were read
beyond a line or a marker wait for whatever is read next. -/

set_option autoImplicit false

namespace FileFerry

def takeLine? (pending : Bytes) : Option (Text × Bytes) :=
  (cutAtNewline? pending).map fun (before, after) =>
    (Text.trimLineEnd (Utf8.decodeLossy before), after)

theorem length_lt_of_takeLine? {pending rest : Bytes} {line : Text}
    (h : takeLine? pending = some (line, rest)) : rest.length < pending.length := by
  obtain ⟨⟨before, after⟩, hc, heq⟩ := Option.map_eq_some_iff.mp h
  obtain ⟨_, rfl⟩ : Text.trimLineEnd (Utf8.decodeLossy before) = line ∧ after = rest := by
    simpa using heq
  exact length_lt_of_cutAtNewline? hc

/-- The answer of a server that takes up a download. -/
def downloadAccepted : Text := text "FILE_TRANSFER_START"

/-- The answer of a server that takes up an upload. -/
def uploadAccepted : Text := text "READY_TO_RECEIVE"

/-- Whether a response takes up a transfer; any other refuses it. -/
def Response.accepts (r : Response) (acceptance : Text) : Bool :=
  r.isSuccess && r.message == acceptance

def downloadRequest (name : Text) : Text := text "get " ++ name

def uploadRequest (name : Text) : Text := text "put " ++ name

def quitRequest : Text := text "quit"

structure Connection (ω : Type) where
  incoming : Source
  pending : Bytes
  output : ω

namespace Connection

variable {ω : Type}

/-- One read of the connection. The end of the stream is a failure: the server is gone. -/
def readSome (c : Connection ω) : Except ClientError Bytes × Connection ω :=
  match c.incoming.readAgain chunkSize with
  | (.error e, rest) => (.error (.readResponse e), { c with incoming := rest })
  | (.ok [], rest) => (.error .disconnected, { c with incoming := rest })
  | (.ok (b :: bs), rest) => (.ok (b :: bs), { c with incoming := rest })

theorem size_readSome_lt {c c' : Connection ω} {chunk : Bytes} (h : c.readSome = (.ok chunk, c')) :
    c'.incoming.size < c.incoming.size := by
  unfold readSome at h
  split at h
  · simp at h
  · simp at h
  · rename_i hr
    obtain ⟨_, rfl⟩ := Prod.mk.inj h
    exact Source.size_readAgain_lt (by decide) hr

def readLine (c : Connection ω) : Except ClientError Text × Connection ω :=
  match takeLine? c.pending with
  | some (line, rest) => (.ok line, { c with pending := rest })
  | none =>
    match _h : c.readSome with
    | (.error e, c') => (.error e, c')
    | (.ok chunk, c') => readLine { c' with pending := c'.pending ++ chunk }
termination_by c.incoming.size
decreasing_by exact size_readSome_lt _h

/-- Takes a payload in until its marker, beginning with `chunk`. -/
def receiveFrom {σ : Type} [Writer σ] (c : Connection ω) (r : Reception) (sink : σ) (chunk : Bytes) :
    Except ClientError Reception × σ × Connection ω :=
  match r.take sink chunk with
  | (some trailing, r, sink) => (.ok r, sink, { c with pending := trailing })
  | (none, r, sink) =>
    match _h : c.readSome with
    | (.error e, c') => (.error e, sink, c')
    | (.ok chunk, c') => receiveFrom c' r sink chunk
termination_by c.incoming.size
decreasing_by exact size_readSome_lt _h

/-- Takes a whole payload in: how many bytes it had, and how the sink failed if it did. -/
def receivePayload {σ : Type} [Writer σ] (c : Connection ω) (sink : σ) :
    Except ClientError Reception × σ × Connection ω :=
  receiveFrom { c with pending := [] } .fresh sink c.pending

variable [Writer ω]

def sendLine (c : Connection ω) (line : Text) : Except ClientError Unit × Connection ω :=
  let (result, output) := Writer.send c.output (Utf8.encode (line ++ ['\n']))
  (result.mapError .sendRequest, { c with output })

def command (c : Connection ω) (line : Text) : Except ClientError Response × Connection ω :=
  match c.sendLine line with
  | (.error e, c) => (.error e, c)
  | (.ok (), c) =>
    let (result, c) := c.readLine
    (result.map Response.ofLine, c)

/-- Sends a file; the server's verdict is still to be read. -/
def sendPayload (c : Connection ω) (source : Source) : Transmission × Connection ω :=
  let (outcome, output) := transmit source c.output
  (outcome, { c with output })

end Connection

end FileFerry
