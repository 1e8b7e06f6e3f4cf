import FileFerry.Session.Directory

/-! The commands that carry raw bytes. A download is sent chunk by chunk. An upload takes bytes as they come
until the end marker; what follows the marker stays for the next command. Both are on the
registry while they run, and an upload that fails takes its file away again. -/

set_option autoImplicit false

namespace FileFerry

variable {γ ω : Type} [Gateway γ]

namespace Session

def unregister (s : Session γ ω) (entry : Guard) : Session γ ω :=
  { s with registry := s.registry.finish entry }

variable [Writer ω]

/-- Goes on with a download by one chunk. The client learns of no failure but to open the file. -/
def sendChunk (s : Session γ ω) (entry : Guard) (file : Sending) : Session γ ω :=
  match file.step s.output with
  | (.more rest, output) => { s with output, phase := .sending entry rest }
  | (.ended _, output) => { s with output, phase := .command }.unregister entry

def beginDownload (s : Session γ ω) (argument : Text) : Handled γ ω :=
  match requireName argument .file with
  | .error e => s.fail e
  | .ok name =>
    match Gateway.exists s.gateway (s.resolve name) with
    | (false, g) => { s with gateway := g }.fail (.notFound .file)
    | (true, g) =>
      match Gateway.openFile g (s.resolve name) with
      | (.error e, g) => { s with gateway := g }.refuse e .file "Failed to open file"
      | (.ok source, g) =>
        let (entry, registry) := s.registry.start
        (.ok .streamed,
          { s with gateway := g, registry, phase := .sending entry (.ofSource source) }.sendResponse
            (.framed .success transferStart))

/-- Accepts an upload. A missing file here means that its directory is missing. -/
def beginUpload (s : Session γ ω) (argument : Text) : Handled γ ω :=
  match requireName argument .file with
  | .error e => s.fail e
  | .ok name =>
    match Gateway.create s.gateway (s.resolve name) with
    | (.error e, g) => { s with gateway := g }.refuse e .directory "Failed to create file"
    | (.ok handle, g) =>
      let (entry, registry) := s.registry.start
      let upload : Upload γ := ⟨s.resolve name, handle, entry, .fresh⟩
      (.ok .streamed,
        { s with gateway := g, registry, phase := .receiving upload }.sendResponse
          (.framed .success readyToReceive))

end Session

namespace Session

/-- Takes away a file that was not uploaded whole, whether or not that works. -/
def discardUpload (s : Session γ ω) (u : Upload γ) : Session γ ω :=
  { s with gateway := (Gateway.remove (Gateway.close s.gateway u.handle) u.path).2 }.unregister u.entry

def completeUpload (s : Session γ ω) (u : Upload γ) (failure : Option IoError) : Handled γ ω :=
  let s := { s with phase := .command }
  match failure with
  | none =>
    ({ s with gateway := Gateway.close s.gateway u.handle }.unregister u.entry).succeed
      (text "File transfer completed.")
  | some e => (s.discardUpload u).fail (.io (text "Failed to write file") e)

/-- Ends an upload whose marker will not come; there is nobody to answer. -/
def abandonUpload (s : Session γ ω) (u : Upload γ) : Session γ ω := (s.discardUpload u).close

variable [Writer ω]

def receiveChunk (s : Session γ ω) (u : Upload γ) : Session γ ω :=
  let (chunk, input) := s.input.takeRaw chunkSize
  match u.reception.take (⟨s.gateway, u.handle⟩ : Sink γ) chunk with
  | (none, reception, sink) =>
    { s with gateway := sink.gateway, input, phase := .receiving { u with reception } }
  | (some trailing, reception, sink) =>
    let s := { s with gateway := sink.gateway, input := input.unread trailing }
    let (outcome, s) := s.completeUpload u reception.failure
    s.answer outcome

end Session

end FileFerry
