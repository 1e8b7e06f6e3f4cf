import FileFerry.Session.Basic

/-! The commands that only look at the served files, or make, remove and enter them. Each checks its
argument before it calls the gateway. -/

set_option autoImplicit false

namespace FileFerry

variable {γ ω : Type} [Gateway γ]

def DirEntry.render (e : DirEntry) : Text := if e.isDir then e.name ++ ['/'] else e.name

def renderListing (entries : List DirEntry) : Text :=
  Text.joinWith [' ', ' '] (entries.map DirEntry.render)

namespace Session

def printDirectory (s : Session γ ω) : Handled γ ω := (.ok (.line (.bare s.cwd.display)), s)

def listDirectory (s : Session γ ω) : Handled γ ω :=
  match Gateway.list s.gateway s.cwd with
  | (.ok entries, g) => (.ok (.line (.bare (renderListing entries))), { s with gateway := g })
  | (.error e, g) => { s with gateway := g }.refuse e .directory "Failed to list directory"

def changeDirectory (s : Session γ ω) (argument : Text) : Handled γ ω :=
  match requireName argument .directory with
  | .error e => s.fail e
  | .ok name =>
    match Gateway.chdir s.gateway (s.resolve name) with
    | (.ok dir, g) =>
      { s with gateway := g, cwd := dir }.succeed
        (text "Changed directory to " ++ dir.display ++ text ".")
    | (.error e, g) => { s with gateway := g }.refuse e .directory "Failed to change directory"

def makeDirectory (s : Session γ ω) (argument : Text) : Handled γ ω :=
  match requireName argument .directory with
  | .error e => s.fail e
  | .ok name =>
    match Gateway.exists s.gateway (s.resolve name) with
    | (true, g) => { s with gateway := g }.fail (.alreadyExists .directory)
    | (false, g) =>
      match Gateway.mkdir g (s.resolve name) with
      | (.ok (), g) => { s with gateway := g }.succeed (text "Directory created successfully.")
      | (.error e, g) => { s with gateway := g }.refuse e .directory "Failed to create directory"

/-- The failure to delete a file; a directory is no file to be deleted. -/
def deleteError (e : IoError) : CommandError :=
  if e.kind = .isADirectory then .wrongType (text "Cannot delete a directory.")
  else .ofIo e .file (text "Failed to delete file")

def deleteFile (s : Session γ ω) (argument : Text) : Handled γ ω :=
  match requireName argument .file with
  | .error e => s.fail e
  | .ok name =>
    match Gateway.exists s.gateway (s.resolve name) with
    | (false, g) => { s with gateway := g }.fail (.notFound .file)
    | (true, g) =>
      match Gateway.remove g (s.resolve name) with
      | (.ok (), g) => { s with gateway := g }.succeed (text "File deleted successfully.")
      | (.error e, g) => { s with gateway := g }.fail (deleteError e)

end Session

end FileFerry
