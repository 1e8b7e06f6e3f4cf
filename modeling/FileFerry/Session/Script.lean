import FileFerry.Session.Run

/-! Sessions among other events: while a session waits for its client, a command may be cancelled and
the served files may change. A script is a list of such events; following it records the session
after each. -/

set_option autoImplicit false

namespace FileFerry

variable {γ ω : Type} [Gateway γ] [Writer ω]

inductive SessionEvent (γ : Type) where
  | bytes (content : Bytes)
  | failure (error : IoError)
  | cancel (id : CommandId)
  /-- The served files change. -/
  | change (edit : γ → γ)
  | ended

structure SessionStep (γ ω : Type) [Gateway γ] where
  event : SessionEvent γ
  cancelled : Option Bool
  after : Session γ ω

namespace Session

def meet (s : Session γ ω) (event : SessionEvent γ) : SessionStep γ ω :=
  match event with
  | .bytes content => ⟨event, none, s.deliver content⟩
  | .failure e => ⟨event, none, s.receive (.error e)⟩
  | .cancel id =>
    let (found, registry) := s.registry.cancel id
    ⟨event, some found, { s with registry }⟩
  | .change edit => ⟨event, none, { s with gateway := edit s.gateway }⟩
  | .ended => ⟨event, none, s.receive (.ok [])⟩

/-- Follows a script as long as the session lasts, and after it the end of the stream. Gives the
steps and the events that were not reached. -/
def follow (s : Session γ ω) : List (SessionEvent γ) → List (SessionStep γ ω) × List (SessionEvent γ)
  | [] => if s.isClosed then ([], []) else ([s.meet .ended], [])
  | event :: rest =>
    if s.isClosed then ([], event :: rest)
    else
      let step := s.meet event
      let (steps, left) := step.after.follow rest
      (step :: steps, left)

end Session

end FileFerry
