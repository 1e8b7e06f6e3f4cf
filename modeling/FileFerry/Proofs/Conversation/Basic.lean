import FileFerry.Proofs.Session.Deeds

/-!
# A session and its client, step by step

A conversation is a session together with what its client will still send. It goes on by one step at a
time: a step of the session, or one read when the session waits. Between any two steps commands may
be cancelled and the served files may change. A step puts one command at most on the table or takes
it off, so requests that come between steps are all there are: one that comes after a number was
taken and before its command is on the table finds nothing, as it does before the step.

Whatever follows a script goes through states of a conversation (`exists_after_follow`).
-/

set_option autoImplicit false

namespace FileFerry

variable {γ ω : Type}

inductive Move (γ : Type) where
  | go
  | cancel (id : CommandId)
  /-- The served files change. -/
  | change (edit : γ → γ)

namespace Move

def isGo : Move γ → Bool
  | go => true
  | _ => false

def isCancel : Move γ → Bool
  | cancel _ => true
  | _ => false

def cancelled? : Move γ → Option CommandId
  | cancel id => some id
  | _ => none

end Move

/-- The numbers that were asked to be cancelled. -/
def cancelled (moves : List (Move γ)) : List CommandId := moves.filterMap Move.cancelled?

@[simp] theorem cancelled_nil : cancelled ([] : List (Move γ)) = [] := rfl

@[simp] theorem cancelled_append (a b : List (Move γ)) : cancelled (a ++ b) = cancelled a ++ cancelled b :=
  List.filterMap_append

def SessionEvent.move? : SessionEvent γ → Option (Move γ)
  | .cancel id => some (.cancel id)
  | .change edit => some (.change edit)
  | _ => none

/-- What the client sends in a script. -/
def scriptSource : List (SessionEvent γ) → Source
  | [] => []
  | .bytes (b :: bs) :: rest => .bytes (b :: bs) :: scriptSource rest
  | .failure e :: rest => .failure e :: scriptSource rest
  | .ended :: _ => []
  | _ :: rest => scriptSource rest

theorem filter_goes (n : Nat) : (List.replicate n (.go : Move γ)).filter (fun m => !m.isGo) = [] := by
  simp [Move.isGo]

/-- The place on the registry of the transfer under way. -/
def Session.guard? [Gateway γ] (s : Session γ ω) : Option Guard :=
  match s.phase with
  | .sending entry _ => some entry
  | .receiving u => some u.entry
  | _ => none

structure Conversation (γ ω : Type) [Gateway γ] where
  session : Session γ ω
  /-- What the client will still send. -/
  source : Source

namespace Conversation

variable [Gateway γ] [Writer ω]

/-- One step. A session that waits reads once; one that has ended stays as it is. -/
def go (c : Conversation γ ω) : Conversation γ ω :=
  match c.session.advance? with
  | some s => { c with session := s }
  | none =>
    if c.session.isClosed then c
    else ⟨c.session.hear (c.source.read c.session.wants).1, (c.source.read c.session.wants).2⟩

def move (c : Conversation γ ω) : Move γ → Conversation γ ω
  | .go => c.go
  | .cancel id => { c with session := { c.session with registry := (c.session.registry.cancel id).2 } }
  | .change edit => { c with session := { c.session with gateway := edit c.session.gateway } }

def after (c : Conversation γ ω) (moves : List (Move γ)) : Conversation γ ω := moves.foldl move c

@[simp] theorem after_nil (c : Conversation γ ω) : c.after [] = c := rfl

theorem after_cons (c : Conversation γ ω) (m : Move γ) (moves : List (Move γ)) :
    c.after (m :: moves) = (c.move m).after moves := rfl

theorem after_append (c : Conversation γ ω) (a b : List (Move γ)) :
    c.after (a ++ b) = (c.after a).after b :=
  List.foldl_append

theorem after_concat (c : Conversation γ ω) (moves : List (Move γ)) (m : Move γ) :
    c.after (moves ++ [m]) = (c.after moves).move m := after_append c moves [m]

theorem go_of_advance? {c : Conversation γ ω} {s : Session γ ω} (h : c.session.advance? = some s) :
    c.go = { c with session := s } := by
  simp only [go, h]

theorem go_of_waits {c : Conversation γ ω} (h : c.session.advance? = none)
    (hopen : c.session.isClosed = false) {result : ReadResult} {rest : Source}
    (hread : c.source.read c.session.wants = (result, rest)) : c.go = ⟨c.session.hear result, rest⟩ := by
  simp only [go, h, hopen, hread, Bool.false_eq_true, if_false]

theorem go_of_closed {c : Conversation γ ω} (h : c.session.isClosed = true) : c.go = c := by
  simp only [go, Session.advance?_eq_none_of_closed (Session.phase_of_isClosed h), h, if_true]

/-- The transfer that a move begins. -/
def begins (c : Conversation γ ω) (m : Move γ) : Option Guard :=
  match c.session.guard? with
  | none => (c.move m).session.guard?
  | some _ => none

/-- The transfers begun on the way, in order. -/
def begun (c : Conversation γ ω) : List (Move γ) → List Guard
  | [] => []
  | m :: moves => (c.begins m).toList ++ (c.move m).begun moves

theorem begun_append (c : Conversation γ ω) (a b : List (Move γ)) :
    c.begun (a ++ b) = c.begun a ++ (c.after a).begun b := by
  induction a generalizing c with
  | nil => rfl
  | cons m a ih => simp only [List.cons_append, begun, after_cons, ih, List.append_assoc]

theorem begun_concat (c : Conversation γ ω) (moves : List (Move γ)) (m : Move γ) :
    c.begun (moves ++ [m]) = c.begun moves ++ ((c.after moves).begins m).toList := by
  rw [begun_append, begun, begun, List.append_nil]

/-! ## Steps alone -/

/-- Steps alone lead from `c` to `t`. -/
def GoesTo (c t : Conversation γ ω) : Prop := ∃ n : Nat, c.after (List.replicate n .go) = t

theorem GoesTo.refl (c : Conversation γ ω) : c.GoesTo c := ⟨0, rfl⟩

theorem GoesTo.head {c t : Conversation γ ω} (h : c.go.GoesTo t) : c.GoesTo t := by
  obtain ⟨n, hn⟩ := h
  exact ⟨n + 1, hn⟩

theorem GoesTo.trans {c t u : Conversation γ ω} (h : c.GoesTo t) (h' : t.GoesTo u) : c.GoesTo u := by
  obtain ⟨n, rfl⟩ := h
  obtain ⟨m, rfl⟩ := h'
  refine ⟨n + m, ?_⟩
  rw [List.replicate_add, after_append]

theorem after_goes_of_closed {c : Conversation γ ω} (h : c.session.isClosed = true) (n : Nat) :
    c.after (List.replicate n .go) = c := by
  induction n with
  | zero => rfl
  | succ n ih => rw [List.replicate_succ, after_cons, move, go_of_closed h, ih]

/-- Once a conversation has ended, all that steps alone lead to is behind it. -/
theorem exists_le_of_goesTo {c t : Conversation γ ω} {n : Nat}
    (hclosed : (c.after (List.replicate n .go)).session.isClosed = true) (h : c.GoesTo t) :
    ∃ m ≤ n, c.after (List.replicate m .go) = t := by
  obtain ⟨m, rfl⟩ := h
  by_cases hm : m ≤ n
  · exact ⟨m, hm, rfl⟩
  · obtain ⟨k, rfl⟩ := Nat.exists_eq_add_of_lt (Nat.lt_of_not_le hm)
    refine ⟨n, le_refl n, ?_⟩
    rw [Nat.add_assoc, List.replicate_add, after_append, after_goes_of_closed hclosed]

/-- When nothing more comes, all that is left for a session that waits for a command is to end. -/
theorem eq_or_eq_close_of_goesTo {s : Session γ ω} (hphase : s.phase = .command) (hwaits : s.advance? = none)
    {t : Conversation γ ω} (h : (⟨s, []⟩ : Conversation γ ω).GoesTo t) : t = ⟨s, []⟩ ∨ t = ⟨s.close, []⟩ := by
  have hopen : s.isClosed = false := by simp [Session.isClosed, hphase]
  have hlose : s.hear (.ok []) = s.close := by
    change s.receive (.ok []) = s.close
    rw [Session.receive_end, Session.lose, hphase]
  have hgo : (⟨s, []⟩ : Conversation γ ω).go = ⟨s.close, []⟩ := by
    rw [← hlose]
    exact go_of_waits hwaits hopen rfl
  have hclosed : ((⟨s, []⟩ : Conversation γ ω).after (List.replicate 1 .go)).session.isClosed = true := by
    change (⟨s, []⟩ : Conversation γ ω).go.session.isClosed = true
    rw [hgo]
    rfl
  obtain ⟨m, hm, rfl⟩ := exists_le_of_goesTo hclosed h
  obtain rfl | rfl := Nat.le_one_iff_eq_zero_or_eq_one.mp hm
  · exact .inl rfl
  · exact .inr hgo

theorem goesTo_drain (s : Session γ ω) (src : Source) :
    (⟨s, src⟩ : Conversation γ ω).GoesTo ⟨s.drain, src⟩ := by
  fun_induction Session.drain s with
  | case1 s h => exact .refl _
  | case2 s s' h ih =>
    apply GoesTo.head
    rw [go_of_advance? h]
    exact ih

/-- A read of a waiting session, and all that the session does with what it brought. -/
theorem goesTo_receive {s : Session γ ω} (h : s.advance? = none) (hopen : s.isClosed = false)
    {src rest : Source} {result : ReadResult} (hread : src.read s.wants = (result, rest)) :
    (⟨s, src⟩ : Conversation γ ω).GoesTo ⟨s.receive result, rest⟩ := by
  apply GoesTo.head
  rw [go_of_waits h hopen hread]
  match result with
  | .ok (b :: bs) =>
    have hreceive : s.receive (.ok (b :: bs)) =
        ({ s with input := s.input.supply (b :: bs) } : Session γ ω).drain := by
      simp only [Session.receive, hopen, Bool.false_eq_true, if_false]
    rw [hreceive]
    exact goesTo_drain _ rest
  | .ok [] => exact .refl _
  | .error e => exact .refl _

/-- However a delivery is cut into reads, a session takes all of it or ends before. -/
theorem goesTo_deliver {s : Session γ ω} (h : s.advance? = none) (b : UInt8) (bs : Bytes) (rest : Source) :
    ∃ src, (⟨s, .bytes (b :: bs) :: rest⟩ : Conversation γ ω).GoesTo ⟨s.deliver (b :: bs), src⟩ ∧
      ((s.deliver (b :: bs)).isClosed = true ∨ src = rest) := by
  generalize hcontent : b :: bs = content
  fun_induction Session.deliver s content generalizing b bs with
  | case1 s => cases hcontent
  | case2 s c cs hw =>
    refine ⟨_, .refl _, .inl ?_⟩
    cases hp : s.phase <;> simp [Session.wants, hp, lineReadSize, chunkSize] at hw
    simp [Session.isClosed, hp]
  | case3 s c cs n hw ih =>
    have hopen : s.isClosed = false := by
      cases hp : s.phase <;> simp [Session.wants, hp] at hw <;> simp [Session.isClosed, hp]
    have hread : Source.read s.wants (.bytes (c :: cs) :: rest) =
        (.ok (c :: cs.take n), if cs.drop n = [] then rest else .bytes (cs.drop n) :: rest) := by
      simp only [Source.read, hw, List.take_succ_cons, List.drop_succ_cons]
    have hgo := goesTo_receive h hopen hread
    have hwaits := Session.advance?_receive h (.ok (c :: cs.take n))
    cases hdrop : cs.drop n with
    | nil =>
      rw [hdrop, if_pos rfl] at hgo
      rw [Session.deliver]
      exact ⟨rest, hgo, .inr rfl⟩
    | cons d ds =>
      rw [hdrop, if_neg (List.cons_ne_nil d ds)] at hgo
      obtain ⟨src, hnext, hend⟩ := ih hwaits d ds hdrop.symm
      rw [hdrop] at hnext hend
      exact ⟨src, hgo.trans hnext, hend⟩

/-! ## Scripts -/

theorem exists_after_meet {s : Session γ ω} (h : s.advance? = none) (hopen : s.isClosed = false)
    (event : SessionEvent γ) (rest : List (SessionEvent γ)) :
    ∃ moves src, (⟨s, scriptSource (event :: rest)⟩ : Conversation γ ω).after moves =
        ⟨(s.meet event).after, src⟩ ∧
      ((s.meet event).after.isClosed = true ∨ src = scriptSource rest) ∧
      moves.filter (fun m => !m.isGo) = event.move?.toList := by
  have of_goesTo {t : Session γ ω} {src src' : Source}
      (hgo : (⟨s, src⟩ : Conversation γ ω).GoesTo ⟨t, src'⟩) :
      ∃ moves, (⟨s, src⟩ : Conversation γ ω).after moves = ⟨t, src'⟩ ∧
        moves.filter (fun m => !m.isGo) = [] := by
    obtain ⟨n, hn⟩ := hgo
    exact ⟨_, hn, filter_goes n⟩
  cases event with
  | bytes content =>
    cases content with
    | nil =>
      refine ⟨[], _, ?_, .inr rfl, rfl⟩
      simp only [Session.meet, Session.deliver, scriptSource, after_nil]
    | cons b bs =>
      obtain ⟨src, hgo, hend⟩ := goesTo_deliver h b bs (scriptSource rest)
      obtain ⟨moves, hmoves, hfilter⟩ := of_goesTo hgo
      exact ⟨moves, src, hmoves, hend, hfilter⟩
  | failure e =>
    have hread : Source.read s.wants (scriptSource (.failure e :: rest)) =
        (.error e, scriptSource rest) := by
      simp only [scriptSource, Source.read]
    obtain ⟨moves, hmoves, hfilter⟩ := of_goesTo (goesTo_receive h hopen hread)
    exact ⟨moves, _, hmoves, .inr rfl, hfilter⟩
  | cancel id => exact ⟨[.cancel id], _, rfl, .inr rfl, rfl⟩
  | change edit => exact ⟨[.change edit], _, rfl, .inr rfl, rfl⟩
  | ended =>
    have hread : Source.read s.wants (scriptSource (.ended :: rest)) = (.ok [], []) := by
      simp only [scriptSource, Source.read]
    obtain ⟨moves, hmoves, hfilter⟩ := of_goesTo (goesTo_receive h hopen hread)
    refine ⟨moves, _, hmoves, .inl ?_, hfilter⟩
    simp [Session.meet, Session.receive_end, Session.isClosed, Session.phase_lose]

/-- Whether a session waits is seen from its phase and what it has received. -/
theorem advance?_eq_none_of_same {s t : Session γ ω} (h : s.advance? = none) (hphase : t.phase = s.phase)
    (hinput : t.input = s.input) : t.advance? = none := by
  unfold Session.advance? at h ⊢
  rw [hphase, hinput]
  cases hp : s.phase with
  | command =>
    rw [hp] at h
    cases hl : s.input.nextLine <;> simp [hl] at h ⊢
  | receiving u =>
    rw [hp] at h
    simpa using h
  | sending entry file => simp [hp] at h
  | closed => rfl

theorem advance?_meet {s : Session γ ω} (h : s.advance? = none) (event : SessionEvent γ) :
    (s.meet event).after.advance? = none := by
  cases event with
  | bytes content => exact Session.advance?_deliver h content
  | failure e => exact Session.advance?_receive h (.error e)
  | ended => exact Session.advance?_receive h (.ok [])
  | cancel id => exact advance?_eq_none_of_same h rfl rfl
  | change edit => exact advance?_eq_none_of_same h rfl rfl

/-- After each event of a script a session is where some moves lead, and these cancel and change what
the events did. -/
theorem exists_after_follow {s : Session γ ω} (h : s.advance? = none) (script : List (SessionEvent γ))
    {before later : List (SessionStep γ ω)} {step : SessionStep γ ω}
    (hsteps : (s.follow script).1 = before ++ step :: later) :
    ∃ moves, ((⟨s, scriptSource script⟩ : Conversation γ ω).after moves).session = step.after ∧
      moves.filter (fun m => !m.isGo) = (before ++ [step]).filterMap fun done => done.event.move? := by
  induction script generalizing s before with
  | nil =>
    unfold Session.follow at hsteps
    split at hsteps
    · simp at hsteps
    · rename_i hopen
      obtain ⟨rfl, rfl, -⟩ : before = [] ∧ step = s.meet .ended ∧ later = [] := by
        cases before with
        | nil => simpa [eq_comm] using hsteps
        | cons first before => simp at hsteps
      obtain ⟨moves, src, hmoves, -, hfilter⟩ := exists_after_meet h (by simpa using hopen) .ended []
      exact ⟨moves, congrArg session hmoves, hfilter⟩
  | cons event rest ih =>
    unfold Session.follow at hsteps
    split at hsteps
    · simp at hsteps
    · rename_i hopen
      obtain ⟨moves, src, hmoves, hend, hfilter⟩ := exists_after_meet h (by simpa using hopen) event rest
      have hevent : (s.meet event).event = event := by cases event <;> rfl
      cases before with
      | nil =>
        obtain ⟨rfl, -⟩ := List.cons.inj hsteps
        refine ⟨moves, congrArg session hmoves, ?_⟩
        rw [hfilter, List.nil_append, List.filterMap_cons, hevent]
        cases event.move? <;> rfl
      | cons first before =>
        obtain ⟨rfl, hrest⟩ := List.cons.inj hsteps
        have hsrc : src = scriptSource rest := by
          refine hend.resolve_left fun hclosed => ?_
          unfold Session.follow at hrest
          split at hrest <;> simp [hclosed] at hrest
        obtain ⟨more, hmore, hfilterMore⟩ := ih (advance?_meet h event) hrest
        refine ⟨moves ++ more, ?_, ?_⟩
        · rw [after_append, hmoves, hsrc, hmore]
        · rw [List.filter_append, hfilter, hfilterMore, List.cons_append, List.filterMap_cons, hevent]
          cases event.move? <;> rfl

end Conversation

end FileFerry
