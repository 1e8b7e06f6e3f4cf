import FileFerry.Gateway.Local
import FileFerry.Proofs.Server.Fates

/-!
# Stopping a server leaves no session behind

However the events of a server follow each other, no session runs on a connection that stopping did not
cut, a connection that comes to its worker too late is closed without a byte, and once the workers
are gone every connection was served to its end or not at all (`shutdown_leaves_nothing_running`).
-/

set_option autoImplicit false

namespace FileFerry

open scoped List

variable {γ : Type} [Gateway γ]

namespace Server

variable {past : List ServerEvent} {e : ServerEvent} {i : LinkId}

/-- What holds of every server that a run comes to. -/
structure Sound (workers : Nat) (past : List ServerEvent) (s : Server γ) : Prop where
  size : s.pool.size = workers
  last : s.pool.LeftLast
  phased : s.Phased
  placed : Placed s.standing? s.pool
  ticketed : Ticketed s.ticket? s.table
  cutOff : s.CutOff
  told : s.Told past
  shut : .disconnect ∈ past → s.table.closed = true

theorem sound_start (gateway : γ) (workers : Nat) : (start gateway workers).Sound workers [] := by
  have hrunning : (start gateway workers).pool.running = [] := Pool.running_start workers
  have hqueue : (start gateway workers).pool.queue = [] := rfl
  have hlinks : (start gateway workers).links = [] := rfl
  constructor
  · exact List.length_replicate
  · exact Pool.leftLast_start workers
  · exact ⟨by simp [start, SessionTable.empty], by simp [start, Pool.start]⟩
  · constructor <;> simp [hrunning, hqueue, standing?, hlinks]
  · constructor <;> simp [start, SessionTable.empty, ticket?, standing?]
  · simp [CutOff, start]
  · constructor <;> simp [start]
  · simp

theorem closed_of_disconnect {s t : Server γ} (h : Moves s .disconnect t) : t.table.closed = true := by
  cases h with
  | within he => cases he
  | pools he => cases he
  | disconnects => rfl

theorem sound_step {workers : Nat} {s t : Server γ} (h : Moves s e t) (hs : s.Sound workers past) :
    t.Sound workers (past ++ [e]) where
  size := by
    rcases pool_step h with hpool | ⟨p, hpool⟩
    · rw [hpool, hs.size]
    · rw [Pool.size_step hpool, hs.size]
  last := by
    rcases pool_step h with hpool | ⟨p, hpool⟩
    · rw [hpool]
      exact hs.last
    · exact Pool.leftLast_step (Pool.moves_of_step hpool) hs.last
  phased := phased_step h hs.phased
  placed := placed_step h hs.phased hs.placed
  ticketed := ticketed_step h hs.phased hs.ticketed
  cutOff := cutOff_step h hs.phased hs.ticketed hs.cutOff
  told := told_step h hs.phased hs.told
  shut := by
    intro hmem
    rcases List.mem_append.mp hmem with hmem | hmem
    · exact closed_step h (hs.shut hmem)
    · obtain rfl := List.mem_singleton.mp hmem
      exact closed_of_disconnect h

theorem sound_steps {gateway : γ} {workers : Nat} {events : List ServerEvent} {s : Server γ}
    (h : (start gateway workers).steps events = some s) : s.Sound workers events :=
  steps_keep sound_step h (sound_start gateway workers)

/-- A connection that waits for its worker when the table is closed. -/
theorem unserved_of_waiting {workers : Nat} {s : Server γ} (hs : s.Sound workers past)
    (hclosed : s.table.closed = true) {l : Link γ} (hl : s.links[i]? = some l)
    (hwaiting : l.standing = .waiting) : s.Unserved i [] := by
  have htold := hs.told.known hl
  rw [Account, hwaiting] at htold
  exact ⟨hclosed, List.not_mem_nil, l, hl, .inl hwaiting, htold.2⟩

/-- A session that ends gives back its own ticket and no other. -/
theorem links_of_part {s t : Server γ} (hs : Ticketed s.ticket? s.table) (h : s.step (.part i) = some t) :
    s.table.links ~ i :: t.table.links ∧ i ∉ t.table.links := by
  cases moves_of_step h with
  | within he => cases he
  | pools he => cases he
  | parts hl hstage =>
    have hperm := hs.links_giveBack (ticket?_of_stage hl (Link.standing_of_stage hstage))
    exact ⟨hperm, (List.nodup_cons.mp (hperm.nodup_iff.mp hs.nodup_links)).1⟩

theorem closed_of_late {s t : Server γ} (hclosed : s.table.closed = true)
    (h : s.step (.register i) = some t) : t.standing? i = some .closed := by
  cases moves_of_step h with
  | within he => cases he
  | pools he => cases he
  | registers _ _ _ htable =>
    rw [(closed_of_register htable).1] at hclosed
    cases hclosed
  | @turnsAway _ l outbox _ hl =>
    rw [standing?_setLink (s := s) rfl hl, Function.update_self]
    rfl

theorem closed_of_isOver {workers : Nat} (hworkers : 0 < workers) {s : Server γ} (hs : s.Sound workers past)
    (hover : s.pool.isOver = true) :
    s.pool.queue = [] ∧ ∀ {i : LinkId} {l : Link γ}, s.links[i]? = some l → l.standing = .closed := by
  have hrunning := Pool.running_of_isOver hover
  have hqueue := (hs.last (Pool.gone_mem_of_isOver hover (hs.size ▸ hworkers))).2
  refine ⟨hqueue, fun {i l} hl => ?_⟩
  have hstanding : s.standing? i = some l.standing := standing?_of_stage hl rfl
  cases hv : l.standing with
  | closed => rfl
  -- who waits is with the pool, and who has a ticket keeps a worker busy: neither can be
  | waiting =>
    have hmem := hs.placed.waiting (hv ▸ hstanding)
    rw [hrunning, hqueue] at hmem
    cases hmem
  | registered t | serving t =>
    have hmem := hs.placed.held (hv ▸ hstanding) rfl
    rw [hrunning] at hmem
    cases hmem

/-- In every run of a server the sessions are counted and never more than the workers; a session that ends
takes only its own connection off the table. Once the sessions were cut, all on the table and all
that hold a ticket are cut, nothing can be registered any more, and what waits then is closed with
nothing sent on it. When the workers are gone no session is left, nothing waits, and every
connection is closed, at the end of its session or without ever being greeted. -/
theorem shutdown_leaves_nothing_running {gateway : γ} {workers : Nat} (hworkers : 0 < workers)
    {events : List ServerEvent} {s : Server γ} (h : (start gateway workers).steps events = some s) :
    s.activeSessions = s.holders.length ∧ s.activeSessions ≤ workers ∧
      (∀ i t, s.step (.part i) = some t → s.table.links ~ i :: t.table.links ∧ i ∉ t.table.links) ∧
      (.disconnect ∈ events →
        (∀ i ∈ s.table.links, ∃ l, s.links[i]? = some l ∧ l.isCut = true) ∧
        (∀ i, s.table.register i = none) ∧
        (∀ (i : LinkId) (l : Link γ) ticket, s.links[i]? = some l → l.standing.ticket? = some ticket →
          l.isCut = true) ∧
        (∀ i t, s.step (.register i) = some t → t.standing? i = some .closed) ∧
        (∀ i later t, s.standing? i = some .waiting → s.steps later = some t →
          .greet i ∉ later ∧ ∃ l, t.links[i]? = some l ∧
            (l.standing = .waiting ∨ l.standing = .closed) ∧ l.outbox.sent = #[])) ∧
      (s.isStopped = true →
        s.activeSessions = 0 ∧ s.pool.queue = [] ∧
          ∀ i l, s.links[i]? = some l → l.standing = .closed ∧
            (.part i ∈ events ∨ (.greet i ∉ events ∧ l.outbox.sent = #[]))) := by
  have hs := sound_steps h
  have hactive := activeSessions_eq hs.ticketed
  have hle := length_holders_le hs.placed
  have hbound : s.activeSessions ≤ workers := by
    calc s.activeSessions = s.holders.length := hactive
      _ ≤ s.pool.running.length := hle
      _ ≤ s.pool.size := s.pool.length_running_le
      _ = workers := hs.size
  refine ⟨hactive, hbound, fun i t => links_of_part hs.ticketed, ?_, ?_⟩
  · intro hdisconnect
    have hclosed := hs.shut hdisconnect
    have hcut := hs.cutOff hclosed
    refine ⟨?_, fun i => by simp [SessionTable.register, hclosed], hcut,
      fun i t => closed_of_late hclosed, ?_⟩
    · intro i hi
      obtain ⟨ticket, hticket⟩ := Option.isSome_iff_exists.mp (hs.ticketed.mem_links_iff.mp hi)
      obtain ⟨v, hv, hvt⟩ := Option.bind_eq_some_iff.mp hticket
      obtain ⟨l, hl, rfl⟩ := Option.map_eq_some_iff.mp hv
      exact ⟨l, hl, hcut i l ticket hl hvt⟩
    · intro i later t hwaiting hlater
      obtain ⟨l, hl, hstanding⟩ := Option.map_eq_some_iff.mp hwaiting
      have hunserved := steps_keep unserved_step hlater (unserved_of_waiting hs hclosed hl hstanding)
      exact ⟨hunserved.never, hunserved.silent⟩
  · intro hstopped
    have hover : s.pool.isOver = true := (Bool.and_eq_true_iff.mp hstopped).2
    obtain ⟨hqueue, hall⟩ := closed_of_isOver hworkers hs hover
    rw [Pool.running_of_isOver hover, List.length_nil, Nat.le_zero] at hle
    refine ⟨hactive.trans hle, hqueue, fun i l hl => ⟨hall hl, ?_⟩⟩
    have htold := hs.told.known hl
    rwa [Account, hall hl] at htold

/-- One worker and two clients. The first is served when the server stops; the second is turned away. -/
theorem shutdown_leaves_nothing_running_two_clients :
    let files : LocalFiles := ⟨.empty, ⟨[Path.slash]⟩, []⟩
    let events : List ServerEvent := [.connect, .connect, .look 0, .register 0, .refuse, .greet 0, .disconnect,
      .stopPool, .read 0, .part 0, .finish 0, .look 0, .register 1, .finish 0, .look 0]
    ∃ s, 0 < 1 ∧ (start files 1).steps events = some s ∧ s.isStopped = true ∧ s.activeSessions = 0 ∧
      ∃ l, s.links[1]? = some l ∧ l.standing = .closed ∧ l.outbox.sent = #[] := by
  intro files events
  have hrun : ((start files 1).steps events).isSome = true := by decide
  obtain ⟨s, hs⟩ := Option.isSome_iff_exists.mp hrun
  have hstopped : s.isStopped = true := by
    have hall : ((start files 1).steps events).all isStopped = true := by decide
    rwa [hs] at hall
  obtain ⟨_, _, _, _, hend⟩ := shutdown_leaves_nothing_running Nat.one_pos hs
  obtain ⟨hactive, _, hlinks⟩ := hend hstopped
  obtain ⟨l, hl⟩ : ∃ l, s.links[1]? = some l := by
    have hlength : ((start files 1).steps events).all (fun s => s.links.length == 2) = true := by decide
    rw [hs, Option.all_some, beq_iff_eq] at hlength
    exact ⟨_, List.getElem?_eq_getElem (hlength ▸ Nat.one_lt_two)⟩
  obtain ⟨hclosed, hpart | ⟨_, hsent⟩⟩ := hlinks 1 l hl
  · simp [events] at hpart
  · exact ⟨s, Nat.one_pos, hs, hstopped, hactive, l, hl, hclosed, hsent⟩

end Server

end FileFerry
