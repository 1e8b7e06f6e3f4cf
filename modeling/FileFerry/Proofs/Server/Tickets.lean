import FileFerry.Proofs.Server.Moves
import Mathlib.Data.List.Nodup
import Mathlib.Data.List.Perm.Subperm
import Mathlib.Logic.Function.Basic

/-!
# Who waits, who is served, who holds a ticket

Every connection that waits is with the pool, and every one with a ticket is a worker's, so there are
never more tickets than workers. The table holds exactly the tickets that the connections hold.
-/

set_option autoImplicit false

namespace FileFerry

open scoped List

open Link (Standing)

/-- Where the connections stand that are with a pool. -/
structure Placed (standing? : LinkId → Option Standing) (p : Pool LinkId) : Prop where
  nodup : (p.running ++ p.queue).Nodup
  known : ∀ i ∈ p.running ++ p.queue, standing? i ≠ none
  queued : ∀ i ∈ p.queue, standing? i = some .waiting
  waiting : ∀ {i : LinkId}, standing? i = some .waiting → i ∈ p.running ++ p.queue
  held : ∀ {i : LinkId} {v : Standing} {t : Ticket}, standing? i = some v → v.ticket? = some t → i ∈ p.running

namespace Placed

variable {standing? : LinkId → Option Standing} {p q : Pool LinkId}

theorem of_perm (h : Placed standing? p) (hperm : q.running ++ q.queue ~ p.running ++ p.queue)
    (hqueue : ∀ i ∈ q.queue, i ∈ p.queue) (hrunning : ∀ i ∈ p.running, i ∈ q.running) :
    Placed standing? q where
  nodup := hperm.nodup_iff.mpr h.nodup
  known := fun i hi => h.known i (hperm.mem_iff.mp hi)
  queued := fun i hi => h.queued i (hqueue i hi)
  waiting := fun hi => hperm.mem_iff.mpr (h.waiting hi)
  held := fun hi ht => hrunning _ (h.held hi ht)

/-- A worker is done with a closed connection. -/
theorem finish (h : Placed standing? p) {i : LinkId} (hi : standing? i = some .closed)
    (hrunning : p.running ~ i :: q.running) (hqueue : q.queue = p.queue) : Placed standing? q := by
  have hall : p.running ++ p.queue ~ i :: (q.running ++ q.queue) := by
    rw [hqueue]
    exact hrunning.append_right _
  constructor
  · exact (List.nodup_cons.mp (hall.nodup_iff.mp h.nodup)).2
  · intro j hj
    exact h.known j (hall.mem_iff.mpr (List.mem_cons_of_mem i hj))
  · intro j hj
    exact h.queued j (hqueue ▸ hj)
  · intro j hj
    rcases List.mem_cons.mp (hall.mem_iff.mp (h.waiting hj)) with rfl | hmem
    · rw [hi] at hj
      cases hj
    · exact hmem
  · intro j v t hj ht
    rcases List.mem_cons.mp (hrunning.mem_iff.mp (h.held hj ht)) with rfl | hmem
    · rw [hi] at hj
      cases hj
      cases ht
    · exact hmem

theorem submit (h : Placed standing? p) {i : LinkId} (hi : standing? i = none)
    (hrunning : q.running = p.running) (hqueue : q.queue = p.queue ++ [i]) :
    Placed (Function.update standing? i (some .waiting)) q := by
  have hnew : ∀ j ∈ p.running ++ p.queue, j ≠ i := by
    intro j hj hji
    exact h.known j hj (hji ▸ hi)
  have hall : q.running ++ q.queue = p.running ++ p.queue ++ [i] := by
    rw [hrunning, hqueue, List.append_assoc]
  constructor
  · rw [hall]
    refine h.nodup.append (List.nodup_singleton i) ?_
    intro j hj hji
    exact hnew j hj (List.mem_singleton.mp hji)
  · intro j hj
    by_cases hji : j = i
    · simp [hji]
    · rw [Function.update_of_ne hji]
      rw [hall] at hj
      rcases List.mem_append.mp hj with hj | hj
      · exact h.known j hj
      · exact absurd (List.mem_singleton.mp hj) hji
  · intro j hj
    by_cases hji : j = i
    · simp [hji]
    · rw [Function.update_of_ne hji]
      rw [hqueue] at hj
      rcases List.mem_append.mp hj with hj | hj
      · exact h.queued j hj
      · exact absurd (List.mem_singleton.mp hj) hji
  · intro j hj
    rw [hall]
    by_cases hji : j = i
    · simp [hji]
    · rw [Function.update_of_ne hji] at hj
      exact List.mem_append_left _ (h.waiting hj)
  · intro j v t hj ht
    rw [hrunning]
    by_cases hji : j = i
    · rw [hji, Function.update_self] at hj
      cases hj
      cases ht
    · rw [Function.update_of_ne hji] at hj
      exact h.held hj ht

/-- A worker takes its connection from one stage to another. -/
theorem update (h : Placed standing? p) {i : LinkId} (hi : i ∈ p.running) (v : Standing) :
    Placed (Function.update standing? i (some v)) p := by
  have hqueue : ∀ j ∈ p.queue, j ≠ i := by
    intro j hj hji
    exact (List.nodup_append.mp h.nodup).2.2 i hi j hj hji.symm
  constructor
  · exact h.nodup
  · intro j hj
    by_cases hji : j = i
    · simp [hji]
    · rw [Function.update_of_ne hji]
      exact h.known j hj
  · intro j hj
    rw [Function.update_of_ne (hqueue j hj)]
    exact h.queued j hj
  · intro j hj
    by_cases hji : j = i
    · rw [hji]
      exact List.mem_append_left _ hi
    · rw [Function.update_of_ne hji] at hj
      exact h.waiting hj
  · intro j w t hj ht
    by_cases hji : j = i
    · rwa [hji]
    · rw [Function.update_of_ne hji] at hj
      exact h.held hj ht

end Placed

/-- The tickets of a table are those that the connections hold. -/
structure Ticketed (ticket? : LinkId → Option Ticket) (table : SessionTable) : Prop where
  keys : (table.tickets.map Prod.fst).Nodup
  given : ∀ entry ∈ table.tickets, entry.1 < table.next
  held : ∀ {t : Ticket} {i : LinkId}, (t, i) ∈ table.tickets ↔ ticket? i = some t

namespace Ticketed

variable {ticket? : LinkId → Option Ticket} {table : SessionTable}

theorem mem_links_iff (h : Ticketed ticket? table) {i : LinkId} :
    i ∈ table.links ↔ (ticket? i).isSome = true := by
  rw [Option.isSome_iff_exists, SessionTable.links, List.mem_map]
  constructor
  · rintro ⟨⟨t, j⟩, hmem, rfl⟩
    exact ⟨t, h.held.mp hmem⟩
  · rintro ⟨t, ht⟩
    exact ⟨(t, i), h.held.mpr ht, rfl⟩

theorem nodup_links (h : Ticketed ticket? table) : table.links.Nodup := by
  refine List.Nodup.map_on ?_ (List.Nodup.of_map _ h.keys)
  rintro ⟨t, i⟩ hi ⟨t', j⟩ hj hij
  obtain rfl : i = j := hij
  have ht := (h.held.mp hi).symm.trans (h.held.mp hj)
  rw [Option.some.inj ht]

theorem issue (h : Ticketed ticket? table) {i : LinkId} {t : Ticket} {table' : SessionTable}
    (hi : ticket? i = none) (htable : table.register i = some (t, table')) :
    Ticketed (Function.update ticket? i (some t)) table' := by
  unfold SessionTable.register at htable
  split at htable
  · cases htable
  · cases htable
    constructor
    · rw [List.map_append, List.map_singleton]
      refine h.keys.append (List.nodup_singleton _) ?_
      intro u hu hnext
      obtain ⟨entry, hentry, rfl⟩ := List.mem_map.mp hu
      exact absurd (List.mem_singleton.mp hnext) (Nat.ne_of_lt (h.given entry hentry))
    · intro entry hentry
      rcases List.mem_append.mp hentry with hentry | hentry
      · exact Nat.lt_succ_of_lt (h.given entry hentry)
      · rw [List.mem_singleton.mp hentry]
        exact Nat.lt_succ_self _
    · intro u j
      rw [List.mem_append, List.mem_singleton, h.held]
      by_cases hji : j = i
      · rw [hji, hi, Function.update_self]
        simp [eq_comm]
      · simp [hji]

theorem giveBack (h : Ticketed ticket? table) {i : LinkId} {t : Ticket} (hi : ticket? i = some t) :
    Ticketed (Function.update ticket? i none) (table.giveBack t) := by
  constructor
  · exact h.keys.sublist (List.filter_sublist.map _)
  · intro entry hentry
    exact h.given entry (List.mem_of_mem_filter hentry)
  · intro u j
    rw [SessionTable.giveBack, List.mem_filter, h.held]
    by_cases hji : j = i
    · rw [hji, hi, Function.update_self]
      constructor
      · rintro ⟨hu, hne⟩
        exact absurd (Option.some.inj hu).symm (of_decide_eq_true hne)
      · intro hnone
        cases hnone
    · rw [Function.update_of_ne hji]
      refine ⟨And.left, fun hu => ⟨hu, ?_⟩⟩
      -- a ticket names one connection only
      rw [decide_eq_true_iff]
      rintro rfl
      have hpair := List.inj_on_of_nodup_map h.keys (h.held.mpr hu) (h.held.mpr hi) rfl
      exact hji (Prod.mk.inj hpair).2

/-- A ticket that is given back takes its own connection off the table, and no other. -/
theorem links_giveBack (h : Ticketed ticket? table) {i : LinkId} {t : Ticket} (hi : ticket? i = some t) :
    table.links ~ i :: (table.giveBack t).links := by
  have hafter := h.giveBack hi
  have hout : i ∉ (table.giveBack t).links := by simp [hafter.mem_links_iff]
  rw [List.perm_ext_iff_of_nodup h.nodup_links (List.nodup_cons.mpr ⟨hout, hafter.nodup_links⟩)]
  intro j
  rw [List.mem_cons, h.mem_links_iff, hafter.mem_links_iff]
  by_cases hji : j = i
  · simp [hji, hi]
  · simp [hji]

end Ticketed

variable {γ : Type} [Gateway γ]

namespace Server

def standing? (s : Server γ) (i : LinkId) : Option Standing := (s.links[i]?).map Link.standing

def ticket? (s : Server γ) (i : LinkId) : Option Ticket := (s.standing? i).bind Standing.ticket?

/-- The connections whose sessions hold a ticket. -/
def holders (s : Server γ) : List LinkId :=
  (List.range s.links.length).filter fun i => (s.ticket? i).isSome

theorem standing?_of_keepsLinks {s t : Server γ} (h : s.KeepsLinks t) : t.standing? = s.standing? := by
  funext i
  unfold standing?
  cases hl : s.links[i]? with
  | none =>
    have hm : t.links[i]? = none := by
      rw [List.getElem?_eq_none_iff] at hl ⊢
      rw [h.length]
      exact hl
    rw [hm]
  | some l =>
    obtain ⟨m, hm⟩ : ∃ m, t.links[i]? = some m := by
      obtain ⟨hi, _⟩ := List.getElem?_eq_some_iff.mp hl
      exact ⟨_, List.getElem?_eq_getElem (h.length ▸ hi)⟩
    rw [hm, Option.map_some, Option.map_some, (h.keeps hl hm).standing]

theorem standing?_setLink {s t : Server γ} {i : LinkId} {l : Link γ} (ht : t.links = s.links)
    (hl : s.links[i]? = some l) (m : Link γ) :
    (t.setLink i m).standing? = Function.update s.standing? i (some m.standing) := by
  funext j
  obtain ⟨hi, _⟩ := List.getElem?_eq_some_iff.mp hl
  simp only [standing?, setLink, ht, List.getElem?_set, Function.update_apply]
  by_cases hij : i = j
  · subst hij
    simp [hi]
  · simp [hij, Ne.symm hij]

theorem standing?_append {s t : Server γ} {m : Link γ} (ht : t.links = s.links ++ [m]) :
    t.standing? = Function.update s.standing? s.links.length (some m.standing) := by
  funext j
  simp only [standing?, ht, Function.update_apply]
  by_cases hj : j = s.links.length
  · simp [hj]
  · rw [if_neg hj]
    rcases Nat.lt_or_gt_of_ne hj with hlt | hgt
    · rw [List.getElem?_append_left hlt]
    · rw [List.getElem?_eq_none (by simp; omega), List.getElem?_eq_none (by omega)]

theorem standing?_length (s : Server γ) : s.standing? s.links.length = none := by simp [standing?]

theorem standing?_of_stage {s : Server γ} {i : LinkId} {l : Link γ} {v : Standing}
    (hl : s.links[i]? = some l) (hv : l.standing = v) : s.standing? i = some v := by
  rw [standing?, hl, Option.map_some, hv]

theorem ticket?_of_stage {s : Server γ} {i : LinkId} {l : Link γ} {v : Standing}
    (hl : s.links[i]? = some l) (hv : l.standing = v) : s.ticket? i = v.ticket? := by
  rw [ticket?, standing?_of_stage hl hv, Option.bind_some]

theorem ticket?_length (s : Server γ) : s.ticket? s.links.length = none := by
  rw [ticket?, standing?_length, Option.bind_none]

/-- Only a connection that changes its stage comes to a ticket or loses one. -/
theorem ticket?_of_standing? {s t : Server γ} {i : LinkId} {v : Standing}
    (h : t.standing? = Function.update s.standing? i (some v)) :
    t.ticket? = Function.update s.ticket? i v.ticket? := by
  funext j
  by_cases hji : j = i
  · simp [ticket?, h, hji]
  · simp [ticket?, h, hji]

theorem ticket?_of_same {s t : Server γ} {i : LinkId} {v : Standing}
    (h : t.standing? = Function.update s.standing? i (some v)) (hv : s.ticket? i = v.ticket?) :
    t.ticket? = s.ticket? := by
  rw [ticket?_of_standing? h, ← hv, Function.update_eq_self]

/-! ## One step -/

theorem pool_step {s t : Server γ} {e : ServerEvent} (h : Moves s e t) :
    t.pool = s.pool ∨ ∃ p, s.pool.step p = some t.pool := by
  cases h with
  | within _ _ hpool => exact .inl hpool
  | pools _ hpool => exact .inr ⟨_, hpool⟩
  | @finishes worker i l hw => exact .inr ⟨.finish worker .returned, by simp only [Pool.step, hw]⟩
  | connects _ hpool =>
    exact .inr ⟨.submit s.links.length, by simp only [Pool.step, hpool, Option.getD_some]⟩
  | stopsPool => exact .inr ⟨.stop, rfl⟩
  | _ => exact .inl rfl

theorem placed_step {s t : Server γ} {e : ServerEvent} (h : Moves s e t) (hphased : s.Phased)
    (hs : Placed s.standing? s.pool) : Placed t.standing? t.pool := by
  cases h with
  | within _ hlinks hpool =>
    rw [standing?_of_keepsLinks hlinks, hpool]
    exact hs
  | @pools e p pool he hpool =>
    -- a task that is taken goes from the queue to the running ones, and no other comes or goes
    obtain ⟨haccepts, hends, _⟩ := ServerEvent.quiet_of_pool? he s.pool
    have hqueue := Pool.queue_step (Pool.moves_of_step hpool)
    have hrunning := Pool.running_step (Pool.moves_of_step hpool)
    rw [haccepts, List.append_nil] at hqueue
    rw [hends, List.nil_append] at hrunning
    refine hs.of_perm ?_ ?_ ?_
    · rw [hqueue, ← List.append_assoc]
      exact hrunning.symm.append_right _
    · intro i hi
      rw [hqueue]
      exact List.mem_append_right _ hi
    · intro i hi
      exact hrunning.mem_iff.mp (List.mem_append_left _ hi)
  | finishes hw hl hclosed =>
    refine hs.finish (standing?_of_stage hl hclosed) ?_ rfl
    have hperm := Pool.perm_running_setWorker hw .awake
    simp only [Worker.task?, Option.toList_none, List.append_nil] at hperm
    exact hperm
  | connects hphase hpool =>
    rw [standing?_append (s := s) rfl]
    unfold Pool.submit at hpool
    split at hpool
    · cases hpool
    · cases hpool
      exact hs.submit s.standing?_length rfl rfl
  | connectsInVain hphase hstop => exact absurd hstop (hphased.open_of_accepting hphase)
  | @registers i l outbox ticket table hi hl =>
    rw [standing?_setLink (s := s) (t := { s with table }) rfl hl]
    exact hs.update hi _
  | turnsAway hi hl =>
    rw [standing?_setLink rfl hl]
    exact hs.update hi _
  | @greets i l ticket outbox hl hstage =>
    have hregistered := Link.standing_of_stage hstage
    rw [greet, standing?_setLink rfl hl]
    exact hs.update (hs.held (standing?_of_stage hl hregistered) rfl) _
  | @parts i l ticket session hl hstage =>
    have hserving := Link.standing_of_stage hstage
    rw [standing?_setLink (s := s) (t := { s with table := s.table.giveBack ticket }) rfl hl]
    exact hs.update (hs.held (standing?_of_stage hl hserving) rfl) _
  | refuses => exact hs
  | disconnects =>
    rw [standing?_of_keepsLinks s.keepsLinks_disconnect]
    exact hs
  | stopsPool => exact ⟨hs.nodup, hs.known, hs.queued, hs.waiting, hs.held⟩

theorem ticketed_step {s t : Server γ} {e : ServerEvent} (h : Moves s e t) (hphased : s.Phased)
    (hs : Ticketed s.ticket? s.table) : Ticketed t.ticket? t.table := by
  have hkeep : ∀ {t : Server γ}, s.KeepsLinks t → t.ticket? = s.ticket? := by
    intro t hlinks
    funext i
    rw [ticket?, ticket?, standing?_of_keepsLinks hlinks]
  cases h with
  | within _ hlinks _ htable =>
    rw [hkeep hlinks, htable]
    exact hs
  | pools | finishes | refuses | stopsPool => exact hs
  | @connects pool =>
    have hafter := standing?_append (s := s) (t := { s with pool, links := s.links ++ [.fresh] }) rfl
    rw [ticket?_of_same hafter s.ticket?_length]
    exact hs
  | connectsInVain hphase hstop => exact absurd hstop (hphased.open_of_accepting hphase)
  | @registers i l outbox ticket table hi hl hstage htable =>
    have hwaiting := Link.standing_of_stage hstage
    rw [ticket?_of_standing? (standing?_setLink (s := s) (t := { s with table }) rfl hl _)]
    exact hs.issue (ticket?_of_stage hl hwaiting) htable
  | @turnsAway i l outbox hi hl hstage =>
    have hnone := ticket?_of_stage hl (Link.standing_of_stage hstage)
    have hafter := standing?_setLink (s := s) rfl hl { l with stage := .closed outbox }
    rw [ticket?_of_same hafter hnone]
    exact hs
  | @greets i l ticket outbox hl hstage =>
    have hticket := ticket?_of_stage hl (Link.standing_of_stage hstage)
    have hafter := standing?_setLink (s := s) rfl hl
      { l with stage := .serving ticket (Session.start s.gateway s.registry outbox) }
    rw [greet, ticket?_of_same hafter hticket]
    exact hs
  | @parts i l ticket session hl hstage =>
    have hserving := Link.standing_of_stage hstage
    rw [ticket?_of_standing?
      (standing?_setLink (s := s) (t := { s with table := s.table.giveBack ticket }) rfl hl _)]
    exact hs.giveBack (ticket?_of_stage hl hserving)
  | disconnects =>
    rw [hkeep s.keepsLinks_disconnect]
    exact ⟨hs.keys, hs.given, hs.held⟩

/-! ## Counting -/

theorem mem_holders_iff {s : Server γ} {i : LinkId} : i ∈ s.holders ↔ (s.ticket? i).isSome = true := by
  rw [holders, List.mem_filter, List.mem_range]
  refine ⟨And.right, fun h => ⟨?_, h⟩⟩
  apply Nat.lt_of_not_le
  intro hle
  rw [ticket?, standing?, List.getElem?_eq_none hle] at h
  cases h

theorem nodup_holders (s : Server γ) : s.holders.Nodup := List.nodup_range.filter _

theorem perm_holders {s : Server γ} (hs : Ticketed s.ticket? s.table) : s.table.links ~ s.holders := by
  rw [List.perm_ext_iff_of_nodup hs.nodup_links s.nodup_holders]
  intro i
  rw [hs.mem_links_iff, mem_holders_iff]

theorem activeSessions_eq {s : Server γ} (hs : Ticketed s.ticket? s.table) :
    s.activeSessions = s.holders.length := by
  have hlength := (perm_holders hs).length_eq
  rwa [SessionTable.links, List.length_map] at hlength

/-- Each ticket is held by a connection that has a worker to itself. -/
theorem length_holders_le {s : Server γ} (hs : Placed s.standing? s.pool) :
    s.holders.length ≤ s.pool.running.length := by
  refine (s.nodup_holders.subperm fun i hi => ?_).length_le
  obtain ⟨t, ht⟩ := Option.isSome_iff_exists.mp (mem_holders_iff.mp hi)
  obtain ⟨v, hv, hvt⟩ := Option.bind_eq_some_iff.mp ht
  exact hs.held hv hvt

end Server

end FileFerry
