import FileFerry.Proofs.Server.Tickets

/-!
# What becomes of a connection

With the table closed, every connection with a ticket is cut (`CutOff`), and one that still waits is never
served (`Unserved`). What a closed connection went through can be read off the events
(`Account`): its session came to its end, or it was never greeted and nothing was sent on it.
-/

set_option autoImplicit false

namespace FileFerry

open Link (Standing)

variable {γ : Type} [Gateway γ]

namespace Server

theorem KeepsLinks.before {s t : Server γ} (h : s.KeepsLinks t) {i : LinkId} {m : Link γ}
    (hm : t.links[i]? = some m) : ∃ l, s.links[i]? = some l ∧ l.Keeps m := by
  obtain ⟨hi, _⟩ := List.getElem?_eq_some_iff.mp hm
  have hl := List.getElem?_eq_getElem (h.length ▸ hi)
  exact ⟨_, hl, h.keeps hl hm⟩

theorem eq_or_of_setLink {s t : Server γ} {i j : LinkId} {m m' : Link γ} (ht : t.links = s.links)
    (hm : (t.setLink i m).links[j]? = some m') :
    (j = i ∧ m' = m) ∨ (j ≠ i ∧ s.links[j]? = some m') := by
  simp only [setLink, ht, List.getElem?_set] at hm
  by_cases hij : i = j
  · rw [if_pos hij] at hm
    split at hm
    · exact .inl ⟨hij.symm, (Option.some.inj hm).symm⟩
    · cases hm
  · rw [if_neg hij] at hm
    exact .inr ⟨Ne.symm hij, hm⟩

theorem eq_or_of_append {links : List (Link γ)} {j : LinkId} {m m' : Link γ}
    (hm : (links ++ [m])[j]? = some m') : (j = links.length ∧ m' = m) ∨ links[j]? = some m' := by
  rcases Nat.lt_trichotomy j links.length with hlt | rfl | hgt
  · rw [List.getElem?_append_left hlt] at hm
    exact .inr hm
  · rw [List.getElem?_concat_length] at hm
    exact .inl ⟨rfl, (Option.some.inj hm).symm⟩
  · rw [List.getElem?_eq_none (by rw [List.length_append, List.length_singleton]; omega)] at hm
    cases hm

theorem closed_of_register {table table' : SessionTable} {i : LinkId} {t : Ticket}
    (h : table.register i = some (t, table')) : table.closed = false ∧ table'.closed = false := by
  unfold SessionTable.register at h
  split at h
  · cases h
  · rename_i hopen
    rw [Bool.not_eq_true] at hopen
    cases h
    exact ⟨hopen, hopen⟩

/-- A closed table stays closed. -/
theorem closed_step {s t : Server γ} {e : ServerEvent} (h : Moves s e t) (hs : s.table.closed = true) :
    t.table.closed = true := by
  cases h with
  | within _ _ _ htable => rwa [htable]
  | registers _ _ _ htable =>
    rw [(closed_of_register htable).1] at hs
    cases hs
  | disconnects => rfl
  | _ => exact hs

/-! ## Every session is cut -/

/-- With the table closed, every connection with a ticket is cut. -/
def CutOff (s : Server γ) : Prop :=
  s.table.closed = true → ∀ (i : LinkId) (l : Link γ) (ticket : Ticket), s.links[i]? = some l →
    l.standing.ticket? = some ticket → l.isCut = true

theorem cutOff_step {s t : Server γ} {e : ServerEvent} (h : Moves s e t) (hphased : s.Phased)
    (hticketed : Ticketed s.ticket? s.table) (hs : s.CutOff) : t.CutOff := by
  intro hclosed j m u hm hu
  cases h with
  | within _ hlinks _ htable =>
    obtain ⟨l, hl, hkeeps⟩ := hlinks.before hm
    rw [hkeeps.standing] at hu
    exact hkeeps.cut (hs (htable ▸ hclosed) _ _ _ hl hu)
  | pools | finishes | refuses | stopsPool => exact hs hclosed _ _ _ hm hu
  | connects =>
    rcases eq_or_of_append hm with ⟨_, rfl⟩ | hm
    · cases hu
    · exact hs hclosed _ _ _ hm hu
  | connectsInVain hphase hstop => exact absurd hstop (hphased.open_of_accepting hphase)
  | registers _ _ _ htable =>
    have hopen := (closed_of_register htable).2
    exact absurd hclosed (by simp [setLink, hopen])
  | turnsAway _ hl =>
    rcases eq_or_of_setLink rfl hm with ⟨_, rfl⟩ | ⟨_, hm⟩
    · cases hu
    · exact hs hclosed _ _ _ hm hu
  | @greets i l ticket outbox hl hstage =>
    rcases eq_or_of_setLink rfl hm with ⟨_, rfl⟩ | ⟨_, hm⟩
    · -- it was cut between its ticket and its greeting, which then fails to be sent
      have hcut := hs hclosed _ _ ticket hl (by rw [Link.standing_of_stage hstage]; rfl)
      simp only [Link.isCut, Link.outbox, hstage] at hcut
      simpa [Link.isCut, Link.outbox, Session.start] using hcut
    · exact hs hclosed _ _ _ hm hu
  | @parts i l ticket session =>
    rcases eq_or_of_setLink (s := s) rfl hm with ⟨_, rfl⟩ | ⟨_, hm⟩
    · cases hu
    · exact hs hclosed _ _ _ hm hu
  | disconnects =>
    simp only [disconnect, List.getElem?_mapIdx, Option.map_eq_some_iff] at hm
    obtain ⟨l, hl, rfl⟩ := hm
    split at hu
    · rename_i hmem
      rw [if_pos hmem]
      exact l.isCut_cut
    · -- the table names every connection with a ticket, so this one has none
      rename_i hmem
      have hticket := ticket?_of_stage hl rfl
      rw [hticketed.mem_links_iff, hticket, hu] at hmem
      exact absurd rfl hmem

/-! ## What became of a connection -/

/-- What the events until now say of a connection: it was served to its end only if it was greeted, and
before that nothing was sent on it. -/
def Account (past : List ServerEvent) (i : LinkId) (l : Link γ) : Prop :=
  match l.standing with
  | .waiting | .registered _ => .greet i ∉ past ∧ l.outbox.sent = #[]
  | .serving _ => True
  | .closed => .part i ∈ past ∨ (.greet i ∉ past ∧ l.outbox.sent = #[])

structure Told (past : List ServerEvent) (s : Server γ) : Prop where
  unknown : ∀ {i : LinkId}, s.links.length ≤ i → .greet i ∉ past
  known : ∀ {i : LinkId} {l : Link γ}, s.links[i]? = some l → Account past i l

variable {past : List ServerEvent} {e : ServerEvent} {i : LinkId}

theorem greet_not_mem_concat (h : .greet i ∉ past) (he : e ≠ .greet i) : .greet i ∉ past ++ [e] := by
  intro hmem
  rcases List.mem_append.mp hmem with hmem | hmem
  · exact h hmem
  · exact he (List.mem_singleton.mp hmem).symm

/-- The account of a connection changes only with its stage. -/
theorem Account.concat {l m : Link γ} (h : Account past i l) (he : e ≠ .greet i) (hkeeps : l.Keeps m) :
    Account (past ++ [e]) i m := by
  have hsent := hkeeps.sent
  unfold Account at h ⊢
  rw [hkeeps.standing]
  cases hl : l.standing with
  | waiting | registered =>
    rw [hl] at h hsent
    rw [hsent (by simp)]
    exact ⟨greet_not_mem_concat h.1 he, h.2⟩
  | serving => trivial
  | closed =>
    rw [hl] at h hsent
    rw [hsent (by simp)]
    exact h.imp (List.mem_append_left _) fun h => ⟨greet_not_mem_concat h.1 he, h.2⟩

theorem Told.keep {s t : Server γ} (h : s.Told past) (he : ∀ j, e ≠ .greet j) (hlinks : s.KeepsLinks t) :
    t.Told (past ++ [e]) := by
  refine ⟨fun hj => ?_, fun hm => ?_⟩
  · exact greet_not_mem_concat (h.unknown (hlinks.length ▸ hj)) (he _)
  · obtain ⟨l, hl, hkeeps⟩ := hlinks.before hm
    exact (h.known hl).concat (he _) hkeeps

/-- One connection comes to another stage, and the account of no other changes. -/
theorem Told.setLink {s t : Server γ} {l m : Link γ} (h : s.Told past) (ht : t.links = s.links)
    (hl : s.links[i]? = some l) (he : ∀ j, j ≠ i → e ≠ .greet j) (hm : Account (past ++ [e]) i m) :
    (t.setLink i m).Told (past ++ [e]) := by
  obtain ⟨hi, _⟩ := List.getElem?_eq_some_iff.mp hl
  refine ⟨fun {j} hj => ?_, fun {j m'} hm' => ?_⟩
  · simp only [Server.setLink, ht, List.length_set] at hj
    exact greet_not_mem_concat (h.unknown hj) (he j (Nat.ne_of_gt (Nat.lt_of_lt_of_le hi hj)))
  · rcases eq_or_of_setLink ht hm' with ⟨rfl, rfl⟩ | ⟨hji, hm'⟩
    · exact hm
    · exact (h.known hm').concat (he j hji) (.refl m')

theorem Told.connect {s t : Server γ} (h : s.Told past) (ht : t.links = s.links ++ [.fresh])
    (he : ∀ j, e ≠ .greet j) : t.Told (past ++ [e]) := by
  have hlength : t.links.length = s.links.length + 1 := by rw [ht, List.length_append, List.length_singleton]
  refine ⟨fun hj => ?_, fun hm => ?_⟩
  · exact greet_not_mem_concat (h.unknown (by omega)) (he _)
  · rw [ht] at hm
    rcases eq_or_of_append hm with ⟨rfl, rfl⟩ | hm
    · exact ⟨greet_not_mem_concat (h.unknown (Nat.le_refl _)) (he _), rfl⟩
    · exact (h.known hm).concat (he _) (.refl _)

theorem told_step {s t : Server γ} (h : Moves s e t) (hphased : s.Phased) (hs : s.Told past) :
    t.Told (past ++ [e]) := by
  cases h with
  | within he hlinks => exact hs.keep (ServerEvent.ne_greet_of_isWithin he) hlinks
  | pools he => exact hs.keep (ServerEvent.ne_greet_of_pool? he) (keepsLinks_of_eq rfl)
  | finishes | refuses | stopsPool => exact hs.keep (by simp) (keepsLinks_of_eq rfl)
  | disconnects => exact hs.keep (by simp) s.keepsLinks_disconnect
  | connects => exact hs.connect rfl (by simp)
  | connectsInVain hphase hstop => exact absurd hstop (hphased.open_of_accepting hphase)
  | @registers i l outbox ticket table _ hl hstage =>
    have hknown := hs.known hl
    simp only [Account, Link.standing_of_stage hstage, Standing.ofStage, Link.outbox, hstage] at hknown
    refine hs.setLink (t := { s with table }) rfl hl (by simp) ?_
    exact ⟨greet_not_mem_concat hknown.1 (by simp), hknown.2⟩
  | @turnsAway i l outbox _ hl hstage =>
    have hknown := hs.known hl
    simp only [Account, Link.standing_of_stage hstage, Standing.ofStage, Link.outbox, hstage] at hknown
    refine hs.setLink rfl hl (by simp) (.inr ?_)
    exact ⟨greet_not_mem_concat hknown.1 (by simp), hknown.2⟩
  | greets hl => exact hs.setLink rfl hl (by simp [eq_comm]) trivial
  | @parts i l ticket session hl =>
    refine hs.setLink (t := { s with table := s.table.giveBack ticket }) rfl hl (by simp) (.inl ?_)
    exact List.mem_append_right _ List.mem_cons_self

/-! ## Too late to be served -/

/-- A connection that no session will begin on, with what happened since that is so. -/
structure Unserved (i : LinkId) (past : List ServerEvent) (s : Server γ) : Prop where
  closed : s.table.closed = true
  never : .greet i ∉ past
  silent : ∃ l, s.links[i]? = some l ∧ (l.standing = .waiting ∨ l.standing = .closed) ∧
    l.outbox.sent = #[]

theorem Unserved.keep {s t : Server γ} (h : s.Unserved i past) (he : e ≠ .greet i)
    (hclosed : t.table.closed = true) (hlinks : s.KeepsLinks t) : t.Unserved i (past ++ [e]) := by
  obtain ⟨l, hl, hstanding, hsent⟩ := h.silent
  obtain ⟨hi, _⟩ := List.getElem?_eq_some_iff.mp hl
  have hm := List.getElem?_eq_getElem (hlinks.length.symm ▸ hi)
  have hkeeps := hlinks.keeps hl hm
  refine ⟨hclosed, greet_not_mem_concat h.never he, _, hm, hkeeps.standing.symm ▸ hstanding, ?_⟩
  rw [hkeeps.sent, hsent]
  rintro ticket hserving
  rw [hserving] at hstanding
  simp at hstanding

/-- Whatever happened, it did not happen to this connection. -/
theorem Unserved.same {s t : Server γ} (h : s.Unserved i past) (he : e ≠ .greet i)
    (hclosed : t.table.closed = true)
    (hsame : ∀ {l : Link γ}, s.links[i]? = some l → t.links[i]? = some l) :
    t.Unserved i (past ++ [e]) := by
  obtain ⟨l, hl, hsilent⟩ := h.silent
  exact ⟨hclosed, greet_not_mem_concat h.never he, l, hsame hl, hsilent⟩

theorem getElem?_append_of_some {links : List (Link γ)} {l : Link γ} (h : links[i]? = some l) (m : Link γ) :
    (links ++ [m])[i]? = some l := by
  obtain ⟨hi, _⟩ := List.getElem?_eq_some_iff.mp h
  rw [List.getElem?_append_left hi, h]

theorem getElem?_setLink_of_ne {s : Server γ} {j : LinkId} (hji : j ≠ i) (m : Link γ) {l : Link γ}
    (h : s.links[i]? = some l) : (s.setLink j m).links[i]? = some l := by
  rw [setLink, List.getElem?_set_ne hji, h]

/-- A connection that is at another stage than these is another connection. -/
theorem Unserved.ne_of_stage {s : Server γ} (h : s.Unserved i past) {j : LinkId} {l : Link γ}
    {stage : LinkStage γ} (hl : s.links[j]? = some l) (hstage : l.stage = stage)
    (hother : Standing.ofStage stage ≠ .waiting ∧ Standing.ofStage stage ≠ .closed) : j ≠ i := by
  rintro rfl
  obtain ⟨l', hl', hstanding, _⟩ := h.silent
  rw [hl] at hl'
  obtain rfl := Option.some.inj hl'
  rw [Link.standing_of_stage hstage] at hstanding
  exact hstanding.elim hother.1 hother.2

theorem unserved_step {s t : Server γ} (h : Moves s e t) (hs : s.Unserved i past) :
    t.Unserved i (past ++ [e]) := by
  have hclosed := closed_step h hs.closed
  cases h with
  | within he hlinks => exact hs.keep (ServerEvent.ne_greet_of_isWithin he i) hclosed hlinks
  | pools he => exact hs.keep (ServerEvent.ne_greet_of_pool? he i) hclosed (keepsLinks_of_eq rfl)
  | finishes | refuses | stopsPool => exact hs.keep (by simp) hclosed (keepsLinks_of_eq rfl)
  | disconnects => exact hs.keep (by simp) hclosed s.keepsLinks_disconnect
  | connects | connectsInVain =>
    exact hs.same (by simp) hclosed fun hl => getElem?_append_of_some hl _
  | registers _ _ _ htable =>
    have hopen := (closed_of_register htable).1
    rw [hs.closed] at hopen
    cases hopen
  | @turnsAway j l outbox _ hl hstage =>
    by_cases hji : j = i
    · subst hji
      obtain ⟨l', hl', _, hsent⟩ := hs.silent
      rw [hl] at hl'
      obtain rfl := Option.some.inj hl'
      obtain ⟨hi, _⟩ := List.getElem?_eq_some_iff.mp hl
      refine ⟨hclosed, greet_not_mem_concat hs.never (by simp), { l with stage := .closed outbox },
        List.getElem?_set_self hi, .inr rfl, ?_⟩
      simpa only [Link.outbox, hstage] using hsent
    · exact hs.same (by simp) hclosed (getElem?_setLink_of_ne hji _)
  | greets hl hstage =>
    have hji := hs.ne_of_stage hl hstage (by simp [Standing.ofStage])
    exact hs.same (by simp [hji]) hclosed (getElem?_setLink_of_ne hji _)
  | @parts j l ticket session hl hstage =>
    have hji := hs.ne_of_stage hl hstage (by simp [Standing.ofStage])
    exact hs.same (by simp) hclosed
      (getElem?_setLink_of_ne (s := { s with table := s.table.giveBack ticket }) hji _)

end Server

end FileFerry
