import FileFerry.Proofs.Registry.History

/-!
# The table of a registry, from its history

On the table are the commands whose guards were put there, not dropped and not cancelled; a flag is
down once a cancellation of its command succeeded. Both hold however the acts of the threads
interleave, as long as the numbers do not run out (`table_follows_history`).
-/

set_option autoImplicit false

namespace FileFerry

namespace Registry

theorem mem_without {id : CommandId} {entries : List (CommandId × Flag)} {entry : CommandId × Flag} :
    entry ∈ without id entries ↔ entry ∈ entries ∧ entry.1 ≠ id := by
  simp [without]

theorem keys_without_nodup {entries : List (CommandId × Flag)} (h : (entries.map Prod.fst).Nodup)
    (id : CommandId) : ((without id entries).map Prod.fst).Nodup :=
  (List.Sublist.map Prod.fst List.filter_sublist).nodup h

theorem lookup_eq_some_iff {entries : List (CommandId × Flag)} (h : (entries.map Prod.fst).Nodup)
    {id : CommandId} {flag : Flag} : entries.lookup id = some flag ↔ (id, flag) ∈ entries := by
  induction entries with
  | nil => simp
  | cons entry entries ih =>
    obtain ⟨key, value⟩ := entry
    obtain ⟨hkey, hrest⟩ := List.nodup_cons.mp h
    rw [List.lookup_cons, List.mem_cons, Prod.mk.injEq]
    by_cases hid : id = key
    · subst hid
      have hout : (id, flag) ∉ entries := by
        intro hmem
        apply hkey
        exact List.mem_map.mpr ⟨_, hmem, rfl⟩
      simp [hout, eq_comm]
    · have hbeq : (id == key) = false := beq_eq_false_iff_ne.mpr hid
      simp [hbeq, hid, ih hrest]

theorem lookup_without (id id' : CommandId) (entries : List (CommandId × Flag)) :
    (without id entries).lookup id' = if id' = id then none else entries.lookup id' := by
  induction entries with
  | nil => simp [without]
  | cons entry entries ih =>
    obtain ⟨key, value⟩ := entry
    have hcons : without id ((key, value) :: entries) =
        if key = id then without id entries else (key, value) :: without id entries := by
      by_cases hkey : key = id <;> simp [without, hkey]
    rw [hcons, List.lookup_cons]
    by_cases hkey : key = id
    · rw [if_pos hkey, ih]
      by_cases hid : id' = id
      · rw [if_pos hid, if_pos hid]
      · have hbeq : (id' == key) = false := beq_eq_false_iff_ne.mpr fun heq => hid (heq.trans hkey)
        simp only [hid, hbeq, if_false]
    · rw [if_neg hkey, List.lookup_cons, ih]
      by_cases hid : id' = id
      · have hbeq : (id' == key) = false := beq_eq_false_iff_ne.mpr fun heq => hkey (heq ▸ hid)
        simp only [hbeq, if_pos hid]
      · simp only [hid, if_false]

theorem without_eq_self {id : CommandId} {entries : List (CommandId × Flag)}
    (h : entries.lookup id = none) : without id entries = entries := by
  apply List.filter_eq_self.mpr
  intro entry hentry
  have hne : id ≠ entry.1 := by simpa using List.lookup_eq_none_iff.mp h entry hentry
  simpa using hne.symm

/-- The table has the live commands, each with its guard's flag, and a flag is down once its command
was cancelled. -/
structure Tabled (acts : List Act) (u : Shared) : Prop where
  keys_nodup : (u.registry.entries.map Prod.fst).Nodup
  entries : ∀ g : Guard, (g.id, g.flag) ∈ u.registry.entries ↔ Live acts g
  flag : ∀ g ∈ inserted acts, u.registry.flags[g.flag]? = some false ↔ Act.cancel g.id true ∈ acts
  cancelled : ∀ id, Act.cancel id true ∈ acts → id ∈ (inserted acts).map Guard.id
  once : ∀ id, acts.count (.cancel id true) ≤ 1

namespace Tabled

variable {acts : List Act} {u v : Shared}

theorem flag?_eq_some_iff (h : Tabled acts u) {id : CommandId} {flag : Flag} :
    u.registry.flag? id = some flag ↔ Live acts ⟨id, flag⟩ :=
  (lookup_eq_some_iff h.keys_nodup).trans (h.entries ⟨id, flag⟩)

theorem insert (h : Tabled acts u) (hnum : Numbered acts u) (hguard : Guarded acts u) {id : CommandId}
    (hid : id ∈ u.taken) :
    Tabled (acts ++ [.insert (u.registry.insert id).1])
      ⟨(u.registry.insert id).2, u.taken.erase id, (u.registry.insert id).1 :: u.guards⟩ := by
  have hfresh := (hnum.taken id hid).2
  have hnew := hguard.new_not_mem id
  have hgid : (u.registry.insert id).1.id = id := rfl
  have hentries : (u.registry.insert id).2.entries =
      (id, (u.registry.insert id).1.flag) :: without id u.registry.entries := rfl
  have hflags : (u.registry.insert id).2.flags = u.registry.flags ++ [true] := rfl
  have hlength : (u.registry.insert id).1.flag = u.registry.flags.length := rfl
  generalize (u.registry.insert id).1 = g at *
  have hins : inserted (acts ++ [.insert g]) = inserted acts ++ [g] := inserted_append ..
  have hdrop : ∀ g', Act.drop g' ∈ acts ++ [.insert g] ↔ Act.drop g' ∈ acts :=
    fun g' => mem_append_of_ne (by simp)
  have hcancel : ∀ id, Act.cancel id true ∈ acts ++ [.insert g] ↔ Act.cancel id true ∈ acts :=
    fun id => mem_append_of_ne (by simp)
  have hquiet : Act.cancel g.id true ∉ acts := fun hmem => hfresh (hgid ▸ h.cancelled _ hmem)
  constructor
  · rw [hentries, List.map_cons, List.nodup_cons]
    refine ⟨?_, keys_without_nodup h.keys_nodup id⟩
    intro hmem
    obtain ⟨entry, hentry, hkey⟩ := List.mem_map.mp hmem
    exact (mem_without.mp hentry).2 hkey
  · intro g'
    rw [hentries, List.mem_cons, Prod.mk.injEq, mem_without, h.entries, Live, Live, hins, List.mem_append,
      List.mem_singleton, hdrop, hcancel]
    constructor
    · rintro (⟨hid', hflag'⟩ | ⟨⟨hg', hheld, hrunning⟩, _⟩)
      · obtain rfl : g' = g := by
          cases g'
          cases g
          simp_all
        exact ⟨.inr rfl, fun hdropped => hnew (hguard.dropped _ hdropped), hquiet⟩
      · exact ⟨.inl hg', hheld, hrunning⟩
    · rintro ⟨hg' | rfl, hheld, hrunning⟩
      · refine .inr ⟨⟨hg', hheld, hrunning⟩, ?_⟩
        intro heq
        exact hfresh (heq ▸ List.mem_map_of_mem hg')
      · exact .inl ⟨hgid, rfl⟩
  · intro g' hg'
    rw [hflags, hcancel]
    rw [hins] at hg'
    rcases List.mem_append.mp hg' with hg' | hg'
    · rw [List.getElem?_append_left (hguard.flag_lt hg')]
      exact h.flag g' hg'
    · obtain rfl := List.mem_singleton.mp hg'
      simp [hlength, hquiet]
  · intro other hother
    rw [hins, List.map_append]
    exact List.mem_append_left _ (h.cancelled other ((hcancel other).mp hother))
  · intro other
    rw [count_append_of_ne (by simp)]
    exact h.once other

/-- A cancellation that finds its command takes it off the table and clears its flag, no other. -/
theorem cancel (h : Tabled acts u) (hnum : Numbered acts u) (hguard : Guarded acts u) {g : Guard}
    (hlive : Live acts g) :
    Tabled (acts ++ [.cancel g.id true])
      { u with registry := { u.registry with
          entries := without g.id u.registry.entries
          flags := u.registry.flags.set g.flag false } } := by
  have hins : inserted (acts ++ [.cancel g.id true]) = inserted acts := by
    simp [inserted_append, Act.guard?]
  have hcancel : ∀ id, Act.cancel id true ∈ acts ++ [.cancel g.id true] ↔
      Act.cancel id true ∈ acts ∨ id = g.id := by
    simp
  constructor
  · exact keys_without_nodup h.keys_nodup g.id
  · intro g'
    have hdrop : Act.drop g' ∈ acts ++ [.cancel g.id true] ↔ Act.drop g' ∈ acts :=
      mem_append_of_ne (by simp)
    rw [mem_without, h.entries, Live, Live, hins, hdrop, hcancel]
    tauto
  · intro g' hg'
    rw [hins] at hg'
    rw [hcancel]
    by_cases heq : g' = g
    · subst heq
      rw [List.getElem?_set_self (hguard.flag_lt hg')]
      exact iff_of_true rfl (.inr rfl)
    · have hflag : g.flag ≠ g'.flag := fun hsame => heq (hguard.eq_of_flag hlive.1 hg' hsame).symm
      have hid : g'.id ≠ g.id := fun hsame => heq (hnum.eq_of_id hg' hlive.1 hsame)
      rw [List.getElem?_set_ne hflag, h.flag g' hg']
      exact (or_iff_left hid).symm
  · intro id hid
    rw [hins]
    rcases List.mem_append.mp hid with hid | hid
    · exact h.cancelled id hid
    · obtain ⟨rfl, _⟩ := Act.cancel.inj (List.mem_singleton.mp hid)
      exact List.mem_map_of_mem hlive.1
  · intro id
    rw [List.count_append, List.count_singleton]
    by_cases hid : id = g.id
    · subst hid
      rw [List.count_eq_zero_of_not_mem hlive.2.2]
      simp
    · rw [← List.count_singleton, ← List.count_append, count_append_of_ne (by simpa using hid)]
      exact h.once id

theorem drop (h : Tabled acts u) (hnum : Numbered acts u) (hguard : Guarded acts u) {g : Guard}
    (hg : g ∈ u.guards) :
    Tabled (acts ++ [.drop g]) { u with registry := u.registry.finish g, guards := u.guards.erase g } := by
  obtain ⟨hgins, hheld⟩ := (hguard.guards g).mp hg
  have hins : inserted (acts ++ [.drop g]) = inserted acts := by simp [inserted_append, Act.guard?]
  have hcancel : ∀ id, Act.cancel id true ∈ acts ++ [.drop g] ↔ Act.cancel id true ∈ acts :=
    fun id => mem_append_of_ne (by simp)
  constructor
  · exact keys_without_nodup h.keys_nodup g.id
  · intro g'
    have hdrop : Act.drop g' ∉ acts ++ [.drop g] ↔ Act.drop g' ∉ acts ∧ g' ≠ g := by simp [not_or]
    rw [Registry.finish, mem_without, h.entries, Live, Live, hins, hdrop, hcancel]
    constructor
    · rintro ⟨⟨hg', hheld', hrunning⟩, hid⟩
      exact ⟨hg', ⟨hheld', fun heq => hid (heq ▸ rfl)⟩, hrunning⟩
    · rintro ⟨hg', ⟨hheld', hne⟩, hrunning⟩
      exact ⟨⟨hg', hheld', hrunning⟩, fun hid => hne (hnum.eq_of_id hg' hgins hid)⟩
  · intro g' hg'
    rw [hins] at hg'
    rw [hcancel]
    exact h.flag g' hg'
  · intro id hid
    rw [hins]
    exact h.cancelled id ((hcancel id).mp hid)
  · intro id
    rw [count_append_of_ne (by simp)]
    exact h.once id

theorem other (h : Tabled acts u) {a : Act} (hguard : a.guard? = none) (hdrop : ∀ g, a ≠ .drop g)
    (hcancel : ∀ id, a ≠ .cancel id true) (hentries : v.registry.entries = u.registry.entries)
    (hflags : v.registry.flags = u.registry.flags) : Tabled (acts ++ [a]) v := by
  have hins : inserted (acts ++ [a]) = inserted acts := by simp [inserted_append, hguard]
  have hdropped : ∀ g, Act.drop g ∈ acts ++ [a] ↔ Act.drop g ∈ acts :=
    fun g => mem_append_of_ne (hdrop g).symm
  have hcancelled : ∀ id, Act.cancel id true ∈ acts ++ [a] ↔ Act.cancel id true ∈ acts :=
    fun id => mem_append_of_ne (hcancel id).symm
  constructor
  · rw [hentries]
    exact h.keys_nodup
  · intro g
    rw [hentries, h.entries, Live, Live, hins, hdropped, hcancelled]
  · intro g hg
    rw [hins] at hg
    rw [hflags, hcancelled]
    exact h.flag g hg
  · intro id hid
    rw [hins]
    exact h.cancelled id ((hcancelled id).mp hid)
  · intro id
    rw [count_append_of_ne (hcancel id).symm]
    exact h.once id

end Tabled

/-! ## Runs -/

/-- What a history of few enough numbers says of the registry. -/
structure Tracks (acts : List Act) (u : Shared) : Prop where
  numbered : Numbered acts u
  guarded : Guarded acts u
  tabled : Tabled acts u

theorem tracks_start : Tracks [] .start := by
  refine ⟨⟨rfl, rfl, List.nodup_nil, ?_, ?_, List.nodup_nil⟩, ⟨rfl, List.nodup_nil, ?_, ?_⟩,
    ⟨List.nodup_nil, ?_, ?_, ?_, ?_⟩⟩ <;> simp [Shared.start, empty, inserted, Live]

theorem Tracks.step {acts : List Act} {a : Act} {u v : Shared} (h : Tracks acts u)
    (hfew : (allocated acts).length < 2 ^ 64 - 1) (hstep : Step u a v) : Tracks (acts ++ [a]) v := by
  obtain ⟨hnum, hguard, htable⟩ := h
  cases hstep with
  | allocate =>
    exact ⟨hnum.allocate hfew, hguard.other rfl (by simp) rfl rfl,
      htable.other rfl (by simp) (by simp) rfl rfl⟩
  | insert hid => exact ⟨hnum.insert hid, hguard.insert _, htable.insert hnum hguard hid⟩
  | cancel id =>
    cases hflag : u.registry.flag? id with
    | none =>
      have hcancel : u.registry.cancel id = (false, u.registry) := by simp only [Registry.cancel, hflag]
      rw [hcancel]
      exact ⟨hnum.other rfl rfl rfl rfl, hguard.other rfl (by simp) rfl rfl,
        htable.other rfl (by simp) (by simp) rfl rfl⟩
    | some flag =>
      have hcancel : u.registry.cancel id = (true, { u.registry with
          entries := without id u.registry.entries, flags := u.registry.flags.set flag false }) := by
        simp only [Registry.cancel, hflag]
      rw [hcancel]
      exact ⟨hnum.other rfl rfl rfl rfl, hguard.other rfl (by simp) List.length_set rfl,
        htable.cancel hnum hguard (htable.flag?_eq_some_iff.mp hflag)⟩
  | drop hg => exact ⟨hnum.other rfl rfl rfl rfl, hguard.drop hg, htable.drop hnum hguard hg⟩
  | askRunning | askContains | askSize =>
    exact ⟨hnum.other rfl rfl rfl rfl, hguard.other rfl (by simp) rfl rfl,
      htable.other rfl (by simp) (by simp) rfl rfl⟩

theorem Run.tracks {acts : List Act} {u : Shared} (h : Run acts u)
    (hfew : (allocated acts).length < 2 ^ 64 - 1) : Tracks acts u := by
  induction h with
  | start => exact tracks_start
  | act h hstep ih =>
    rw [allocated_append, List.length_append] at hfew
    have hbefore := Nat.lt_of_le_of_lt (Nat.le_add_right _ _) hfew
    exact (ih hbefore).step hbefore hstep

theorem Tabled.size_eq {acts : List Act} {u : Shared} (h : Tabled acts u) (hguard : Guarded acts u) :
    u.registry.size = ((inserted acts).filter fun g => Live acts g).length := by
  have hentries : u.registry.entries.Nodup := List.Nodup.of_map _ h.keys_nodup
  have hlive : (((inserted acts).filter fun g => Live acts g).map fun g => (g.id, g.flag)).Nodup := by
    have hflags : ((inserted acts).map Guard.flag).Nodup := hguard.flags ▸ List.nodup_range
    apply List.Nodup.map
    · rintro ⟨id, flag⟩ ⟨id', flag'⟩ heq
      obtain ⟨rfl, rfl⟩ := Prod.mk.inj heq
      rfl
    · exact (List.Nodup.of_map _ hflags).filter _
  have hperm : u.registry.entries.Perm
      (((inserted acts).filter fun g => Live acts g).map fun g => (g.id, g.flag)) := by
    rw [List.perm_ext_iff_of_nodup hentries hlive]
    rintro ⟨id, flag⟩
    rw [h.entries ⟨id, flag⟩, List.mem_map]
    constructor
    · intro hg
      exact ⟨⟨id, flag⟩, by simpa using ⟨hg.1, hg⟩, rfl⟩
    · rintro ⟨g, hg, heq⟩
      obtain ⟨rfl, rfl⟩ := Prod.mk.inj heq
      simpa using (List.mem_filter.mp hg).2
  rw [size, hperm.length_eq, List.length_map]

theorem isRunning_eq_false_iff {r : Registry} {g : Guard} :
    r.isRunning g = false ↔ r.flags[g.flag]? = some false := by
  unfold isRunning
  cases r.flags[g.flag]? <;> simp

theorem flag?_cancel (r : Registry) (id id' : CommandId) :
    (r.cancel id).2.flag? id' = if id' = id then none else r.flag? id' := by
  cases hflag : r.flag? id with
  | none =>
    simp only [cancel, hflag]
    split
    · rename_i heq
      rw [heq, hflag]
    · rfl
  | some flag =>
    simp only [cancel, hflag]
    exact lookup_without id id' r.entries

theorem Tracks.isRunning_eq_false_iff {acts : List Act} {u : Shared} (h : Tracks acts u) {g : Guard}
    (hg : g ∈ inserted acts) : u.registry.isRunning g = false ↔ Act.cancel g.id true ∈ acts :=
  Registry.isRunning_eq_false_iff.trans (h.tabled.flag g hg)

theorem Tracks.allocated_toNat {acts : List Act} {u : Shared} (h : Tracks acts u)
    (hfew : (allocated acts).length < 2 ^ 64 - 1) :
    (allocated acts).map (fun id => id.value.toNat) = List.range' 1 (allocated acts).length := by
  have hnumbers := h.numbered.numbers
  generalize (allocated acts).length = n at *
  rw [hnumbers, List.map_map, List.range'_eq_map_range]
  apply List.map_congr_left
  intro k hk
  have hlt := List.mem_range.mp hk
  simp only [Function.comp_apply, number, UInt64.toNat_ofNat', Nat.reducePow]
  omega

/-- Whatever the threads do, and in whatever order: numbers count up from one; the table has exactly
the live commands, each with the flag of its own guard; a cancellation finds its command once at
most, takes it off the table and clears its flag, no other; and the end of a command concerns no
other command. -/
theorem table_follows_history {acts : List Act} {u : Shared} (h : Run acts u)
    (hfew : (allocated acts).length < 2 ^ 64 - 1) :
    (allocated acts).map (fun id => id.value.toNat) = List.range' 1 (allocated acts).length ∧
      (allocated acts).Nodup ∧
      (∀ g ∈ inserted acts, ∀ g' ∈ inserted acts, g ≠ g' → g.id ≠ g'.id ∧ g.flag ≠ g'.flag) ∧
      (∀ id flag, u.registry.flag? id = some flag ↔ Live acts ⟨id, flag⟩) ∧
      u.registry.size = ((inserted acts).filter fun g => Live acts g).length ∧
      (∀ g ∈ inserted acts, u.registry.isRunning g = false ↔ Act.cancel g.id true ∈ acts) ∧
      (∀ id, acts.count (.cancel id true) ≤ 1) ∧
      (∀ id found v, Step u (.cancel id found) v →
        (found = true ↔ ∃ g, Live acts g ∧ g.id = id) ∧
        (∀ id', v.registry.flag? id' = if id' = id then none else u.registry.flag? id') ∧
        ∀ g ∈ inserted acts,
          v.registry.isRunning g = (u.registry.isRunning g && !(found && g.id = id))) ∧
      (∀ g v, Step u (.drop g) v → ∀ g' ∈ inserted acts, g' ≠ g →
        v.registry.flag? g'.id = u.registry.flag? g'.id ∧
        v.registry.isRunning g' = u.registry.isRunning g') := by
  have htracks := h.tracks hfew
  have hnum := htracks.numbered
  have hguard := htracks.guarded
  have htable := htracks.tabled
  have hnumbers := htracks.allocated_toNat hfew
  refine ⟨hnumbers, ?_, ?_, fun id flag => htable.flag?_eq_some_iff, htable.size_eq hguard,
    fun g hg => htracks.isRunning_eq_false_iff hg, htable.once, ?_, ?_⟩
  · apply List.Nodup.of_map fun id : CommandId => id.value.toNat
    rw [hnumbers]
    exact List.nodup_range'
  · intro g hg g' hg' hne
    exact ⟨fun heq => hne (hnum.eq_of_id hg hg' heq), fun heq => hne (hguard.eq_of_flag hg hg' heq)⟩
  · intro id found v hstep
    have hafter := htracks.step hfew hstep
    cases hstep with
    | cancel =>
      refine ⟨?_, flag?_cancel _ _, ?_⟩
      · cases hflag : u.registry.flag? id with
        | none =>
          simp only [Registry.cancel, hflag, Bool.false_eq_true, false_iff]
          rintro ⟨g, hlive, rfl⟩
          have hsome := htable.flag?_eq_some_iff.mpr (show Live acts ⟨g.id, g.flag⟩ from hlive)
          rw [hflag] at hsome
          cases hsome
        | some flag =>
          simp only [Registry.cancel, hflag, true_iff]
          exact ⟨⟨id, flag⟩, htable.flag?_eq_some_iff.mp hflag, rfl⟩
      · intro g hg
        have hbefore := htracks.isRunning_eq_false_iff hg
        have hnow := hafter.isRunning_eq_false_iff (g := g) (by simpa [inserted_append, Act.guard?] using hg)
        rw [List.mem_append, List.mem_singleton, Act.cancel.injEq, ← hbefore] at hnow
        rw [Bool.eq_iff_iff, ← not_iff_not, Bool.not_eq_true, Bool.not_eq_true, hnow]
        simp only [Bool.and_eq_false_iff, Bool.not_eq_false', Bool.and_eq_true, decide_eq_true_eq]
        exact or_congr_right ⟨fun hboth => ⟨hboth.2.symm, hboth.1⟩, fun hboth => ⟨hboth.2, hboth.1.symm⟩⟩
  · intro g v hstep g' hg' hne
    cases hstep with
    | drop hg =>
      have hid : g'.id ≠ g.id := fun heq => hne (hnum.eq_of_id hg' ((hguard.guards g).mp hg).1 heq)
      refine ⟨?_, rfl⟩
      exact (lookup_without g.id g'.id u.registry.entries).trans (if_neg hid)

/-- A cancellation that comes before its command is on the table, one that finds it, and one that comes
too late; the other command is not concerned. -/
theorem table_follows_history_early_and_late :
    let acts : List Act := [.allocate ⟨1⟩, .allocate ⟨2⟩, .cancel ⟨1⟩ false, .insert ⟨⟨2⟩, 0⟩,
      .insert ⟨⟨1⟩, 1⟩, .cancel ⟨1⟩ true, .drop ⟨⟨1⟩, 1⟩, .cancel ⟨1⟩ false]
    ∃ u, Run acts u ∧ (allocated acts).length < 2 ^ 64 - 1 ∧ u.registry.flag? ⟨2⟩ = some 0 ∧
      u.registry.size = 1 ∧ u.registry.isRunning ⟨⟨1⟩, 1⟩ = false := by
  intro acts
  have hrun : ∃ u, Run acts u := by
    refine ⟨_, ((((((((Run.start.act (.allocate _)).act (.allocate _)).act (.cancel _ ⟨1⟩)).act
      (@Step.insert _ ⟨2⟩ ?_)).act (@Step.insert _ ⟨1⟩ ?_)).act (.cancel _ ⟨1⟩)).act
      (@Step.drop _ ⟨⟨1⟩, 1⟩ ?_)).act (.cancel _ ⟨1⟩))⟩
    · decide
    · decide
    · decide
  obtain ⟨u, hrun⟩ := hrun
  have hfew : (allocated acts).length < 2 ^ 64 - 1 := by decide
  obtain ⟨_, _, _, htable, hsize, hrunning, _⟩ := table_follows_history hrun hfew
  exact ⟨u, hrun, hfew, (htable ⟨2⟩ 0).mpr (by decide), hsize, (hrunning _ (by decide)).mpr (by decide)⟩

end Registry

end FileFerry
