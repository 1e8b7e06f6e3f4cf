import FileFerry.Registry
import Mathlib.Algebra.Group.Nat.Defs
import Mathlib.Data.List.Nodup
import Mathlib.Data.List.Range

/-!
# The history of a registry

Any number of threads use one registry. A thread that begins a command first takes a number for it
and later, after whatever the others did meanwhile, puts it on the table; it has the guard from
then on and drops it when the command is over. Threads may cancel any number and ask anything at
any time. `Run acts u` says that the acts can happen in this order and lead to `u`.

Before the numbers run out they count up from one (`Numbered`), and every guard has a flag of its own
(`Guarded`).
-/

set_option autoImplicit false

namespace FileFerry

namespace Registry

/-- What a thread does to a registry at once, and the answer it gets. -/
inductive Act where
  | allocate (id : CommandId)
  | insert (g : Guard)
  | cancel (id : CommandId) (found : Bool)
  | drop (g : Guard)
  | askRunning (g : Guard) (answer : Bool)
  | askContains (id : CommandId) (answer : Bool)
  | askSize (answer : Nat)
  deriving DecidableEq, Repr

/-- A registry and what its threads have in hand. -/
structure Shared where
  registry : Registry
  /-- The numbers taken for commands that are not on the table yet. -/
  taken : List CommandId
  guards : List Guard

def Shared.start : Shared := ⟨.empty, [], []⟩

inductive Step : Shared → Act → Shared → Prop where
  | allocate (u : Shared) : Step u (.allocate u.registry.allocate.1)
      { u with registry := u.registry.allocate.2, taken := u.registry.allocate.1 :: u.taken }
  | insert {u : Shared} {id : CommandId} (h : id ∈ u.taken) : Step u (.insert (u.registry.insert id).1)
      ⟨(u.registry.insert id).2, u.taken.erase id, (u.registry.insert id).1 :: u.guards⟩
  | cancel (u : Shared) (id : CommandId) : Step u (.cancel id (u.registry.cancel id).1)
      { u with registry := (u.registry.cancel id).2 }
  | drop {u : Shared} {g : Guard} (h : g ∈ u.guards) : Step u (.drop g)
      { u with registry := u.registry.finish g, guards := u.guards.erase g }
  | askRunning {u : Shared} {g : Guard} (h : g ∈ u.guards) :
      Step u (.askRunning g (u.registry.isRunning g)) u
  | askContains (u : Shared) (id : CommandId) : Step u (.askContains id (u.registry.contains id)) u
  | askSize (u : Shared) : Step u (.askSize u.registry.size) u

inductive Run : List Act → Shared → Prop where
  | start : Run [] .start
  | act {acts : List Act} {a : Act} {u v : Shared} (h : Run acts u) (hstep : Step u a v) :
      Run (acts ++ [a]) v

def Act.number? : Act → Option CommandId
  | allocate id => some id
  | _ => none

def Act.guard? : Act → Option Guard
  | insert g => some g
  | _ => none

/-- The numbers taken, in order. -/
def allocated (acts : List Act) : List CommandId := acts.filterMap Act.number?

/-- The guards of the commands that were put on the table, in order. -/
def inserted (acts : List Act) : List Guard := acts.filterMap Act.guard?

/-- The guard's command was put on the table; it is not over and was not cancelled. -/
def Live (acts : List Act) (g : Guard) : Prop :=
  g ∈ inserted acts ∧ Act.drop g ∉ acts ∧ Act.cancel g.id true ∉ acts

instance (acts : List Act) (g : Guard) : Decidable (Live acts g) := by
  unfold Live
  infer_instance

theorem allocated_append (acts : List Act) (a : Act) :
    allocated (acts ++ [a]) = allocated acts ++ a.number?.toList := by
  cases h : a.number? <;> simp [allocated, h]

theorem inserted_append (acts : List Act) (a : Act) :
    inserted (acts ++ [a]) = inserted acts ++ a.guard?.toList := by
  cases h : a.guard? <;> simp [inserted, h]

theorem mem_append_of_ne {acts : List Act} {a b : Act} (h : b ≠ a) : b ∈ acts ++ [a] ↔ b ∈ acts := by
  rw [List.mem_append, List.mem_singleton]
  exact or_iff_left h

theorem count_append_of_ne {acts : List Act} {a b : Act} (h : b ≠ a) :
    (acts ++ [a]).count b = acts.count b := by
  rw [List.count_append, List.count_singleton, if_neg (by simpa using h.symm), Nat.add_zero]

/-! ## Numbers -/

/-- The number of the command begun after `k` others. -/
def number (k : Nat) : CommandId := ⟨UInt64.ofNat (k + 1)⟩

theorem number_succ (k : Nat) : (⟨(number k).value + 1⟩ : CommandId) = number (k + 1) := by
  simp only [number, UInt64.ofNat_add]
  rfl

theorem number_injective {j k : Nat} (hj : j < 2 ^ 64 - 1) (hk : k < 2 ^ 64 - 1)
    (h : number j = number k) : j = k := by
  have hvalue := congrArg (fun id : CommandId => id.value.toNat) h
  simp only [number, UInt64.toNat_ofNat', Nat.reducePow] at hvalue
  omega

/-- Which numbers were given out, and which of them came to the table. -/
structure Numbered (acts : List Act) (u : Shared) : Prop where
  numbers : allocated acts = (List.range (allocated acts).length).map number
  next : u.registry.next = number (allocated acts).length
  taken_nodup : u.taken.Nodup
  taken : ∀ id ∈ u.taken, id ∈ allocated acts ∧ id ∉ (inserted acts).map Guard.id
  known : ∀ g ∈ inserted acts, g.id ∈ allocated acts
  ids_nodup : ((inserted acts).map Guard.id).Nodup

namespace Numbered

variable {acts : List Act} {u v : Shared}

/-- The next number was not given out before. -/
theorem next_not_mem (h : Numbered acts u) (hfew : (allocated acts).length < 2 ^ 64 - 1) :
    u.registry.next ∉ allocated acts := by
  intro hmem
  rw [h.next, h.numbers] at hmem
  obtain ⟨k, hk, heq⟩ := List.mem_map.mp hmem
  have hlt := List.mem_range.mp hk
  have hsame := number_injective (by omega) (by simpa using hfew) heq
  simp only [List.length_map, List.length_range] at hsame
  omega

theorem eq_of_id (h : Numbered acts u) {g g' : Guard} (hg : g ∈ inserted acts)
    (hg' : g' ∈ inserted acts) (heq : g.id = g'.id) : g = g' :=
  List.inj_on_of_nodup_map h.ids_nodup hg hg' heq

theorem allocate (h : Numbered acts u) (hfew : (allocated acts).length < 2 ^ 64 - 1) :
    Numbered (acts ++ [.allocate u.registry.allocate.1])
      { u with registry := u.registry.allocate.2, taken := u.registry.allocate.1 :: u.taken } := by
  have hnew := h.next_not_mem hfew
  have halloc : allocated (acts ++ [.allocate u.registry.next]) = allocated acts ++ [u.registry.next] :=
    allocated_append ..
  have hins : inserted (acts ++ [.allocate u.registry.next]) = inserted acts := by
    simp [inserted_append, Act.guard?]
  constructor
  · change allocated (acts ++ [.allocate u.registry.next]) = _
    rw [Registry.allocate, halloc, List.length_append, List.length_singleton, List.range_succ, List.map_append,
      ← h.numbers, h.next]
    rfl
  · change (⟨u.registry.next.value + 1⟩ : CommandId) = _
    rw [Registry.allocate, halloc, List.length_append, List.length_singleton, ← number_succ, h.next]
  · refine List.nodup_cons.mpr ⟨?_, h.taken_nodup⟩
    intro hmem
    exact hnew (h.taken _ hmem).1
  · intro id hid
    simp only [Registry.allocate, halloc, hins, List.mem_append]
    rcases List.mem_cons.mp hid with rfl | hid
    · refine ⟨.inr List.mem_cons_self, ?_⟩
      intro hmem
      obtain ⟨g, hg, hgid⟩ := List.mem_map.mp hmem
      apply hnew
      rw [← show g.id = u.registry.next from hgid]
      exact h.known g hg
    · exact ⟨.inl (h.taken id hid).1, (h.taken id hid).2⟩
  · intro g hg
    simp only [Registry.allocate, halloc, hins] at hg ⊢
    exact List.mem_append_left _ (h.known g hg)
  · simpa only [Registry.allocate, hins] using h.ids_nodup

theorem insert (h : Numbered acts u) {id : CommandId} (hid : id ∈ u.taken) :
    Numbered (acts ++ [.insert (u.registry.insert id).1])
      ⟨(u.registry.insert id).2, u.taken.erase id, (u.registry.insert id).1 :: u.guards⟩ := by
  obtain ⟨g, hg, hgid⟩ : ∃ g, g = (u.registry.insert id).1 ∧ g.id = id := ⟨_, rfl, rfl⟩
  obtain ⟨hknown, hnew⟩ := h.taken id hid
  have halloc : allocated (acts ++ [.insert g]) = allocated acts := by
    simp [allocated_append, Act.number?]
  have hins : inserted (acts ++ [.insert g]) = inserted acts ++ [g] := inserted_append ..
  rw [← hg]
  constructor
  · rw [halloc]
    exact h.numbers
  · rw [halloc]
    exact h.next
  · exact h.taken_nodup.erase id
  · intro other hother
    obtain ⟨hne, hmem⟩ := (h.taken_nodup.mem_erase_iff).mp hother
    rw [halloc, hins, List.map_append, List.mem_append]
    refine ⟨(h.taken other hmem).1, ?_⟩
    rintro (hold | hthis)
    · exact (h.taken other hmem).2 hold
    · exact hne ((List.mem_singleton.mp hthis).trans hgid)
  · intro g' hg'
    rw [hins] at hg'
    rw [halloc]
    rcases List.mem_append.mp hg' with hg' | hg'
    · exact h.known g' hg'
    · obtain rfl := List.mem_singleton.mp hg'
      rwa [hgid]
  · rw [hins, List.map_append]
    apply List.Nodup.append h.ids_nodup (List.nodup_singleton _)
    intro other hother hthis
    obtain rfl := List.mem_singleton.mp hthis
    exact hnew (hgid ▸ hother)

theorem other (h : Numbered acts u) {a : Act} (hnumber : a.number? = none) (hguard : a.guard? = none)
    (hnext : v.registry.next = u.registry.next) (htaken : v.taken = u.taken) :
    Numbered (acts ++ [a]) v := by
  have halloc : allocated (acts ++ [a]) = allocated acts := by simp [allocated_append, hnumber]
  have hins : inserted (acts ++ [a]) = inserted acts := by simp [inserted_append, hguard]
  constructor
  · rw [halloc]
    exact h.numbers
  · rw [halloc, hnext]
    exact h.next
  · rw [htaken]
    exact h.taken_nodup
  · rw [halloc, hins, htaken]
    exact h.taken
  · rw [halloc, hins]
    exact h.known
  · rw [hins]
    exact h.ids_nodup

end Numbered

/-! ## Guards -/

/-- Every guard has a flag of its own, and is held until it is dropped. -/
structure Guarded (acts : List Act) (u : Shared) : Prop where
  flags : (inserted acts).map Guard.flag = List.range u.registry.flags.length
  guards_nodup : u.guards.Nodup
  guards : ∀ g, g ∈ u.guards ↔ g ∈ inserted acts ∧ Act.drop g ∉ acts
  dropped : ∀ g, Act.drop g ∈ acts → g ∈ inserted acts

namespace Guarded

variable {acts : List Act} {u v : Shared}

theorem flag_lt (h : Guarded acts u) {g : Guard} (hg : g ∈ inserted acts) :
    g.flag < u.registry.flags.length := by
  have hmem : g.flag ∈ (inserted acts).map Guard.flag := List.mem_map_of_mem hg
  rw [h.flags] at hmem
  exact List.mem_range.mp hmem

theorem eq_of_flag (h : Guarded acts u) {g g' : Guard} (hg : g ∈ inserted acts)
    (hg' : g' ∈ inserted acts) (heq : g.flag = g'.flag) : g = g' := by
  have hnodup : ((inserted acts).map Guard.flag).Nodup := h.flags ▸ List.nodup_range
  exact List.inj_on_of_nodup_map hnodup hg hg' heq

/-- A new guard is none of the old ones. -/
theorem new_not_mem (h : Guarded acts u) (id : CommandId) :
    (u.registry.insert id).1 ∉ inserted acts := by
  intro hmem
  exact absurd (h.flag_lt hmem) (Nat.lt_irrefl _)

theorem insert (h : Guarded acts u) (id : CommandId) :
    Guarded (acts ++ [.insert (u.registry.insert id).1])
      ⟨(u.registry.insert id).2, u.taken.erase id, (u.registry.insert id).1 :: u.guards⟩ := by
  have hnew := h.new_not_mem id
  have hflag : (u.registry.insert id).1.flag = u.registry.flags.length := rfl
  have hlength : (u.registry.insert id).2.flags.length = u.registry.flags.length + 1 :=
    List.length_append
  generalize (u.registry.insert id).1 = g at *
  have hins : inserted (acts ++ [.insert g]) = inserted acts ++ [g] := inserted_append ..
  constructor
  · rw [hins, hlength, List.range_succ, List.map_append, h.flags, ← hflag]
    rfl
  · refine List.nodup_cons.mpr ⟨?_, h.guards_nodup⟩
    intro hmem
    exact hnew ((h.guards g).mp hmem).1
  · intro g'
    rw [hins, mem_append_of_ne (by simp), List.mem_cons, List.mem_append, List.mem_singleton, h.guards g']
    constructor
    · rintro (rfl | ⟨hg', hheld⟩)
      · exact ⟨.inr rfl, fun hdropped => hnew (h.dropped _ hdropped)⟩
      · exact ⟨.inl hg', hheld⟩
    · rintro ⟨hg' | rfl, hheld⟩
      · exact .inr ⟨hg', hheld⟩
      · exact .inl rfl
  · intro g' hg'
    rw [hins]
    exact List.mem_append_left _ (h.dropped g' ((mem_append_of_ne (by simp)).mp hg'))

theorem drop (h : Guarded acts u) {g : Guard} (hg : g ∈ u.guards) :
    Guarded (acts ++ [.drop g]) { u with registry := u.registry.finish g, guards := u.guards.erase g } := by
  have hins : inserted (acts ++ [.drop g]) = inserted acts := by simp [inserted_append, Act.guard?]
  constructor
  · rw [hins]
    exact h.flags
  · exact h.guards_nodup.erase g
  · intro g'
    rw [hins, h.guards_nodup.mem_erase_iff, h.guards g']
    simp only [List.mem_append, List.mem_singleton, Act.drop.injEq]
    tauto
  · intro g' hg'
    rw [hins]
    rcases List.mem_append.mp hg' with hg' | hg'
    · exact h.dropped g' hg'
    · obtain rfl := Act.drop.inj (List.mem_singleton.mp hg')
      exact ((h.guards _).mp hg).1

theorem other (h : Guarded acts u) {a : Act} (hguard : a.guard? = none) (hdrop : ∀ g, a ≠ .drop g)
    (hflags : v.registry.flags.length = u.registry.flags.length) (hguards : v.guards = u.guards) :
    Guarded (acts ++ [a]) v := by
  have hins : inserted (acts ++ [a]) = inserted acts := by simp [inserted_append, hguard]
  have hmem : ∀ g, Act.drop g ∈ acts ++ [a] ↔ Act.drop g ∈ acts :=
    fun g => mem_append_of_ne (hdrop g).symm
  constructor
  · rw [hins, hflags]
    exact h.flags
  · rw [hguards]
    exact h.guards_nodup
  · intro g
    rw [hins, hguards, hmem]
    exact h.guards g
  · intro g hg
    rw [hins]
    exact h.dropped g ((hmem g).mp hg)

end Guarded

end Registry

end FileFerry
