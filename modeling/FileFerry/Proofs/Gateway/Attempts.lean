import FileFerry.Proofs.Reception
import FileFerry.Proofs.Session.Reading

/-!
# What was tried on a gateway, and how it went

A record is kept of every call on a gateway and of every write and flush of a file, with its result. What
a session answers is told from this record alone. While a payload is written nothing but writes is added,
and all of them go well unless a failure is reported (`attempts_of_pours`).
-/

set_option autoImplicit false

namespace FileFerry

inductive Attempt where
  | «exists» (path : Path) (found : Bool)
  | mkdir (path : Path) (result : Except IoError Unit)
  | remove (path : Path) (result : Except IoError Unit)
  | chdir (path : Path) (result : Except IoError Path)
  | list (path : Path) (result : Except IoError (List DirEntry))
  | openFile (path : Path) (result : Except IoError Unit)
  | create (path : Path) (result : Except IoError Unit)
  | write (result : Except IoError Nat)
  | flush (result : Except IoError Unit)
  deriving DecidableEq

namespace Attempt

/-- It made, changed or took away something, or entered a directory. -/
def succeeded : Attempt → Bool
  | mkdir _ (.ok _) => true
  | remove _ (.ok _) => true
  | chdir _ (.ok _) => true
  | create _ (.ok _) => true
  | write (.ok _) => true
  | flush (.ok _) => true
  | _ => false

/-- It was done to an open file. -/
def isOnFile : Attempt → Bool
  | write _ => true
  | flush _ => true
  | _ => false

/-- A write that took nothing or failed for good, or a flush that failed. -/
def losesPayload : Attempt → Bool
  | write (.ok n) => n = 0
  | write (.error e) => !e.isInterrupted
  | flush (.error _) => true
  | _ => false

end Attempt

structure Attested (γ : Type) where
  inner : γ
  attempts : List Attempt

namespace Attested

variable {γ : Type}

def attest {α : Type} (g : Attested γ) (attempt : α → Attempt) (outcome : α × γ) : α × Attested γ :=
  (outcome.1, ⟨outcome.2, g.attempts ++ [attempt outcome.1]⟩)

instance [Gateway γ] : Gateway (Attested γ) where
  Handle := Gateway.Handle γ
  home g := Gateway.home g.inner
  «exists» g p := g.attest (.exists p) (Gateway.exists g.inner p)
  mkdir g p := g.attest (.mkdir p) (Gateway.mkdir g.inner p)
  remove g p := g.attest (.remove p) (Gateway.remove g.inner p)
  chdir g p := g.attest (.chdir p) (Gateway.chdir g.inner p)
  list g p := g.attest (.list p) (Gateway.list g.inner p)
  openFile g p := g.attest (fun result => .openFile p (result.map fun _ => ())) (Gateway.openFile g.inner p)
  create g p := g.attest (fun result => .create p (result.map fun _ => ())) (Gateway.create g.inner p)
  write g h b := g.attest .write (Gateway.write g.inner h b)
  flush g h := g.attest .flush (Gateway.flush g.inner h)
  close g h := { g with inner := Gateway.close g.inner h }
  patience g h := Gateway.patience g.inner h
  patience_lt g h b e he hi := Gateway.patience_lt g.inner h b e he hi

theorem attempts_of_attest {α : Type} {g g' : Attested γ} {attempt : α → Attempt} {outcome : α × γ} {result : α}
    (h : g.attest attempt outcome = (result, g')) : g'.attempts = g.attempts ++ [attempt result] := by
  obtain ⟨rfl, rfl⟩ := Prod.mk.inj h
  rfl

theorem attempts_of_attest_append {α : Type} {g g' : Attested γ} {before attempts : List Attempt}
    (hg : g.attempts = before ++ attempts) {attempt : α → Attempt} {outcome : α × γ} {result : α}
    (h : g.attest attempt outcome = (result, g')) : g'.attempts = before ++ (attempts ++ [attempt result]) := by
  rw [attempts_of_attest h, hg, List.append_assoc]

end Attested

/-- Attempts to write, and whether all of them went well. -/
structure Written (attempts : List Attempt) (failure : Option IoError) : Prop where
  writes : ∀ a ∈ attempts, ∃ result, a = .write result
  wentWell : failure = none ↔ ∀ a ∈ attempts, a.losesPayload = false

namespace Written

variable {attempts : List Attempt} {failure : Option IoError}

theorem nil : Written [] none := by
  constructor
  · simp
  · simp

theorem single {result : Except IoError Nat}
    (h : failure = none ↔ (Attempt.write result).losesPayload = false) : Written [.write result] failure := by
  constructor
  · intro a hmem
    exact ⟨result, List.mem_singleton.mp hmem⟩
  · rw [h, List.forall_mem_singleton]

theorem append {more : List Attempt} (h : Written attempts none) (hmore : Written more failure) :
    Written (attempts ++ more) failure := by
  constructor
  · intro a hmem
    exact (List.mem_append.mp hmem).elim (h.writes a) (hmore.writes a)
  · rw [hmore.wentWell, List.forall_mem_append]
    exact (and_iff_right (h.wentWell.mp rfl)).symm

theorem exists_loses {e : IoError} (h : Written attempts (some e)) :
    ∃ a ∈ attempts, a.losesPayload = true := by
  by_contra hnone
  have hwell : ∀ a ∈ attempts, a.losesPayload = false := by
    intro a hmem
    exact Bool.eq_false_iff.mpr fun ha => hnone ⟨a, hmem, ha⟩
  cases h.wentWell.mpr hwell

theorem onFile (h : Written attempts failure) : ∀ a ∈ attempts, a.isOnFile = true := by
  intro a hmem
  obtain ⟨result, rfl⟩ := h.writes a hmem
  rfl

theorem chdir_not_mem (h : Written attempts failure) (p : Path) (result : Except IoError Path) :
    .chdir p result ∉ attempts := by
  intro hmem
  obtain ⟨_, heq⟩ := h.writes _ hmem
  cases heq

theorem flush_not_mem (h : Written attempts failure) (result : Except IoError Unit) :
    .flush result ∉ attempts := by
  intro hmem
  obtain ⟨_, heq⟩ := h.writes _ hmem
  cases heq

end Written

namespace Sink

variable {γ : Type} [Gateway γ]

theorem attempts_write {sink sink' : Sink (Attested γ)} {b : Bytes} {result : Except IoError Nat}
    (h : Writer.write sink b = (result, sink')) :
    sink'.gateway.attempts = sink.gateway.attempts ++ [.write result] := by
  obtain ⟨rfl, rfl⟩ := Prod.mk.inj h
  rfl

theorem attempts_of_pours {x y : Option IoError × Sink (Attested γ)} {b : Bytes} (h : Pours x b y)
    (hx : x.1 = none) :
    ∃ writes, y.2.gateway.attempts = x.2.gateway.attempts ++ writes ∧ Written writes y.1 := by
  induction h with
  | done x =>
    refine ⟨[], (List.append_nil _).symm, ?_⟩
    rw [hx]
    exact .nil
  | failed => cases hx
  | @takes w w' y c rest n hne hwrite _ ih =>
    obtain ⟨writes, hmore, hwritten⟩ := ih rfl
    have htook : Written [.write (.ok (n + 1))] none := .single (iff_of_true rfl rfl)
    refine ⟨_, ?_, htook.append hwritten⟩
    rw [hmore, attempts_write hwrite, List.append_assoc]
  | @again w w' y c rest e hne hwrite he _ ih =>
    obtain ⟨writes, hmore, hwritten⟩ := ih rfl
    have hnoLoss : (Attempt.write (.error e)).losesPayload = false := by
      simp only [Attempt.losesPayload, he, Bool.not_true]
    have hagain : Written [.write (.error e)] none := .single (iff_of_true rfl hnoLoss)
    refine ⟨_, ?_, hagain.append hwritten⟩
    rw [hmore, attempts_write hwrite, List.append_assoc]
  | refuses hne hwrite rest =>
    refine ⟨_, attempts_write hwrite, .single (iff_of_false (Option.some_ne_none _) ?_)⟩
    simp only [Attempt.losesPayload, decide_true, Bool.true_eq_false, not_false_eq_true]
  | fails hne hwrite he rest =>
    refine ⟨_, attempts_write hwrite, .single (iff_of_false (Option.some_ne_none _) ?_)⟩
    simp only [Attempt.losesPayload, he, Bool.not_false, Bool.true_eq_false, not_false_eq_true]

end Sink

end FileFerry
