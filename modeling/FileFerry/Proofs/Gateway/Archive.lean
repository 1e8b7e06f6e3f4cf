import FileFerry.Gateway.Recorded
import FileFerry.Proofs.Gateway.Steady

/-!
# Gateways that remember what they were told

An archive is any gateway together with the bytes that every file created on it took. Like the
record of the calls it does not change what a gateway answers, and a steady gateway stays steady
under both.
-/

set_option autoImplicit false

namespace FileFerry

structure Archive (γ : Type) where
  inner : γ
  /-- Every file created, in order, with the bytes it took. -/
  files : List (Path × Bytes)

namespace Archive

variable {γ : Type}

def onInner {α : Type} (g : Archive γ) (outcome : α × γ) : α × Archive γ :=
  (outcome.1, { g with inner := outcome.2 })

def addBytes (files : List (Path × Bytes)) (i : Nat) (b : Bytes) : List (Path × Bytes) :=
  files.modify i fun file => (file.1, file.2 ++ b)

theorem addBytes_nil (files : List (Path × Bytes)) (i : Nat) : addBytes files i [] = files := by
  simp only [addBytes, List.append_nil]
  exact List.modify_id i files

theorem addBytes_append (files : List (Path × Bytes)) (i : Nat) (a b : Bytes) :
    addBytes files i (a ++ b) = addBytes (addBytes files i a) i b := by
  unfold addBytes
  rw [List.modify_modify_eq]
  congr 1
  funext file
  simp

variable [Gateway γ]

def create (g : Archive γ) (p : Path) : Except IoError (Gateway.Handle γ × Nat) × Archive γ :=
  match Gateway.create g.inner p with
  | (.ok h, inner) => (.ok (h, g.files.length), ⟨inner, g.files ++ [(p, [])]⟩)
  | (.error e, inner) => (.error e, { g with inner })

def write (g : Archive γ) (h : Gateway.Handle γ × Nat) (b : Bytes) : Except IoError Nat × Archive γ :=
  match Gateway.write g.inner h.1 b with
  | (.ok n, inner) => (.ok n, ⟨inner, addBytes g.files h.2 (b.take n)⟩)
  | (.error e, inner) => (.error e, { g with inner })

theorem write_eq (g : Archive γ) (h : Gateway.Handle γ × Nat) (b : Bytes) :
    (g.write h b).1 = (Gateway.write g.inner h.1 b).1 ∧
      (g.write h b).2.inner = (Gateway.write g.inner h.1 b).2 := by
  unfold write
  split <;> simp [*]

instance : Gateway (Archive γ) where
  Handle := Gateway.Handle γ × Nat
  home g := Gateway.home g.inner
  «exists» g p := g.onInner (Gateway.exists g.inner p)
  mkdir g p := g.onInner (Gateway.mkdir g.inner p)
  remove g p := g.onInner (Gateway.remove g.inner p)
  chdir g p := g.onInner (Gateway.chdir g.inner p)
  list g p := g.onInner (Gateway.list g.inner p)
  openFile g p := g.onInner (Gateway.openFile g.inner p)
  create := create
  write := write
  flush g h := g.onInner (Gateway.flush g.inner h.1)
  close g h := { g with inner := Gateway.close g.inner h.1 }
  patience g h := Gateway.patience g.inner h.1
  patience_lt g h b e he hi := by
    obtain ⟨hresult, hinner⟩ := g.write_eq h b
    rw [hinner]
    exact Gateway.patience_lt g.inner h.1 b e (hresult ▸ he) hi

end Archive

open SteadyGateway

variable {γ : Type} [Gateway γ] [SteadyGateway γ]

namespace Recorded

def Same (g g' : Recorded γ) : Prop := SteadyGateway.Same g.inner g'.inner ∧ g.calls = g'.calls

theorem alike_note {α : Type} {g g' : Recorded γ} (hg : g.Same g') (call : GatewayCall)
    {outcome outcome' : α × γ} (h : Alike SteadyGateway.Same outcome outcome') :
    Alike Same (g.note call outcome) (g'.note call outcome') :=
  ⟨h.1, h.2, congrArg (· ++ [call]) hg.2⟩

def fault (g : Recorded γ) (h : Gateway.Handle (Recorded γ)) : Option IoError :=
  SteadyGateway.fault g.inner h

def put (g : Recorded γ) (h : Gateway.Handle (Recorded γ)) (b : UInt8) : Recorded γ :=
  { g with inner := SteadyGateway.put g.inner h b }

theorem storeBytes_eq (g : Recorded γ) (h : Gateway.Handle (Recorded γ)) (b : Bytes) :
    storeBytes fault put h g b =
      ((store g.inner h b).1, { g with inner := (store g.inner h b).2 }) := by
  induction b generalizing g with
  | nil => rfl
  | cons c b ih =>
    rw [store_cons, storeBytes, fault]
    split
    · rfl
    · exact ih (g.put h c)

instance : SteadyGateway (Recorded γ) where
  Same := Same
  same_equivalence :=
    ⟨fun _ => ⟨same_refl _, rfl⟩, fun h => ⟨same_symm h.1, h.2.symm⟩,
      fun h h' => ⟨same_trans h.1 h'.1, h.2.trans h'.2⟩⟩
  fault := fault
  put := put
  fault_congr h hg := fault_congr (γ := γ) h hg.1
  put_congr h b hg := ⟨put_congr (γ := γ) h b hg.1, hg.2⟩
  write_ok := by
    intro g g' h b n hb hw
    obtain ⟨hresult, rfl⟩ := Prod.mk.inj hw
    obtain ⟨hn, ⟨hnone, hsame⟩, hzero⟩ := write_ok (γ := γ) hb (Prod.ext hresult rfl)
    rw [storeBytes_eq]
    exact ⟨hn, ⟨hnone, hsame, rfl⟩, hzero⟩
  write_error := by
    intro g g' h b e hb hw
    obtain ⟨hresult, rfl⟩ := Prod.mk.inj hw
    obtain ⟨hsame, hfault⟩ := write_error (γ := γ) hb (Prod.ext hresult rfl)
    exact ⟨⟨hsame, rfl⟩, hfault⟩
  flush_congr h hg := ⟨(flush_congr (γ := γ) h hg.1).1, (flush_congr (γ := γ) h hg.1).2, hg.2⟩
  close_congr h hg := ⟨close_congr (γ := γ) h hg.1, hg.2⟩
  exists_congr p hg := alike_note hg _ (exists_congr p hg.1)
  mkdir_congr p hg := alike_note hg _ (mkdir_congr p hg.1)
  remove_congr p hg := alike_note hg _ (remove_congr p hg.1)
  chdir_congr p hg := alike_note hg _ (chdir_congr p hg.1)
  list_congr p hg := alike_note hg _ (list_congr p hg.1)
  openFile_congr p hg := alike_note hg _ (openFile_congr p hg.1)
  create_congr p hg := alike_note hg _ (create_congr p hg.1)

end Recorded

namespace Archive

def Same (g g' : Archive γ) : Prop := SteadyGateway.Same g.inner g'.inner ∧ g.files = g'.files

theorem alike_onInner {α : Type} {g g' : Archive γ} (hg : g.Same g') {outcome outcome' : α × γ}
    (h : Alike SteadyGateway.Same outcome outcome') :
    Alike Same (g.onInner outcome) (g'.onInner outcome') :=
  ⟨h.1, h.2, hg.2⟩

def fault (g : Archive γ) (h : Gateway.Handle (Archive γ)) : Option IoError :=
  SteadyGateway.fault g.inner h.1

def put (g : Archive γ) (h : Gateway.Handle (Archive γ)) (b : UInt8) : Archive γ :=
  ⟨SteadyGateway.put g.inner h.1 b, addBytes g.files h.2 [b]⟩

theorem storeBytes_eq {g : Archive γ} {h : Gateway.Handle (Archive γ)} {b : Bytes}
    (hb : (store g.inner h.1 b).1 = none) :
    storeBytes fault put h g b =
      (none, ⟨(store g.inner h.1 b).2, addBytes g.files h.2 b⟩) := by
  induction b generalizing g with
  | nil => rw [addBytes_nil]; rfl
  | cons c b ih =>
    rw [store_cons] at hb ⊢
    rw [storeBytes, fault]
    cases hf : SteadyGateway.fault g.inner h.1 with
    | some e => rw [hf] at hb; cases hb
    | none =>
      rw [hf] at hb
      rw [show c :: b = [c] ++ b from rfl, addBytes_append]
      exact ih (g := g.put h c) hb

theorem alike_create {g g' : Archive γ} (p : Path) (hg : g.Same g') :
    Alike Same (g.create p) (g'.create p) := by
  obtain ⟨hresult, hstate⟩ := create_congr p hg.1
  unfold create
  rcases hc : Gateway.create g.inner p with ⟨result, inner⟩
  rcases hc' : Gateway.create g'.inner p with ⟨result', inner'⟩
  rw [hc, hc'] at hresult hstate
  obtain rfl : result = result' := hresult
  cases result with
  | error e => exact ⟨rfl, hstate, hg.2⟩
  | ok h =>
    obtain ⟨_, hfiles⟩ := hg
    exact ⟨by simp [hfiles], hstate, by simp [hfiles]⟩

instance : SteadyGateway (Archive γ) where
  Same := Same
  same_equivalence :=
    ⟨fun _ => ⟨same_refl _, rfl⟩, fun h => ⟨same_symm h.1, h.2.symm⟩,
      fun h h' => ⟨same_trans h.1 h'.1, h.2.trans h'.2⟩⟩
  fault := fault
  put := put
  fault_congr h hg := fault_congr (γ := γ) h.1 hg.1
  put_congr h b hg := ⟨put_congr (γ := γ) h.1 b hg.1, by rw [put, put, hg.2]⟩
  write_ok := by
    intro g g' h b n hb hw
    change g.write h b = _ at hw
    rcases hinner : Gateway.write g.inner h.1 b with ⟨result, inner⟩
    rw [write, hinner] at hw
    cases result with
    | error e => cases hw
    | ok m =>
      cases hw
      obtain ⟨hn, ⟨hnone, hsame⟩, hzero⟩ := write_ok (γ := γ) hb hinner
      rw [storeBytes_eq hnone.symm]
      exact ⟨hn, ⟨rfl, hsame, rfl⟩, hzero⟩
  write_error := by
    intro g g' h b e hb hw
    change g.write h b = _ at hw
    rcases hinner : Gateway.write g.inner h.1 b with ⟨result, inner⟩
    rw [write, hinner] at hw
    cases result with
    | ok m => cases hw
    | error e' =>
      cases hw
      obtain ⟨hsame, hfault⟩ := write_error (γ := γ) hb hinner
      exact ⟨⟨hsame, rfl⟩, hfault⟩
  flush_congr h hg := alike_onInner hg (flush_congr (γ := γ) h.1 hg.1)
  close_congr h hg := ⟨close_congr (γ := γ) h.1 hg.1, hg.2⟩
  exists_congr p hg := alike_onInner hg (exists_congr p hg.1)
  mkdir_congr p hg := alike_onInner hg (mkdir_congr p hg.1)
  remove_congr p hg := alike_onInner hg (remove_congr p hg.1)
  chdir_congr p hg := alike_onInner hg (chdir_congr p hg.1)
  list_congr p hg := alike_onInner hg (list_congr p hg.1)
  openFile_congr p hg := alike_onInner hg (openFile_congr p hg.1)
  create_congr := alike_create

end Archive

end FileFerry
