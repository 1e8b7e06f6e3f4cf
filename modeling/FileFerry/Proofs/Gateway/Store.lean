import FileFerry.Proofs.Gateway.Local

/-!
# Gateways that keep files

What it is for a gateway to be a store at one path, and that the served tree is one at every path
that leads to a file.
-/

set_option autoImplicit false

namespace FileFerry

/-- The gateway keeps files at a path: what was written to the file while it was `opened` is `kept`
there when it is closed, and is what opening it brings. -/
structure StoresAt {γ : Type} [Gateway γ] (p : Path) (opened : Sink γ → Bytes → Prop)
    (kept : γ → Bytes → Prop) : Prop where
  accepts : Writer.Accepts opened
  close : ∀ {s : Sink γ} {b : Bytes}, opened s b → kept (Gateway.close s.gateway s.handle) b
  found : ∀ {g : γ} {b : Bytes}, kept g b → ∃ g', Gateway.exists g p = (true, g') ∧ kept g' b
  openFile : ∀ {g : γ} {b : Bytes}, kept g b →
    ∃ src g', Gateway.openFile g p = (.ok src, g') ∧ src.content = b ∧ kept g' b

/-- What is written to a file is in it, as far as that goes well, and is `kept` when the file is closed. -/
structure KeepsWrites {γ : Type} [Gateway γ] (opened : Sink γ → Bytes → Prop) (kept : γ → Bytes → Prop) : Prop where
  write : ∀ {s s' : Sink γ} {b c : Bytes} {n : Nat},
    opened s b → Writer.write s c = (.ok n, s') → opened s' (b ++ c.take n)
  again : ∀ {s s' : Sink γ} {b c : Bytes} {e : IoError},
    opened s b → Writer.write s c = (.error e, s') → e.isInterrupted = true → opened s' b
  flush : ∀ {s s' : Sink γ} {b : Bytes}, opened s b → Writer.flush s = (.ok (), s') → opened s' b
  close : ∀ {s : Sink γ} {b : Bytes}, opened s b → kept (Gateway.close s.gateway s.handle) b

namespace FileTree

variable {t : FileTree} {id : NodeId} {old : Bytes}

theorem node?_setNode_of_ne {other : NodeId} (hne : id ≠ other) (node : Node) :
    (t.setNode id node).node? other = t.node? other := by
  simp [node?, setNode, hne]

/-- What a walk looks at in a node. -/
theorem entries?_setNode_file (h : t.node? id = some (.file old)) (new : Bytes) (other : NodeId) :
    (t.setNode id (.file new)).entries? other = t.entries? other := by
  unfold entries?
  by_cases hid : id = other
  · subst hid
    rw [node?_setNode h, h]
  · rw [node?_setNode_of_ne hid]

theorem symlink_setNode_file_iff (h : t.node? id = some (.file old)) (new : Bytes) (other : NodeId)
    (target : Bytes) :
    (t.setNode id (.file new)).node? other = some (.symlink target) ↔
      t.node? other = some (.symlink target) := by
  by_cases hid : id = other
  · subst hid
    rw [node?_setNode h, h]
    simp
  · rw [node?_setNode_of_ne hid]

/-- Walks do not look into files. -/
theorem walk_setNode_file (h : t.node? id = some (.file old)) (new : Bytes) (purpose : Purpose)
    (links : Nat) (trail : Trail) (names : List Bytes) (asDir : Bool) :
    walk (t.setNode id (.file new)) purpose links trail names asDir =
      walk t purpose links trail names asDir := by
  have hentries := entries?_setNode_file h new
  have hlink := symlink_setNode_file_iff h new
  fun_induction walk t purpose links trail names asDir with
  | case1 => rw [walk]
  | case2 links trail name rest asDir hnone => rw [walk, hentries, hnone]
  | case3 links trail name rest asDir entries hsome hmake =>
    simp only [walk, hentries, hsome, if_pos hmake]
  | case4 links trail rest asDir entries hsome hmake ih =>
    simp only [walk, hentries, hsome, if_neg hmake, ↓reduceIte, ih]
  | case5 links trail rest asDir entries hsome hmake hdot ih =>
    simp only [walk, hentries, hsome, if_neg hmake, if_neg hdot, ↓reduceIte, ih]
  | case6 links trail name rest asDir entries hsome hmake hdot hdotdot hlong =>
    simp only [walk, hentries, hsome, if_neg hmake, if_neg hdot, if_neg hdotdot, if_pos hlong]
  | case7 links trail name asDir entries hsome hdot hdotdot hlen hnone hmake =>
    have hmake' : ¬ (purpose = .make ∧ asDir = true) := by simpa using hmake
    simp only [walk, hentries, hsome, and_true, if_neg hmake', if_neg hdot, if_neg hdotdot, if_neg hlen,
      hnone, ↓reduceIte]
  | case8 links trail name rest asDir entries hsome hmake hdot hdotdot hlen hnone hrest =>
    simp only [walk, hentries, hsome, if_neg hmake, if_neg hdot, if_neg hdotdot, if_neg hlen, hnone,
      if_neg hrest]
  | case9 trail name rest asDir entries hsome hmake hdot hdotdot hlen id' hfound target htarget =>
    simp only [walk, hentries, hsome, if_neg hmake, if_neg hdot, if_neg hdotdot, if_neg hlen, hfound,
      (hlink id' target).mpr htarget]
  | case10 trail name rest asDir entries hsome hmake hdot hdotdot hlen id' hfound target htarget links ih =>
    simp only [walk, hentries, hsome, if_neg hmake, if_neg hdot, if_neg hdotdot, if_neg hlen, hfound,
      (hlink id' target).mpr htarget]
    exact ih
  | case11 links trail name rest asDir entries hsome hmake hdot hdotdot hlen id' hfound hother ih =>
    simp only [walk, hentries, hsome, if_neg hmake, if_neg hdot, if_neg hdotdot, if_neg hlen, hfound]
    split
    · rename_i target htarget
      exact (hother target ((hlink id' target).mp htarget)).elim
    · exact ih

theorem find_setNode_file (h : t.node? id = some (.file old)) (new : Bytes) (p : Path) :
    (t.setNode id (.file new)).find p = t.find p := by
  have hsettle (place : Place × Bool) : (t.setNode id (.file new)).settle place = t.settle place := by
    unfold settle isDirectory
    split
    · rfl
    · rw [entries?_setNode_file h]
  simp only [find, place, walk_setNode_file h]
  congr 1
  funext _
  congr 1
  funext _
  congr 1
  funext place
  exact hsettle place

end FileTree

/-! ## Names in the top directory -/

/-- A name for an entry of a directory. -/
structure IsName (name : Bytes) : Prop where
  ne_nil : name ≠ []
  slash_not_mem : Path.slash ∉ name
  nul_not_mem : 0 ∉ name
  ne_dot : name ≠ Path.dot
  ne_dotDot : name ≠ Path.dotDot
  length_le : name.length ≤ FileTree.maxName

theorem isName_a : IsName [97] := ⟨by decide, by decide, by decide, by decide, by decide, by decide⟩

namespace Path

theorem pieces_of_slash_not_mem {b : Bytes} (h : slash ∉ b) : pieces b = [b] := by
  induction b with
  | nil => rfl
  | cons c b ih =>
    obtain ⟨hc, hb⟩ := not_or.mp fun hmem => h (List.mem_cons.mpr hmem)
    rw [pieces, if_neg (Ne.symm hc), ih hb]

variable {name : Bytes} (h : IsName name)
include h

theorem names_top : names (slash :: name) = [name] := by
  rw [names, pieces, if_pos rfl, pieces_of_slash_not_mem h.slash_not_mem]
  simp [h.ne_nil]

theorem endsInSlash_top : endsInSlash (slash :: name) = false := by
  rw [endsInSlash, decide_eq_false_iff_not, List.getLast?_cons_of_ne_nil h.ne_nil]
  exact fun hlast => h.slash_not_mem (List.mem_of_getLast? hlast)

end Path

namespace FileTree

theorem node?_of_entries? {t : FileTree} {id : NodeId} {entries : List (Bytes × NodeId)}
    (h : t.entries? id = some entries) : t.node? id = some (.directory entries) := by
  unfold entries? at h
  split at h
  · cases h
    assumption
  · cases h

theorem isDirectory_eq_false {t : FileTree} {id : NodeId} {b : Bytes} (h : t.node? id = some (.file b)) :
    t.isDirectory id = false := by
  simp [isDirectory, entries?, h]

/-- A new entry of the top directory, and the new node that it leads to. -/
theorem entries?_add {t : FileTree} {entries : List (Bytes × NodeId)} (htop : t.entries? root = some entries)
    (name : Bytes) (node : Node) :
    ∃ entries', (t.add root name node).2.entries? root = some entries' ∧
      entries'.lookup name = some t.nodes.size ∧ (t.add root name node).2.node? t.nodes.size = some node := by
  obtain ⟨hlt, hget⟩ := Array.getElem?_eq_some_iff.mp (node?_of_entries? htop)
  have hold : (t.addNode node).2.node? root = some (.directory entries) := by
    simp [addNode, node?, Array.getElem?_push_lt hlt, hget]
  have hnew : (t.addNode node).2.node? t.nodes.size = some node := by
    simp [addNode, node?]
  have hadd : (t.add root name node).2 =
      (t.addNode node).2.setNode root (.directory ((name, t.nodes.size) :: entries.filter fun e => e.1 ≠ name)) := by
    simp only [add, link, entries?, hold]
    rfl
  refine ⟨(name, t.nodes.size) :: entries.filter fun e => e.1 ≠ name, ?_, by simp, ?_⟩
  · rw [hadd, entries?, node?_setNode hold]
  · rw [hadd, node?_setNode_of_ne (Nat.ne_of_lt hlt)]
    exact hnew

section Top

variable {t : FileTree} {name : Bytes} (h : IsName name) {entries : List (Bytes × NodeId)}
  (htop : t.entries? root = some entries)
include h

theorem checkPath_top : checkPath ⟨Path.slash :: name⟩ = .ok () := by
  simp [checkPath, h.nul_not_mem, Path.slash]

theorem checkLength_top : checkLength ⟨Path.slash :: name⟩ = .ok () := by
  have hlen := h.length_le
  rw [maxName] at hlen
  rw [checkLength, maxPath, if_neg]
  rw [List.length_cons]
  omega

theorem place_top (t : FileTree) (purpose : Purpose) :
    t.place ⟨Path.slash :: name⟩ purpose = walk t purpose maxLinks [] [name] false := by
  rw [place, checkPath_top h, Path.names_top h, Path.endsInSlash_top h]
  rfl

include htop

theorem walk_of_vacant (hnone : entries.lookup name = none) (purpose : Purpose) (links : Nat) :
    walk t purpose links [] [name] false = .ok (.vacant [] name, false) := by
  have hlen := Nat.not_lt.mpr h.length_le
  simp only [walk, Trail.node, htop, if_neg h.ne_dot, if_neg h.ne_dotDot, if_neg hlen, hnone]
  simp

theorem walk_of_file {id : NodeId} {content : Bytes} (hsome : entries.lookup name = some id)
    (hnode : t.node? id = some (.file content)) (purpose : Purpose) (links : Nat) :
    walk t purpose links [] [name] false = .ok (.node [(name, id)], false) := by
  have hlen := Nat.not_lt.mpr h.length_le
  simp only [walk, Trail.node, htop, if_neg h.ne_dot, if_neg h.ne_dotDot, if_neg hlen, hsome, hnode]
  simp

theorem find_of_file {id : NodeId} {content : Bytes} (hsome : entries.lookup name = some id)
    (hnode : t.node? id = some (.file content)) : t.find ⟨Path.slash :: name⟩ = .ok [(name, id)] := by
  rw [find, checkPath_top h, checkLength_top h, place_top h, walk_of_file h htop hsome hnode]
  rfl

theorem create_of_vacant (hnone : entries.lookup name = none) :
    t.create ⟨Path.slash :: name⟩ = .ok (t.add root name (.file [])) := by
  rw [create, checkPath_top h, checkLength_top h, place_top h, walk_of_vacant h htop hnone]
  rfl

end Top

theorem find_top {t : FileTree} {entries : List (Bytes × NodeId)} (htop : t.entries? root = some entries) :
    t.find ⟨[Path.slash]⟩ = .ok [] := by
  have hplace : t.place ⟨[Path.slash]⟩ .visit = .ok (.node [], true) := by
    change walk t .visit maxLinks [] [] true = _
    rw [walk]
  have hsettle : t.settle (.node [], true) = .ok [] := by
    simp [settle, isDirectory, Trail.node, htop]
  change (t.place ⟨[Path.slash]⟩ .visit >>= t.settle) = _
  rw [hplace]
  exact hsettle

/-- The listing of a top directory with one file in it. -/
theorem list_of_file {t : FileTree} {name : Bytes} {id : NodeId} {content : Bytes} (hname : IsName name)
    (htop : t.entries? root = some [(name, id)]) (hnode : t.node? id = some (.file content)) :
    t.list ⟨[Path.slash]⟩ = .ok [⟨Utf8.decodeLossy name, false⟩] := by
  have hwalk := walk_of_file hname htop (by simp) hnode .visit maxLinks
  have hentries : t.entries? (Trail.node []) = some [(name, id)] := htop
  have hfile : t.isDirectory (Trail.node [(name, id)]) = false := isDirectory_eq_false hnode
  rw [list, find_top htop]
  simp only [bind, Except.bind, hentries, List.map_cons, List.map_nil, hwalk, hfile, List.mergeSort_singleton]

end FileTree

namespace LocalFiles

def openFile? (f : LocalFiles) (handle : Nat) : Option OpenFile := f.opened[handle]?

/-- A path leads to a file with this content. -/
def KeptAt (p : Path) (f : LocalFiles) (b : Bytes) : Prop :=
  ∃ trail, f.tree.find p = .ok trail ∧ f.tree.node? trail.node = some (.file b)

def OpenAt (p : Path) (s : Sink LocalFiles) (b : Bytes) : Prop :=
  ∃ trail, s.gateway.tree.find p = .ok trail ∧ s.gateway.tree.node? trail.node = some (.file b) ∧
    s.gateway.openFile? s.handle = some ⟨trail.node, b.length⟩

theorem write_openAt {p : Path} {f : LocalFiles} {handle : Nat} {b : Bytes} (h : OpenAt p ⟨f, handle⟩ b)
    (c : Bytes) : ∃ f', f.write handle c = (.ok c.length, f') ∧ OpenAt p ⟨f', handle⟩ (b ++ c) := by
  obtain ⟨trail, hfind, hnode, hopen⟩ := h
  obtain ⟨hlt, hget⟩ := List.getElem?_eq_some_iff.mp hopen
  have hpatch : FileTree.patch b b.length c = b ++ c := by simp [FileTree.patch]
  refine ⟨⟨f.tree.setNode trail.node (.file (b ++ c)), f.home,
    f.opened.set handle ⟨trail.node, b.length + c.length⟩⟩, ?_, trail, ?_, ?_, ?_⟩
  · simp [write, hlt, hget, FileTree.writeAt, hnode, hpatch]
  · exact (FileTree.find_setNode_file hnode _ p).trans hfind
  · exact FileTree.node?_setNode hnode _
  · simp [openFile?, hlt]

theorem storesAt (p : Path) : StoresAt p (OpenAt p) (KeptAt p) where
  accepts := by
    constructor
    · rintro ⟨f, handle⟩ b c h hc
      obtain ⟨x, xs, rfl⟩ := List.exists_cons_of_ne_nil hc
      obtain ⟨f', hwrite, hopen⟩ := write_openAt h (x :: xs)
      refine .inl ⟨xs.length, ⟨f', handle⟩, ?_, ?_⟩
      · change ((f.write handle (x :: xs)).1, (⟨(f.write handle (x :: xs)).2, handle⟩ : Sink LocalFiles)) = _
        rw [hwrite]
        rfl
      · rwa [← List.length_cons (a := x), List.take_length]
    · rintro ⟨f, handle⟩ b h
      exact ⟨⟨f, handle⟩, rfl, h⟩
  close := by
    rintro ⟨f, handle⟩ b ⟨trail, hfind, hnode, _⟩
    exact ⟨trail, hfind, hnode⟩
  found := by
    rintro f b ⟨trail, hfind, hnode⟩
    refine ⟨f, ?_, trail, hfind, hnode⟩
    change (f.tree.exists p, f) = (true, f)
    rw [FileTree.exists, hfind]
    rfl
  openFile := by
    rintro f b ⟨trail, hfind, hnode⟩
    refine ⟨[.bytes b], f, ?_, ?_, trail, hfind, hnode⟩
    · change (f.tree.openFile p, f) = _
      simp only [FileTree.openFile, hfind, bind, Except.bind, FileTree.isDirectory_eq_false hnode,
        FileTree.sourceOf, hnode]
      rfl
    · simp [Source.content]

theorem keepsWrites (p : Path) : KeepsWrites (OpenAt p) (KeptAt p) where
  write := by
    rintro ⟨f, handle⟩ s' b c n h hwrite
    obtain ⟨f', hwritten, hopen⟩ := write_openAt h c
    have hresult : (Writer.write (⟨f, handle⟩ : Sink LocalFiles) c) = (.ok c.length, ⟨f', handle⟩) := by
      change ((f.write handle c).1, (⟨(f.write handle c).2, handle⟩ : Sink LocalFiles)) = _
      rw [hwritten]
    rw [hresult] at hwrite
    cases hwrite
    rwa [List.take_length]
  again := by
    rintro ⟨f, handle⟩ s' b c e - hwrite he
    have herror : (f.write handle c).1 = .error e := congrArg Prod.fst hwrite
    rw [isInterrupted_of_write_error herror] at he
    cases he
  flush := by
    rintro ⟨f, handle⟩ s' b h hflush
    cases hflush
    exact h
  close := (storesAt p).close

/-- A file made under a name that the top directory lacks. -/
theorem create_of_vacant {f : LocalFiles} {name : Bytes} (hname : IsName name) {entries : List (Bytes × NodeId)}
    (htop : f.tree.entries? FileTree.root = some entries) (hnone : entries.lookup name = none) :
    ∃ f' : LocalFiles, Gateway.create f ⟨Path.slash :: name⟩ = (.ok f.opened.length, f') ∧
      OpenAt ⟨Path.slash :: name⟩ ⟨f', f.opened.length⟩ [] := by
  obtain ⟨entries', htop', hlookup, hnode⟩ := FileTree.entries?_add htop name (.file [])
  refine ⟨⟨(f.tree.add FileTree.root name (.file [])).2, f.home, f.opened ++ [⟨f.tree.nodes.size, 0⟩]⟩, ?_,
    [(name, f.tree.nodes.size)], FileTree.find_of_file hname htop' hlookup hnode, hnode, ?_⟩
  · change LocalFiles.create _ _ = _
    rw [LocalFiles.create, FileTree.create_of_vacant hname htop hnone]
    rfl
  · simp [openFile?, Trail.node]

/-- A file made in a tree with nothing in it. -/
theorem create_empty :
    ∃ f : LocalFiles, Gateway.create (⟨.empty, ⟨[Path.slash]⟩, []⟩ : LocalFiles) ⟨[Path.slash, 97]⟩ =
        (.ok (0 : Nat), f) ∧
      OpenAt ⟨[Path.slash, 97]⟩ ⟨f, (0 : Nat)⟩ [] :=
  create_of_vacant isName_a rfl rfl

end LocalFiles

end FileFerry
