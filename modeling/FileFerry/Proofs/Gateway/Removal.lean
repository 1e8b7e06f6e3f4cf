import FileFerry.Proofs.Gateway.Store

/-!
# A removed file is gone

A walk to the directory that holds a name may look that very name up on its way. Without the name it
comes to nothing there, and otherwise it ends where it did. So once a name is taken out of its directory
its path leads nowhere (`find_of_remove`).
-/

set_option autoImplicit false

namespace FileFerry

/-- What was made at a path can be taken away, whatever was written to it and however that went. -/
structure Discards {γ : Type} [Gateway γ] (p : Path) (made : Sink γ → Prop) (gone : γ → Prop) : Prop where
  write : ∀ (s : Sink γ) (b : Bytes), made s → made (Writer.write s b).2
  flush : ∀ (s : Sink γ), made s → made (Writer.flush s).2
  remove : ∀ {s : Sink γ}, made s → gone (Gateway.remove (Gateway.close s.gateway s.handle) p).2

theorem bind_eq_ok_iff {ε α β : Type} {x : Except ε α} {f : α → Except ε β} {b : β} :
    (x >>= f) = .ok b ↔ ∃ a, x = .ok a ∧ f a = .ok b := by
  cases x <;> simp [bind, Except.bind]

namespace FileTree

variable {t : FileTree}

theorem lookup_filter_ne (entries : List (Bytes × NodeId)) (name x : Bytes) :
    (entries.filter fun e => e.1 ≠ name).lookup x = if x = name then none else entries.lookup x := by
  induction entries with
  | nil => simp
  | cons e entries ih =>
    obtain ⟨k, id⟩ := e
    by_cases hk : k = name
    · subst hk
      rw [List.filter_cons_of_neg (by simp), ih]
      by_cases hx : x = k
      · rw [if_pos hx, if_pos hx]
      · rw [if_neg hx, if_neg hx, List.lookup_cons, beq_eq_false_iff_ne.mpr hx]
    · rw [List.filter_cons_of_pos (by simpa using hk), List.lookup_cons, List.lookup_cons, ih]
      by_cases hx : x = k
      · subst hx
        simp [hk]
      · rw [beq_eq_false_iff_ne.mpr hx]

/-- A directory stays one, and lacks the name if it is the one that held it. -/
theorem entries?_unlink (d : NodeId) (name : Bytes) {other : NodeId} {entries : List (Bytes × NodeId)}
    (h : t.entries? other = some entries) :
    ∃ entries', (t.unlink d name).entries? other = some entries' ∧
      ∀ x, entries'.lookup x = if other = d ∧ x = name then none else entries.lookup x := by
  by_cases hother : other = d
  · subst hother
    refine ⟨entries.filter fun e => e.1 ≠ name, ?_, fun x => ?_⟩
    · rw [unlink, h, entries?, node?_setNode (node?_of_entries? h)]
    · rw [lookup_filter_ne]
      simp
  · refine ⟨entries, ?_, fun x => by simp [hother]⟩
    unfold unlink
    split
    · exact h
    · rw [entries?, node?_setNode_of_ne (Ne.symm hother)]
      exact h

/-- No link is made or lost. -/
theorem symlink_unlink_iff (d : NodeId) (name : Bytes) (other : NodeId) (target : Bytes) :
    (t.unlink d name).node? other = some (.symlink target) ↔ t.node? other = some (.symlink target) := by
  unfold unlink
  split
  · rfl
  · rename_i entries hd
    by_cases hother : d = other
    · subst hother
      rw [node?_setNode (node?_of_entries? hd), node?_of_entries? hd]
      simp
    · rw [node?_setNode_of_ne hother]

/-! ## One step of a walk -/

section Steps

variable {links : Nat} {trail : Trail} {x : Bytes} {rest : List Bytes} {entries : List (Bytes × NodeId)}

theorem walk_dot (h : t.entries? trail.node = some entries) (asDir : Bool) :
    walk t .visit links trail (Path.dot :: rest) asDir = walk t .visit links trail rest asDir := by
  rw [walk, h]
  simp

theorem walk_dotDot (h : t.entries? trail.node = some entries) (asDir : Bool) :
    walk t .visit links trail (Path.dotDot :: rest) asDir = walk t .visit links trail.tail rest asDir := by
  have hne : Path.dotDot ≠ Path.dot := by decide
  rw [walk, h]
  simp [hne]

theorem walk_long (h : t.entries? trail.node = some entries) (hdot : x ≠ Path.dot) (hdotdot : x ≠ Path.dotDot)
    (hlong : maxName < x.length) (asDir : Bool) :
    walk t .visit links trail (x :: rest) asDir = .error (.os 36) := by
  rw [walk, h]
  simp [hdot, hdotdot, hlong]

theorem walk_absent (h : t.entries? trail.node = some entries) (hdot : x ≠ Path.dot) (hdotdot : x ≠ Path.dotDot)
    (hlen : ¬ maxName < x.length) (habsent : entries.lookup x = none) (asDir : Bool) :
    walk t .visit links trail (x :: rest) asDir =
      if rest = [] then .ok (.vacant trail x, asDir) else .error (.os 2) := by
  rw [walk, h]
  simp [hdot, hdotdot, hlen, habsent]

theorem walk_link (h : t.entries? trail.node = some entries) (hdot : x ≠ Path.dot) (hdotdot : x ≠ Path.dotDot)
    (hlen : ¬ maxName < x.length) {id : NodeId} (hfound : entries.lookup x = some id) {target : Bytes}
    (htarget : t.node? id = some (.symlink target)) (asDir : Bool) :
    walk t .visit (links + 1) trail (x :: rest) asDir =
      walk t .visit links (if target.head? = some Path.slash then [] else trail) (Path.names target ++ rest)
        (if rest = [] then asDir || Path.endsInSlash target else asDir) := by
  rw [walk, h]
  simp [hdot, hdotdot, hlen, hfound, htarget]

theorem walk_enters (h : t.entries? trail.node = some entries) (hdot : x ≠ Path.dot) (hdotdot : x ≠ Path.dotDot)
    (hlen : ¬ maxName < x.length) {id : NodeId} (hfound : entries.lookup x = some id)
    (hother : ∀ target, t.node? id ≠ some (.symlink target)) (asDir : Bool) :
    walk t .visit links trail (x :: rest) asDir = walk t .visit links ((x, id) :: trail) rest asDir := by
  rw [walk, h]
  simp [hdot, hdotdot, hlen, hfound]

end Steps

/-- A walk that comes to no node. -/
def Misses (result : Except IoError (Place × Bool)) : Prop := ∀ trail asDir, result ≠ .ok (.node trail, asDir)

/-- The name that is taken out may be met on the way to a directory; the walk is lost there. -/
theorem walk_unlink {links : Nat} {trail dir : Trail} {names : List Bytes} {a b : Bool}
    (h : walk t .visit links trail names a = .ok (.node dir, b)) (d : NodeId) (name last : Bytes)
    (asDir : Bool) :
    Misses (walk (t.unlink d name) .visit links trail (names ++ [last]) asDir) ∨
      ∃ left, walk t .visit links trail (names ++ [last]) asDir = walk t .visit left dir [last] asDir ∧
        walk (t.unlink d name) .visit links trail (names ++ [last]) asDir =
          walk (t.unlink d name) .visit left dir [last] asDir := by
  have hmore (rest : List Bytes) : rest ++ [last] ≠ [] := by simp
  fun_induction walk t .visit links trail names a with
  | case1 links trail a =>
    cases h
    exact .inr ⟨links, rfl, rfl⟩
  | case2 | case3 | case6 | case7 | case8 | case9 => cases h
  | case4 links trail rest a entries hsome _ ih =>
    obtain ⟨entries', hkept, -⟩ := entries?_unlink d name hsome
    rw [List.cons_append, walk_dot hsome, walk_dot hkept]
    exact ih h
  | case5 links trail rest a entries hsome _ hdot ih =>
    obtain ⟨entries', hkept, -⟩ := entries?_unlink d name hsome
    rw [List.cons_append, walk_dotDot hsome, walk_dotDot hkept]
    exact ih h
  | case10 trail x rest a entries hsome _ hdot hdotdot hlen id hfound target htarget links ih =>
    obtain ⟨entries', hkept, hlookup⟩ := entries?_unlink d name hsome
    by_cases hmet : trail.node = d ∧ x = name
    · left
      rw [List.cons_append, walk_absent hkept hdot hdotdot hlen ((hlookup x).trans (if_pos hmet)),
        if_neg (hmore rest)]
      intro _ _ hok
      cases hok
    · have hfound' := (hlookup x).trans ((if_neg hmet).trans hfound)
      have htarget' := (symlink_unlink_iff d name id target).mpr htarget
      rw [List.cons_append, walk_link hsome hdot hdotdot hlen hfound htarget, if_neg (hmore rest),
        walk_link hkept hdot hdotdot hlen hfound' htarget', if_neg (hmore rest), ← List.append_assoc]
      exact ih h
  | case11 links trail x rest a entries hsome _ hdot hdotdot hlen id hfound hother ih =>
    obtain ⟨entries', hkept, hlookup⟩ := entries?_unlink d name hsome
    by_cases hmet : trail.node = d ∧ x = name
    · left
      rw [List.cons_append, walk_absent hkept hdot hdotdot hlen ((hlookup x).trans (if_pos hmet)),
        if_neg (hmore rest)]
      intro _ _ hok
      cases hok
    · have hfound' := (hlookup x).trans ((if_neg hmet).trans hfound)
      have hother' (target : Bytes) (htarget : (t.unlink d name).node? id = some (.symlink target)) : False :=
        hother target ((symlink_unlink_iff d name id target).mp htarget)
      rw [List.cons_append, walk_enters hsome hdot hdotdot hlen hfound hother,
        walk_enters hkept hdot hdotdot hlen hfound' hother']
      exact ih h

/-- Above the end of a trail there are directories only. -/
def Climbs (t : FileTree) (trail : Trail) : Prop :=
  ∀ n, t.isDirectory (Trail.node (trail.drop (n + 1))) = true

theorem Climbs.walk {purpose : Purpose} {links : Nat} {trail dir : Trail} {names : List Bytes} {a b : Bool}
    (hclimbs : t.Climbs trail) (h : walk t purpose links trail names a = .ok (.node dir, b)) : t.Climbs dir := by
  fun_induction FileTree.walk t purpose links trail names a with
  | case1 =>
    cases h
    exact hclimbs
  | case2 | case3 | case6 | case7 | case8 | case9 => cases h
  | case4 links trail rest a entries hsome _ ih => exact ih hclimbs h
  | case5 links trail rest a entries hsome _ _ ih =>
    refine ih (fun n => ?_) h
    rw [← List.drop_one, List.drop_drop, Nat.add_comm]
    exact hclimbs (n + 1)
  | case10 trail x rest a entries hsome _ hdot hdotdot hlen id hfound target htarget links ih =>
    refine ih ?_ h
    split
    · -- the top is above every trail
      have htop := hclimbs trail.length
      rw [List.drop_eq_nil_of_le (Nat.le_succ _)] at htop
      intro n
      rwa [List.drop_nil]
    · exact hclimbs
  | case11 links trail x rest a entries hsome _ hdot hdotdot hlen id hfound hother ih =>
    refine ih (fun n => ?_) h
    rw [List.drop_succ_cons]
    cases n with
    | zero => simp [isDirectory, hsome]
    | succ n => exact hclimbs n

theorem find_eq_ok_iff {p : Path} {found : Trail} :
    t.find p = .ok found ↔ checkPath p = .ok () ∧ checkLength p = .ok () ∧
      ∃ place, walk t .visit maxLinks [] (Path.names p.bytes) (Path.endsInSlash p.bytes) = .ok place ∧
        t.settle place = .ok found := by
  unfold find FileTree.place
  simp only [bind_eq_ok_iff]
  constructor
  · rintro ⟨_, hpath, _, hlength, place, ⟨_, -, hwalk⟩, hsettle⟩
    exact ⟨hpath, hlength, place, hwalk, hsettle⟩
  · rintro ⟨hpath, hlength, place, hwalk, hsettle⟩
    exact ⟨(), hpath, (), hlength, place, ⟨(), hpath, hwalk⟩, hsettle⟩

theorem of_parent {p : Path} {dir : Trail} {last : Option Bytes} (h : t.parent p = .ok (dir, last)) :
    (∃ asDir, walk t .visit maxLinks [] (Path.names p.bytes).dropLast false = .ok (.node dir, asDir)) ∧
      t.isDirectory dir.node = true ∧ (Path.names p.bytes).getLast? = last := by
  unfold parent at h
  simp only [bind_eq_ok_iff] at h
  obtain ⟨_, -, _, -, ⟨⟨trail⟩ | ⟨trail, x⟩, asDir⟩, hwalk, hend⟩ := h
  · dsimp only at hend
    split at hend
    · rename_i hdir
      cases hend
      exact ⟨⟨asDir, hwalk⟩, hdir, rfl⟩
    · cases hend
  · cases hend

theorem of_settle {place : Place × Bool} {found : Trail} (h : t.settle place = .ok found) :
    ∃ asDir, place = (.node found, asDir) := by
  obtain ⟨⟨trail⟩ | ⟨trail, x⟩, asDir⟩ := place
  · unfold settle at h
    dsimp only at h
    split at h
    · cases h
    · cases h
      exact ⟨asDir, rfl⟩
  · cases h

theorem of_remove {t' : FileTree} {p : Path} (h : t.remove p = .ok t') :
    ∃ found dir name, t.find p = .ok found ∧ t.isDirectory found.node = false ∧
      t.parent p = .ok (dir, some name) ∧ t' = t.unlink dir.node name := by
  unfold remove at h
  obtain ⟨found, hfind, h⟩ := bind_eq_ok_iff.mp h
  split at h
  · cases h
  · rename_i hother
    obtain ⟨⟨dir, _ | name⟩, hparent, hend⟩ := bind_eq_ok_iff.mp h
    · cases hend
    · cases hend
      exact ⟨found, dir, name, hfind, Bool.eq_false_iff.mpr hother, hparent, rfl⟩

theorem isDirectory_root_of_walk {purpose : Purpose} {links : Nat} {names : List Bytes} {asDir : Bool}
    {place : Place × Bool} (hne : names ≠ []) (h : walk t purpose links [] names asDir = .ok place) :
    t.isDirectory root = true := by
  obtain ⟨x, rest, rfl⟩ := List.exists_cons_of_ne_nil hne
  cases hentries : t.entries? root with
  | none =>
    rw [walk, show Trail.node [] = root from rfl, hentries] at h
    cases h
  | some entries => rw [isDirectory, hentries, Option.isSome_some]

/-- What was removed is not found any more. -/
theorem find_of_remove {t' : FileTree} {p : Path} (h : t.remove p = .ok t') (found' : Trail) :
    t'.find p ≠ .ok found' := by
  obtain ⟨found, dir, name, hfind, hother, hparent, rfl⟩ := of_remove h
  obtain ⟨-, -, place, hwalk, hsettle⟩ := find_eq_ok_iff.mp hfind
  obtain ⟨asDir, rfl⟩ := of_settle hsettle
  obtain ⟨⟨b, hdir⟩, hisDir, hlast⟩ := of_parent hparent
  intro hfind'
  obtain ⟨-, -, place', hwalk', hsettle'⟩ := find_eq_ok_iff.mp hfind'
  obtain ⟨asDir', rfl⟩ := of_settle hsettle'
  obtain ⟨front, hnames⟩ := List.getLast?_eq_some_iff.mp hlast
  rw [hnames, List.dropLast_concat] at hdir
  rw [hnames] at hwalk hwalk'
  obtain ⟨entries, hentries⟩ := Option.isSome_iff_exists.mp hisDir
  obtain ⟨entries', hkept, hlookup⟩ := entries?_unlink dir.node name hentries
  have hclimbs : t.Climbs dir := by
    refine Climbs.walk (fun n => ?_) hdir
    rw [List.drop_nil]
    exact isDirectory_root_of_walk (List.append_ne_nil_of_right_ne_nil front (List.cons_ne_nil name [])) hwalk
  obtain hlost | ⟨left, hsame, hsame'⟩ := walk_unlink hdir dir.node name name (Path.endsInSlash p.bytes)
  · exact hlost _ _ hwalk'
  · rw [hsame] at hwalk
    rw [hsame'] at hwalk'
    by_cases hdot : name = Path.dot
    · -- the directory itself was found, and it is none
      rw [hdot, walk_dot hentries, walk] at hwalk
      cases hwalk
      rw [hisDir] at hother
      cases hother
    by_cases hdotdot : name = Path.dotDot
    · rw [hdotdot, walk_dotDot hentries, walk] at hwalk
      cases hwalk
      have habove := hclimbs 0
      rw [List.drop_one, hother] at habove
      cases habove
    by_cases hlong : maxName < name.length
    · rw [walk_long hentries hdot hdotdot hlong] at hwalk
      cases hwalk
    · rw [walk_absent hkept hdot hdotdot hlong ((hlookup name).trans (if_pos ⟨rfl, rfl⟩)), if_pos rfl] at hwalk'
      cases hwalk'

/-- Whatever a name stands for is in a directory. -/
theorem exists_walk_of_walk_concat {links : Nat} {trail found : Trail} {names : List Bytes} {last : Bytes} {a b : Bool}
    (h : walk t .visit links trail (names ++ [last]) b = .ok (.node found, a)) :
    ∃ dir asDir, walk t .visit links trail names false = .ok (.node dir, asDir) ∧ t.isDirectory dir.node = true := by
  have hmore (rest : List Bytes) : rest ++ [last] ≠ [] := by simp
  fun_induction walk t .visit links trail names false with
  | case1 links trail a =>
    refine ⟨trail, a, rfl, ?_⟩
    cases hentries : t.entries? trail.node with
    | none =>
      rw [List.nil_append, walk, hentries] at h
      cases h
    | some entries => rw [isDirectory, hentries, Option.isSome_some]
  | case2 links trail x rest a hnone =>
    rw [List.cons_append, walk, hnone] at h
    cases h
  | case3 links trail x rest a entries hsome hmake => cases hmake.1
  | case4 links trail rest a entries hsome _ ih =>
    rw [List.cons_append, walk_dot hsome] at h
    exact ih h
  | case5 links trail rest a entries hsome _ hdot ih =>
    rw [List.cons_append, walk_dotDot hsome] at h
    exact ih h
  | case6 links trail x rest a entries hsome _ hdot hdotdot hlong =>
    rw [List.cons_append, walk_long hsome hdot hdotdot hlong] at h
    cases h
  | case7 links trail x a entries hsome hdot hdotdot hlen hnone hmake =>
    rw [List.cons_append, walk_absent hsome hdot hdotdot hlen hnone, if_neg (hmore [])] at h
    cases h
  | case8 links trail x rest a entries hsome _ hdot hdotdot hlen hnone hrest =>
    rw [List.cons_append, walk_absent hsome hdot hdotdot hlen hnone, if_neg (hmore rest)] at h
    cases h
  | case9 trail x rest a entries hsome _ hdot hdotdot hlen id hfound target htarget =>
    rw [List.cons_append, walk, hsome] at h
    simp [hdot, hdotdot, hlen, hfound, htarget] at h
  | case10 trail x rest a entries hsome _ hdot hdotdot hlen id hfound target htarget links ih =>
    rw [List.cons_append, walk_link hsome hdot hdotdot hlen hfound htarget, if_neg (hmore rest),
      ← List.append_assoc] at h
    exact ih h
  | case11 links trail x rest a entries hsome _ hdot hdotdot hlen id hfound hother ih =>
    rw [List.cons_append, walk_enters hsome hdot hdotdot hlen hfound hother] at h
    exact ih h

/-- What is found and is no directory can be removed, unless it is the top. -/
theorem exists_remove_of_find {p : Path} {found : Trail} (hfind : t.find p = .ok found)
    (hother : t.isDirectory found.node = false) (hne : Path.names p.bytes ≠ []) : ∃ t', t.remove p = .ok t' := by
  obtain ⟨hpath, hlength, place, hwalk, hsettle⟩ := find_eq_ok_iff.mp hfind
  obtain ⟨asDir, rfl⟩ := of_settle hsettle
  have hnames := List.dropLast_concat_getLast hne
  rw [← hnames] at hwalk
  obtain ⟨dir, asDir', hdir, hisDir⟩ := exists_walk_of_walk_concat hwalk
  have hparent : t.parent p = .ok (dir, some ((Path.names p.bytes).getLast hne)) := by
    rw [parent, hpath, hlength]
    simp [bind, Except.bind, hdir, hisDir, List.getLast?_eq_some_getLast hne]
  refine ⟨t.unlink dir.node ((Path.names p.bytes).getLast hne), ?_⟩
  simp [remove, hfind, hparent, hother, bind, Except.bind]

theorem parent_setNode_file {id : NodeId} {old : Bytes} (h : t.node? id = some (.file old)) (new : Bytes)
    (p : Path) : (t.setNode id (.file new)).parent p = t.parent p := by
  have hisDir (n : NodeId) : (t.setNode id (.file new)).isDirectory n = t.isDirectory n := by
    rw [isDirectory, isDirectory, entries?_setNode_file h]
  simp only [parent, walk_setNode_file h, hisDir]

/-- To write to a file is no obstacle to removing one. -/
theorem remove_setNode_file {id : NodeId} {old : Bytes} (h : t.node? id = some (.file old)) (new : Bytes)
    {p : Path} (hremove : ∃ t', t.remove p = .ok t') : ∃ t', (t.setNode id (.file new)).remove p = .ok t' := by
  obtain ⟨t', hremove⟩ := hremove
  obtain ⟨found, dir, name, hfind, hother, hparent, -⟩ := of_remove hremove
  rw [isDirectory, ← entries?_setNode_file h new] at hother
  rw [← find_setNode_file h new] at hfind
  rw [← parent_setNode_file h new] at hparent
  refine ⟨(t.setNode id (.file new)).unlink dir.node name, ?_⟩
  simp [remove, hfind, hparent, isDirectory, hother, bind, Except.bind]

theorem remove_writeAt {p : Path} (h : ∃ t', t.remove p = .ok t') (id : NodeId) (offset : Nat) (b : Bytes) :
    ∃ t', (t.writeAt id offset b).2.remove p = .ok t' := by
  unfold writeAt
  split
  · exact remove_setNode_file ‹_› _ h
  all_goals exact h

end FileTree

namespace LocalFiles

/-- A file, or a link to one, is at the path. -/
def MadeAt (p : Path) (s : Sink LocalFiles) : Prop := ∃ t, s.gateway.tree.remove p = .ok t

def GoneAt (p : Path) (f : LocalFiles) : Prop := f.tree.exists p = false

theorem discards (p : Path) : Discards p (MadeAt p) (GoneAt p) where
  write := by
    rintro ⟨f, handle⟩ b h
    change ∃ t, (f.write handle b).2.tree.remove p = .ok t
    unfold LocalFiles.write
    split
    · exact h
    · rename_i file hfile
      have hwritten := FileTree.remove_writeAt h file.node file.offset b
      split
      · rename_i hw
        rwa [hw] at hwritten
      · rename_i hw
        rwa [hw] at hwritten
  flush := by
    rintro ⟨f, handle⟩ h
    exact h
  remove := by
    rintro ⟨f, handle⟩ ⟨t, h⟩
    have hgone := FileTree.find_of_remove h
    change (f.settle ((f.tree.remove p).map fun tree => ((), tree))).2.tree.exists p = false
    rw [h, FileTree.exists]
    cases hfind : t.find p with
    | error e => simp [settle, Except.map, hfind, Except.isOk, Except.toBool]
    | ok found => exact (hgone found hfind).elim

theorem madeAt_of_openAt {p : Path} (hne : Path.names p.bytes ≠ []) {s : Sink LocalFiles} {b : Bytes}
    (h : OpenAt p s b) : MadeAt p s := by
  obtain ⟨trail, hfind, hnode, -⟩ := h
  exact FileTree.exists_remove_of_find hfind (FileTree.isDirectory_eq_false hnode) hne

end LocalFiles

end FileFerry
