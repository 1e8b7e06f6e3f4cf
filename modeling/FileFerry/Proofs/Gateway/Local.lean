import FileFerry.Gateway.Local
import FileFerry.Proofs.Gateway.Steady

/-!
# The served tree is steady

A file of the tree takes every byte and a device either every byte or none, so how a payload is
cut into writes leaves no trace in the tree.
-/

set_option autoImplicit false

namespace FileFerry

namespace FileTree

theorem length_patch_take (content : Bytes) (offset : Nat) :
    (content.take offset ++ List.replicate (offset - content.length) 0).length = offset := by
  simp only [List.length_append, List.length_take, List.length_replicate]
  omega

/-- Writing on where the last write ended is one write. -/
theorem patch_patch (content : Bytes) (offset : Nat) (a b : Bytes) :
    patch (patch content offset a) (offset + a.length) b = patch content offset (a ++ b) := by
  have hlen := length_patch_take content offset
  unfold patch
  generalize content.take offset ++ List.replicate (offset - content.length) 0 = front at hlen ⊢
  have hfront : (front ++ a).length = offset + a.length := by simp [hlen]
  have htake : (front ++ a ++ content.drop (offset + a.length)).take (offset + a.length) =
      front ++ a := by
    rw [← hfront, List.take_left]
  have hgap : offset + a.length - (front ++ a ++ content.drop (offset + a.length)).length = 0 := by
    simp only [List.length_append]
    omega
  have hdrop : (front ++ a ++ content.drop (offset + a.length)).drop (offset + a.length + b.length) =
      content.drop (offset + (a ++ b).length) := by
    rw [← hfront, List.drop_length_add_append, List.drop_drop, hfront, List.length_append, Nat.add_assoc]
  rw [htake, hgap, hdrop]
  simp

theorem node?_setNode {t : FileTree} {id : NodeId} {old : Node} (h : t.node? id = some old)
    (node : Node) : (t.setNode id node).node? id = some node := by
  obtain ⟨hid, _⟩ := Array.getElem?_eq_some_iff.mp h
  simp [node?, setNode, hid]

theorem setNode_setNode (t : FileTree) (id : NodeId) (a b : Node) :
    (t.setNode id a).setNode id b = t.setNode id b := by
  simp [setNode]

def nodeFault : Option Node → Option IoError
  | some (.file _) | some (.device .null) | some (.device .zero) => none
  | some (.device .full) => some (.os 28)
  | some (.device .faulty) => some (.os 5)
  | _ => some (.os 9)

theorem writeAt_of_fault {t : FileTree} {id : NodeId} {e : IoError}
    (h : nodeFault (t.node? id) = some e) (offset : Nat) {b : Bytes} (hb : b ≠ []) :
    t.writeAt id offset b = (.error e, t) := by
  unfold nodeFault at h
  unfold writeAt
  split at h <;> simp_all

theorem writeAt_of_no_fault {t : FileTree} {id : NodeId} (h : nodeFault (t.node? id) = none)
    (offset : Nat) (b : Bytes) :
    ∃ t', t.writeAt id offset b = (.ok b.length, t') ∧ nodeFault (t'.node? id) = none ∧
      ∀ c, (t'.writeAt id (offset + b.length) c).2 = (t.writeAt id offset (b ++ c)).2 := by
  unfold nodeFault at h
  split at h
  · rename_i content hn
    refine ⟨t.setNode id (.file (patch content offset b)), by simp [writeAt, hn], ?_, ?_⟩
    · simp [node?_setNode hn, nodeFault]
    · intro c
      simp [writeAt, hn, node?_setNode hn, setNode_setNode, patch_patch]
  · rename_i hn
    exact ⟨t, by simp [writeAt, hn], by simp [nodeFault, hn], by simp [writeAt, hn]⟩
  · rename_i hn
    exact ⟨t, by simp [writeAt, hn], by simp [nodeFault, hn], by simp [writeAt, hn]⟩
  all_goals cases h

end FileTree

namespace LocalFiles

def fault (f : LocalFiles) (handle : Nat) : Option IoError :=
  match f.opened[handle]? with
  | none => some (.os 9)
  | some file => FileTree.nodeFault (f.tree.node? file.node)

def put (f : LocalFiles) (handle : Nat) (b : UInt8) : LocalFiles := (f.write handle [b]).2

theorem write_of_fault {f : LocalFiles} {handle : Nat} {e : IoError} (h : f.fault handle = some e)
    {b : Bytes} (hb : b ≠ []) : f.write handle b = (.error e, f) := by
  unfold fault at h
  cases hfile : f.opened[handle]? with
  | none =>
    simp only [hfile] at h
    simp only [write, hfile, Option.some.inj h]
  | some file =>
    simp only [hfile] at h
    simp only [write, hfile, FileTree.writeAt_of_fault h file.offset hb]

theorem write_of_no_fault {f : LocalFiles} {handle : Nat} (h : f.fault handle = none) (b : Bytes) :
    ∃ f', f.write handle b = (.ok b.length, f') ∧ f'.fault handle = none ∧
      ∀ c, (f'.write handle c).2 = (f.write handle (b ++ c)).2 := by
  unfold fault at h
  split at h
  · cases h
  · rename_i file hfile
    obtain ⟨hlt, hget⟩ := List.getElem?_eq_some_iff.mp hfile
    obtain ⟨t, hwrite, hfault, hagain⟩ := FileTree.writeAt_of_no_fault h file.offset b
    refine ⟨⟨t, f.home, f.opened.set handle { file with offset := file.offset + b.length }⟩,
      by simp only [write, hfile, hwrite], by simp [fault, hlt, hfault], ?_⟩
    intro c
    have hc := hagain c
    obtain ⟨t', hlast, _⟩ := FileTree.writeAt_of_no_fault hfault (file.offset + b.length) c
    obtain ⟨t'', hwhole, _⟩ := FileTree.writeAt_of_no_fault h file.offset (b ++ c)
    rw [hlast, hwhole] at hc
    obtain rfl : t' = t'' := hc
    simp [write, hlt, hget, hlast, hwhole, Nat.add_assoc]

theorem storeBytes_eq {f : LocalFiles} {handle : Nat} (h : f.fault handle = none) {b : Bytes}
    (hb : b ≠ []) : storeBytes fault put handle f b = (none, (f.write handle b).2) := by
  induction b generalizing f with
  | nil => exact absurd rfl hb
  | cons c b ih =>
    rw [storeBytes, h]
    obtain ⟨f', hwrite, hfault, hagain⟩ := write_of_no_fault h [c]
    have hput : f.put handle c = f' := by rw [put, hwrite]
    cases b with
    | nil => rw [storeBytes, put]
    | cons d b =>
      simp only [hput]
      rw [ih hfault (by simp), hagain]
      rfl

instance : SteadyGateway LocalFiles where
  Same := Eq
  same_equivalence := ⟨fun _ => rfl, fun h => h.symm, fun h h' => h.trans h'⟩
  fault := fault
  put := put
  fault_congr _ hg := by rw [hg]
  put_congr _ _ hg := by rw [hg]
  write_ok := by
    intro f f' h b n hb hw
    change f.write h b = _ at hw
    cases hf : f.fault h with
    | some e => rw [write_of_fault hf hb] at hw; cases hw
    | none =>
      obtain ⟨f'', hwrite, _⟩ := write_of_no_fault hf b
      rw [hwrite] at hw
      cases hw
      refine ⟨Nat.le_refl _, ?_, ?_⟩
      · rw [List.take_length, storeBytes_eq hf hb, hwrite]
        exact ⟨rfl, rfl⟩
      · intro hzero
        exact absurd (List.length_eq_zero_iff.mp hzero) hb
  write_error := by
    intro f f' h b e hb hw
    change f.write h b = _ at hw
    cases hf : f.fault h with
    | some e' =>
      rw [write_of_fault hf hb] at hw
      cases hw
      exact ⟨rfl, fun _ => rfl⟩
    | none =>
      obtain ⟨f'', hwrite, _⟩ := write_of_no_fault hf b
      rw [hwrite] at hw
      cases hw
  flush_congr _ hg := ⟨rfl, hg⟩
  close_congr _ hg := hg
  exists_congr _ hg := by subst hg; exact ⟨rfl, rfl⟩
  mkdir_congr _ hg := by subst hg; exact ⟨rfl, rfl⟩
  remove_congr _ hg := by subst hg; exact ⟨rfl, rfl⟩
  chdir_congr _ hg := by subst hg; exact ⟨rfl, rfl⟩
  list_congr _ hg := by subst hg; exact ⟨rfl, rfl⟩
  openFile_congr _ hg := by subst hg; exact ⟨rfl, rfl⟩
  create_congr _ hg := by subst hg; exact ⟨rfl, rfl⟩

end LocalFiles

end FileFerry
