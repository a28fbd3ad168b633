import ElementFinder.Proofs.Snapshot.Built
import ElementFinder.Proofs.Snapshot.Judging
import ElementFinder.Proofs.Snapshot.Paths

/-!
# Index paths correlate elements with nodes

An index path is the only thing that an XML element and the node that it shows have in common, so
it has to serve as a key: every node of a snapshot that was built has exactly one path, every path
leads back to its node and no other text leads anywhere, whatever the path of the root is
(`Built.paths_correlate`).

The list of places drives both directions.  Its paths are distinct (`nodup_paths`), its nodes are
met in document order (`Checked.map_snd_places`), and with a node it holds the children of the
node, each at its place among them (`childPlace_mem`).
-/

namespace ElementFinder

/-- Where no key is repeated, looking for a key finds the one entry that has it. -/
theorem find?_key_iff {α κ : Type} [DecidableEq κ] {key : α → κ} {entries : List α}
    (h : (entries.map key).Nodup) {k : κ} {entry : α} :
    (entries.find? fun e => key e = k) = some entry ↔ entry ∈ entries ∧ key entry = k := by
  constructor
  · intro hfind
    exact ⟨List.mem_of_find?_eq_some hfind, by simpa using List.find?_some hfind⟩
  · rintro ⟨hentry, rfl⟩
    cases hfind : entries.find? fun e => key e = key entry with
    | none => simpa using List.find?_eq_none.mp hfind entry hentry
    | some found =>
        have hsame : key found = key entry := by simpa using List.find?_some hfind
        rw [List.inj_on_of_nodup_map h (List.mem_of_find?_eq_some hfind) hentry hsame]

namespace Markup

/-- The index path of a node. -/
def pathOf? (m : Markup) (id : Nat) : Option String :=
  (m.places.find? fun place => place.2 = id).map Prod.fst

variable {m : Markup} {path : String} {id : Nat}

theorem node?_eq_some_iff (hpaths : m.paths.Nodup) :
    m.node? path = some id ↔ (path, id) ∈ m.places := by
  simp only [node?, Option.map_eq_some_iff, find?_key_iff hpaths]
  grind

theorem pathOf?_eq_some_iff (hnodes : (m.places.map Prod.snd).Nodup) :
    m.pathOf? id = some path ↔ (path, id) ∈ m.places := by
  simp only [pathOf?, Option.map_eq_some_iff, find?_key_iff hnodes]
  grind

/-- A text that is no path leads nowhere. -/
theorem node?_eq_none (h : path ∉ m.paths) : m.node? path = none := by
  rw [node?, Option.map_eq_none_iff, List.find?_eq_none]
  intro place hplace hsame
  obtain rfl : place.1 = path := by simpa using hsame
  exact h (List.mem_map_of_mem hplace)

/-- Paths lead, one after the other, to the nodes of their places. -/
theorem map_node?_paths (hpaths : m.paths.Nodup) :
    m.paths.map m.node? = (m.places.map Prod.snd).map some := by
  rw [paths, List.map_map, List.map_map]
  exact List.map_congr_left fun place hplace => (node?_eq_some_iff hpaths).mpr hplace

end Markup

namespace Snapshot

variable {s : Snapshot}

theorem top_mem_placesWithin (s : Snapshot) (depth : Nat) (path : String) (id : Nat) :
    (path, id) ∈ s.placesWithin depth path id := by
  cases depth <;> exact List.mem_cons_self

/-- **Children stand below their parent.**  With a node the list of places holds the children of
the node, and the path of a child is that of the node with the place of the child behind it. -/
theorem childPlace_mem {bound : Nat} (h : s.links.Forest bound) {depth top : Nat}
    {topPath path : String} {node : SnapshotNode} (htop : s.node? top = some node)
    (hdepth : bound ≤ depth + top) {p c place : Nat}
    (hp : (path, p) ∈ s.placesWithin depth topPath top)
    (hc : (s.children p)[place]? = some c) :
    (Markup.childPath path place, c) ∈ s.placesWithin depth topPath top := by
  induction depth generalizing top topPath node with
  | zero =>
      have := h.lt_bound (links_eq_some.mpr ⟨node, htop, rfl⟩)
      omega
  | succ depth ih =>
      rw [placesWithin] at hp ⊢
      refine List.mem_cons_of_mem _ (List.mem_flatMap.mpr ?_)
      rcases List.mem_cons.mp hp with hhere | hbelow
      · obtain ⟨rfl, rfl⟩ := Prod.mk.inj hhere
        exact ⟨(c, place), List.mem_zipIdx_iff_getElem?.mpr hc, top_mem_placesWithin s depth _ c⟩
      · obtain ⟨entry, hentry, hmet⟩ := List.mem_flatMap.mp hbelow
        have hchild : s.links.Child top entry.1 :=
          mem_children.mp (List.fst_mem_of_mem_zipIdx hentry)
        obtain ⟨below, hused⟩ := h.child_used hchild
        obtain ⟨child, hnode, -⟩ := links_eq_some.mp hused
        have := h.lt_child hchild
        exact ⟨entry, hentry, ih hnode (by omega) hmet⟩

/-- No attribute of a node itself is taken for its index path. -/
theorem lookup_pathKey (s : Snapshot) (path : String) (id : Nat) :
    (s.markupAttributes path id).lookup Markup.pathKey = some path := by
  have hshown : (s.shownAttributes id).lookup Markup.pathKey = none := by
    unfold shownAttributes
    cases s.attributes? id with
    | none => rfl
    | some a =>
        cases hvalue : a.derivedValue? <;> cases hname : a.derivedName? <;>
          simp [List.lookup_cons, Markup.pathKey, hvalue, hname]
  rw [markupAttributes, List.lookup_append, hshown]
  rfl

/-- The elements of the document carry the paths in order. -/
theorem map_lookup_entries (s : Snapshot) (rootPath : String) :
    (s.markup rootPath).document.entries.toList.map (fun e => e.attributes.lookup Markup.pathKey) =
      (s.markup rootPath).paths.map some := by
  have hattributes := s.map_attributes_entriesOf s.size rootPath 0 none 0
  have hpaths := congrArg (List.map (List.lookup Markup.pathKey)) hattributes
  rw [List.map_map, List.map_map] at hpaths
  rw [Markup.paths, List.map_map]
  refine hpaths.trans (List.map_congr_left ?_)
  intro place _
  exact s.lookup_pathKey place.1 place.2

/-- **Index paths are keys.**  In a snapshot that was built no two nodes have the same index path,
whatever the path of the root is.  The paths are listed in document order, which meets every node
once, and lead back to the nodes one after the other; no other text leads to a node.  So a path
leads to a node exactly when it is the path of that node.  The root has the path that was given,
and a child has the path of its parent, a comma and its place among the children.  The elements of
the document carry these paths, in the same order. -/
theorem Built.paths_correlate (hs : s.Built) (rootPath : String) :
    (s.markup rootPath).paths.Nodup ∧
      s.documentOrder.Perm (List.range s.size) ∧
      (s.markup rootPath).paths.map (s.markup rootPath).node? = s.documentOrder.map some ∧
      (∀ path, path ∉ (s.markup rootPath).paths → (s.markup rootPath).node? path = none) ∧
      (∀ path id, (s.markup rootPath).node? path = some id ↔
        (s.markup rootPath).pathOf? id = some path) ∧
      (s.markup rootPath).pathOf? 0 = some rootPath ∧
      (∀ p (place : Nat) c, (s.children p)[place]? = some c → ∃ path,
        (s.markup rootPath).pathOf? p = some path ∧
        (s.markup rootPath).pathOf? c = some (path ++ "," ++ toString place)) ∧
      (s.markup rootPath).document.entries.toList.map
          (fun e => e.attributes.lookup Markup.pathKey) = (s.markup rootPath).paths.map some := by
  have hpaths := s.nodup_paths rootPath
  have hnodes := hs.checked.map_snd_places hs.children_nodup rootPath
  have honce : ((s.markup rootPath).places.map Prod.snd).Nodup := by
    rw [hnodes]
    exact hs.perm_documentOrder.nodup_iff.mpr List.nodup_range
  obtain ⟨top, htop⟩ := exists_node hs.checked.nonempty
  refine ⟨hpaths, hs.perm_documentOrder, ?_, fun path => Markup.node?_eq_none, ?_, ?_, ?_,
    s.map_lookup_entries rootPath⟩
  · rw [Markup.map_node?_paths hpaths, hnodes]
  · intro path id
    rw [Markup.node?_eq_some_iff hpaths, Markup.pathOf?_eq_some_iff honce]
  · exact (Markup.pathOf?_eq_some_iff honce).mpr (top_mem_placesWithin s s.size rootPath 0)
  · intro p place c hc
    have hp : p ∈ s.documentOrder := by
      obtain ⟨node, hnode, -⟩ := child_iff.mp (mem_children.mp (List.mem_of_getElem? hc))
      exact hs.perm_documentOrder.mem_iff.mpr (List.mem_range.mpr (node?_lt hnode))
    rw [← hnodes] at hp
    obtain ⟨⟨path, id⟩, hmet, rfl⟩ := List.mem_map.mp hp
    refine ⟨path, (Markup.pathOf?_eq_some_iff honce).mpr hmet, ?_⟩
    exact (Markup.pathOf?_eq_some_iff honce).mpr
      (childPlace_mem hs.forest htop (Nat.le_add_right s.size 0) hmet hc)

/-- A top with two children, the first of which gets its own child last. -/
def lateGrandchild : Snapshot :=
  (((ofRoot {}).push 0 {}).push 0 {}).push 1 {}

/-- Numbers out of document order, under a path that looks like the path of a child. -/
theorem paths_correlate_lateGrandchild :
    lateGrandchild.Built ∧ lateGrandchild.documentOrder = [0, 1, 3, 2] ∧
      (lateGrandchild.markup "0,1").paths = ["0,1", "0,1,0", "0,1,0,0", "0,1,1"] ∧
      (lateGrandchild.markup "0,1").pathOf? 3 = some "0,1,0,0" ∧
      (lateGrandchild.markup "0,1").node? "0,1,0,0" = some 3 ∧
      (lateGrandchild.markup "0,1").node? "0" = none := by
  have hbuilt : lateGrandchild.Built := (((Built.ofRoot {}).push 0 {}).push 0 {}).push 1 {}
  have hpaths : (lateGrandchild.markup "0,1").paths = ["0,1", "0,1,0", "0,1,0,0", "0,1,1"] := by
    decide +kernel
  obtain ⟨-, -, -, hnone, hkey, -, hchild, -⟩ := hbuilt.paths_correlate "0,1"
  obtain ⟨path, hparent, hpath⟩ := hchild 1 0 3 rfl
  have hfirst : (lateGrandchild.markup "0,1").pathOf? 1 = some "0,1,0" := by decide +kernel
  obtain rfl : path = "0,1,0" := Option.some.inj (hparent.symm.trans hfirst)
  refine ⟨hbuilt, by decide +kernel, hpaths, hpath, (hkey _ _).mpr hpath, hnone _ ?_⟩
  rw [hpaths]
  decide

end Snapshot

end ElementFinder
