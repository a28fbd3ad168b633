import Mathlib.Data.List.Nodup
import ElementFinder.Proofs.Live.Naming
import ElementFinder.Snapshot.Markup

/-!
# Index paths are distinct

An index path is the path of the root followed by an address: for each level below the root a
comma and a place among siblings.  Addresses are read back from their text (`addressChars_inj`),
because digits end where a comma or nothing follows, so no two nodes of a snapshot have the same
path (`nodup_paths`), whatever the path of the root is.
-/

namespace ElementFinder

namespace Markup

/-- The text of an address: a comma and a place for each level. -/
def addressChars : List Nat → List Char
  | [] => []
  | place :: rest => ',' :: Nat.toDigits 10 place ++ addressChars rest

theorem toList_childPath (path : String) (place : Nat) :
    (childPath path place).toList = path.toList ++ addressChars [place] := by
  simp [childPath, addressChars]

/-- The digits of a place end where the address goes on or ends. -/
theorem takeWhile_digits_address (place : Nat) (rest : List Nat) :
    (Nat.toDigits 10 place ++ addressChars rest).takeWhile isDigit = Nat.toDigits 10 place := by
  apply takeWhile_append_of_stop (fun c hc => isDigit_of_mem_toDigits hc)
  cases rest with
  | nil => simp [addressChars]
  | cons next rest =>
      have hcomma : isDigit ',' = false := by decide
      simp [addressChars, hcomma]

/-- Addresses with the same text are the same. -/
theorem addressChars_inj {a b : List Nat} (h : addressChars a = addressChars b) : a = b := by
  induction a generalizing b with
  | nil =>
      cases b with
      | nil => rfl
      | cons place rest => simp [addressChars] at h
  | cons place rest ih =>
      cases b with
      | nil => simp [addressChars] at h
      | cons place' rest' =>
          simp only [addressChars, List.cons_append, List.cons.injEq, true_and] at h
          have hdigits : Nat.toDigits 10 place = Nat.toDigits 10 place' := by
            rw [← takeWhile_digits_address place rest, h, takeWhile_digits_address]
          have hplaces : some place = some place' := by
            rw [← natOfDigits?_toDigits place, hdigits, natOfDigits?_toDigits]
          obtain rfl := Option.some.inj hplaces
          rw [ih (List.append_cancel_left h)]

end Markup

namespace Snapshot

/-- The addresses of a node and of the nodes below it down to a depth, in document order. -/
def addressesWithin (s : Snapshot) : (depth : Nat) → Nat → List (List Nat)
  | 0, _ => [[]]
  | depth + 1, id =>
    [] :: (s.children id).zipIdx.flatMap fun (child, place) =>
      (addressesWithin s depth child).map (place :: ·)

/-- Paths are addresses below the path of the top. -/
theorem paths_placesWithin (s : Snapshot) (depth : Nat) (path : String) (id : Nat) :
    (s.placesWithin depth path id).map (fun place => place.1.toList) =
      (s.addressesWithin depth id).map fun a => path.toList ++ Markup.addressChars a := by
  induction depth generalizing path id with
  | zero => simp [placesWithin, addressesWithin, Markup.addressChars]
  | succ depth ih =>
      have hbelow : ∀ child place,
          (s.placesWithin depth (Markup.childPath path place) child).map
              (fun place => place.1.toList) =
            (s.addressesWithin depth child).map
              fun a => path.toList ++ Markup.addressChars (place :: a) := by
        intro child place
        rw [ih, Markup.toList_childPath]
        simp [Markup.addressChars]
      simp only [placesWithin, addressesWithin, List.map_cons, List.map_flatMap, hbelow,
        List.map_map, Function.comp_def, Markup.addressChars, List.append_nil]

theorem nodup_addressesWithin (s : Snapshot) (depth id : Nat) :
    (s.addressesWithin depth id).Nodup := by
  induction depth generalizing id with
  | zero => simp [addressesWithin]
  | succ depth ih =>
      rw [addressesWithin, List.nodup_cons, List.nodup_flatMap]
      refine ⟨by simp, ?_, ?_⟩
      · intro entry _
        exact (ih entry.1).map fun a b hab => (List.cons.inj hab).2
      · -- different children stand at different places
        have hplaces : (s.children id).zipIdx.Pairwise fun e e' => e.2 ≠ e'.2 := by
          rw [← List.pairwise_map (f := Prod.snd), List.zipIdx_map_snd]
          exact List.nodup_range'
        refine hplaces.imp ?_
        intro e e' hne
        simp only [Function.onFun, List.disjoint_left, List.mem_map]
        intro a ha ha'
        obtain ⟨_, _, rfl⟩ := ha
        obtain ⟨_, _, heq⟩ := ha'
        exact hne (List.cons.inj heq).1.symm

/-- **No two nodes have the same path.** -/
theorem nodup_paths (s : Snapshot) (rootPath : String) : (s.markup rootPath).paths.Nodup := by
  have hchars : ((s.markup rootPath).paths.map String.toList).Nodup := by
    rw [Markup.paths, markup, List.map_map]
    change ((s.placesWithin s.size rootPath 0).map fun place => place.1.toList).Nodup
    rw [paths_placesWithin]
    refine (s.nodup_addressesWithin s.size 0).map ?_
    intro a b hab
    exact Markup.addressChars_inj (List.append_cancel_left hab)
  exact hchars.of_map String.toList

end Snapshot

end ElementFinder
