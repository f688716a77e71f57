import Mathlib.Data.List.Infix
import Mathlib.Data.List.Nodup
import Mathlib.Tactic.SplitIfs

/-!
# Trees of entries

Directory trees as lists of entries, each with an id that stays with it and the place
where it is. Renaming an entry moves all that is below it (`moved`); where the new
place is free every entry is found at its moved place afterwards (`At.rename`).
-/
namespace Zasper.Trees
set_option linter.unusedSimpArgs false
universe u

structure Entry (Name : Type u) where
  id : Nat
  place : List Name
  isDir : Bool
deriving DecidableEq

structure Tree (Name : Type u) where
  entries : List (Entry Name)
  /-- The id of the next entry that is made. -/
  next : Nat

section
variable {Name : Type u}

/-- The entry is at the place. -/
def At (tree : Tree Name) (id : Nat) (place : List Name) : Prop :=
  ∃ e ∈ tree.entries, e.id = id ∧ e.place = place

structure Valid (tree : Tree Name) : Prop where
  ids : (tree.entries.map Entry.id).Nodup
  places : (tree.entries.map Entry.place).Nodup
  next : ∀ e ∈ tree.entries, e.id < tree.next

variable {tree : Tree Name} {id : Nat} {place : List Name}

theorem At.place_eq (valid : Valid tree) (here : At tree id place) {other : List Name} (there : At tree id other) :
    place = other := by
  obtain ⟨e,member,rfl,rfl⟩ := here
  obtain ⟨f,also,same,rfl⟩ := there
  rw [List.inj_on_of_nodup_map valid.ids also member same]

theorem At.id_eq (valid : Valid tree) (here : At tree id place) {other : Nat} (there : At tree other place) :
    id = other := by
  obtain ⟨e,member,rfl,rfl⟩ := here
  obtain ⟨f,also,rfl,same⟩ := there
  rw [List.inj_on_of_nodup_map valid.places also member same]

variable [DecidableEq Name]

/-! ## Operations -/

/-- Where a place goes with the directory or the file it is in. -/
def moved (old new place : List Name) : List Name := if old <+: place then new ++ place.drop old.length else place

/-- What was at the new place is replaced. -/
def rename (old new : List Name) (tree : Tree Name) : Tree Name :=
  { tree with
    entries := (tree.entries.filter (fun e => e.place ≠ new ∨ e.place = old)).map (fun e =>
      { e with place := moved old new e.place }) }

def remove (place : List Name) (tree : Tree Name) : Tree Name :=
  { tree with entries := tree.entries.filter (fun e => e.place ≠ place) }

/-- Makes an entry where there is none. -/
def add (place : List Name) (isDir : Bool) (tree : Tree Name) : Tree Name :=
  if tree.entries.any (fun e => e.place = place) then tree
  else ⟨tree.entries ++ [⟨tree.next,place,isDir⟩],tree.next + 1⟩

/-- The entries of a directory with their names. -/
def children (place : List Name) (tree : Tree Name) : List (Entry Name × Name) :=
  tree.entries.filterMap (fun e => e.place.getLast?.bind (fun n =>
    if e.place = place ++ [n] then some (e,n) else none))

theorem mem_children {e : Entry Name} {n : Name} :
    (e,n) ∈ children place tree ↔ e ∈ tree.entries ∧ e.place = place ++ [n] := by
  simp only [children,List.mem_filterMap,Option.bind_eq_some_iff]
  constructor
  · rintro ⟨f,member,m,-,found⟩
    split_ifs at found with within
    · obtain ⟨rfl,rfl⟩ := Prod.mk.inj (Option.some.inj found)
      exact ⟨member,within⟩
  · rintro ⟨member,within⟩
    exact ⟨e,member,n,by simp [within],by simp [within]⟩

theorem At.of_child {e : Entry Name} {n : Name} (child : (e,n) ∈ children place tree) :
    At tree e.id (place ++ [n]) := by
  obtain ⟨member,within⟩ := mem_children.mp child
  exact ⟨e,member,rfl,within⟩

theorem children_nodup (valid : Valid tree) (place : List Name) :
    ((children place tree).map (fun c => c.1.id)).Nodup := by
  have sub : List.Sublist ((children place tree).map Prod.fst) tree.entries := by
    unfold children
    generalize tree.entries = entries
    induction entries with
    | nil => exact List.Sublist.refl _
    | cons e entries ih =>
      rw [List.filterMap_cons]
      split
      · exact ih.cons e
      · next c found =>
        obtain ⟨n,-,within⟩ := Option.bind_eq_some_iff.mp found
        split_ifs at within
        obtain rfl := Option.some.inj within
        exact ih.cons_cons e
  have ids := valid.ids.sublist (sub.map Entry.id)
  rwa [List.map_map] at ids

/-! ## Renaming -/

variable {old new : List Name}

/-- Nothing else is at the new place, or below it. -/
def Free (old new : List Name) (tree : Tree Name) : Prop := ∀ e ∈ tree.entries, new <+: e.place → new = old

theorem moved_self : moved old new old = new := by simp [moved]

/-- What is below an entry moves with it. -/
theorem moved_append (name : Name) (other : place ++ [name] ≠ old) :
    moved old new (place ++ [name]) = moved old new place ++ [name] := by
  unfold moved
  by_cases below : old <+: place
  · rw [if_pos (below.trans (List.prefix_append ..)),if_pos below,List.drop_append_of_le_length below.length_le,
      List.append_assoc]
  · have apart : ¬ old <+: place ++ [name] := by
      intro here
      rcases List.prefix_concat_iff.mp here with same | within
      · exact other (by simpa using same.symm)
      · exact below within
    rw [if_neg apart,if_neg below]

theorem moved_of_not_prefix (apart : ¬ old <+: place) : moved old new place = place := if_neg apart

/-- Where the new place is free, no two entries move to the same place. -/
theorem moved_inj (free : Free old new tree) {e f : Entry Name} (here : e ∈ tree.entries) (there : f ∈ tree.entries)
    (same : moved old new e.place = moved old new f.place) : e.place = f.place := by
  unfold moved at same
  split_ifs at same with first second second
  · obtain ⟨rest,place⟩ := first
    obtain ⟨more,other⟩ := second
    rw [← place,← other,List.drop_left,List.drop_left] at same
    rw [← place,← other,List.append_cancel_left same]
  · obtain rfl := free f there ⟨_,same⟩
    exact absurd ⟨_,same⟩ second
  · obtain rfl := free e here ⟨_,same.symm⟩
    exact absurd ⟨_,same.symm⟩ first
  · exact same

theorem rename_entries (free : Free old new tree) : (rename old new tree).entries =
    tree.entries.map (fun e => { e with place := moved old new e.place }) := by
  have kept : tree.entries.filter (fun e => e.place ≠ new ∨ e.place = old) = tree.entries := by
    refine List.filter_eq_self.mpr ?_
    intro e member
    simp only [decide_eq_true_eq]
    by_cases taken : e.place = new
    · exact .inr (taken.trans (free e member (taken ▸ List.prefix_rfl)))
    · exact .inl taken
  rw [rename,kept]

theorem At.rename (free : Free old new tree) (here : At tree id place) :
    At (rename old new tree) id (moved old new place) := by
  obtain ⟨e,member,rfl,rfl⟩ := here
  refine ⟨{ e with place := moved old new e.place },?_,rfl,rfl⟩
  rw [rename_entries free]
  exact List.mem_map_of_mem member

theorem Valid.rename (valid : Valid tree) (free : Free old new tree) : Valid (rename old new tree) := by
  refine ⟨?_,?_,?_⟩
  · rw [rename_entries free,List.map_map]
    exact valid.ids
  · rw [rename_entries free,List.map_map]
    refine List.Nodup.map_on ?_ (List.Nodup.of_map _ valid.ids)
    intro e here f there same
    exact List.inj_on_of_nodup_map valid.places here there (moved_inj free here there same)
  · intro e member
    rw [rename_entries free] at member
    obtain ⟨old,there,rfl⟩ := List.mem_map.mp member
    exact valid.next old there

/-! ## Removing and adding -/

theorem At.remove (here : At tree id place) {gone : List Name} (other : place ≠ gone) : At (remove gone tree) id place := by
  obtain ⟨e,member,rfl,rfl⟩ := here
  exact ⟨e,List.mem_filter.mpr ⟨member,by simpa using other⟩,rfl,rfl⟩

theorem Valid.remove (valid : Valid tree) (gone : List Name) : Valid (remove gone tree) := by
  refine ⟨?_,?_,?_⟩
  · exact valid.ids.sublist (List.filter_sublist.map _)
  · exact valid.places.sublist (List.filter_sublist.map _)
  · intro e member
    exact valid.next e (List.mem_filter.mp member).1

theorem At.add (here : At tree id place) (new : List Name) (isDir : Bool) : At (add new isDir tree) id place := by
  obtain ⟨e,member,rfl,rfl⟩ := here
  unfold Trees.add
  split_ifs
  · exact ⟨e,member,rfl,rfl⟩
  · exact ⟨e,List.mem_append_left _ member,rfl,rfl⟩

theorem Valid.add (valid : Valid tree) (new : List Name) (isDir : Bool) : Valid (add new isDir tree) := by
  unfold Trees.add
  split_ifs with taken
  · exact valid
  · have free : ∀ e ∈ tree.entries, e.place ≠ new := by simpa using taken
    refine ⟨?_,?_,?_⟩
    · rw [List.map_append,List.nodup_append]
      refine ⟨valid.ids,List.nodup_singleton _,?_⟩
      intro a there b last same
      obtain ⟨e,member,rfl⟩ := List.mem_map.mp there
      obtain rfl := List.mem_singleton.mp last
      exact absurd (valid.next e member) (same ▸ lt_irrefl _)
    · rw [List.map_append,List.nodup_append]
      refine ⟨valid.places,List.nodup_singleton _,?_⟩
      intro a there b last same
      obtain ⟨e,member,rfl⟩ := List.mem_map.mp there
      obtain rfl := List.mem_singleton.mp last
      exact free e member same
    · intro e member
      rcases List.mem_append.mp member with old | last
      · exact (valid.next e old).trans (Nat.lt_succ_self _)
      · obtain rfl := List.mem_singleton.mp last
        exact Nat.lt_succ_self _

end
end Zasper.Trees
