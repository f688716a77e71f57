import Mathlib.Data.List.Basic
import Mathlib.Data.Prod.Basic
import Mathlib.Order.Lattice

/-!
# Finite maps

A finite map is the list of its entries in strictly increasing key order. Two
maps with the same entries are equal, and a map that is written out and read
back entry by entry is the map that was written.
-/
namespace Zasper.Maps
set_option linter.unusedSimpArgs false
universe u v w

section
variable {Key : Type u} {Item : Type v} {Image : Type w} [LinearOrder Key]

/-- Entries in strictly increasing key order. -/
def Sorted (entries : List (Key × Item)) : Prop := entries.Pairwise (fun a b => a.1 < b.1)

instance (entries : List (Key × Item)) : Decidable (Sorted entries) :=
  inferInstanceAs (Decidable (entries.Pairwise _))

/-- Adds an entry at its place; an entry that has the key already stays. -/
def addEntry (key : Key) (item : Item) : List (Key × Item) → List (Key × Item)
  | [] => [(key,item)]
  | (k,v) :: rest =>
    if key < k then (key,item) :: (k,v) :: rest
    else if key = k then (k,v) :: rest
    else (k,v) :: addEntry key item rest

/-- Entries in any order brought in key order; of several entries with one key
    the last stays. -/
def sortEntries : List (Key × Item) → List (Key × Item)
  | [] => []
  | (k,v) :: rest => addEntry k v (sortEntries rest)

theorem sorted_nil : Sorted ([] : List (Key × Item)) := List.Pairwise.nil
theorem sorted_cons {e : Key × Item} {rest : List (Key × Item)} :
    Sorted (e :: rest) ↔ (∀ x ∈ rest, e.1 < x.1) ∧ Sorted rest := List.pairwise_cons

theorem mem_addEntry {key : Key} {item : Item} {entries : List (Key × Item)} {e : Key × Item}
    (member : e ∈ addEntry key item entries) : e = (key,item) ∨ e ∈ entries := by
  induction entries with
  | nil => simpa [addEntry] using member
  | cons x rest ih =>
    obtain ⟨k,v⟩ := x
    simp only [addEntry] at member
    split_ifs at member with before same
    · rcases List.mem_cons.mp member with here | later
      · exact .inl here
      · exact .inr later
    · exact .inr member
    · rcases List.mem_cons.mp member with here | later
      · exact .inr (by simp [here])
      · rcases ih later with new | old
        · exact .inl new
        · exact .inr (List.mem_cons_of_mem _ old)

theorem addEntry_sorted {key : Key} {item : Item} {entries : List (Key × Item)} (sorted : Sorted entries) :
    Sorted (addEntry key item entries) := by
  induction entries with
  | nil => simp [addEntry,Sorted]
  | cons x rest ih =>
    obtain ⟨k,v⟩ := x
    obtain ⟨below,tail⟩ := sorted_cons.mp sorted
    simp only [addEntry]
    split_ifs with before same
    · refine sorted_cons.mpr ⟨?_,sorted⟩
      intro y member
      rcases List.mem_cons.mp member with rfl | later
      · exact before
      · exact lt_trans before (below y later)
    · exact sorted
    · refine sorted_cons.mpr ⟨?_,ih tail⟩
      intro y member
      rcases mem_addEntry member with rfl | old
      · exact lt_of_le_of_ne (not_lt.mp before) (Ne.symm same)
      · exact below y old

theorem sortEntries_sorted (entries : List (Key × Item)) : Sorted (sortEntries entries) := by
  induction entries with
  | nil => exact sorted_nil
  | cons x rest ih => exact addEntry_sorted ih

theorem addEntry_first {key : Key} {item : Item} {entries : List (Key × Item)}
    (below : ∀ x ∈ entries, key < x.1) : addEntry key item entries = (key,item) :: entries := by
  cases entries with
  | nil => rfl
  | cons x rest => simp [addEntry,below x]

/-- Sorted entries stay as they are. -/
theorem sortEntries_of_sorted {entries : List (Key × Item)} (sorted : Sorted entries) :
    sortEntries entries = entries := by
  induction entries with
  | nil => rfl
  | cons x rest ih =>
    obtain ⟨below,tail⟩ := sorted_cons.mp sorted
    rw [sortEntries,ih tail,addEntry_first below]

theorem mem_sortEntries {entries : List (Key × Item)} {e : Key × Item} (member : e ∈ sortEntries entries) :
    e ∈ entries := by
  induction entries with
  | nil => exact member
  | cons x rest ih =>
    rcases mem_addEntry member with new | old
    · simp [new]
    · exact List.mem_cons_of_mem _ (ih old)

theorem addEntry_perm {key : Key} {item : Item} {entries : List (Key × Item)}
    (new : key ∉ entries.map Prod.fst) : (addEntry key item entries).Perm ((key,item) :: entries) := by
  induction entries with
  | nil => exact List.Perm.refl _
  | cons x rest ih =>
    obtain ⟨k,v⟩ := x
    obtain ⟨other,absent⟩ : key ≠ k ∧ key ∉ rest.map Prod.fst := by simpa using new
    simp only [addEntry]
    split_ifs
    · exact List.Perm.refl _
    · exact ((ih absent).cons _).trans (List.Perm.swap ..)

/-- Entries with distinct keys are only brought in another order. -/
theorem sortEntries_perm {entries : List (Key × Item)} (distinct : (entries.map Prod.fst).Nodup) :
    (sortEntries entries).Perm entries := by
  induction entries with
  | nil => exact List.Perm.refl _
  | cons x rest ih =>
    obtain ⟨first,others⟩ := List.nodup_cons.mp distinct
    have perm := ih others
    exact (addEntry_perm (fun member => first ((perm.map Prod.fst).mem_iff.mp member))).trans (perm.cons _)

/-- An entry is added where its key is new. -/
theorem mem_addEntry_iff {key : Key} {item : Item} {entries : List (Key × Item)} (sorted : Sorted entries)
    {e : Key × Item} :
    e ∈ addEntry key item entries ↔ e ∈ entries ∨ (e = (key,item) ∧ ∀ x ∈ entries, x.1 ≠ key) := by
  induction entries with
  | nil => simp [addEntry]
  | cons x rest ih =>
    obtain ⟨k,v⟩ := x
    obtain ⟨below,tail⟩ := sorted_cons.mp sorted
    simp only [addEntry]
    split_ifs with before same
    · have new : ∀ x ∈ (k,v) :: rest, x.1 ≠ key :=
        List.forall_mem_cons.mpr ⟨ne_of_gt before,fun y later => ne_of_gt (lt_trans before (below y later))⟩
      rw [List.mem_cons,or_comm]
      exact or_congr_right ⟨fun here => ⟨here,new⟩,And.left⟩
    · exact ⟨.inl,fun member => member.elim id (fun new => absurd same.symm (new.2 _ List.mem_cons_self))⟩
    · rw [List.mem_cons,ih tail,List.mem_cons,List.forall_mem_cons,or_assoc]
      refine or_congr_right (or_congr_right (and_congr_right (fun _ => ?_)))
      exact ⟨fun new => ⟨Ne.symm same,new⟩,And.right⟩

/-- An entry that comes last stays, the others where they have another key. -/
theorem mem_sortEntries_append {key : Key} {item : Item} {entries : List (Key × Item)} (sorted : Sorted entries)
    {e : Key × Item} :
    e ∈ sortEntries (entries ++ [(key,item)]) ↔ e = (key,item) ∨ (e ∈ entries ∧ e.1 ≠ key) := by
  induction entries generalizing e with
  | nil => simp [sortEntries,addEntry]
  | cons x rest ih =>
    obtain ⟨k,v⟩ := x
    obtain ⟨below,tail⟩ := sorted_cons.mp sorted
    have new : (∀ y ∈ sortEntries (rest ++ [(key,item)]), y.1 ≠ k) ↔ key ≠ k := by
      constructor
      · exact fun others => others _ ((ih tail).mpr (.inl rfl))
      · intro other y member
        rcases (ih tail).mp member with rfl | ⟨old,_⟩
        · exact other
        · exact ne_of_gt (below y old)
    rw [List.cons_append,sortEntries,mem_addEntry_iff (sortEntries_sorted _),ih tail,new,or_assoc,List.mem_cons]
    refine or_congr_right ?_
    constructor
    · rintro (⟨old,other⟩ | ⟨rfl,other⟩)
      · exact ⟨.inr old,other⟩
      · exact ⟨.inl rfl,other.symm⟩
    · rintro ⟨rfl | old,other⟩
      · exact .inr ⟨rfl,other.symm⟩
      · exact .inl ⟨old,other⟩

theorem sorted_map {entries : List (Key × Item)} (f : Key → Item → Image) (sorted : Sorted entries) :
    Sorted (entries.map (fun e => (e.1,f e.1 e.2))) := by
  induction entries with
  | nil => exact sorted_nil
  | cons x rest ih =>
    obtain ⟨below,tail⟩ := sorted_cons.mp sorted
    refine sorted_cons.mpr ⟨?_,ih tail⟩
    intro y member
    obtain ⟨e,old,rfl⟩ := List.mem_map.mp member
    exact below e old

/-- What an entry becomes under a partial function of key and item. -/
def keepEntry (f : Key → Item → Option Image) (e : Key × Item) : Option (Key × Image) :=
  (f e.1 e.2).map (fun y => (e.1,y))

omit [LinearOrder Key] in
theorem keepEntry_eq_some {f : Key → Item → Option Image} {e : Key × Item} {y : Key × Image} :
    keepEntry f e = some y ↔ y.1 = e.1 ∧ f e.1 e.2 = some y.2 := by
  obtain ⟨k,z⟩ := y
  cases image : f e.1 e.2 with
  | none => simp [keepEntry,image]
  | some z' =>
    simp only [keepEntry,image,Option.map_some,Option.some.injEq,Prod.mk.injEq]
    exact and_congr eq_comm Iff.rfl

theorem sorted_filterMap {entries : List (Key × Item)} (f : Key → Item → Option Image) (sorted : Sorted entries) :
    Sorted (entries.filterMap (keepEntry f)) := by
  refine List.pairwise_filterMap.mpr (sorted.imp ?_)
  intro a b before y fromA z fromB
  rw [(keepEntry_eq_some.mp fromA).1,(keepEntry_eq_some.mp fromB).1]
  exact before

theorem sorted_filter {entries : List (Key × Item)} (p : Key × Item → Bool) (sorted : Sorted entries) :
    Sorted (entries.filter p) := sorted.filter p

theorem map_addEntry (g : Item → Image) (key : Key) (item : Item) (entries : List (Key × Item)) :
    (addEntry key item entries).map (fun e => (e.1,g e.2)) = addEntry key (g item) (entries.map (fun e => (e.1,g e.2))) := by
  induction entries with
  | nil => rfl
  | cons e rest ih =>
    simp only [addEntry,List.map_cons]
    split_ifs
    · rfl
    · rfl
    · rw [List.map_cons,ih]

theorem map_sortEntries (g : Item → Image) (entries : List (Key × Item)) :
    (sortEntries entries).map (fun e => (e.1,g e.2)) = sortEntries (entries.map (fun e => (e.1,g e.2))) := by
  induction entries with
  | nil => rfl
  | cons e rest ih => rw [sortEntries,map_addEntry,ih,List.map_cons,sortEntries]

theorem filter_addEntry (p : Key → Bool) (key : Key) (item : Item) {entries : List (Key × Item)} (sorted : Sorted entries) :
    (addEntry key item entries).filter (fun e => p e.1) =
      if p key then addEntry key item (entries.filter (fun e => p e.1)) else entries.filter (fun e => p e.1) := by
  induction entries with
  | nil => simp only [addEntry,List.filter_nil,List.filter_cons]
  | cons e rest ih =>
    obtain ⟨k,v⟩ := e
    obtain ⟨below,tail⟩ := sorted_cons.mp sorted
    rcases lt_trichotomy key k with before | rfl | after
    · have first : addEntry key item ((k,v) :: rest) = (key,item) :: (k,v) :: rest := by simp [addEntry,before]
      have least : ∀ x ∈ ((k,v) :: rest).filter (fun e => p e.1), key < x.1 := by
        intro x inside
        rcases List.mem_cons.mp (List.mem_of_mem_filter inside) with rfl | later
        · exact before
        · exact before.trans (below x later)
      rw [first,addEntry_first least,List.filter_cons]
    · have here : addEntry key item ((key,v) :: rest) = (key,v) :: rest := by simp [addEntry]
      rw [here,List.filter_cons]
      split_ifs
      · simp [addEntry]
      · rfl
    · have later (more : List (Key × Item)) : addEntry key item ((k,v) :: more) = (k,v) :: addEntry key item more := by
        simp [addEntry,after.not_gt,after.ne']
      rw [later,List.filter_cons,List.filter_cons,ih tail]
      split_ifs <;> simp [later]

theorem filter_sortEntries (p : Key → Bool) (entries : List (Key × Item)) :
    (sortEntries entries).filter (fun e => p e.1) = sortEntries (entries.filter (fun e => p e.1)) := by
  induction entries with
  | nil => rfl
  | cons e rest ih =>
    rw [sortEntries,filter_addEntry p _ _ (sortEntries_sorted rest),ih,List.filter_cons]
    split_ifs
    · rw [sortEntries]
    · rfl

/-- One key has one entry. -/
theorem sorted_functional {entries : List (Key × Item)} (sorted : Sorted entries) {k : Key} {a b : Item}
    (first : (k,a) ∈ entries) (second : (k,b) ∈ entries) : a = b := by
  induction entries with
  | nil => simp at first
  | cons x rest ih =>
    obtain ⟨below,tail⟩ := sorted_cons.mp sorted
    rcases List.mem_cons.mp first with here | later
    · rcases List.mem_cons.mp second with here' | later'
      · exact (Prod.mk.inj (here.trans here'.symm)).2
      · exact absurd (below _ later') (by simp [← here])
    · rcases List.mem_cons.mp second with here' | later'
      · exact absurd (below _ later) (by simp [← here'])
      · exact ih tail later later'

end

/-- A finite map: its entries, each key once, in key order. -/
@[ext] structure Dict (Key : Type u) (Item : Type v) [LinearOrder Key] where
  entries : List (Key × Item)
  sorted : Sorted entries

namespace Dict
variable {Key : Type u} {Item : Type v} {Image : Type w} [LinearOrder Key]

instance [DecidableEq Item] : DecidableEq (Dict Key Item) := fun a b =>
  decidable_of_iff (a.entries = b.entries) Dict.ext_iff.symm

def empty : Dict Key Item := ⟨[],sorted_nil⟩

/-- The map of entries read one after the other, a later entry replacing an
    earlier one with its key. -/
def ofEntries (entries : List (Key × Item)) : Dict Key Item := ⟨sortEntries entries,sortEntries_sorted entries⟩

def get? (m : Dict Key Item) (key : Key) : Option Item := (m.entries.find? (fun e => e.1 = key)).map (·.2)

def erase (m : Dict Key Item) (key : Key) : Dict Key Item :=
  ⟨m.entries.filter (fun e => e.1 ≠ key),sorted_filter _ m.sorted⟩

/-- The map with the item under the key. -/
def insert (m : Dict Key Item) (key : Key) (item : Item) : Dict Key Item := ofEntries (m.entries ++ [(key,item)])

def map (m : Dict Key Item) (f : Key → Item → Image) : Dict Key Image :=
  ⟨m.entries.map (fun e => (e.1,f e.1 e.2)),sorted_map f m.sorted⟩

/-- The entries that `f` keeps, changed by `f`. -/
def filterMap (m : Dict Key Item) (f : Key → Item → Option Image) : Dict Key Image :=
  ⟨m.entries.filterMap (keepEntry f),sorted_filterMap f m.sorted⟩

@[simp] theorem entries_empty : (empty : Dict Key Item).entries = [] := rfl
@[simp] theorem ofEntries_entries (m : Dict Key Item) : ofEntries m.entries = m :=
  Dict.ext (sortEntries_of_sorted m.sorted)
@[simp] theorem map_entries (m : Dict Key Item) (f : Key → Item → Image) :
    (m.map f).entries = m.entries.map (fun e => (e.1,f e.1 e.2)) := rfl
@[simp] theorem erase_entries (m : Dict Key Item) (key : Key) :
    (m.erase key).entries = m.entries.filter (fun e => e.1 ≠ key) := rfl
@[simp] theorem filterMap_entries (m : Dict Key Item) (f : Key → Item → Option Image) :
    (m.filterMap f).entries = m.entries.filterMap (keepEntry f) := rfl

@[simp] theorem erase_erase (m : Dict Key Item) (key : Key) : (m.erase key).erase key = m.erase key :=
  Dict.ext (by simp [List.filter_filter])

theorem get?_eq_some {m : Dict Key Item} {key : Key} {item : Item} :
    m.get? key = some item ↔ (key,item) ∈ m.entries := by
  unfold get?
  constructor
  · intro found
    obtain ⟨e,here,rfl⟩ := Option.map_eq_some_iff.mp found
    have same : e.1 = key := by simpa using List.find?_some here
    subst same
    exact List.mem_of_find?_eq_some here
  · intro member
    cases found : m.entries.find? (fun e => e.1 = key) with
    | none => exact absurd (List.find?_eq_none.mp found _ member) (by simp)
    | some e =>
      have same : e.1 = key := by simpa using List.find?_some found
      have here : (key,e.2) ∈ m.entries := by
        rw [← same]
        exact List.mem_of_find?_eq_some found
      simp [sorted_functional m.sorted here member]

theorem get?_eq_none {m : Dict Key Item} {key : Key} :
    m.get? key = none ↔ ∀ item, (key,item) ∉ m.entries := by
  constructor
  · intro missing item member
    rw [get?_eq_some.mpr member] at missing
    cases missing
  · intro missing
    cases found : m.get? key with
    | none => rfl
    | some item => exact absurd (get?_eq_some.mp found) (missing item)

theorem mem_insert {m : Dict Key Item} {key : Key} {item : Item} {e : Key × Item} :
    e ∈ (m.insert key item).entries ↔ e = (key,item) ∨ (e ∈ m.entries ∧ e.1 ≠ key) := mem_sortEntries_append m.sorted

theorem mem_erase {m : Dict Key Item} {key : Key} {e : Key × Item} :
    e ∈ (m.erase key).entries ↔ e ∈ m.entries ∧ e.1 ≠ key := by
  simp

@[simp] theorem get?_empty (key : Key) : (empty : Dict Key Item).get? key = none := rfl

@[simp] theorem get?_insert_self (m : Dict Key Item) (key : Key) (item : Item) :
    (m.insert key item).get? key = some item := get?_eq_some.mpr (mem_insert.mpr (.inl rfl))

theorem get?_insert_other (m : Dict Key Item) {key other : Key} (different : other ≠ key) (item : Item) :
    (m.insert key item).get? other = m.get? other := by
  refine Option.ext ?_
  intro x
  rw [get?_eq_some,get?_eq_some,mem_insert]
  constructor
  · rintro (new | ⟨old,_⟩)
    · exact absurd (Prod.mk.inj new).1 different
    · exact old
  · exact fun old => .inr ⟨old,different⟩

theorem get?_insert (m : Dict Key Item) (key other : Key) (item : Item) :
    (m.insert key item).get? other = if other = key then some item else m.get? other := by
  split_ifs with same
  · rw [same,get?_insert_self]
  · exact get?_insert_other m same item

/-- A key that is there stays there under another entry. -/
theorem isSome_get?_insert {m : Dict Key Item} {other : Key} (known : (m.get? other).isSome = true) (key : Key)
    (item : Item) : ((m.insert key item).get? other).isSome = true := by
  rw [get?_insert]
  split_ifs
  · rfl
  · exact known

@[simp] theorem get?_erase_self (m : Dict Key Item) (key : Key) : (m.erase key).get? key = none :=
  get?_eq_none.mpr (fun _ member => (mem_erase.mp member).2 rfl)

theorem get?_erase_other (m : Dict Key Item) {key other : Key} (different : other ≠ key) :
    (m.erase key).get? other = m.get? other := by
  refine Option.ext ?_
  intro x
  rw [get?_eq_some,get?_eq_some,mem_erase]
  exact and_iff_left different

theorem erase_of_missing {m : Dict Key Item} {key : Key} (missing : m.get? key = none) : m.erase key = m := by
  refine Dict.ext (List.filter_eq_self.mpr (fun e member => ?_))
  have other : e.1 ≠ key := fun same => get?_eq_none.mp missing e.2 (by rw [← same]; exact member)
  simpa using other

/-- A new entry comes to those that are there. -/
theorem insert_perm {m : Dict Key Item} {key : Key} (missing : m.get? key = none) (item : Item) :
    (m.insert key item).entries.Perm ((key,item) :: m.entries) := by
  have distinct : ((m.entries ++ [(key,item)]).map Prod.fst).Nodup := by
    rw [List.map_append,List.map_singleton,List.nodup_append]
    refine ⟨List.pairwise_map.mpr (m.sorted.imp (fun before => ne_of_lt before)),by simp,?_⟩
    rintro a member b new same
    obtain ⟨e,old,rfl⟩ := List.mem_map.mp member
    obtain rfl := List.mem_singleton.mp new
    exact get?_eq_none.mp missing e.2 (by rw [← same]; exact old)
  exact (sortEntries_perm distinct).trans List.perm_append_comm

/-- The entries of one map over another map. -/
theorem get?_foldl_insert {entries : List (Key × Item)} (sorted : Sorted entries) (m : Dict Key Item) (key : Key) :
    (entries.foldl (fun dict e => dict.insert e.1 e.2) m).get? key =
      ((entries.find? (fun e => e.1 = key)).map (·.2)).or (m.get? key) := by
  induction entries generalizing m with
  | nil => rfl
  | cons x rest ih =>
    obtain ⟨below,tail⟩ := sorted_cons.mp sorted
    rw [List.foldl_cons,ih tail]
    by_cases same : x.1 = key
    · have missing : rest.find? (fun e => e.1 = key) = none := by
        refine List.find?_eq_none.mpr (fun e later => ?_)
        simpa [← same] using ne_of_gt (below e later)
      subst same
      simp [missing]
    · rw [get?_insert_other _ (Ne.symm same),List.find?_cons_of_neg (by simpa using same)]

/-- A new entry is changed like the others. -/
theorem map_insert (m : Dict Key Item) (key : Key) (item : Item) (f : Key → Item → Image) :
    (m.insert key item).map f = (m.map f).insert key (f key item) := by
  have added : ∀ (k : Key) (v : Item) (entries : List (Key × Item)),
      (addEntry k v entries).map (fun e => (e.1,f e.1 e.2)) = addEntry k (f k v) (entries.map (fun e => (e.1,f e.1 e.2))) := by
    intro k v entries
    induction entries with
    | nil => rfl
    | cons e rest ih =>
      simp only [addEntry,List.map_cons]
      split_ifs
      · rfl
      · rfl
      · rw [List.map_cons,ih]
  have sorted : ∀ entries : List (Key × Item),
      (sortEntries entries).map (fun e => (e.1,f e.1 e.2)) = sortEntries (entries.map (fun e => (e.1,f e.1 e.2))) := by
    intro entries
    induction entries with
    | nil => rfl
    | cons e rest ih =>
      simp only [sortEntries,List.map_cons]
      rw [added,ih]
  apply Dict.ext
  show (sortEntries (m.entries ++ [(key,item)])).map _ = sortEntries (m.entries.map _ ++ [(key,f key item)])
  rw [sorted,List.map_append]
  rfl

theorem get?_filterMap (m : Dict Key Item) (f : Key → Item → Option Image) (key : Key) :
    (m.filterMap f).get? key = (m.get? key).bind (f key) := by
  cases found : m.get? key with
  | none =>
    refine get?_eq_none.mpr (fun item member => ?_)
    obtain ⟨e,old,kept⟩ := List.mem_filterMap.mp member
    obtain ⟨rfl,-⟩ := keepEntry_eq_some.mp kept
    exact get?_eq_none.mp found e.2 old
  | some item =>
    have here := get?_eq_some.mp found
    simp only [Option.bind_some]
    cases image : f key item with
    | some y =>
      apply get?_eq_some.mpr
      exact List.mem_filterMap.mpr ⟨(key,item),here,keepEntry_eq_some.mpr ⟨rfl,image⟩⟩
    | none =>
      refine get?_eq_none.mpr (fun y member => ?_)
      obtain ⟨e,old,kept⟩ := List.mem_filterMap.mp member
      obtain ⟨rfl,kept⟩ := keepEntry_eq_some.mp kept
      rw [sorted_functional m.sorted old here,image] at kept
      cases kept

theorem filterMap_map {Other : Type v} (m : Dict Key Item) (f : Key → Item → Other) (g : Key → Other → Option Image) :
    (m.map f).filterMap g = m.filterMap (fun key item => g key (f key item)) := by
  apply Dict.ext
  simp only [filterMap_entries,map_entries,List.filterMap_map]
  rfl

/-- A partial function that keeps every item of a map leaves the map as it is. -/
theorem filterMap_eq_self_iff (m : Dict Key Item) (f : Key → Item → Option Item) :
    m.filterMap f = m ↔ ∀ e ∈ m.entries, f e.1 e.2 = some e.2 := by
  constructor
  · intro same e member
    have here := get?_eq_some.mpr (show (e.1,e.2) ∈ m.entries from member)
    have there := get?_filterMap m f e.1
    rw [same,here] at there
    exact there.symm
  · intro keeps
    apply Dict.ext
    rw [filterMap_entries,List.filterMap_congr (g := some)]
    · exact List.filterMap_some
    · intro e member
      exact keepEntry_eq_some.mpr ⟨rfl,keeps e member⟩

end Dict
end Zasper.Maps
