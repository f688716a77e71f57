import Mathlib.Algebra.Group.Nat.Defs
import Mathlib.Data.List.Basic
import Mathlib.Data.List.Nodup
import Mathlib.Data.List.TakeWhile

/-!
# JavaScript objects

An object is the list of its own properties in the order in which `Object.keys`
names them: the array indices in ascending order, then the other keys in the order
in which they were added. A property that is there keeps its place when its value is
replaced; a new one goes to the place that the order gives it (`before`, `after`).
-/
namespace Zasper.JsObjects
set_option linter.unusedSimpArgs false
universe u v

/-- The number that a key spells, where it is an array index. -/
def arrayIndex (key : String) : Option Nat :=
  let n := key.toList.foldl (fun n c => 10 * n + (c.toNat - 48)) 0
  if n.repr = key ∧ n < 2^32 - 1 then some n else none

/-- The key `a` may be named before the key `b`, which may be newer. -/
def Precedes (a b : String) : Prop :=
  match arrayIndex a, arrayIndex b with
  | some i, some j => i < j
  | none, some _ => False
  | _, none => True

instance (a b : String) : Decidable (Precedes a b) := by
  unfold Precedes
  split <;> infer_instance

theorem arrayIndex_inj {a b : String} {i : Nat} (first : arrayIndex a = some i) (second : arrayIndex b = some i) :
    a = b := by
  unfold arrayIndex at first second
  dsimp only at first second
  split_ifs at first second with canonical canonical'
  obtain rfl := Option.some.inj first
  rw [← canonical.1,← canonical'.1,Option.some.inj second]

/-- What stays behind a new key may follow it. -/
theorem precedes_of_not {a b : String} (other : a ≠ b) (late : ¬ Precedes a b) : Precedes b a := by
  unfold Precedes at *
  cases indexA : arrayIndex a with
  | none =>
    cases arrayIndex b <;> trivial
  | some i =>
    cases indexB : arrayIndex b with
    | none => simp [indexA,indexB] at late
    | some j =>
      simp only [indexA,indexB] at late ⊢
      have : i ≠ j := fun same => other (arrayIndex_inj indexA (same ▸ indexB))
      omega

theorem precedes_behind {a b c : String} (late : ¬ Precedes a b) (later : Precedes a c) (other : a ≠ b) :
    Precedes b c := by
  have first := precedes_of_not other late
  unfold Precedes at *
  cases indexA : arrayIndex a with
  | none =>
    cases indexC : arrayIndex c with
    | none => cases arrayIndex b <;> trivial
    | some k => simp [indexA,indexC] at later
  | some i =>
    cases indexC : arrayIndex c with
    | none => cases arrayIndex b <;> trivial
    | some k =>
      cases indexB : arrayIndex b with
      | none => simp [indexA,indexB] at first
      | some j =>
        simp only [indexA,indexB,indexC] at first later ⊢
        omega

section
variable {Item : Type u}

/-- The properties that a new key goes behind. -/
def before (key : String) (entries : List (String × Item)) : List (String × Item) :=
  entries.takeWhile (fun e => Precedes e.1 key)

/-- The properties that a new key goes before. -/
def after (key : String) (entries : List (String × Item)) : List (String × Item) :=
  entries.dropWhile (fun e => Precedes e.1 key)

theorem before_append_after (key : String) (entries : List (String × Item)) :
    before key entries ++ after key entries = entries := List.takeWhile_append_dropWhile

/-- The order in which the keys are named. -/
def Ordered (entries : List (String × Item)) : Prop := entries.Pairwise (fun a b => a.1 ≠ b.1 ∧ Precedes a.1 b.1)

theorem before_mapValues {Image : Type v} (key : String) (f : String → Item → Image) (entries : List (String × Item)) :
    before key (entries.map (fun e => (e.1,f e.1 e.2))) = (before key entries).map (fun e => (e.1,f e.1 e.2)) :=
  List.takeWhile_map

theorem after_mapValues {Image : Type v} (key : String) (f : String → Item → Image) (entries : List (String × Item)) :
    after key (entries.map (fun e => (e.1,f e.1 e.2))) = (after key entries).map (fun e => (e.1,f e.1 e.2)) :=
  List.dropWhile_map

theorem precedes_before {key : String} {entries : List (String × Item)} {e : String × Item}
    (member : e ∈ before key entries) : Precedes e.1 key := by
  simpa using List.mem_takeWhile_imp member

theorem precedes_after {key : String} {entries : List (String × Item)} (ordered : Ordered entries)
    (new : ∀ e ∈ entries, e.1 ≠ key) {e : String × Item} (member : e ∈ after key entries) : Precedes key e.1 := by
  induction entries with
  | nil => simp [after] at member
  | cons x rest ih =>
    obtain ⟨later,tail⟩ := List.pairwise_cons.mp ordered
    obtain ⟨here,there⟩ := List.forall_mem_cons.mp new
    by_cases early : Precedes x.1 key
    · rw [after,List.dropWhile_cons_of_pos (by simpa using early)] at member
      exact ih tail there member
    · rw [after,List.dropWhile_cons_of_neg (by simpa using early)] at member
      rcases List.mem_cons.mp member with rfl | old
      · exact precedes_of_not here early
      · exact precedes_behind early (later e old).2 here

theorem insert_ordered {key : String} {item : Item} {entries : List (String × Item)} (ordered : Ordered entries)
    (new : ∀ e ∈ entries, e.1 ≠ key) : Ordered (before key entries ++ (key,item) :: after key entries) := by
  have parts := ordered
  rw [← before_append_after key entries] at parts
  obtain ⟨front,back,across⟩ := List.pairwise_append.mp parts
  have newBefore : ∀ e ∈ before key entries, e.1 ≠ key :=
    fun e member => new e (List.takeWhile_subset _ member)
  have newAfter : ∀ e ∈ after key entries, e.1 ≠ key :=
    fun e member => new e ((List.dropWhile_sublist _).subset member)
  refine List.pairwise_append.mpr ⟨front,List.pairwise_cons.mpr ⟨?_,back⟩,?_⟩
  · intro e member
    exact ⟨(newAfter e member).symm,precedes_after ordered new member⟩
  · intro e member x later
    rcases List.mem_cons.mp later with rfl | old
    · exact ⟨newBefore e member,precedes_before member⟩
    · exact across e member x old

theorem mapValues_ordered {Image : Type v} (f : String → Item → Image) {entries : List (String × Item)}
    (ordered : Ordered entries) : Ordered (entries.map (fun e => (e.1,f e.1 e.2))) :=
  List.pairwise_map.mpr ordered

end

/-- The own properties of an object, as `Object.keys` orders them. -/
@[ext] structure JsObject (Item : Type u) where
  entries : List (String × Item)
  ordered : Ordered entries

namespace JsObject
variable {Item : Type u} {Image : Type v}

def empty : JsObject Item := ⟨[],List.Pairwise.nil⟩

def values (o : JsObject Item) : List Item := o.entries.map (·.2)

def get? (o : JsObject Item) (key : String) : Option Item := (o.entries.find? (fun e => e.1 = key)).map (·.2)

def has (o : JsObject Item) (key : String) : Bool := o.entries.any (fun e => e.1 = key)

def mapValues (o : JsObject Item) (f : String → Item → Image) : JsObject Image :=
  ⟨o.entries.map (fun e => (e.1,f e.1 e.2)),mapValues_ordered f o.ordered⟩

/-- Changes the value of a property that is there. -/
def modify (o : JsObject Item) (key : String) (f : Item → Item) : JsObject Item :=
  o.mapValues (fun k item => if k = key then f item else item)

/-- Adds a property; one with this key already stays. -/
def add (o : JsObject Item) (key : String) (item : Item) : JsObject Item :=
  if new : ∀ e ∈ o.entries, e.1 ≠ key then
    ⟨before key o.entries ++ (key,item) :: after key o.entries,insert_ordered o.ordered new⟩
  else o

def assign (o : JsObject Item) (key : String) (item : Item) : JsObject Item :=
  if o.has key then o.modify key (fun _ => item) else o.add key item

def delete (o : JsObject Item) (key : String) : JsObject Item :=
  ⟨o.entries.filter (fun e => e.1 ≠ key),o.ordered.filter _⟩

/-- The property under a key with those behind it. -/
def fromKey (o : JsObject Item) (key : String) : List (String × Item) := o.entries.dropWhile (fun e => e.1 ≠ key)

@[simp] theorem mapValues_entries (o : JsObject Item) (f : String → Item → Image) :
    (o.mapValues f).entries = o.entries.map (fun e => (e.1,f e.1 e.2)) := rfl
@[simp] theorem delete_entries (o : JsObject Item) (key : String) :
    (o.delete key).entries = o.entries.filter (fun e => e.1 ≠ key) := rfl

theorem mapValues_mapValues {Last : Type v} (o : JsObject Item) (f : String → Item → Image) (g : String → Image → Last) :
    (o.mapValues f).mapValues g = o.mapValues (fun key item => g key (f key item)) := by
  apply JsObject.ext
  simp

theorem not_has_iff {o : JsObject Item} {key : String} : o.has key = false ↔ ∀ e ∈ o.entries, e.1 ≠ key := by
  simp [has]

@[simp] theorem has_mapValues (o : JsObject Item) (f : String → Item → Image) (key : String) :
    (o.mapValues f).has key = o.has key := by
  simp [has,List.any_map,Function.comp_def]

theorem add_entries {o : JsObject Item} {key : String} (new : o.has key = false) (item : Item) :
    (o.add key item).entries = before key o.entries ++ (key,item) :: after key o.entries := by
  rw [add,dif_pos (not_has_iff.mp new)]

/-- One key has one property. -/
theorem entries_functional {o : JsObject Item} {a b : String × Item} (first : a ∈ o.entries) (second : b ∈ o.entries)
    (same : a.1 = b.1) : a = b := by
  have distinct : (o.entries.map (·.1)).Nodup := List.pairwise_map.mpr (o.ordered.imp (fun h => h.1))
  exact List.inj_on_of_nodup_map distinct first second same

theorem get?_eq_some {o : JsObject Item} {key : String} {item : Item} :
    o.get? key = some item ↔ (key,item) ∈ o.entries := by
  constructor
  · intro found
    obtain ⟨e,here,rfl⟩ := Option.map_eq_some_iff.mp found
    obtain rfl : e.1 = key := by simpa using List.find?_some here
    exact List.mem_of_find?_eq_some here
  · intro member
    have there : (o.entries.find? (fun e => e.1 = key)).isSome := List.find?_isSome.mpr ⟨_,member,by simp⟩
    obtain ⟨e,here⟩ := Option.isSome_iff_exists.mp there
    have same : e.1 = key := by simpa using List.find?_some here
    obtain rfl := entries_functional (List.mem_of_find?_eq_some here) member same
    rw [get?,here]
    rfl

theorem get?_eq_none {o : JsObject Item} {key : String} : o.get? key = none ↔ o.has key = false := by
  simp [get?,has]

/-- What an object has under a key, from what its entries are. -/
theorem get?_congr {o other : JsObject Item} {key : String}
    (same : ∀ item, (key,item) ∈ o.entries ↔ (key,item) ∈ other.entries) : o.get? key = other.get? key := by
  apply Option.ext
  intro item
  rw [get?_eq_some,get?_eq_some,same]

theorem get?_mapValues (o : JsObject Item) (f : String → Item → Image) (key : String) :
    (o.mapValues f).get? key = (o.get? key).map (f key) := by
  rw [get?,mapValues_entries,List.find?_map]
  cases here : o.entries.find? (fun e => e.1 = key) with
  | none => simp [get?,here,Function.comp_def]
  | some e =>
    obtain rfl : e.1 = key := by simpa using List.find?_some here
    simp [get?,here,Function.comp_def]

theorem get?_modify (o : JsObject Item) (key other : String) (f : Item → Item) :
    (o.modify key f).get? other = (o.get? other).map (fun item => if other = key then f item else item) :=
  get?_mapValues o _ other

theorem get?_add {o : JsObject Item} {key : String} (new : o.has key = false) (item : Item) (other : String) :
    (o.add key item).get? other = if other = key then some item else o.get? other := by
  split_ifs with here
  · refine get?_eq_some.mpr ?_
    simp [here,add_entries new]
  · refine get?_congr ?_
    intro item'
    have split : (other,item') ∈ o.entries ↔ (other,item') ∈ before key o.entries ++ after key o.entries := by
      rw [before_append_after]
    rw [add_entries new,split]
    simp [here]

theorem get?_assign (o : JsObject Item) (key other : String) (item : Item) :
    (o.assign key item).get? other = if other = key then some item else o.get? other := by
  unfold assign
  by_cases known : o.has key = true
  · rw [if_pos known,get?_modify]
    split_ifs with here
    · obtain ⟨old,there⟩ : ∃ old, o.get? key = some old := by
        apply Option.ne_none_iff_exists'.mp
        intro missing
        rw [get?_eq_none.mp missing] at known
        cases known
      rw [here,there]
      rfl
    · exact Option.map_id'
  · rw [if_neg known,get?_add (by simpa using known)]

theorem get?_delete (o : JsObject Item) (key other : String) :
    (o.delete key).get? other = if other = key then none else o.get? other := by
  split_ifs with here
  · refine get?_eq_none.mpr (not_has_iff.mpr (fun e member => ?_))
    simpa [here] using (List.mem_filter.mp member).2
  · refine get?_congr (fun item => ?_)
    simp [here]

theorem get?_split {o : JsObject Item} {key : String} {item : Item} (found : o.get? key = some item) :
    ∃ front back, o.entries = front ++ (key,item) :: back ∧ o.fromKey key = (key,item) :: back := by
  obtain ⟨e,here,rfl⟩ := Option.map_eq_some_iff.mp found
  obtain ⟨same,front,back,split,others⟩ := List.find?_eq_some_iff_append.mp here
  obtain rfl : e.1 = key := by simpa using same
  refine ⟨front,back,split,?_⟩
  rw [fromKey,split,List.dropWhile_append_of_pos (by simpa using others),List.dropWhile_cons_of_neg (by simp)]

/-- A property that is deleted, with what stands before and behind it. -/
theorem delete_split {o : JsObject Item} {key : String} {item : Item} {front back : List (String × Item)}
    (split : o.entries = front ++ (key,item) :: back) : (o.delete key).entries = front ++ back := by
  have ordered := o.ordered
  rw [split] at ordered
  obtain ⟨-,tail,across⟩ := List.pairwise_append.mp ordered
  have frontOther : ∀ e ∈ front, e.1 ≠ key := fun e member => (across e member _ List.mem_cons_self).1
  have backOther : ∀ e ∈ back, e.1 ≠ key := fun e member => ((List.pairwise_cons.mp tail).1 e member).1.symm
  have keepFront : front.filter (fun e => e.1 ≠ key) = front := List.filter_eq_self.mpr (by simpa using frontOther)
  have keepBack : back.filter (fun e => e.1 ≠ key) = back := List.filter_eq_self.mpr (by simpa using backOther)
  rw [delete_entries,split,List.filter_append,List.filter_cons_of_neg (by simp),keepFront,keepBack]

end JsObject

example : before "2" [("1",()),("10",()),("a",())] = [("1",())] := by decide

end Zasper.JsObjects
