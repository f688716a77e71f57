import Mathlib.Data.List.Basic

/-!
# Slices

A slice shows the first elements of an array; behind them the array may go on up to
the slice's capacity. An index is checked against the elements that the slice
shows, the bounds of a part of it against the capacity. A `Reading` records the
positions that were read, and has no result after an index or a bound out of range.
-/
namespace Zasper.Slices
set_option linter.unusedSimpArgs false
universe u

structure Slice (α : Type u) where
  elems : List α
  /-- The array behind the elements. -/
  spare : List α

structure Reading (α : Type u) where
  touched : List Nat
  result : Option α

namespace Reading
variable {α β : Type u}

def bind (r : Reading α) (f : α → Reading β) : Reading β :=
  match r.result with
  | none => ⟨r.touched,none⟩
  | some a => ⟨r.touched ++ (f a).touched,(f a).result⟩

instance : Monad Reading where
  pure a := ⟨[],some a⟩
  bind := bind

@[simp] theorem pure_touched (a : α) : (pure a : Reading α).touched = [] := rfl
@[simp] theorem pure_result (a : α) : (pure a : Reading α).result = some a := rfl

@[simp] theorem bind_result (r : Reading α) (f : α → Reading β) :
    (r >>= f).result = r.result.bind (fun a => (f a).result) := by
  obtain ⟨touched,result⟩ := r
  cases result <;> rfl

theorem bind_of_result {r : Reading α} {a : α} (result : r.result = some a) (f : α → Reading β) :
    r >>= f = ⟨r.touched ++ (f a).touched,(f a).result⟩ := by
  obtain ⟨touched,result⟩ := r
  subst result
  rfl

/-- The reading has a result, and read only positions below `n`. -/
def Safe (n : Nat) (r : Reading α) : Prop := r.result.isSome ∧ ∀ i ∈ r.touched, i < n

/-- The reading has the result `a`, and read only positions below `n`. -/
def Gives (n : Nat) (r : Reading α) (a : α) : Prop := r.result = some a ∧ ∀ i ∈ r.touched, i < n

theorem Gives.safe {n : Nat} {r : Reading α} {a : α} (gives : Gives n r a) : Safe n r :=
  ⟨by simp [gives.1],gives.2⟩

theorem gives_pure (n : Nat) (a : α) : Gives n (pure a : Reading α) a := ⟨rfl,by simp⟩

theorem gives_bind {n : Nat} {r : Reading α} {a : α} {f : α → Reading β} {b : β} (first : Gives n r a)
    (second : Gives n (f a) b) : Gives n (r >>= f) b := by
  rw [bind_of_result first.1]
  exact ⟨second.1,fun i inside => (List.mem_append.mp inside).elim (first.2 i) (second.2 i)⟩

/-- A reading is safe step by step. -/
theorem safe_bind {n : Nat} {r : Reading α} {f : α → Reading β} :
    Safe n (r >>= f) ↔ Safe n r ∧ ∀ a, r.result = some a → Safe n (f a) := by
  obtain ⟨touched,result⟩ := r
  cases result with
  | none => simp [Safe,Bind.bind,bind]
  | some a =>
    simp only [Safe,Bind.bind,bind,List.mem_append,Option.isSome_some,true_and,Option.some.injEq,forall_eq']
    constructor
    · rintro ⟨some,below⟩
      exact ⟨fun i inside => below i (.inl inside),some,fun i inside => below i (.inr inside)⟩
    · rintro ⟨first,some,second⟩
      exact ⟨some,fun i inside => inside.elim (first i) (second i)⟩

end Reading

namespace Slice
variable {α : Type u}

def length (s : Slice α) : Nat := s.elems.length
def capacity (s : Slice α) : Nat := s.elems.length + s.spare.length

/-- One element. -/
def index (s : Slice α) (i : Nat) : Reading α := ⟨[i],s.elems[i]?⟩

/-- The elements of the part from `lo` up to `hi`, all of them read. -/
def range (s : Slice α) (lo hi : Nat) : Reading (List α) :=
  if lo ≤ hi ∧ hi ≤ s.capacity then
    ⟨List.range' lo (hi - lo),some (((s.elems ++ s.spare).drop lo).take (hi - lo))⟩
  else ⟨[],none⟩

/-- Every element. -/
def all (s : Slice α) : Reading (List α) := ⟨List.range s.length,some s.elems⟩

/-- Reads one element after the other until one satisfies `p`; `i` is the position of
    the first of the elements left. -/
def seek (p : α → Bool) : List α → Nat → Reading Nat
  | [], i => ⟨[i],none⟩
  | a :: rest, i =>
    if p a then ⟨[i],some i⟩
    else ⟨i :: (seek p rest (i+1)).touched,(seek p rest (i+1)).result⟩

/-- The position of the first element that satisfies `p`. -/
def find (p : α → Bool) (s : Slice α) : Reading Nat := seek p s.elems 0

theorem seek_found {p : α → Bool} {before after : List α} {a : α} (no : ∀ b ∈ before, p b = false) (yes : p a = true)
    (i : Nat) : seek p (before ++ a :: after) i = ⟨List.range' i (before.length + 1),some (i + before.length)⟩ := by
  induction before generalizing i with
  | nil => simp [seek,yes]
  | cons b rest ih =>
    rw [List.cons_append,seek,if_neg (by simp [no b]),ih (fun c inside => no c (by simp [inside]))]
    simp only [List.length_cons,Reading.mk.injEq,Option.some.injEq]
    exact ⟨by rw [← List.range'_succ],by omega⟩

theorem seek_missing {p : α → Bool} {elems : List α} (no : ∀ b ∈ elems, p b = false) (i : Nat) :
    (seek p elems i).result = none := by
  induction elems generalizing i with
  | nil => rfl
  | cons b rest ih =>
    rw [seek,if_neg (by simp [no b])]
    exact ih (fun c inside => no c (by simp [inside])) (i+1)

/-- The first element that satisfies `p`, if there is one. -/
theorem split_first (p : α → Bool) (elems : List α) :
    (∀ b ∈ elems, p b = false) ∨
      ∃ before a after, elems = before ++ a :: after ∧ (∀ b ∈ before, p b = false) ∧ p a = true := by
  induction elems with
  | nil => left; simp
  | cons b rest ih =>
    cases here : p b with
    | true => right; exact ⟨[],b,rest,rfl,by simp,here⟩
    | false =>
      rcases ih with none | ⟨before,a,after,rfl,no,yes⟩
      · left; simpa [here] using none
      · right; exact ⟨b :: before,a,after,rfl,by simpa [here] using no,yes⟩

theorem gives_find {p : α → Bool} {s : Slice α} {before after : List α} {a : α}
    (elems : s.elems = before ++ a :: after) (no : ∀ b ∈ before, p b = false) (yes : p a = true) :
    Reading.Gives s.length (s.find p) before.length := by
  rw [find,elems,seek_found no yes]
  refine ⟨by simp,?_⟩
  intro i inside
  rw [List.mem_range'_1] at inside
  rw [length,elems,List.length_append,List.length_cons]
  omega

theorem gives_index {s : Slice α} {i : Nat} {a : α} (here : s.elems[i]? = some a) :
    Reading.Gives s.length (s.index i) a := by
  obtain ⟨inside,_⟩ := List.getElem?_eq_some_iff.mp here
  exact ⟨here,by simpa [index,length] using inside⟩

theorem gives_all (s : Slice α) : Reading.Gives s.length s.all s.elems := ⟨rfl,by simp [all]⟩

theorem safe_index {n : Nat} (s : Slice α) (i : Nat) : Reading.Safe n (s.index i) ↔ i < n ∧ i < s.length := by
  simp only [Reading.Safe,index,List.mem_singleton,forall_eq,length,Option.isSome_iff_ne_none,ne_eq,
    List.getElem?_eq_none_iff]
  omega

/-- A part is read safely where it ends within the elements. -/
theorem gives_range {s : Slice α} {lo hi : Nat} (order : lo ≤ hi) (inside : hi ≤ s.length) :
    Reading.Gives s.length (s.range lo hi) ((s.elems.drop lo).take (hi - lo)) := by
  have short : lo ≤ s.elems.length := Nat.le_trans order inside
  have part : ((s.elems ++ s.spare).drop lo).take (hi - lo) = (s.elems.drop lo).take (hi - lo) := by
    rw [List.drop_append_of_le_length short,List.take_append_of_le_length]
    rw [List.length_drop]
    exact Nat.sub_le_sub_right inside lo
  rw [range,if_pos ⟨order,Nat.le_trans inside (Nat.le_add_right ..)⟩,part]
  refine ⟨rfl,?_⟩
  intro i between
  rw [List.mem_range'_1] at between
  omega

theorem safe_range {n : Nat} {s : Slice α} {lo hi : Nat} (order : lo < hi) (safe : Reading.Safe n (s.range lo hi)) :
    hi ≤ n := by
  unfold range at safe
  split_ifs at safe with bounds
  · have last : hi - 1 ∈ List.range' lo (hi - lo) := by
      rw [List.mem_range'_1]; omega
    have := safe.2 _ last
    omega
  · exact absurd safe.1 (by simp)

end Slice
end Zasper.Slices
