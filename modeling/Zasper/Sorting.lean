import Mathlib.Data.List.Sort
import Mathlib.Order.RelClasses

/-!
# Sorting

Sorting as a function that is told of its elements only which of two is less: what it does
depends on their number and on the comparisons alone. It sorts where the comparison is a
strict weak order, and puts elements that are not told apart in any order. Elements that
compare alike are therefore treated alike (`sorted_map`), and only where every two
elements are told apart the result does not depend on their order (`sorted_eq_of_perm`).
-/
namespace Zasper.Sorting
set_option linter.unusedSimpArgs false
universe u v

/-- A way to sort any number of elements. -/
structure Sorter where
  /-- The places of `n` elements in the order in which they are returned. -/
  order : (n : Nat) → (Fin n → Fin n → Bool) → List (Fin n)
  perm : ∀ n less, (order n less).Perm (List.finRange n)
  sorts : ∀ n less, IsStrictWeakOrder (Fin n) (fun i j => less i j = true) →
    (order n less).Pairwise (fun i j => less j i = false)

section
variable {α : Type u} {β : Type v}

/-- The comparison is a strict weak order on the elements of the list. -/
def Orders (less : α → α → Bool) (l : List α) : Prop := IsStrictWeakOrder {a // a ∈ l} (fun a b => less a b = true)

def Sorter.sorted (sorter : Sorter) (less : α → α → Bool) (l : List α) : List α :=
  (sorter.order l.length (fun i j => less (l.get i) (l.get j))).map l.get

variable (sorter : Sorter) {less : α → α → Bool} {l : List α}

theorem sorted_perm (less : α → α → Bool) (l : List α) : (sorter.sorted less l).Perm l := by
  have places := (sorter.perm l.length (fun i j => less (l.get i) (l.get j))).map l.get
  rwa [List.map_get_finRange] at places

theorem Orders.of_subset {m : List α} (orders : Orders less l) (subset : m ⊆ l) : Orders less m :=
  have : IsStrictWeakOrder {a // a ∈ l} (fun a b => less a b = true) := orders
  @Order.Preimage.instIsStrictWeakOrder _ _ _ this (fun a : {a // a ∈ m} => ⟨a.1,subset a.2⟩)

theorem Orders.places (orders : Orders less l) :
    IsStrictWeakOrder (Fin l.length) (fun i j => less (l.get i) (l.get j) = true) :=
  have : IsStrictWeakOrder {a // a ∈ l} (fun a b => less a b = true) := orders
  @Order.Preimage.instIsStrictWeakOrder _ _ _ this (fun i : Fin l.length => ⟨l.get i,l.get_mem i⟩)

/-- A comparison of ranks. -/
theorem orders_of_rank {γ : Type v} [LinearOrder γ] {rank : α → γ}
    (same : ∀ a ∈ l, ∀ b ∈ l, less a b = true ↔ rank a < rank b) : Orders less l := by
  have ranks : IsStrictWeakOrder γ (fun a b => a < b) := isStrictWeakOrder_of_isOrderConnected
  have compared : (fun a b : {a // a ∈ l} => less a b = true) = fun a b : {a // a ∈ l} => rank a < rank b := by
    funext a b
    exact propext (same a a.2 b b.2)
  rw [Orders,compared]
  exact @Order.Preimage.instIsStrictWeakOrder _ _ _ ranks (fun a : {a // a ∈ l} => rank a)

theorem sorted_pairwise (orders : Orders less l) : (sorter.sorted less l).Pairwise (fun a b => less b a = false) :=
  List.pairwise_map.mpr (sorter.sorts _ _ orders.places)

/-- What the elements are does not count, only how they compare. -/
theorem sorted_map {other : β → β → Bool} {f : α → β}
    (same : ∀ a ∈ l, ∀ b ∈ l, other (f a) (f b) = less a b) : sorter.sorted other (l.map f) = (sorter.sorted less l).map f := by
  have arranged : ∀ (n : Nat) (length : n = l.length) (get : Fin n → β), (∀ i, get i = f (l.get (i.cast length))) →
      (sorter.order n (fun i j => other (get i) (get j))).map get = (sorter.sorted less l).map f := by
    rintro _ rfl get each
    have comparisons : (fun i j => other (get i) (get j)) = fun i j => less (l.get i) (l.get j) := by
      funext i j
      rw [each,each]
      exact same _ (l.get_mem _) _ (l.get_mem _)
    rw [comparisons,Sorter.sorted,List.map_map]
    exact List.map_congr_left (fun i _ => each i)
  exact arranged _ (List.length_map f) _ (fun i => by simp)

/-- Where all elements are told apart, they are returned in one order. -/
theorem sorted_eq_of_perm {m : List α} (orders : Orders less l) (apart : ∀ a ∈ l, ∀ b ∈ l, less a b = false → less b a = false → a = b)
    (perm : m.Perm l) : sorter.sorted less m = sorter.sorted less l := by
  have ordersToo : Orders less m := orders.of_subset (fun a inside => perm.mem_iff.mp inside)
  refine List.Perm.eq_of_pairwise ?_ (sorted_pairwise sorter ordersToo) (sorted_pairwise sorter orders)
    ((sorted_perm sorter less m).trans (perm.trans (sorted_perm sorter less l).symm))
  intro a b first second notAfter notBefore
  have inFirst := perm.mem_iff.mp ((sorted_perm sorter less m).mem_iff.mp first)
  have inSecond := (sorted_perm sorter less l).mem_iff.mp second
  exact apart a inFirst b inSecond notBefore notAfter

end

/-- Merge sort by a strict weak order. -/
theorem mergeSort_pairwise {α : Type u} {less : α → α → Bool} (orders : IsStrictWeakOrder α (fun a b => less a b = true))
    (l : List α) : (l.mergeSort (fun a b => !less b a)).Pairwise (fun a b => less b a = false) := by
  have asym {a b : α} (before : less a b = true) : less b a = false :=
    Bool.eq_false_iff.mpr (fun after => orders.irrefl a (orders.trans a b a before after))
  have trans (a b c : α) (first : less b a = false) (second : less c b = false) : less c a = false := by
    refine Bool.eq_false_iff.mpr (fun after => ?_)
    -- one of the two pairs is told apart, as otherwise `a` and `c` would not be
    by_cases before : less a b = true
    · rw [orders.trans c a b after before] at second
      cases second
    · by_cases before' : less b c = true
      · rw [orders.trans b c a before' after] at first
        cases first
      · have alike := orders.incomp_trans a b c ⟨before,by simp [first]⟩ ⟨before',by simp [second]⟩
        exact alike.2 after
  have sorted := @List.pairwise_mergeSort _ (fun a b => !less b a) (by simpa using trans) (by
    intro a b
    by_cases before : less a b = true
    · simp [asym before]
    · simp [before]) l
  simpa using sorted

/-- Merge sort, which keeps the order of elements that are not told apart. -/
def mergeSorter : Sorter where
  order n less := (List.finRange n).mergeSort (fun i j => !less j i)
  perm _ _ := List.mergeSort_perm ..
  sorts _ _ orders := mergeSort_pairwise orders _

theorem sorted_mergeSorter {α : Type u} (less : α → α → Bool) (l : List α) :
    mergeSorter.sorted less l = l.mergeSort (fun a b => !less b a) := by
  have merged := @List.map_mergeSort _ _ (fun i j : Fin l.length => !less (l.get j) (l.get i)) (fun a b => !less b a) l.get
    (List.finRange l.length) (fun _ _ _ _ => rfl)
  rwa [List.map_get_finRange] at merged

end Zasper.Sorting
