import Mathlib.Data.List.Basic
import Mathlib.Logic.Function.Basic
import Mathlib.Logic.Relation

/-!
# Handing over

Sources take items in, one at a time, and hand them to a single sink that delivers
them: two parties meet for each handover, nothing is stored in between. What a source
took in is at any time what was delivered from it, what the sink holds from it and
what it still offers (`conserved_of_steps`): no item is lost, doubled or overtaken.
-/
namespace Zasper.Handover
set_option linter.unusedSimpArgs false
universe u v

section
variable {Source : Type u} {Item : Type v} [DecidableEq Source]

@[ext] structure State (Source : Type u) (Item : Type v) where
  /-- What each source took in so far. -/
  supplied : Source → List Item
  offered : Source → Option Item
  /-- What the sink took from a source and has not delivered. -/
  taken : Option (Source × Item)
  delivered : List (Source × Item)

def State.empty : State Source Item := ⟨fun _ => [],fun _ => none,none,[]⟩

inductive Step : State Source Item → State Source Item → Prop
  | supply {s : State Source Item} {src : Source} (item : Item) (free : s.offered src = none) :
      Step s
        { s with
          supplied := Function.update s.supplied src (s.supplied src ++ [item])
          offered := Function.update s.offered src (some item) }
  | hand {s : State Source Item} {src : Source} {item : Item} (offers : s.offered src = some item)
      (free : s.taken = none) :
      Step s { s with offered := Function.update s.offered src none, taken := some (src,item) }
  | deliver {s : State Source Item} {held : Source × Item} (takes : s.taken = some held) :
      Step s { s with taken := none, delivered := s.delivered ++ [held] }

/-- The items that came from a source. -/
def ofSource (src : Source) (items : List (Source × Item)) : List Item :=
  (items.filter (fun e => e.1 = src)).map (·.2)

@[simp] theorem ofSource_nil (src : Source) : ofSource src ([] : List (Source × Item)) = [] := rfl

theorem ofSource_append (src : Source) (first second : List (Source × Item)) :
    ofSource src (first ++ second) = ofSource src first ++ ofSource src second := by
  simp [ofSource]

theorem ofSource_other {src : Source} {e : Source × Item} (other : e.1 ≠ src) : ofSource src [e] = [] := by
  simp [ofSource,other]

@[simp] theorem ofSource_same (src : Source) (item : Item) : ofSource src [(src,item)] = [item] := by
  simp [ofSource]

/-- Every item is at one place, and the items of a source are in their order. -/
def Conserved (s : State Source Item) : Prop := ∀ src,
  ofSource src s.delivered ++ ofSource src s.taken.toList ++ (s.offered src).toList = s.supplied src

theorem conserved_empty : Conserved (State.empty : State Source Item) := fun _ => rfl

theorem Step.conserved {s t : State Source Item} (step : Step s t) (before : Conserved s) : Conserved t := by
  intro other
  have here := before other
  cases step with
  | @supply src item free =>
    by_cases same : other = src
    · subst same
      rw [free] at here
      simp only [Function.update_self,Option.toList_some,← here,Option.toList_none,List.append_nil]
    · simpa only [Function.update_of_ne same] using here
  | @hand src item offers free =>
    simp only [free,Option.toList_none,ofSource_nil,List.append_nil] at here
    by_cases same : other = src
    · subst same
      simpa only [Option.toList_some,ofSource_same,Function.update_self,offers,Option.toList_none,List.append_nil]
        using here
    · simpa only [Option.toList_some,ofSource_other (e := (src,item)) (Ne.symm same),List.append_nil,
        Function.update_of_ne same] using here
  | @deliver held takes =>
    rw [takes] at here
    simpa only [Option.toList_none,ofSource_nil,List.append_nil,ofSource_append,Option.toList_some] using here

theorem conserved_of_steps {s : State Source Item} (steps : Relation.ReflTransGen Step State.empty s) :
    Conserved s := by
  induction steps with
  | refl => exact conserved_empty
  | tail _ step ih => exact step.conserved ih

end
end Zasper.Handover
