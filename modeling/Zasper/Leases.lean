import Mathlib.Data.List.Nodup
import Zasper.Maps

/-!
# Leases

Tables in which holders stand under keys: a holder takes a key when it comes and gives
it back when it goes. While no two holders have one key, the table lists exactly the
holders (`Agrees`); where two of them have, it lists no others still (`Within`).
-/
namespace Zasper.Leases
open Zasper.Maps
set_option linter.unusedSimpArgs false
universe u v

section
variable {Key : Type u} {Item : Type v} [LinearOrder Key]

/-- The table lists nobody but the holders. -/
def Within (table : Dict Key Item) (holders : List (Key × Item)) : Prop := ∀ e ∈ table.entries, e ∈ holders

/-- The table lists the holders, each under a key of its own. -/
structure Agrees (table : Dict Key Item) (holders : List (Key × Item)) : Prop where
  listed : ∀ e, e ∈ table.entries ↔ e ∈ holders
  once : (holders.map Prod.fst).Nodup

theorem within_empty : Within (.empty : Dict Key Item) [] := fun _ inside => inside

theorem agrees_empty : Agrees (.empty : Dict Key Item) [] := ⟨fun _ => Iff.rfl,List.nodup_nil⟩

variable {table : Dict Key Item} {holders : List (Key × Item)} {key : Key} {item : Item}

theorem Within.take (within : Within table holders) (key : Key) (item : Item) :
    Within (table.insert key item) (holders ++ [(key,item)]) := by
  intro e inside
  rcases Dict.mem_insert.mp inside with new | old
  · exact List.mem_append_right _ (by simp [new])
  · exact List.mem_append_left _ (within e old.1)

/-- Who goes takes its key along, whoever stands under it. -/
theorem Within.giveBack (within : Within table holders) {n : Nat} (holder : holders[n]? = some (key,item)) :
    Within (table.erase key) (holders.eraseIdx n) := by
  intro e inside
  obtain ⟨old,other⟩ := Dict.mem_erase.mp inside
  obtain ⟨i,there⟩ := List.mem_iff_getElem?.mp (within e old)
  rw [List.mem_eraseIdx_iff_getElem?]
  refine ⟨i,?_,there⟩
  rintro rfl
  rw [holder] at there
  exact other (congrArg Prod.fst (Option.some.inj there)).symm

theorem Agrees.take (agrees : Agrees table holders) (fresh : ∀ e ∈ holders, e.1 ≠ key) (item : Item) :
    Agrees (table.insert key item) (holders ++ [(key,item)]) := by
  refine ⟨fun e => ?_,?_⟩
  · rw [Dict.mem_insert,List.mem_append,List.mem_singleton]
    constructor
    · rintro (new | old)
      · exact .inr new
      · exact .inl ((agrees.listed e).mp old.1)
    · rintro (old | new)
      · exact .inr ⟨(agrees.listed e).mpr old,fresh e old⟩
      · exact .inl new
  · rw [List.map_append,List.nodup_append]
    refine ⟨agrees.once,by simp,?_⟩
    intro k there other last same
    obtain ⟨e,inside,rfl⟩ := List.mem_map.mp there
    exact fresh e inside (same.trans (by simpa using last))

/-- Only who comes with a key of its own is listed beside all others. -/
theorem Agrees.fresh (agrees : Agrees (table.insert key item) (holders ++ [(key,item)])) : ∀ e ∈ holders, e.1 ≠ key := by
  intro e inside same
  have once := agrees.once
  rw [List.map_append,List.nodup_append] at once
  exact once.2.2 e.1 (List.mem_map_of_mem inside) key (by simp) same

theorem Agrees.giveBack (agrees : Agrees table holders) {n : Nat} (holder : holders[n]? = some (key,item)) :
    Agrees (table.erase key) (holders.eraseIdx n) := by
  have once : ((holders.eraseIdx n).map Prod.fst).Nodup := agrees.once.sublist ((List.eraseIdx_sublist ..).map _)
  refine ⟨fun e => ?_,once⟩
  constructor
  · exact Within.giveBack (fun e inside => (agrees.listed e).mp inside) holder e
  · intro inside
    obtain ⟨i,other,there⟩ := List.mem_eraseIdx_iff_getElem?.mp inside
    refine Dict.mem_erase.mpr ⟨(agrees.listed e).mpr (List.mem_of_getElem? there),?_⟩
    intro same
    have first : (holders.map Prod.fst)[i]? = some key := by rw [List.getElem?_map,there,← same]; rfl
    have second : (holders.map Prod.fst)[n]? = some key := by rw [List.getElem?_map,holder]; rfl
    obtain ⟨bound,-⟩ := List.getElem?_eq_some_iff.mp first
    exact other ((List.getElem?_inj bound agrees.once).mp (first.trans second.symm))

end
end Zasper.Leases
